import GNL.Semantics.Locking
import Mathlib.Data.Fintype.EquivFin

/-! # The mutexes of the queues (`NetQueue.h`, `NetTCPConnection.h`)

What each function does to the two mutexes of a queue. A push takes `m_muxBlock`
under `m_muxQueue`, `clear` may destroy connections, and with each of them clear
its outgoing queue, under the `m_muxQueue` of the queue that held them, and a wait
takes the two by turns. One order of the mutexes has all of it go up.
-/

namespace GNL

/-- The queues there are: those of owned packets, an element of which may hold the
last pointer to a connection, and those of packets alone, such as `m_PktOut`. -/
inductive QueueRef (Receiver Sender : Type)
  | ofOwnedPackets (receiver : Receiver)
  | ofPackets (sender : Sender)
  deriving DecidableEq

inductive QueueMutex (Receiver Sender : Type)
  | m_muxQueue (queue : QueueRef Receiver Sender)
  | m_muxBlock (queue : QueueRef Receiver Sender)
  deriving DecidableEq

abbrev QueueCode (Receiver Sender : Type) := LockCode (QueueMutex Receiver Sender)

namespace NetQueue

variable {Receiver Sender : Type}

/-- A body under `scoped_lock lock(m_muxQueue)` that takes no other mutex. -/
def underQueue (queue : QueueRef Receiver Sender) : QueueCode Receiver Sender :=
  .locked (.m_muxQueue queue) .skip

/-- A body under `m_muxQueue` and, inside it, `m_muxBlock`. -/
def underBoth (queue : QueueRef Receiver Sender) : QueueCode Receiver Sender :=
  .locked (.m_muxQueue queue) (.locked (.m_muxBlock queue) .skip)

section Functions

variable (queue : QueueRef Receiver Sender)

def get_front : QueueCode Receiver Sender := underQueue queue

def get_back : QueueCode Receiver Sender := underQueue queue

/-- The element is moved out before its place in the deque is destroyed, so no
pointer to a connection is given up under the mutex. -/
def pop_front : QueueCode Receiver Sender := underQueue queue

def pop_back : QueueCode Receiver Sender := underQueue queue

def push_back : QueueCode Receiver Sender := underBoth queue

def push_front : QueueCode Receiver Sender := underBoth queue

def is_empty : QueueCode Receiver Sender := underQueue queue

def get_count : QueueCode Receiver Sender := underQueue queue

def destroyConnection (sender : Sender) : QueueCode Receiver Sender :=
  underQueue (.ofPackets sender)

/-- `clear`, and `~NetQueue`, which calls it. `released` are the connections of which
the elements hold the last pointers. -/
def clear (released : List Sender) : QueueCode Receiver Sender :=
  match queue with
  | .ofPackets _ => underQueue queue
  | .ofOwnedPackets _ =>
      .locked (.m_muxQueue queue)
        (released.foldr (fun sender rest => .seq (destroyConnection sender) rest) .skip)

def wait : QueueCode Receiver Sender :=
  .seq (is_empty queue)
    (.loop (.seq (.locked (.m_muxBlock queue) (.wait (.m_muxBlock queue))) (is_empty queue)))

def GetQMutex : QueueMutex Receiver Sender := .m_muxQueue queue

end Functions

def writePacket (sender : Sender) : QueueCode Receiver Sender :=
  .seq (is_empty (.ofPackets sender))
    (.seq (push_back (.ofPackets sender)) (.either (get_front (.ofPackets sender)) .skip))

/-- `TCPConnection::SendPacket`. What `asio::post` does with a lambda in the thread
that calls it is given by `post`. -/
def SendPacket (post : QueueCode Receiver Sender → QueueCode Receiver Sender) (sender : Sender) :
    QueueCode Receiver Sender :=
  .locked (GetQMutex (.ofPackets sender)) (post (writePacket sender))

inductive Operation (Receiver Sender : Type)
  | get_front (queue : QueueRef Receiver Sender)
  | get_back (queue : QueueRef Receiver Sender)
  | pop_front (queue : QueueRef Receiver Sender)
  | pop_back (queue : QueueRef Receiver Sender)
  | push_back (queue : QueueRef Receiver Sender)
  | push_front (queue : QueueRef Receiver Sender)
  | is_empty (queue : QueueRef Receiver Sender)
  | get_count (queue : QueueRef Receiver Sender)
  | clear (queue : QueueRef Receiver Sender) (released : List Sender)
  | wait (queue : QueueRef Receiver Sender)
  | SendPacket (sender : Sender)
  | writePacket (sender : Sender)

def Operation.code (post : QueueCode Receiver Sender → QueueCode Receiver Sender) :
    Operation Receiver Sender → QueueCode Receiver Sender
  | get_front queue => NetQueue.get_front queue
  | get_back queue => NetQueue.get_back queue
  | pop_front queue => NetQueue.pop_front queue
  | pop_back queue => NetQueue.pop_back queue
  | push_back queue => NetQueue.push_back queue
  | push_front queue => NetQueue.push_front queue
  | is_empty queue => NetQueue.is_empty queue
  | get_count queue => NetQueue.get_count queue
  | clear queue released => NetQueue.clear queue released
  | wait queue => NetQueue.wait queue
  | SendPacket sender => NetQueue.SendPacket post sender
  | writePacket sender => NetQueue.writePacket sender

/-- The order in which mutexes are taken: of queues that hold connections, then of
the others, then those that a wait gives up. -/
def rank : QueueMutex Receiver Sender → Fin 3
  | .m_muxQueue (.ofOwnedPackets _) => 0
  | .m_muxQueue (.ofPackets _) => 1
  | .m_muxBlock _ => 2

theorem rank_m_muxQueue_lt (queue other : QueueRef Receiver Sender) :
    rank (.m_muxQueue queue) < rank (.m_muxBlock other) := by
  cases queue with
  | ofOwnedPackets receiver => exact (by decide : (0 : Fin 3) < 2)
  | ofPackets sender => exact (by decide : (1 : Fin 3) < 2)

theorem above_nil (mutex : QueueMutex Receiver Sender) : Above rank mutex [] :=
  fun _ member => absurd member List.not_mem_nil

theorem above_singleton {mutex other : QueueMutex Receiver Sender}
    (lower : rank other < rank mutex) : Above rank mutex [other] := by
  intro held member
  rw [List.mem_singleton] at member
  subst member
  exact lower

theorem ascends_underQueue (queue : QueueRef Receiver Sender) :
    (underQueue queue).Ascends rank [] :=
  ⟨above_nil _, trivial⟩

theorem ascends_underBoth (queue : QueueRef Receiver Sender) :
    (underBoth queue).Ascends rank [] :=
  ⟨above_nil _, above_singleton (rank_m_muxQueue_lt queue queue), trivial⟩

theorem ascends_clear (queue : QueueRef Receiver Sender) (released : List Sender) :
    (clear queue released).Ascends rank [] := by
  cases queue with
  | ofPackets sender => exact ascends_underQueue _
  | ofOwnedPackets receiver =>
      refine ⟨above_nil _, ?_⟩
      induction released with
      | nil => trivial
      | cons sender rest induction =>
          exact ⟨⟨above_singleton (by decide : (0 : Fin 3) < 1), trivial⟩, induction⟩

theorem ascends_wait (queue : QueueRef Receiver Sender) : (wait queue).Ascends rank [] :=
  ⟨ascends_underQueue queue, ⟨above_nil _, [], rfl, above_nil _⟩, ascends_underQueue queue⟩

theorem ascends_code {post : QueueCode Receiver Sender → QueueCode Receiver Sender}
    (deferred : ∀ code, post code = .skip)
    (operation : Operation Receiver Sender) : (operation.code post).Ascends rank [] := by
  cases operation with
  | push_back queue => exact ascends_underBoth queue
  | push_front queue => exact ascends_underBoth queue
  | clear queue released => exact ascends_clear queue released
  | wait queue => exact ascends_wait queue
  | SendPacket sender =>
      rw [Operation.code, SendPacket, deferred]
      exact ascends_underQueue (.ofPackets sender)
  | writePacket sender =>
      exact ⟨ascends_underQueue _, ascends_underBoth _, ascends_underQueue _, trivial⟩
  | _ => exact ascends_underQueue _

variable {Thread : Type} [DecidableEq Thread] [DecidableEq Receiver] [DecidableEq Sender]

/-- Whatever queues there are and whatever operations threads run on them, no state of
any run has a cycle of threads that each wait for a mutex the next one holds. A thread
that holds an `m_muxBlock`, as one that has returned from a wait does, is not about to
take an `m_muxQueue`, and no thread is about to take what it holds. -/
theorem no_deadlock {post : QueueCode Receiver Sender → QueueCode Receiver Sender}
    (deferred : ∀ code, post code = .skip)
    {actions : List (Locks.Action Thread (Operation Receiver Sender))}
    {locks : Locks Thread (QueueMutex Receiver Sender)}
    (trace : Trace (Locks.Step (Operation.code post)) Locks.start actions locks) :
    ¬locks.Deadlocked ∧
      (∀ thread queue other, locks.owner (.m_muxBlock queue) = some thread →
        locks.request thread ≠ some (.m_muxQueue other)) ∧
      ∀ thread mutex, locks.request thread = some mutex → locks.owner mutex ≠ some thread := by
  have orderly := Locks.orderly_of_trace (ascends_code deferred) trace
  refine ⟨orderly.not_deadlocked, ?_, fun _ _ => orderly.not_own⟩
  intro thread queue other owner request
  have upwards := orderly.above request owner
  exact absurd (rank_m_muxQueue_lt other queue) upwards.asymm

theorem no_deadlock_wait_and_push :
    let post : QueueCode Nat Nat → QueueCode Nat Nat := fun _ => .skip
    let queue : QueueRef Nat Nat := .ofOwnedPackets 0
    let actions : List (Locks.Action Nat (Operation Nat Nat)) :=
      [.call 0 (.wait queue), .move 0, .move 0, .move 0, .move 0, .move 0, .move 0, .move 0,
        .move 0, .call 1 (.push_back queue), .move 1, .move 1, .move 0]
    ∃ locks : Locks Nat (QueueMutex Nat Nat),
      Trace (Locks.Step (Operation.code post)) Locks.start actions locks ∧
      locks.WaitsFor 0 1 ∧ ¬locks.Deadlocked ∧
      ∀ thread mutex, locks.request thread = some mutex → locks.owner mutex ≠ some thread := by
  intro post queue actions
  have waits : ∃ locks : Locks Nat (QueueMutex Nat Nat),
      Trace (Locks.Step (Operation.code post)) Locks.start actions locks ∧
        locks.WaitsFor 0 1 :=
    ⟨_, .cons (.call rfl) (.cons (.advance .seq) (.cons (.take .locked rfl)
      (.cons (.advance .skip) (.cons (.give .unlock) (.cons (.advance .turn)
      (.cons (.advance .seq) (.cons (.take .locked rfl) (.cons (.give .wait)
      (.cons (.call rfl) (.cons (.take .locked rfl) (.cons (.take .locked rfl)
      (.cons (.advance .wake) (.nil _))))))))))))), .m_muxBlock queue, rfl, rfl⟩
  rcases waits with ⟨locks, trace, waitsFor⟩
  rcases no_deadlock (fun _ => rfl) trace with ⟨notDeadlocked, -, notOwn⟩
  exact ⟨locks, trace, waitsFor, notDeadlocked, notOwn⟩

/-- As long as a thread has something left to do, some thread can go on. -/
theorem some_thread_moves {post : QueueCode Receiver Sender → QueueCode Receiver Sender}
    (deferred : ∀ code, post code = .skip)
    {actions : List (Locks.Action Thread (Operation Receiver Sender))}
    {locks : Locks Thread (QueueMutex Receiver Sender)}
    (trace : Trace (Locks.Step (Operation.code post)) Locks.start actions locks)
    {thread : Thread} (busy : locks.tasks thread ≠ []) :
    ∃ other next, Locks.Step (Operation.code post) locks (.move other) next :=
  (Locks.orderly_of_trace (ascends_code deferred) trace).exists_move _ busy

/-- Were the lambda run by the thread that posts it, that thread would wait for itself. -/
theorem inline_post_deadlocks (thread : Thread) (sender : Sender) :
    ∃ (actions : List (Locks.Action Thread (Operation Receiver Sender)))
      (locks : Locks Thread (QueueMutex Receiver Sender)),
      Trace (Locks.Step (Operation.code fun code => code)) Locks.start actions locks ∧
        locks.Deadlocked := by
  let mutex : QueueMutex Receiver Sender := .m_muxQueue (.ofPackets sender)
  let called : Locks Thread (QueueMutex Receiver Sender) :=
    Locks.start.doing thread [.run (SendPacket (fun code => code) sender)]
  let held := (called.doing thread [.run (writePacket sender), .unlock mutex]).owned mutex thread
  let tested := held.doing thread [.run (is_empty (.ofPackets sender)),
    .run (.seq (push_back (.ofPackets sender)) (.either (get_front (.ofPackets sender)) .skip)),
    .unlock mutex]
  have takes : Task.Takes mutex (called.tasks thread)
      [.run (writePacket sender), .unlock mutex] := by
    rw [Locks.tasks_doing]
    exact .locked
  have advances : Task.Advances (held.tasks thread) (tested.tasks thread) := by
    rw [Locks.tasks_doing, Locks.tasks_owned, Locks.tasks_doing]
    exact .seq
  rw [Locks.tasks_doing] at advances
  refine ⟨[.call thread (.SendPacket sender), .move thread, .move thread], tested,
    .cons (.call rfl) (.cons (.take takes rfl) (.cons (.advance advances) (.nil _))), thread,
    .single ⟨mutex, ?_, ?_⟩⟩
  · rw [Locks.request, Locks.tasks_doing]
    rfl
  · exact Locks.owner_owned _ mutex (some thread)

end NetQueue

end GNL
