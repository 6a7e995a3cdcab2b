import GNL.Common.NetPacket
import GNL.Common.NetQueueWait

/-! # Handing packets to `OnPacket` (`ServerApp::Process`)

Connections push what they read at the back of `m_TCP_PktIn`, and one thread calls
`Process`, which waits, tests and pops under separate locks. Pushes go on between any
two of its steps.
-/

namespace GNL

namespace NetQueueWait

/-- The steps of `PushToIncomingQueue`: a connection pushes what it read, at the back
and with itself as the owner. -/
def Action.Pushes : Action ConnRef (OwnedPacket CMD) → Prop
  | .lockQueue conn front owned => front = false ∧ owned.connectionPtr = some conn
  | .lockBlock _ | .insert _ | .notify_one _ | .unlock _ => True
  | _ => False

def Action.Waits : Action ConnRef (OwnedPacket CMD) → Prop
  | .testEmpty | .blockConsumer | .sleep | .wakeSpuriously | .relock | .releaseBlock => True
  | _ => False

def insertedBy (state : State ConnRef (OwnedPacket CMD)) :
    Action ConnRef (OwnedPacket CMD) → List (ConnRef × Packet CMD)
  | .insert conn =>
      match state.push conn with
      | .holdsBoth _ owned => [(conn, owned.pkt)]
      | _ => []
  | _ => []

def PushAt.item : PushAt T → Option (Bool × T)
  | .holdsQueue front item => some (front, item)
  | .holdsBoth front item => some (front, item)
  | _ => none

def ownedPacket (arrival : ConnRef × Packet CMD) : OwnedPacket CMD := ⟨some arrival.1, arrival.2⟩

def Backed (state : State ConnRef (OwnedPacket CMD)) : Prop :=
  ∀ conn front owned, (state.push conn).item = some (front, owned) →
    front = false ∧ owned.connectionPtr = some conn

section Steps

variable {state next : State ConnRef (OwnedPacket CMD)}
  {action : Action ConnRef (OwnedPacket CMD)}

theorem Backed.move (backed : Backed state) {conn : ConnRef}
    {place : PushAt (OwnedPacket CMD)} (moved : next.push = (state.at conn place).push)
    (isOwn : ∀ front owned, place.item = some (front, owned) →
      front = false ∧ owned.connectionPtr = some conn) : Backed next := by
  intro other front owned item
  rw [moved] at item
  by_cases same : other = conn
  · subst same
    rw [at_push_self] at item
    exact isOwn front owned item
  · rw [at_push_of_ne _ _ same] at item
    exact backed other front owned item

theorem Backed.push (backed : Backed state) (pushes : action.Pushes)
    (step : Step state action next) : Backed next := by
  cases step with
  | lockQueue at_ free =>
      refine backed.move rfl fun front owned item => ?_
      cases item
      exact pushes
  | @lockBlock conn front owned at_ free =>
      have item : (state.push conn).item = some (front, owned) := by
        rw [at_]
        rfl
      refine backed.move rfl fun front owned same => ?_
      cases same
      exact backed conn _ _ item
  | insert at_ => exact backed.move rfl (by simp [PushAt.item])
  | notify_one at_ => exact backed.move rfl (by simp [PushAt.item])
  | unlock at_ => exact backed.move rfl (by simp [PushAt.item])
  | _ => exact absurd pushes id

theorem m_deqQueue_of_push (backed : Backed state) (pushes : action.Pushes)
    (step : Step state action next) :
    next.m_deqQueue = state.m_deqQueue ++ (insertedBy state action).map ownedPacket := by
  cases step with
  | lockQueue => exact (List.append_nil _).symm
  | lockBlock => exact (List.append_nil _).symm
  | @insert conn front owned at_ =>
      have item : (state.push conn).item = some (front, owned) := by
        rw [at_]
        rfl
      rcases backed conn front owned item with ⟨rfl, isOwner⟩
      rcases owned with ⟨owner, pkt⟩
      cases isOwner
      simp only [insertedBy, at_]
      rfl
  | notify_one => exact (List.append_nil _).symm
  | unlock => exact (List.append_nil _).symm
  | _ => exact absurd pushes id

theorem wait_of_push (pushes : action.Pushes) (step : Step state action next) :
    next.wait = .outside ↔ state.wait = .outside := by
  cases step with
  | lockQueue => rfl
  | lockBlock => rfl
  | insert => rfl
  | notify_one at_ =>
      by_cases asleep : state.wait = .asleep
      · simp [asleep]
      · simp [asleep]
  | unlock => rfl
  | _ => exact absurd pushes id

theorem wait_spec (waits : action.Waits) (step : Step state action next) :
    next.push = state.push ∧ next.m_deqQueue = state.m_deqQueue ∧
      (next.wait = .outside → next.m_deqQueue ≠ []) := by
  cases step with
  | testEmpty at_ free =>
      refine ⟨rfl, rfl, fun returned isEmpty => ?_⟩
      have isEmpty : state.m_deqQueue = [] := isEmpty
      simp [isEmpty] at returned
  | blockConsumer => exact ⟨rfl, rfl, nofun⟩
  | sleep => exact ⟨rfl, rfl, nofun⟩
  | wakeSpuriously => exact ⟨rfl, rfl, nofun⟩
  | relock => exact ⟨rfl, rfl, nofun⟩
  | releaseBlock => exact ⟨rfl, rfl, nofun⟩
  | _ => exact absurd waits id

end Steps

end NetQueueWait

structure ProcessCall where
  max_pkt : UInt64
  wait : Bool
  handled : Nat
  deriving DecidableEq

inductive ProcessAt
  | outside
  /-- In `m_TCP_PktIn.wait()`. -/
  | waiting
  /-- Before `nMessageCount < max_pkt`. -/
  | comparing
  /-- Before `m_TCP_PktIn.is_empty()`. -/
  | testing
  /-- Before `m_TCP_PktIn.pop_front()`. -/
  | popping
  /-- Before `OnPacket`. -/
  | popped (owned : OwnedPacket CMD)
  | handling
  deriving DecidableEq

/-- `m_TCP_PktIn` with the thread that calls `Process`. `pushed` and `handled` record
what was inserted and what `OnPacket` was called with, `returned` the calls of
`Process` that have returned, and `poppedEmpty` whether `pop_front` was applied to an
empty deque. -/
structure Dispatcher where
  m_TCP_PktIn : NetQueueWait.State ConnRef (OwnedPacket CMD)
  place : ProcessAt
  call : ProcessCall
  nMessageCount : UInt64
  pushed : List (ConnRef × Packet CMD)
  handled : List (OwnedPacket CMD)
  returned : List ProcessCall
  poppedEmpty : Bool

namespace Dispatcher

open NetQueueWait

def start : Dispatcher where
  m_TCP_PktIn := NetQueueWait.start
  place := .outside
  call := ⟨0, false, 0⟩
  nMessageCount := 0
  pushed := []
  handled := []
  returned := []
  poppedEmpty := false

inductive Action
  | queue (action : NetQueueWait.Action ConnRef (OwnedPacket CMD))
  | Process (max_pkt : UInt64) (wait : Bool)
  | waited
  | compare
  | is_empty
  | pop_front
  | OnPacket
  | count
  | throw
  deriving DecidableEq

def returns (dispatcher : Dispatcher) : Dispatcher :=
  { dispatcher with place := .outside, returned := dispatcher.returned ++ [dispatcher.call] }

def calls (dispatcher : Dispatcher) (max_pkt : UInt64) (wait : Bool) (place : ProcessAt) :
    Dispatcher :=
  { dispatcher with place := place, call := ⟨max_pkt, wait, 0⟩, nMessageCount := 0 }

inductive Step (dispatcher : Dispatcher) : Action → Dispatcher → Prop
  | push {action : NetQueueWait.Action ConnRef (OwnedPacket CMD)}
      {queue : NetQueueWait.State ConnRef (OwnedPacket CMD)} (pushes : action.Pushes)
      (step : NetQueueWait.Step dispatcher.m_TCP_PktIn action queue) :
      Step dispatcher (.queue action)
        { dispatcher with
          m_TCP_PktIn := queue
          pushed := dispatcher.pushed ++ insertedBy dispatcher.m_TCP_PktIn action }
  | Process {max_pkt : UInt64} (at_ : dispatcher.place = .outside) :
      Step dispatcher (.Process max_pkt false) (dispatcher.calls max_pkt false .comparing)
  | ProcessWait {max_pkt : UInt64} {queue : NetQueueWait.State ConnRef (OwnedPacket CMD)}
      (at_ : dispatcher.place = .outside)
      (step : NetQueueWait.Step dispatcher.m_TCP_PktIn .callWait queue) :
      Step dispatcher (.Process max_pkt true)
        { dispatcher.calls max_pkt true .waiting with m_TCP_PktIn := queue }
  | wait {action : NetQueueWait.Action ConnRef (OwnedPacket CMD)}
      {queue : NetQueueWait.State ConnRef (OwnedPacket CMD)}
      (at_ : dispatcher.place = .waiting) (waits : action.Waits)
      (step : NetQueueWait.Step dispatcher.m_TCP_PktIn action queue) :
      Step dispatcher (.queue action) { dispatcher with m_TCP_PktIn := queue }
  | waited (at_ : dispatcher.place = .waiting)
      (returned : dispatcher.m_TCP_PktIn.wait = .outside) :
      Step dispatcher .waited { dispatcher with place := .comparing }
  | compare (at_ : dispatcher.place = .comparing) :
      Step dispatcher .compare
        (if dispatcher.nMessageCount < dispatcher.call.max_pkt then
          { dispatcher with place := .testing }
        else dispatcher.returns)
  | is_empty (at_ : dispatcher.place = .testing)
      (free : dispatcher.m_TCP_PktIn.m_muxQueue = none) :
      Step dispatcher .is_empty
        (if dispatcher.m_TCP_PktIn.m_deqQueue.isEmpty then dispatcher.returns
        else { dispatcher with place := .popping })
  | pop_front {owned : OwnedPacket CMD} {rest : List (OwnedPacket CMD)}
      {queue : NetQueueWait.State ConnRef (OwnedPacket CMD)}
      (at_ : dispatcher.place = .popping)
      (front : dispatcher.m_TCP_PktIn.m_deqQueue = owned :: rest)
      (step : NetQueueWait.Step dispatcher.m_TCP_PktIn .pop_front queue) :
      Step dispatcher .pop_front
        { dispatcher with m_TCP_PktIn := queue, place := .popped owned }
  | pop_empty (at_ : dispatcher.place = .popping)
      (free : dispatcher.m_TCP_PktIn.m_muxQueue = none)
      (empty : dispatcher.m_TCP_PktIn.m_deqQueue = []) :
      Step dispatcher .pop_front { dispatcher with poppedEmpty := true }
  | OnPacket {owned : OwnedPacket CMD} (at_ : dispatcher.place = .popped owned) :
      Step dispatcher .OnPacket
        { dispatcher with
          place := .handling
          handled := dispatcher.handled ++ [owned]
          call.handled := dispatcher.call.handled + 1 }
  | count (at_ : dispatcher.place = .handling) :
      Step dispatcher .count
        { dispatcher with
          place := .comparing
          nMessageCount := dispatcher.nMessageCount + 1 }
  | throw (at_ : dispatcher.place = .handling) :
      -- What `OnPacket` throws leaves `Process` too.
      Step dispatcher .throw { dispatcher with place := .outside }

def inHand (dispatcher : Dispatcher) : List (OwnedPacket CMD) :=
  match dispatcher.place with
  | .popped owned => [owned]
  | _ => []

def arrivals (dispatcher : Dispatcher) : List (OwnedPacket CMD) :=
  dispatcher.pushed.map ownedPacket

def MustFind (dispatcher : Dispatcher) : Prop :=
  match dispatcher.place with
  | .waiting => dispatcher.m_TCP_PktIn.wait = .outside
  | .comparing | .testing => dispatcher.call.wait = true ∧ dispatcher.call.handled = 0
  | .popping => True
  | .outside | .popped _ | .handling => False

def Counted (dispatcher : Dispatcher) : Prop :=
  let handled := dispatcher.call.handled
  let max_pkt := dispatcher.call.max_pkt.toNat
  let nMessageCount := dispatcher.nMessageCount.toNat
  match dispatcher.place with
  | .outside => handled ≤ max_pkt
  | .waiting => handled = 0 ∧ nMessageCount = 0
  | .comparing => handled = nMessageCount ∧ handled ≤ max_pkt
  | .testing | .popping | .popped _ => handled = nMessageCount ∧ handled < max_pkt
  | .handling => handled = nMessageCount + 1 ∧ handled ≤ max_pkt

end Dispatcher

/-- What is promised of a call of `Process` that has returned. -/
def ProcessCall.Kept (call : ProcessCall) : Prop :=
  call.handled ≤ call.max_pkt.toNat ∧ (call.wait = true → 0 < call.max_pkt → 0 < call.handled)

namespace Dispatcher

open NetQueueWait

structure Invariant (dispatcher : Dispatcher) : Prop where
  backed : Backed dispatcher.m_TCP_PktIn
  fifo : dispatcher.arrivals =
    dispatcher.handled ++ dispatcher.inHand ++ dispatcher.m_TCP_PktIn.m_deqQueue
  finds : dispatcher.MustFind → dispatcher.m_TCP_PktIn.m_deqQueue ≠ []
  counted : dispatcher.Counted
  returned : ∀ call ∈ dispatcher.returned, call.Kept
  poppedEmpty : dispatcher.poppedEmpty = false

theorem invariant_start : start.Invariant where
  backed _ _ _ item := by cases item
  fifo := rfl
  finds must := must.elim
  counted := Nat.le_refl 0
  returned _ member := absurd member List.not_mem_nil
  poppedEmpty := rfl

section Steps

variable {dispatcher next : Dispatcher} {action : Action}

theorem Invariant.backed_step (invariant : dispatcher.Invariant)
    (step : Step dispatcher action next) : Backed next.m_TCP_PktIn := by
  cases step with
  | push pushes step => exact invariant.backed.push pushes step
  | ProcessWait at_ step =>
      cases step
      exact invariant.backed
  | wait at_ waits step =>
      intro conn front owned item
      rw [(wait_spec waits step).1] at item
      exact invariant.backed conn front owned item
  | pop_front at_ front step =>
      cases step
      exact invariant.backed
  | compare at_ =>
      split
      · exact invariant.backed
      · exact invariant.backed
  | is_empty at_ free =>
      split
      · exact invariant.backed
      · exact invariant.backed
  | _ => exact invariant.backed

theorem Invariant.fifo_of (invariant : dispatcher.Invariant)
    (pushed : next.pushed = dispatcher.pushed)
    (moves : next.handled ++ next.inHand ++ next.m_TCP_PktIn.m_deqQueue =
      dispatcher.handled ++ dispatcher.inHand ++ dispatcher.m_TCP_PktIn.m_deqQueue) :
    next.arrivals = next.handled ++ next.inHand ++ next.m_TCP_PktIn.m_deqQueue := by
  rw [moves, ← invariant.fifo, arrivals, pushed, arrivals]

theorem Invariant.fifo_step (invariant : dispatcher.Invariant)
    (step : Step dispatcher action next) :
    next.arrivals = next.handled ++ next.inHand ++ next.m_TCP_PktIn.m_deqQueue := by
  cases step with
  | @push action queue pushes step =>
      rw [m_deqQueue_of_push invariant.backed pushes step, ← List.append_assoc]
      calc (dispatcher.pushed ++ insertedBy dispatcher.m_TCP_PktIn action).map ownedPacket
          = dispatcher.arrivals ++ (insertedBy dispatcher.m_TCP_PktIn action).map ownedPacket :=
            List.map_append
        _ = _ := by rw [invariant.fifo]; rfl
  | Process at_ => exact invariant.fifo_of rfl (by simp [calls, inHand, at_])
  | ProcessWait at_ step =>
      cases step
      exact invariant.fifo_of rfl (by simp [calls, inHand, at_])
  | wait at_ waits step =>
      rw [(wait_spec waits step).2.1]
      exact invariant.fifo
  | waited at_ returned => exact invariant.fifo_of rfl (by simp [inHand, at_])
  | compare at_ =>
      split
      · exact invariant.fifo_of rfl (by simp [inHand, at_])
      · exact invariant.fifo_of rfl (by simp [returns, inHand, at_])
  | is_empty at_ free =>
      split
      · exact invariant.fifo_of rfl (by simp [returns, inHand, at_])
      · exact invariant.fifo_of rfl (by simp [inHand, at_])
  | pop_front at_ front step =>
      cases step with
      | pop_front outside free queue =>
          cases front.symm.trans queue
          exact invariant.fifo_of rfl (by simp [inHand, at_, front])
  | pop_empty at_ free empty => exact invariant.fifo
  | OnPacket at_ => exact invariant.fifo_of rfl (by simp [inHand, at_])
  | count at_ => exact invariant.fifo_of rfl (by simp [inHand, at_])
  | throw at_ => exact invariant.fifo_of rfl (by simp [inHand, at_])

theorem Invariant.finds_step (invariant : dispatcher.Invariant)
    (step : Step dispatcher action next) (must : next.MustFind) :
    next.m_TCP_PktIn.m_deqQueue ≠ [] := by
  have finds := invariant.finds
  cases step with
  | push pushes step =>
      simp only [MustFind, wait_of_push pushes step] at must
      rw [m_deqQueue_of_push invariant.backed pushes step]
      exact List.append_ne_nil_of_left_ne_nil (finds must) _
  | Process at_ => simp [MustFind, calls] at must
  | ProcessWait at_ step =>
      cases step
      simp [MustFind, calls] at must
  | wait at_ waits step =>
      simp only [MustFind, at_] at must
      exact (wait_spec waits step).2.2 must
  | waited at_ returned =>
      apply finds
      simpa only [MustFind, at_] using returned
  | compare at_ =>
      split at must
      next more =>
        rw [if_pos more]
        exact finds (by simpa only [MustFind, at_] using must)
      next => exact absurd must id
  | is_empty at_ free =>
      split at must
      · exact absurd must id
      next nonempty =>
        rw [if_neg nonempty]
        simpa using nonempty
  | pop_front at_ front step => exact absurd must id
  | pop_empty at_ free empty =>
      exact absurd empty (finds (by simp [MustFind, at_]))
  | OnPacket at_ => exact absurd must id
  | count at_ =>
      have counted := invariant.counted
      simp only [Counted, at_] at counted
      simp only [MustFind] at must
      omega
  | throw at_ => exact absurd must id

theorem Invariant.counted_step (invariant : dispatcher.Invariant)
    (step : Step dispatcher action next) : next.Counted := by
  have counted := invariant.counted
  cases step with
  | push pushes step => exact counted
  | Process at_ => exact ⟨rfl, Nat.zero_le _⟩
  | ProcessWait at_ step => exact ⟨rfl, rfl⟩
  | wait at_ waits step => exact counted
  | waited at_ returned =>
      simp only [Counted, at_] at counted ⊢
      omega
  | compare at_ =>
      simp only [Counted, at_] at counted
      split
      next more =>
        rw [UInt64.lt_iff_toNat_lt, ← counted.1] at more
        exact ⟨counted.1, more⟩
      next => exact counted.2
  | is_empty at_ free =>
      simp only [Counted, at_] at counted
      split
      · exact counted.2.le
      · exact counted
  | pop_front at_ front step =>
      simp only [Counted, at_] at counted
      exact counted
  | pop_empty at_ free empty => exact counted
  | OnPacket at_ =>
      simp only [Counted, at_] at counted ⊢
      omega
  | count at_ =>
      simp only [Counted, at_] at counted ⊢
      have bound := dispatcher.call.max_pkt.toNat_lt
      rw [UInt64.toNat_add, UInt64.toNat_one, Nat.mod_eq_of_lt (by omega)]
      omega
  | throw at_ =>
      simp only [Counted, at_] at counted ⊢
      omega

theorem Invariant.returned_step (invariant : dispatcher.Invariant)
    (step : Step dispatcher action next) : ∀ call ∈ next.returned, call.Kept := by
  have counted := invariant.counted
  have finds := invariant.finds
  have returns : dispatcher.call.Kept → ∀ call ∈ dispatcher.returns.returned, call.Kept := by
    intro kept call member
    rcases List.mem_append.mp member with before | isLast
    · exact invariant.returned call before
    · rw [List.mem_singleton.mp isLast]
      exact kept
  cases step with
  | compare at_ =>
      simp only [Counted, at_] at counted
      split
      next => exact invariant.returned
      next noMore =>
        rw [UInt64.lt_iff_toNat_lt] at noMore
        refine returns ⟨counted.2, fun _ some_ => ?_⟩
        rw [UInt64.lt_iff_toNat_lt] at some_
        omega
  | is_empty at_ free =>
      simp only [Counted, at_] at counted
      simp only [MustFind, at_] at finds
      split
      next isEmpty =>
        refine returns ⟨counted.2.le, fun waits _ => ?_⟩
        by_contra noneHandled
        exact finds ⟨waits, Nat.eq_zero_of_not_pos noneHandled⟩ (List.isEmpty_iff.mp isEmpty)
      next => exact invariant.returned
  | _ => exact invariant.returned

theorem Invariant.poppedEmpty_step (invariant : dispatcher.Invariant)
    (step : Step dispatcher action next) : next.poppedEmpty = false := by
  cases step with
  | compare at_ =>
      split
      · exact invariant.poppedEmpty
      · exact invariant.poppedEmpty
  | is_empty at_ free =>
      split
      · exact invariant.poppedEmpty
      · exact invariant.poppedEmpty
  | pop_empty at_ free empty => exact absurd empty (invariant.finds (by simp [MustFind, at_]))
  | _ => exact invariant.poppedEmpty

theorem Invariant.step (invariant : dispatcher.Invariant) (step : Step dispatcher action next) :
    next.Invariant where
  backed := invariant.backed_step step
  fifo := invariant.fifo_step step
  finds := invariant.finds_step step
  counted := invariant.counted_step step
  returned := invariant.returned_step step
  poppedEmpty := invariant.poppedEmpty_step step

end Steps

theorem Counted.handled_le {dispatcher : Dispatcher} (counted : dispatcher.Counted) :
    dispatcher.call.handled ≤ dispatcher.call.max_pkt.toNat := by
  unfold Counted at counted
  cases place : dispatcher.place with
  | outside => simpa only [place] using counted
  | _ =>
      simp only [place] at counted
      omega

/-- In every run the packets handled are the first that were pushed, in the order in
which they were pushed; nothing is popped from an empty queue, and every call of
`Process` keeps what it promises. -/
theorem handled_in_order {dispatcher : Dispatcher} {actions : List Action}
    (trace : Trace Step start actions dispatcher) :
    dispatcher.handled <+: dispatcher.arrivals ∧
    (∀ conn, (dispatcher.handled.filter (·.connectionPtr = some conn)).map (·.pkt) <+:
      (dispatcher.pushed.filter (·.1 = conn)).map Prod.snd) ∧
    dispatcher.arrivals =
      dispatcher.handled ++ dispatcher.inHand ++ dispatcher.m_TCP_PktIn.m_deqQueue ∧
    dispatcher.poppedEmpty = false ∧
    dispatcher.call.handled ≤ dispatcher.call.max_pkt.toNat ∧
    ∀ call ∈ dispatcher.returned, call.Kept := by
  have invariant : dispatcher.Invariant :=
    trace.invariant (fun _ _ _ invariant step => invariant.step step) invariant_start
  have inOrder : dispatcher.handled <+: dispatcher.arrivals := by
    rw [invariant.fifo, List.append_assoc]
    exact List.prefix_append _ _
  refine ⟨inOrder, ?_, invariant.fifo, invariant.poppedEmpty, invariant.counted.handled_le,
    invariant.returned⟩
  intro conn
  have ofConnection : (dispatcher.arrivals.filter (·.connectionPtr = some conn)).map (·.pkt) =
      (dispatcher.pushed.filter (·.1 = conn)).map Prod.snd := by
    rw [arrivals, List.filter_map, List.map_map]
    simp only [Function.comp_def, ownedPacket, Option.some.injEq]
  rw [← ofConnection]
  exact (inOrder.filter _).map _

theorem handled_in_order_one_waited_for :
    let ping : OwnedPacket CMD := ⟨some 0, default⟩
    let actions : List Action := [.Process 1 true, .queue .testEmpty, .queue .blockConsumer,
      .queue .sleep, .queue (.lockQueue 0 false ping), .queue (.lockBlock 0),
      .queue (.insert 0), .queue (.notify_one 0), .queue (.unlock 0), .queue .relock,
      .queue .releaseBlock, .queue .testEmpty, .waited, .compare, .is_empty, .pop_front,
      .OnPacket, .count, .compare]
    ∃ dispatcher, Trace Step start actions dispatcher ∧ dispatcher.handled = [ping] ∧
      dispatcher.returned = [⟨1, true, 1⟩] ∧ dispatcher.handled <+: dispatcher.arrivals ∧
      ∀ call ∈ dispatcher.returned, call.Kept := by
  intro ping actions
  have waits : ∃ dispatcher, Trace Step start (actions.take 4) dispatcher ∧
      dispatcher = { start.calls 1 true .waiting with
        m_TCP_PktIn := { NetQueueWait.start with wait := .asleep } } :=
    ⟨_, .cons (.ProcessWait rfl (.callWait rfl)) (.cons (.wait rfl trivial (.testEmpty rfl rfl))
      (.cons (.wait rfl trivial (.blockConsumer rfl rfl))
      (.cons (.wait rfl trivial (.sleep rfl)) (.nil _)))), rfl⟩
  have handles : ∃ dispatcher, Trace Step start actions dispatcher ∧
      dispatcher.handled = [ping] ∧ dispatcher.returned = [⟨1, true, 1⟩] := by
    rcases waits with ⟨asleep, before, rfl⟩
    refine ⟨_, before.append (.cons (.push ⟨rfl, rfl⟩ (.lockQueue rfl rfl))
      (.cons (.push trivial (.lockBlock rfl rfl)) (.cons (.push trivial (.insert rfl))
      (.cons (.push trivial (.notify_one rfl)) (.cons (.push trivial (.unlock rfl))
      (.cons (.wait rfl trivial (.relock rfl rfl)) (.cons (.wait rfl trivial (.releaseBlock rfl))
      (.cons (.wait rfl trivial (.testEmpty rfl rfl)) (.cons (.waited rfl rfl)
      (.cons (.compare rfl) (.cons (.is_empty rfl rfl)
      (.cons (.pop_front rfl rfl (.pop_front rfl rfl rfl)) (.cons (.OnPacket rfl)
      (.cons (.count rfl) (.cons (.compare rfl) (.nil _)))))))))))))))), rfl, rfl⟩
  rcases handles with ⟨dispatcher, trace, handled, returned⟩
  rcases handled_in_order trace with ⟨inOrder, -, -, -, -, kept⟩
  exact ⟨dispatcher, trace, handled, returned, inOrder, kept⟩

end Dispatcher

end GNL
