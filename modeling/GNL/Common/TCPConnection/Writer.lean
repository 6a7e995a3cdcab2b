import GNL.Common.NetPacket
import GNL.Semantics.Trace
import Mathlib.Data.List.Basic

/-! # The sending half of a TCP connection (`NetTCPConnection.h`)

`SendPacket` posts a lambda from any thread; the lambdas and the handlers of
`async_write` run one at a time on the network thread. Every write that has been
started is kept here until its handler runs, so that nothing in the model keeps
two of them apart. An `async_write` may put its bytes on the socket a few at a
time, in any interleaving with everything else, and may fail after any of them.
-/

namespace GNL

inductive WriteKind
  | header
  | data
  deriving DecidableEq

/-- An `async_write` in flight, with the part of its buffer not yet written. -/
structure PendingWrite where
  kind : WriteKind
  remaining : List UInt8
  deriving DecidableEq

/-- The members of a `TCPConnection<T>` that its write loop uses. `posted` holds
the packets captured by lambdas that have not run, `written` what is on the
socket, and `popped` the packets taken off `m_PktOut` so far. -/
structure Writer (T : Type) where
  posted : List (Packet T)
  m_PktOut : List (Packet T)
  writing : List PendingWrite
  written : List UInt8
  popped : List (Packet T)
  socketOpen : Bool
  deriving DecidableEq

namespace Writer

section Operations

variable {T : Type} [HeaderLayout T] (padding : Nat → HeaderLayout.Padding T)

def idle : Writer T where
  posted := []
  m_PktOut := []
  writing := []
  written := []
  popped := []
  socketOpen := true

def pop_front (conn : Writer T) : Except Fault (Writer T) :=
  match conn.m_PktOut with
  | [] => .error .emptyQueue
  | front :: rest => .ok { conn with m_PktOut := rest, popped := conn.popped ++ [front] }

/-- Start writing the header of `m_PktOut.get_front()`. What its padding bytes
hold is up to `padding`, for each packet in turn. -/
def WriteHeader (conn : Writer T) : Except Fault (Writer T) :=
  match conn.m_PktOut with
  | [] => .error .emptyQueue
  | front :: _ =>
      let buffer := HeaderLayout.toBytes (padding conn.popped.length) front.header
      .ok { conn with writing := conn.writing ++ [⟨.header, buffer⟩] }

def WriteData (conn : Writer T) : Except Fault (Writer T) :=
  match conn.m_PktOut with
  | [] => .error .emptyQueue
  | front :: _ => .ok { conn with writing := conn.writing ++ [⟨.data, front.body⟩] }

def writeNext (conn : Writer T) : Except Fault (Writer T) :=
  match conn.pop_front with
  | .error fault => .error fault
  | .ok conn => if conn.m_PktOut.isEmpty then .ok conn else conn.WriteHeader padding

/-- The handler of `WriteHeader`, called without an error. -/
def headerWritten (conn : Writer T) : Except Fault (Writer T) :=
  match conn.m_PktOut with
  | [] => .error .emptyQueue
  | front :: _ => if front.body.length > 0 then conn.WriteData else conn.writeNext padding

def dataWritten (conn : Writer T) : Except Fault (Writer T) :=
  conn.writeNext padding

/-- The lambda `SendPacket` posts. -/
def enqueue (conn : Writer T) (pkt : Packet T) : Except Fault (Writer T) :=
  let bWritingMessage := !conn.m_PktOut.isEmpty
  let conn := { conn with m_PktOut := conn.m_PktOut ++ [pkt] }
  if !bWritingMessage then conn.WriteHeader padding else .ok conn

inductive Action (T : Type)
  | SendPacket (pkt : Packet T)
  | runPosted
  | transfer (index count : Nat)
  | complete (index : Nat)
  | fail (index : Nat)

/-- One step of any thread or of the operating system; `none` where the action
cannot happen. -/
def step (conn : Writer T) : Action T → Option (Except Fault (Writer T))
  | .SendPacket pkt => some (.ok { conn with posted := conn.posted ++ [pkt] })
  | .runPosted =>
      match conn.posted with
      | [] => none
      | pkt :: posted => some ({ conn with posted }.enqueue padding pkt)
  | .transfer index count =>
      match conn.writing[index]? with
      | none => none
      | some ⟨kind, remaining⟩ =>
          some (.ok { conn with
            written := conn.written ++ remaining.take count
            writing := conn.writing.set index ⟨kind, remaining.drop count⟩ })
  | .complete index =>
      match conn.writing[index]? with
      | some ⟨kind, []⟩ =>
          let conn := { conn with writing := conn.writing.eraseIdx index }
          match kind with
          | .header => some (conn.headerWritten padding)
          | .data => some (conn.dataWritten padding)
      | _ => none
  | .fail index =>
      match conn.writing[index]? with
      | none => none
      | some _ =>
          some (.ok { conn with
            writing := conn.writing.eraseIdx index
            socketOpen := false })

def Step (conn : Writer T) (action : Action T) (next : Writer T) : Prop :=
  conn.step padding action = some (.ok next)

theorem step_of_toOption (conn : Writer T) (action : Action T) (next : Writer T)
    (step : (conn.step padding action).bind Except.toOption = some next) :
    Step padding conn action next := by
  rcases Option.bind_eq_some_iff.mp step with ⟨result, stepEq, ok⟩
  cases result with
  | error fault => cases ok
  | ok other =>
      cases ok
      exact stepEq

def sent : List (Action T) → List (Packet T)
  | [] => []
  | .SendPacket pkt :: actions => pkt :: sent actions
  | _ :: actions => sent actions

theorem WriteHeader_of_cons {conn : Writer T} {front : Packet T} {rest : List (Packet T)}
    (queue : conn.m_PktOut = front :: rest) :
    conn.WriteHeader padding = .ok { conn with
      writing := conn.writing ++
        [⟨.header, HeaderLayout.toBytes (padding conn.popped.length) front.header⟩] } := by
  simp only [WriteHeader, queue]

theorem writeNext_of_cons {conn : Writer T} {front : Packet T} {rest : List (Packet T)}
    (queue : conn.m_PktOut = front :: rest) :
    conn.writeNext padding =
      let popped := { conn with m_PktOut := rest, popped := conn.popped ++ [front] }
      if rest.isEmpty then .ok popped else popped.WriteHeader padding := by
  simp only [writeNext, pop_front, queue]

theorem WriteHeader_socketOpen {conn next : Writer T}
    (writes : conn.WriteHeader padding = .ok next) : next.socketOpen = conn.socketOpen := by
  unfold WriteHeader at writes
  split at writes
  · contradiction
  · cases writes
    rfl

theorem writeNext_socketOpen {conn next : Writer T}
    (writes : conn.writeNext padding = .ok next) : next.socketOpen = conn.socketOpen := by
  unfold writeNext pop_front at writes
  split at writes
  · contradiction
  next popped pops =>
    have same : popped.socketOpen = conn.socketOpen := by
      split at pops
      · contradiction
      · cases pops
        rfl
    split at writes
    · cases writes
      exact same
    · exact (WriteHeader_socketOpen padding writes).trans same

theorem headerWritten_socketOpen {conn next : Writer T}
    (writes : conn.headerWritten padding = .ok next) : next.socketOpen = conn.socketOpen := by
  simp only [headerWritten] at writes
  split at writes
  · contradiction
  next front rest queue =>
    split at writes
    · simp only [WriteData, queue] at writes
      cases writes
      rfl
    · exact writeNext_socketOpen padding writes

theorem enqueue_socketOpen {conn next : Writer T} {pkt : Packet T}
    (writes : conn.enqueue padding pkt = .ok next) : next.socketOpen = conn.socketOpen := by
  simp only [enqueue] at writes
  split at writes
  · have same := WriteHeader_socketOpen padding writes
    exact same
  · cases writes
    rfl

theorem runPosted_of_posted {conn : Writer T} (posted : conn.posted ≠ []) :
    ∃ next, Step padding conn .runPosted next := by
  rcases List.exists_cons_of_ne_nil posted with ⟨pkt, others, isPosted⟩
  simp only [Step, step, isPosted, enqueue]
  split
  · have notEmpty : conn.m_PktOut ++ [pkt] ≠ [] := by simp
    rcases List.exists_cons_of_ne_nil notEmpty with ⟨front, rest, queue⟩
    exact ⟨_, congrArg some (WriteHeader_of_cons padding queue)⟩
  · exact ⟨_, rfl⟩

theorem fail_of_writing {conn : Writer T} (writing : conn.writing ≠ []) :
    ∃ next, Step padding conn (.fail 0) next := by
  rcases List.exists_cons_of_ne_nil writing with ⟨write, others, isWriting⟩
  exact ⟨_, by simp only [Step, step, isWriting, List.getElem?_cons_zero]; rfl⟩

theorem socketOpen_of_step {padding : Nat → HeaderLayout.Padding T} {conn next : Writer T}
    {action : Action T} (step : Step padding conn action next) :
    next.socketOpen = conn.socketOpen ∨ (∃ index, action = .fail index) ∧
      next.socketOpen = false := by
  cases action with
  | SendPacket pkt =>
      cases step
      exact .inl rfl
  | runPosted =>
      simp only [Step, Writer.step] at step
      split at step
      · contradiction
      · have same := enqueue_socketOpen padding (Option.some.inj step)
        exact .inl same
  | transfer index count =>
      simp only [Step, Writer.step] at step
      split at step
      · contradiction
      · cases step
        exact .inl rfl
  | complete index =>
      simp only [Step, Writer.step] at step
      split at step
      · split at step
        · have same := headerWritten_socketOpen padding (Option.some.inj step)
          exact .inl same
        · have same := writeNext_socketOpen padding (Option.some.inj step)
          exact .inl same
      · contradiction
  | fail index =>
      simp only [Step, Writer.step] at step
      split at step
      · contradiction
      · cases step
        exact .inr ⟨⟨index, rfl⟩, rfl⟩

def frames (pkts : List (Packet T)) : List UInt8 :=
  (pkts.mapIdx fun index pkt => pkt.frame (padding index)).flatten

end Operations

end Writer

end GNL
