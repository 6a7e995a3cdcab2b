import GNL.Common.NetPacket
import GNL.Foundation.Framing
import GNL.Semantics.Trace

/-! # The receiving half of a TCP connection (`NetTCPConnection.h`)

`ReadHeader`, `ReadData` and `PushToIncomingQueue` start one another from
completion handlers on the network thread. A step is either bytes arriving at
the socket, or the oldest outstanding `async_read` completing; a read completes
without an error only when its whole buffer has been filled.
-/

namespace GNL

inductive ConnectType
  | Server
  | Client
  deriving DecidableEq

inductive PendingRead
  | header
  | data (length : Nat)
  deriving DecidableEq

/-- The members of a `TCPConnection<T>` that its read loop uses. `m_PktIn` is
what this connection has pushed into the shared incoming queue, and `unread`
what has arrived at the socket and no completed read has consumed. -/
structure Reader (T : Type) where
  self : ConnRef
  m_Type : ConnectType
  socketOpen : Bool
  unread : List UInt8
  reading : List PendingRead
  m_tmpPktIn : Packet T
  m_PktIn : List (OwnedPacket T)

namespace Reader

def ReadHeader (conn : Reader T) : Reader T :=
  { conn with reading := conn.reading ++ [.header] }

def ReadData (conn : Reader T) : Reader T :=
  { conn with reading := conn.reading ++ [.data conn.m_tmpPktIn.body.length] }

/-- `shared_from_this()` on the server, null on the client. -/
def connectionPtr (conn : Reader T) : Option ConnRef :=
  match conn.m_Type with
  | .Server => some conn.self
  | .Client => none

def PushToIncomingQueue (conn : Reader T) : Reader T :=
  ReadHeader { conn with
    m_PktIn := conn.m_PktIn ++ [⟨conn.connectionPtr, conn.m_tmpPktIn⟩] }

/-- The handler of `ReadHeader`, called without an error. -/
def headerRead [HeaderLayout T] (conn : Reader T) (buffer : List UInt8) : Reader T :=
  let conn := { conn with m_tmpPktIn.header := HeaderLayout.ofBytes buffer }
  if conn.m_tmpPktIn.header.size > 0 then
    ReadData { conn with
      m_tmpPktIn.body :=
        Packet.resize conn.m_tmpPktIn.body conn.m_tmpPktIn.header.size.toNat }
  else
    PushToIncomingQueue conn

def dataRead (conn : Reader T) (buffer : List UInt8) : Reader T :=
  PushToIncomingQueue { conn with m_tmpPktIn.body := buffer }

/-- The connection as `ConnectToClient` leaves it on the server, and the
handler of `async_connect` on the client. -/
def connected [Inhabited T] (self : ConnRef) (m_Type : ConnectType) : Reader T :=
  ReadHeader {
    self, m_Type
    socketOpen := true
    unread := []
    reading := []
    m_tmpPktIn := default
    m_PktIn := [] }

def complete [HeaderLayout T] (conn : Reader T) : Option (Reader T) :=
  match conn.reading with
  | [] => none
  | .header :: others =>
      let length := HeaderLayout.sizeof T
      if length ≤ conn.unread.length then
        some <| headerRead
          { conn with reading := others, unread := conn.unread.drop length }
          (conn.unread.take length)
      else
        none
  | .data length :: others =>
      if length ≤ conn.unread.length then
        some <| dataRead
          { conn with reading := others, unread := conn.unread.drop length }
          (conn.unread.take length)
      else
        none

/-- The oldest outstanding read completes with an error: both handlers close
the socket and start nothing. -/
def fail (conn : Reader T) : Option (Reader T) :=
  match conn.reading with
  | [] => none
  | _ :: others => some { conn with reading := others, socketOpen := false }

inductive Action
  | arrive (bytes : List UInt8)
  | complete
  | fail
  deriving DecidableEq

def step [HeaderLayout T] (conn : Reader T) : Action → Option (Reader T)
  | .arrive bytes => some { conn with unread := conn.unread ++ bytes }
  | .complete => conn.complete
  | .fail => conn.fail

def Step [HeaderLayout T] (conn : Reader T) (action : Action) (next : Reader T) : Prop :=
  conn.step action = some next

def arrived : List Action → List UInt8
  | [] => []
  | .arrive bytes :: actions => bytes ++ arrived actions
  | .complete :: actions => arrived actions
  | .fail :: actions => arrived actions

/-- Let the network thread run handlers until none is ready. Every completed
read of a connected reader consumes a byte, so that `unread.length` of them are
enough. -/
def settleWithin [HeaderLayout T] : Nat → Reader T → Reader T
  | 0, conn => conn
  | handlers + 1, conn =>
      match conn.complete with
      | none => conn
      | some next => settleWithin handlers next

def settle [HeaderLayout T] (conn : Reader T) : Reader T :=
  settleWithin conn.unread.length conn

theorem arrived_append (before after : List Action) :
    arrived (before ++ after) = arrived before ++ arrived after := by
  induction before with
  | nil => rfl
  | cons action before induction =>
      cases action <;> simp [arrived, induction]

theorem complete_cases [HeaderLayout T] {conn next : Reader T}
    (ready : conn.complete = some next) :
    (∃ others, conn.reading = .header :: others ∧
      HeaderLayout.sizeof T ≤ conn.unread.length ∧
      next = headerRead
        { conn with
          reading := others
          unread := conn.unread.drop (HeaderLayout.sizeof T) }
        (conn.unread.take (HeaderLayout.sizeof T))) ∨
    (∃ length others, conn.reading = .data length :: others ∧
      length ≤ conn.unread.length ∧
      next = dataRead
        { conn with reading := others, unread := conn.unread.drop length }
        (conn.unread.take length)) := by
  simp only [complete] at ready
  split at ready
  · cases ready
  · split at ready
    · cases ready
      exact .inl ⟨_, ‹_›, ‹_›, rfl⟩
    · cases ready
  · split at ready
    · cases ready
      exact .inr ⟨_, _, ‹_›, ‹_›, rfl⟩
    · cases ready

@[simp] theorem headerRead_unread [HeaderLayout T] (conn : Reader T) (buffer : List UInt8) :
    (conn.headerRead buffer).unread = conn.unread := by
  simp only [headerRead]
  split <;> rfl

@[simp] theorem headerRead_socketOpen [HeaderLayout T] (conn : Reader T)
    (buffer : List UInt8) : (conn.headerRead buffer).socketOpen = conn.socketOpen := by
  simp only [headerRead]
  split <;> rfl

theorem complete_socketOpen [HeaderLayout T] {conn next : Reader T}
    (ready : conn.complete = some next) : next.socketOpen = conn.socketOpen := by
  rcases complete_cases ready with ⟨_, _, _, rfl⟩ | ⟨_, _, _, _, rfl⟩
  · rw [headerRead_socketOpen]
  · rfl

theorem socketOpen_of_step [HeaderLayout T] {conn next : Reader T} {action : Action}
    (step : Step conn action next) :
    next.socketOpen = conn.socketOpen ∨ action = .fail ∧ next.socketOpen = false := by
  cases action with
  | arrive bytes =>
      cases step
      exact .inl rfl
  | complete => exact .inl (complete_socketOpen step)
  | fail =>
      simp only [Step, Reader.step, fail] at step
      split at step
      · contradiction
      · cases step
        exact .inr ⟨rfl, rfl⟩

theorem queue_of_step [HeaderLayout T] {conn next : Reader T} {action : Action}
    (step : Step conn action next) : conn.m_PktIn ⊆ next.m_PktIn := by
  cases action with
  | arrive bytes =>
      cases step
      exact List.Subset.refl _
  | complete =>
      rcases complete_cases step with ⟨others, -, -, rfl⟩ | ⟨length, others, -, -, rfl⟩
      · simp only [headerRead]
        split
        · exact List.Subset.refl _
        · exact List.subset_append_left _ _
      · exact List.subset_append_left _ _
  | fail =>
      simp only [Step, Reader.step, fail] at step
      split at step
      · contradiction
      · cases step
        exact List.Subset.refl _

theorem socketOpen_of_trace [HeaderLayout T] {conn next : Reader T} {actions : List Action}
    (trace : Trace Step conn actions next) (noError : .fail ∉ actions)
    (open_ : conn.socketOpen = true) : next.socketOpen = true := by
  induction trace with
  | nil => exact open_
  | @cons _ _ _ action _ step _ induction =>
      simp only [List.mem_cons, not_or] at noError
      apply induction noError.2
      cases action with
      | arrive bytes =>
          cases step
          exact open_
      | complete => rw [complete_socketOpen step, open_]
      | fail => exact absurd rfl noError.1

theorem trace_settleWithin [HeaderLayout T] (handlers : Nat) (conn : Reader T) :
    ∃ completions, Trace Step conn completions (settleWithin handlers conn) ∧
      ∀ action ∈ completions, action = .complete := by
  induction handlers generalizing conn with
  | zero => exact ⟨[], .nil conn, by simp⟩
  | succ handlers induction =>
      cases ready : conn.complete with
      | none =>
          refine ⟨[], ?_, by simp⟩
          rw [settleWithin, ready]
          exact .nil conn
      | some next =>
          rcases induction next with ⟨completions, trace, onlyCompletions⟩
          refine ⟨.complete :: completions, ?_, by simpa using onlyCompletions⟩
          rw [settleWithin, ready]
          exact .cons ready trace

/-! ## What a reader holds after part of a stream -/

def format (T : Type) [HeaderLayout T] : FrameFormat UInt8 where
  headerLength := HeaderLayout.sizeof T
  headerLength_pos := HeaderLayout.sizeof_pos
  bodyLength header := (HeaderLayout.ofBytes header : PacketHeader T).size.toNat

/-- The bytes left in `m_tmpPktIn.body` after a frame: a frame without a body
leaves those of the frame before it. -/
def bodyAfter (stale : List UInt8) (frame : List UInt8 × List UInt8) : List UInt8 :=
  if frame.2 = [] then stale else frame.2

/-- The packets pushed for a list of frames, each with whatever body is in
`m_tmpPktIn` when it is pushed. -/
def deliveries [HeaderLayout T] : List UInt8 → List (List UInt8 × List UInt8) → List (Packet T)
  | _, [] => []
  | stale, frame :: frames =>
      ⟨HeaderLayout.ofBytes frame.1, bodyAfter stale frame⟩ ::
        deliveries (bodyAfter stale frame) frames

theorem deliveries_append [HeaderLayout T] (stale : List UInt8)
    (first second : List (List UInt8 × List UInt8)) :
    (deliveries stale (first ++ second) : List (Packet T)) =
      deliveries stale first ++ deliveries (first.foldl bodyAfter stale) second := by
  induction first generalizing stale with
  | nil => rfl
  | cons frame first induction => simp [deliveries, induction]

/-- Where the read loop stands between two handlers: the header bytes it has
consumed ahead of a body, and the body left over from the frames before. -/
inductive Awaits [HeaderLayout T] (conn : Reader T) : List UInt8 → List UInt8 → Prop
  | header (open_ : conn.socketOpen = true) (reading : conn.reading = [.header]) :
      Awaits conn [] conn.m_tmpPktIn.body
  | data {held stale : List UInt8} (open_ : conn.socketOpen = true)
      (length : held.length = HeaderLayout.sizeof T)
      (nonempty : 0 < (format T).bodyLength held)
      (header : conn.m_tmpPktIn.header = HeaderLayout.ofBytes held)
      (reading : conn.reading = [.data ((format T).bodyLength held)]) :
      Awaits conn held stale
  | nothing {held stale : List UInt8} (closed : conn.socketOpen = false)
      (reading : conn.reading = []) : Awaits conn held stale

/-- The state of a reader after `stream` has arrived, of which it has consumed
`frames` whole. -/
structure Received [HeaderLayout T] (conn : Reader T) (stream : List UInt8)
    (frames : List (List UInt8 × List UInt8)) : Prop where
  areFrames : ∀ frame ∈ frames, (format T).IsFrame frame
  pushed : conn.m_PktIn =
    (deliveries [] frames).map fun pkt => ⟨conn.connectionPtr, pkt⟩
  position : ∃ held, conn.Awaits held (frames.foldl bodyAfter []) ∧
    stream = (frames.map fun frame => frame.1 ++ frame.2).flatten ++ (held ++ conn.unread)

end Reader

end GNL
