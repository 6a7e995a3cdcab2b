import GNL.Common.TCPConnection.Sending
import GNL.Common.TCPConnection.WholeFrames

/-! # One direction of a TCP connection

The sending half of one `TCPConnection`, the receiving half of its peer, and the byte
stream between them. TCP neither loses, repeats nor reorders bytes; it brings them in
pieces of its own choosing, and either end may fail at any moment.
-/

namespace GNL

namespace Writer

section Written

variable {T : Type} [HeaderLayout T] {padding : Nat → HeaderLayout.Padding T}
  {conn next : Writer T}

theorem WriteHeader_written (writes : conn.WriteHeader padding = .ok next) :
    next.written = conn.written := by
  unfold WriteHeader at writes
  split at writes
  · contradiction
  · cases writes
    rfl

theorem writeNext_written (writes : conn.writeNext padding = .ok next) :
    next.written = conn.written := by
  unfold writeNext pop_front at writes
  split at writes
  · contradiction
  next popped pops =>
    have same : popped.written = conn.written := by
      split at pops
      · contradiction
      · cases pops
        rfl
    split at writes
    · cases writes
      exact same
    · exact (WriteHeader_written writes).trans same

theorem headerWritten_written (writes : conn.headerWritten padding = .ok next) :
    next.written = conn.written := by
  simp only [headerWritten] at writes
  split at writes
  · contradiction
  next front rest queue =>
    split at writes
    · simp only [WriteData, queue] at writes
      cases writes
      rfl
    · exact writeNext_written writes

theorem written_prefix_of_step {action : Action T} (step : Step padding conn action next) :
    conn.written <+: next.written := by
  cases action with
  | SendPacket pkt =>
      cases step
      exact List.prefix_refl _
  | runPosted =>
      simp only [Step, Writer.step, enqueue] at step
      split at step
      · contradiction
      · split at step
        · have same := WriteHeader_written (Option.some.inj step)
          exact ⟨[], (List.append_nil _).trans same.symm⟩
        · cases step
          exact List.prefix_refl _
  | transfer index count =>
      simp only [Step, Writer.step] at step
      split at step
      · contradiction
      · cases step
        exact List.prefix_append _ _
  | complete index =>
      simp only [Step, Writer.step] at step
      split at step
      · split at step
        · have same := headerWritten_written (Option.some.inj step)
          exact ⟨[], (List.append_nil _).trans same.symm⟩
        · have same := writeNext_written (Option.some.inj step)
          exact ⟨[], (List.append_nil _).trans same.symm⟩
      · contradiction
  | fail index =>
      simp only [Step, Writer.step] at step
      split at step
      · contradiction
      · cases step
        exact List.prefix_refl _

end Written

end Writer

namespace Reader

theorem connectionPtr_of_step {T : Type} [HeaderLayout T] {conn next : Reader T}
    {action : Action} (step : Step conn action next) :
    next.connectionPtr = conn.connectionPtr := by
  cases action with
  | arrive bytes =>
      cases step
      rfl
  | complete =>
      rcases complete_cases step with ⟨_, _, _, rfl⟩ | ⟨_, _, _, _, rfl⟩
      · simp only [headerRead]
        split <;> rfl
      · rfl
  | fail =>
      simp only [Step, Reader.step, fail] at step
      split at step
      · contradiction
      · cases step
        rfl

theorem pushed_of_step {T : Type} [HeaderLayout T] {conn next : Reader T}
    {action : Action} (step : Step conn action next) :
    next.m_PktIn = conn.m_PktIn ∨
      action = .complete ∧ ∃ pkt, next.m_PktIn = conn.m_PktIn ++ [⟨conn.connectionPtr, pkt⟩] := by
  cases action with
  | arrive bytes =>
      cases step
      exact .inl rfl
  | complete =>
      rcases complete_cases step with ⟨_, _, _, rfl⟩ | ⟨_, _, _, _, rfl⟩
      · unfold headerRead
        dsimp only
        split
        · exact .inl rfl
        · exact .inr ⟨rfl, _, rfl⟩
      · exact .inr ⟨rfl, _, rfl⟩
  | fail =>
      simp only [Step, Reader.step, fail] at step
      split at step
      · contradiction
      · cases step
        exact .inl rfl

end Reader

/-- Two halves of a connection. `sent` records what `SendPacket` was called with, and
`arrived` the bytes the stream has brought to the receiving half. -/
structure Link (T : Type) where
  writer : Writer T
  reader : Reader T
  sent : List (Packet T)
  arrived : List UInt8

namespace Link

variable {T : Type} [HeaderLayout T]

def start [Inhabited T] (self : ConnRef) (m_Type : ConnectType) : Link T where
  writer := .idle
  reader := .connected self m_Type
  sent := []
  arrived := []

omit [HeaderLayout T] in
def inFlight (link : Link T) : List UInt8 := link.writer.written.drop link.arrived.length

inductive Action (T : Type)
  | write (action : Writer.Action T)
  | deliver (count : Nat)
  | complete
  | fail

def Action.Sends : Action T → Prop
  | .write (.SendPacket _) => True
  | _ => False

def Action.Reads : Action T → Prop
  | .complete => True
  | .fail => True
  | _ => False

instance : DecidablePred (Action.Sends : Action T → Prop)
  | .write (.SendPacket _) => isTrue trivial
  | .write .runPosted | .write (.transfer _ _) | .write (.complete _)
  | .write (.fail _) => isFalse id
  | .deliver _ | .complete | .fail => isFalse id

instance : DecidablePred (Action.Reads : Action T → Prop)
  | .write _ | .deliver _ => isFalse id
  | .complete | .fail => isTrue trivial

omit [HeaderLayout T] in
def SendPacket (link : Link T) (pkt : Packet T) : Link T :=
  { link with
    writer.posted := link.writer.posted ++ [pkt]
    sent := link.sent ++ [pkt] }

def step (padding : Nat → HeaderLayout.Padding T) (link : Link T) : Action T → Option (Link T)
  | .write action =>
      match link.writer.step padding action with
      | some (.ok writer) => some { link with writer, sent := link.sent ++ Writer.sent [action] }
      | _ => none
  | .deliver count =>
      let bytes := link.inFlight.take count
      some { link with
        reader.unread := link.reader.unread ++ bytes
        arrived := link.arrived ++ bytes }
  | .complete => link.reader.complete.map fun reader => { link with reader }
  | .fail => link.reader.fail.map fun reader => { link with reader }

def Step (padding : Nat → HeaderLayout.Padding T) (link : Link T) (action : Action T)
    (next : Link T) : Prop :=
  link.step padding action = some next

inductive StepCases (padding : Nat → HeaderLayout.Padding T) (link : Link T) :
    Action T → Link T → Prop
  | write (action : Writer.Action T) (writer : Writer T)
      (step : Writer.Step padding link.writer action writer) :
      StepCases padding link (.write action)
        { link with writer, sent := link.sent ++ Writer.sent [action] }
  | deliver (count : Nat) (reader : Reader T)
      (step : Reader.Step link.reader (.arrive (link.inFlight.take count)) reader) :
      StepCases padding link (.deliver count)
        { link with reader, arrived := link.arrived ++ link.inFlight.take count }
  | complete (reader : Reader T) (step : Reader.Step link.reader .complete reader) :
      StepCases padding link .complete { link with reader }
  | fail (reader : Reader T) (step : Reader.Step link.reader .fail reader) :
      StepCases padding link .fail { link with reader }

section Steps

variable {padding : Nat → HeaderLayout.Padding T} {link next : Link T} {action : Action T}

theorem step_cases (step : Step padding link action next) :
    StepCases padding link action next := by
  cases action with
  | write action =>
      rw [Step, Link.step] at step
      split at step
      next writer writes =>
        cases step
        exact .write action writer writes
      next => contradiction
  | deliver count =>
      cases step
      exact .deliver count _ rfl
  | complete =>
      rcases Option.map_eq_some_iff.mp step with ⟨reader, completes, rfl⟩
      exact .complete reader completes
  | fail =>
      rcases Option.map_eq_some_iff.mp step with ⟨reader, fails, rfl⟩
      exact .fail reader fails

theorem step_SendPacket (link : Link T) (pkt : Packet T) :
    Step padding link (.write (.SendPacket pkt)) (link.SendPacket pkt) := rfl

theorem sent_of_step (step : Step padding link action next) (notSends : ¬action.Sends) :
    next.sent = link.sent := by
  cases step_cases step with
  | write action =>
      cases action with
      | SendPacket pkt => exact absurd trivial notSends
      | _ => exact List.append_nil _
  | _ => rfl

theorem pushed_of_step (step : Step padding link action next) :
    next.reader.m_PktIn = link.reader.m_PktIn ∨
      action = .complete ∧ ∃ pkt, next.reader.m_PktIn =
        link.reader.m_PktIn ++ [⟨link.reader.connectionPtr, pkt⟩] := by
  cases step_cases step with
  | write => exact .inl rfl
  | deliver count reader arrives =>
      cases arrives
      exact .inl rfl
  | complete reader completes =>
      exact (Reader.pushed_of_step completes).imp_right fun pushed => ⟨rfl, pushed.2⟩
  | fail reader fails =>
      rcases Reader.pushed_of_step fails with same | ⟨isComplete, -⟩
      · exact .inl same
      · contradiction

end Steps

/-- Both halves do what they should, and what has arrived are the first of the bytes
that were written. -/
structure Carries (padding : Nat → HeaderLayout.Padding T) (link : Link T)
    (frames : List (List UInt8 × List UInt8)) : Prop where
  sending : Writer.Sending padding link.writer link.sent
  received : link.reader.Received link.arrived frames
  arrived : link.arrived <+: link.writer.written

namespace Carries

variable {padding : Nat → HeaderLayout.Padding T} {link next : Link T}
  {frames : List (List UInt8 × List UInt8)}

theorem append_inFlight (carries : Carries padding link frames) :
    link.arrived ++ link.inFlight = link.writer.written := by
  rw [inFlight]
  exact List.prefix_iff_eq_append.mp carries.arrived

theorem step {action : Action T} (carries : Carries padding link frames)
    (step : Step padding link action next) : ∃ later, Carries padding next later := by
  cases step_cases step with
  | write action writer writes =>
      rcases carries.sending.step writes with ⟨other, same, sending⟩
      cases same
      exact ⟨frames, sending, carries.received,
        carries.arrived.trans (Writer.written_prefix_of_step writes)⟩
  | deliver count reader arrives =>
      rcases carries.received.step arrives with ⟨later, received⟩
      simp only [Reader.arrived, List.append_nil] at received
      refine ⟨later, carries.sending, received, ?_⟩
      have joined : link.arrived ++ link.inFlight.take count <+: link.arrived ++ link.inFlight :=
        (List.prefix_append_right_inj _).mpr (List.take_prefix _ _)
      rwa [carries.append_inFlight] at joined
  | complete reader completes =>
      rcases carries.received.step completes with ⟨later, received⟩
      simp only [Reader.arrived, List.append_nil] at received
      exact ⟨later, carries.sending, received, carries.arrived⟩
  | fail reader fails =>
      rcases carries.received.step fails with ⟨later, received⟩
      simp only [Reader.arrived, List.append_nil] at received
      exact ⟨later, carries.sending, received, carries.arrived⟩

end Carries

variable [Inhabited T] {padding : Nat → HeaderLayout.Padding T} {self : ConnRef}
  {m_Type : ConnectType} {link : Link T} {actions : List (Action T)}

theorem carries_start (padding : Nat → HeaderLayout.Padding T) (self : ConnRef)
    (m_Type : ConnectType) : Carries padding (start self m_Type) [] where
  sending := Writer.sending_idle
  received := Reader.received_connected self m_Type
  arrived := List.prefix_refl _

theorem carries_of_trace (trace : Trace (Step padding) (start self m_Type) actions link) :
    ∃ frames, Carries padding link frames := by
  have keeps : ∀ current action next, (∃ frames, Carries padding current frames) →
      Step padding current action next → ∃ frames, Carries padding next frames :=
    fun _ _ _ ⟨_, carries⟩ step => carries.step step
  exact trace.invariant keeps ⟨[], carries_start padding self m_Type⟩

omit [Inhabited T] in
theorem connectionPtr_of_step {next : Link T} {action : Action T}
    (step : Step padding link action next) :
    next.reader.connectionPtr = link.reader.connectionPtr := by
  cases step_cases step with
  | write => rfl
  | deliver _ _ arrives => exact Reader.connectionPtr_of_step arrives
  | complete _ completes => exact Reader.connectionPtr_of_step completes
  | fail _ fails => exact Reader.connectionPtr_of_step fails

theorem connectionPtr_of_trace
    (trace : Trace (Step padding) (start self m_Type) actions link) :
    link.reader.connectionPtr = (start self m_Type : Link T).reader.connectionPtr := by
  have keeps : ∀ current action next,
      current.reader.connectionPtr = (start self m_Type : Link T).reader.connectionPtr →
      Step padding current action next →
      next.reader.connectionPtr = (start self m_Type : Link T).reader.connectionPtr :=
    fun _ _ _ same step => (connectionPtr_of_step step).trans same
  exact trace.invariant keeps rfl

section Streams

omit [Inhabited T]

def framesOf (padding : Nat → HeaderLayout.Padding T) (pkts : List (Packet T)) :
    List (List UInt8 × List UInt8) :=
  (pkts.zipIdx.map fun packet => (packet.1, padding packet.2)).map fun packet =>
    (HeaderLayout.toBytes packet.2 packet.1.header, packet.1.body)

theorem frames_eq_flatten (padding : Nat → HeaderLayout.Padding T) (pkts : List (Packet T)) :
    Writer.frames padding pkts =
      ((framesOf padding pkts).map fun frame => frame.1 ++ frame.2).flatten := by
  rw [Writer.frames, List.mapIdx_eq_zipIdx_map, framesOf, List.map_map, List.map_map]
  rfl

theorem isFrame_framesOf (padding : Nat → HeaderLayout.Padding T) {pkts : List (Packet T)}
    (consistent : ∀ pkt ∈ pkts, pkt.Consistent) :
    ∀ frame ∈ framesOf padding pkts, (Reader.format T).IsFrame frame := by
  intro frame member
  rcases List.mem_map.mp member with ⟨_, isPacket, rfl⟩
  rcases List.mem_map.mp isPacket with ⟨packet, inPackets, rfl⟩
  have inList : packet.1 ∈ pkts := List.fst_mem_of_mem_zipIdx inPackets
  exact Reader.isFrame_of_consistent (consistent _ inList) _

theorem parse_frames_of_consistent {pkts : List (Packet T)}
    (consistent : ∀ pkt ∈ pkts, pkt.Consistent) :
    (Reader.format T).parse (Writer.frames padding pkts) = (framesOf padding pkts, []) := by
  have nothingLeft : (Reader.format T).parse [] = ([], []) :=
    (Reader.format T).parse_of_short (Reader.format T).headerLength_pos
  have parsed := (Reader.format T).parse_frames _
    (isFrame_framesOf padding consistent) []
  rw [nothingLeft, List.append_nil, List.append_nil, ← frames_eq_flatten] at parsed
  exact parsed

theorem deliveries_framesOf (padding : Nat → HeaderLayout.Padding T) (stale : List UInt8)
    (pkts : List (Packet T)) :
    Reader.deliveries stale (framesOf padding pkts) = Reader.redelivered stale pkts := by
  rw [framesOf, Reader.deliveries_frames, List.map_map]
  exact congrArg (Reader.redelivered stale) (List.zipIdx_map_fst 0 pkts)

theorem prefix_deliveries {stale : List UInt8} {first whole : List (List UInt8 × List UInt8)}
    (isPrefix : first <+: whole) :
    (Reader.deliveries stale first : List (Packet T)) <+: Reader.deliveries stale whole := by
  rcases isPrefix with ⟨rest, rfl⟩
  rw [Reader.deliveries_append]
  exact List.prefix_append _ _

theorem decode_framesOf (padding : Nat → HeaderLayout.Padding T) (pkts : List (Packet T)) :
    (framesOf padding pkts).map
      (fun frame => (⟨HeaderLayout.ofBytes frame.1, frame.2⟩ : Packet T)) =
      pkts := by
  rw [framesOf, List.map_map, List.map_map]
  have decodes : ∀ packet ∈ pkts.zipIdx,
      (⟨HeaderLayout.ofBytes (HeaderLayout.toBytes (padding packet.2) packet.1.header),
        packet.1.body⟩ : Packet T) = packet.1 := by
    intro packet _
    rw [HeaderLayout.ofBytes_toBytes]
  exact (List.map_congr_left decodes).trans (List.zipIdx_map_fst 0 pkts)

/-- The wire format can be read in one way only: where the bytes of some packets are the
first of the bytes of others, these packets are the first of the others, whatever the
compiler left between the fields of their headers. -/
theorem prefix_of_frames_prefix {first second : List (Packet T)}
    (padding other : Nat → HeaderLayout.Padding T)
    (firstConsistent : ∀ pkt ∈ first, pkt.Consistent)
    (secondConsistent : ∀ pkt ∈ second, pkt.Consistent)
    (isPrefix : Writer.frames padding first <+: Writer.frames other second) : first <+: second := by
  rcases isPrefix with ⟨rest, isStream⟩
  have parsed := (Reader.format T).parse_frames _
    (isFrame_framesOf padding firstConsistent) rest
  rw [← frames_eq_flatten, isStream, parse_frames_of_consistent secondConsistent] at parsed
  have framesPrefix : framesOf padding first <+: framesOf other second :=
    ⟨_, (congrArg Prod.fst parsed).symm⟩
  rw [← decode_framesOf padding first, ← decode_framesOf other second]
  exact framesPrefix.map _

theorem prefix_of_frames_prefix_enter :
    let enter : Packet CMD := ⟨⟨.SelfEnterWorld, 0⟩, []⟩
    let ping : Packet CMD := ⟨⟨.Ping, 2⟩, [7, 9]⟩
    [enter] <+: [enter, ping] := by
  intro enter ping
  let padding : Nat → HeaderLayout.Padding CMD := fun _ => (0 : UInt16)
  exact prefix_of_frames_prefix padding padding (by decide) (by decide) (by decide)

end Streams

omit [Inhabited T] in
theorem pushed_prefix {conn : Reader T} {stream : List UInt8}
    {frames : List (List UInt8 × List UInt8)} (received : conn.Received stream frames)
    {pkts : List (Packet T)} (arrived : stream <+: Writer.frames padding pkts)
    (consistent : ∀ pkt ∈ pkts, pkt.Consistent) :
    conn.m_PktIn <+: (Reader.redelivered [] pkts).map fun pkt => ⟨conn.connectionPtr, pkt⟩ := by
  rcases arrived with ⟨more, isStream⟩
  have isPrefix := received.frames_prefix more
  rw [isStream, parse_frames_of_consistent consistent] at isPrefix
  rw [received.pushed, ← deliveries_framesOf padding]
  exact (prefix_deliveries isPrefix).map _

omit [Inhabited T] in
theorem Carries.pushed_prefix {frames : List (List UInt8 × List UInt8)}
    (carries : Carries padding link frames) (consistent : ∀ pkt ∈ link.sent, pkt.Consistent) :
    link.reader.m_PktIn <+: (Reader.redelivered [] link.sent).map fun pkt =>
      ⟨link.reader.connectionPtr, pkt⟩ :=
  Link.pushed_prefix carries.received
    (carries.arrived.trans carries.sending.written_prefix) consistent

omit [Inhabited T] in
theorem Carries.fits {frames : List (List UInt8 × List UInt8)}
    (carries : Carries padding link frames) :
    ∀ owned ∈ link.reader.m_PktIn, owned.pkt.body.length < 2 ^ 32 := by
  intro owned member
  rw [carries.received.pushed] at member
  rcases List.mem_map.mp member with ⟨pkt, isDelivered, rfl⟩
  exact Reader.length_body_of_deliveries carries.received.areFrames (by simp) pkt isDelivered

/-- Where every packet sent has the size of its body, what the receiving half pushes into
its queue are the packets sent, in order and each at most once, up to some point; one
without a body comes with the body of the packet before it. -/
theorem delivers_prefix (trace : Trace (Step padding) (start self m_Type) actions link)
    (consistent : ∀ pkt ∈ link.sent, pkt.Consistent) :
    link.reader.m_PktIn <+: (Reader.redelivered [] link.sent).map fun pkt =>
      ⟨(start self m_Type : Link T).reader.connectionPtr, pkt⟩ := by
  rcases carries_of_trace trace with ⟨frames, carries⟩
  rw [← connectionPtr_of_trace trace]
  exact carries.pushed_prefix consistent

theorem delivers_prefix_cut :
    let padding : Nat → HeaderLayout.Padding CMD := fun _ => (0 : UInt16)
    let enter : Packet CMD := ⟨⟨.SelfEnterWorld, 0⟩, []⟩
    let ping : Packet CMD := ⟨⟨.Ping, 2⟩, [7, 9]⟩
    let actions : List (Action CMD) :=
      [.write (.SendPacket enter), .write .runPosted, .write (.transfer 0 8),
        .write (.SendPacket ping), .write .runPosted, .deliver 8, .complete,
        .write (.complete 0), .write (.transfer 0 8), .write (.complete 0),
        .write (.transfer 0 1), .deliver 9, .complete, .fail]
    ∃ link, Trace (Step padding) (start 3 .Server) actions link ∧
      link.reader.m_PktIn = [⟨some 3, enter⟩] ∧
      link.reader.m_PktIn <+: (Reader.redelivered [] link.sent).map fun pkt =>
        ⟨(start 3 .Server : Link CMD).reader.connectionPtr, pkt⟩ := by
  intro padding enter ping actions
  have runs : ∃ link ∈ runSteps (step padding) (start 3 .Server) actions,
      link.reader.m_PktIn = [⟨some 3, enter⟩] ∧ ∀ pkt ∈ link.sent, pkt.Consistent := by
    decide
  rcases runs with ⟨link, reaches, pushed, consistent⟩
  have trace : Trace (Step padding) (start 3 .Server) actions link := Trace.of_run reaches
  exact ⟨link, trace, pushed, delivers_prefix trace consistent⟩

end Link

end GNL
