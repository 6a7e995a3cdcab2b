import GNL.Common.TCPConnection.Reader

/-! # What the read loop delivers

A reader pushes one packet for every whole frame of the stream, however the
stream is cut up and whenever its handlers run. The body it pushes for a frame
without one is the body of an earlier frame: `m_tmpPktIn.body` is resized only
where a body follows.
-/

namespace GNL

namespace Reader

section Run

variable {T : Type} [HeaderLayout T]

theorem Awaits.alone {conn : Reader T} {held stale : List UInt8} {first : PendingRead}
    {others : List PendingRead} (awaits : conn.Awaits held stale)
    (reading : conn.reading = first :: others) : others = [] := by
  cases awaits with
  | header _ only => exact (List.cons.inj (reading.symm.trans only)).2
  | data _ _ _ _ only => exact (List.cons.inj (reading.symm.trans only)).2
  | nothing _ none =>
      rw [reading] at none
      cases none

theorem received_connected [Inhabited T] (self : ConnRef) (m_Type : ConnectType) :
    (connected self m_Type : Reader T).Received [] [] where
  areFrames := by simp
  pushed := rfl
  position := ⟨[], .header rfl rfl, rfl⟩

theorem Received.arrive {conn : Reader T} {stream : List UInt8}
    {frames : List (List UInt8 × List UInt8)} (received : conn.Received stream frames)
    (bytes : List UInt8) :
    ({ conn with unread := conn.unread ++ bytes } : Reader T).Received
      (stream ++ bytes) frames where
  areFrames := received.areFrames
  pushed := received.pushed
  position := by
    rcases received.position with ⟨held, awaits, streamEq⟩
    refine ⟨held, ?_, by simp [streamEq]⟩
    generalize frames.foldl bodyAfter [] = stale at awaits
    cases awaits with
    | header open_ reading => exact .header open_ reading
    | data open_ length nonempty header reading =>
        exact .data open_ length nonempty header reading
    | nothing closed reading => exact .nothing closed reading

theorem Received.push {conn : Reader T} {stream : List UInt8}
    {frames : List (List UInt8 × List UInt8)} {header body : List UInt8} {next : Reader T}
    (received : conn.Received stream frames)
    (isFrame : (format T).IsFrame (header, body))
    (streamEq : stream = (frames.map fun frame => frame.1 ++ frame.2).flatten ++
      (header ++ body ++ next.unread))
    (sameOwner : next.connectionPtr = conn.connectionPtr)
    (pushed : next.m_PktIn = conn.m_PktIn ++ [⟨conn.connectionPtr,
      ⟨HeaderLayout.ofBytes header, bodyAfter (frames.foldl bodyAfter []) (header, body)⟩⟩])
    (kept : next.m_tmpPktIn.body = bodyAfter (frames.foldl bodyAfter []) (header, body))
    (open_ : next.socketOpen = true) (reading : next.reading = [.header]) :
    next.Received stream (frames ++ [(header, body)]) where
  areFrames := by
    intro frame member
    rcases List.mem_append.mp member with earlier | last
    · exact received.areFrames frame earlier
    · rw [List.mem_singleton.mp last]
      exact isFrame
  pushed := by
    rw [pushed, received.pushed, deliveries_append, List.map_append, sameOwner]
    rfl
  position := by
    refine ⟨[], ?_, by simp [streamEq]⟩
    rw [List.foldl_append, List.foldl_cons, List.foldl_nil, ← kept]
    exact .header open_ reading

theorem Received.headerRead {conn : Reader T} {stream : List UInt8}
    {frames : List (List UInt8 × List UInt8)} (received : conn.Received stream frames)
    (reading : conn.reading = [.header])
    (enough : HeaderLayout.sizeof T ≤ conn.unread.length) :
    ∃ later, (({ conn with
        reading := []
        unread := conn.unread.drop (HeaderLayout.sizeof T) } : Reader T).headerRead
          (conn.unread.take (HeaderLayout.sizeof T))).Received stream later := by
  let buffer := conn.unread.take (HeaderLayout.sizeof T)
  have bufferLength : buffer.length = HeaderLayout.sizeof T := by
    rw [List.length_take, Nat.min_eq_left enough]
  rcases received.position with ⟨held, awaits, streamEq⟩
  generalize staleEq : frames.foldl bodyAfter [] = stale at awaits
  cases awaits with
  | data _ _ _ _ other => rw [reading] at other; cases other
  | nothing _ other => rw [reading] at other; cases other
  | header open_ _ =>
      have rejoined : stream = (frames.map fun frame => frame.1 ++ frame.2).flatten ++
          (buffer ++ conn.unread.drop (HeaderLayout.sizeof T)) := by
        rw [List.take_append_drop]
        simpa using streamEq
      by_cases announced : (HeaderLayout.ofBytes buffer : PacketHeader T).size > 0
      · refine ⟨frames, received.areFrames, ?_, buffer, ?_, ?_⟩
        · simp only [Reader.headerRead, announced, buffer, if_true]
          exact received.pushed
        · rw [staleEq]
          simp only [Reader.headerRead, announced, buffer, if_true]
          refine .data open_ bufferLength (UInt32.lt_iff_toNat_lt.mp announced) rfl ?_
          simp [ReadData, format]
        · simp only [Reader.headerRead, announced, buffer, if_true]
          exact rejoined
      · have sizeZero : (format T).bodyLength buffer = 0 := by
          have notPositive := mt UInt32.lt_iff_toNat_lt.mpr announced
          simpa [format] using notPositive
        refine ⟨frames ++ [(buffer, [])], ?_⟩
        have isEmpty : bodyAfter (frames.foldl bodyAfter []) (buffer, []) =
            conn.m_tmpPktIn.body := by
          rw [staleEq]
          rfl
        simp only [Reader.headerRead, announced, buffer, if_false]
        exact received.push ⟨bufferLength, sizeZero.symm⟩
          (by rw [List.append_nil]; exact rejoined) rfl
          (by rw [isEmpty]; rfl) isEmpty.symm open_ rfl

theorem Received.dataRead {conn : Reader T} {stream : List UInt8}
    {frames : List (List UInt8 × List UInt8)} (received : conn.Received stream frames)
    {length : Nat} (reading : conn.reading = [.data length])
    (enough : length ≤ conn.unread.length) :
    ∃ later, (({ conn with
        reading := []
        unread := conn.unread.drop length } : Reader T).dataRead
          (conn.unread.take length)).Received stream later := by
  rcases received.position with ⟨held, awaits, streamEq⟩
  generalize frames.foldl bodyAfter [] = stale at awaits
  cases awaits with
  | header _ other => rw [reading] at other; cases other
  | nothing _ other => rw [reading] at other; cases other
  | data open_ headerLength nonempty header other =>
      have lengthEq : length = (format T).bodyLength held := by
        rw [reading] at other
        cases other
        rfl
      subst lengthEq
      let buffer := conn.unread.take ((format T).bodyLength held)
      have bufferLength : buffer.length = (format T).bodyLength held := by
        rw [List.length_take, Nat.min_eq_left enough]
      have bufferNonempty : buffer ≠ [] := by
        intro isEmpty
        rw [isEmpty] at bufferLength
        simp only [List.length_nil] at bufferLength
        omega
      have kept : bodyAfter (frames.foldl bodyAfter []) (held, buffer) = buffer :=
        if_neg bufferNonempty
      refine ⟨frames ++ [(held, buffer)], ?_⟩
      apply received.push ⟨headerLength, bufferLength⟩
      · rw [streamEq]
        simp only [Reader.dataRead, PushToIncomingQueue, ReadHeader,
          List.append_assoc, List.take_append_drop]
      · rfl
      · rw [kept, ← header]
        rfl
      · rw [kept]
        rfl
      · exact open_
      · rfl

theorem Received.step {conn next : Reader T} {stream : List UInt8}
    {frames : List (List UInt8 × List UInt8)} {action : Action}
    (received : conn.Received stream frames) (step : Step conn action next) :
    ∃ later, next.Received (stream ++ arrived [action]) later := by
  cases action with
  | arrive bytes =>
      cases step
      simpa [arrived] using ⟨frames, received.arrive bytes⟩
  | complete =>
      simp only [arrived, List.append_nil]
      rcases received.position with ⟨held, awaits, _⟩
      rcases complete_cases step with
        ⟨others, reading, enough, rfl⟩ | ⟨length, others, reading, enough, rfl⟩
      · cases awaits.alone reading
        exact received.headerRead reading enough
      · cases awaits.alone reading
        exact received.dataRead reading enough
  | fail =>
      simp only [arrived, List.append_nil]
      rcases received.position with ⟨held, awaits, streamEq⟩
      simp only [Step, Reader.step, fail] at step
      split at step
      · cases step
      · cases step
        refine ⟨frames, received.areFrames, received.pushed, held, ?_, streamEq⟩
        exact .nothing rfl (awaits.alone ‹_›)

theorem received_of_trace [Inhabited T] {self : ConnRef} {m_Type : ConnectType}
    {actions : List Action} {conn : Reader T}
    (trace : Trace Step (connected self m_Type) actions conn) :
    ∃ frames, conn.Received (arrived actions) frames := by
  refine trace.snoc_induction
    (motive := fun actions conn => ∃ frames, conn.Received (arrived actions) frames)
    ⟨[], received_connected self m_Type⟩ ?_
  intro before middle action next _ sofar step
  rcases sofar with ⟨frames, received⟩
  rw [arrived_append]
  exact received.step step

theorem Received.consumes {conn next : Reader T} {stream : List UInt8}
    {frames : List (List UInt8 × List UInt8)} (received : conn.Received stream frames)
    (ready : conn.complete = some next) : next.unread.length < conn.unread.length := by
  rcases received.position with ⟨held, awaits, _⟩
  rcases complete_cases ready with
    ⟨others, reading, enough, rfl⟩ | ⟨length, others, reading, enough, rfl⟩
  · have positive : 0 < HeaderLayout.sizeof T := HeaderLayout.sizeof_pos
    rw [headerRead_unread, List.length_drop]
    omega
  · have positive : 0 < length := by
      generalize frames.foldl bodyAfter [] = stale at awaits
      cases awaits with
      | header _ other => rw [reading] at other; cases other
      | nothing _ other => rw [reading] at other; cases other
      | data _ _ nonempty _ other =>
          rw [reading] at other
          cases other
          exact nonempty
    change (conn.unread.drop length).length < conn.unread.length
    rw [List.length_drop]
    omega

theorem Received.settled {conn : Reader T} {stream : List UInt8}
    {frames : List (List UInt8 × List UInt8)} (received : conn.Received stream frames)
    (handlers : Nat) (enough : conn.unread.length ≤ handlers) :
    (settleWithin handlers conn).complete = none ∧
      ∃ later, (settleWithin handlers conn).Received stream later := by
  induction handlers generalizing conn frames with
  | zero =>
      refine ⟨?_, frames, received⟩
      cases ready : conn.complete with
      | none => exact ready
      | some next =>
          have consumed := received.consumes ready
          omega
  | succ handlers induction =>
      cases ready : conn.complete with
      | none =>
          rw [settleWithin, ready]
          exact ⟨ready, frames, received⟩
      | some next =>
          have consumed := received.consumes ready
          have step : Step conn .complete next := ready
          rcases received.step step with ⟨later, nextReceived⟩
          rw [settleWithin, ready]
          simp only [arrived, List.append_nil] at nextReceived
          exact induction nextReceived (by omega)

/-- An open connection with no handler ready has consumed exactly the frames of
the greedy parse. -/
theorem Received.frames_eq {conn : Reader T} {stream : List UInt8}
    {frames : List (List UInt8 × List UInt8)} (received : conn.Received stream frames)
    (open_ : conn.socketOpen = true) (quiet : conn.complete = none) :
    frames = ((format T).parse stream).1 := by
  rcases received.position with ⟨held, awaits, streamEq⟩
  have remainder : ((format T).parse (held ++ conn.unread)).1 = [] := by
    generalize frames.foldl bodyAfter [] = stale at awaits
    cases awaits with
    | header _ reading =>
        have short : conn.unread.length < HeaderLayout.sizeof T := by
          simpa [complete, reading] using quiet
        rw [List.nil_append, (format T).parse_of_short short]
    | data _ length _ _ reading =>
        have short : conn.unread.length < (format T).bodyLength held := by
          simpa [complete, reading] using quiet
        rw [(format T).parse_of_truncated length short]
    | nothing closed _ =>
        rw [open_] at closed
        cases closed
  rw [streamEq, (format T).parse_frames frames received.areFrames, remainder,
    List.append_nil]

/-- However the stream is cut up and whenever the handlers run, as long as no
read fails, the packets pushed are those of the frames in the stream. -/
theorem settle_m_PktIn [Inhabited T] {self : ConnRef} {m_Type : ConnectType}
    {actions : List Action} {conn : Reader T}
    (trace : Trace Step (connected self m_Type) actions conn) (noError : .fail ∉ actions) :
    conn.settle.m_PktIn =
      (deliveries [] ((format T).parse (arrived actions)).1).map
        fun pkt => ⟨conn.settle.connectionPtr, pkt⟩ := by
  rcases received_of_trace trace with ⟨frames, received⟩
  rcases received.settled conn.unread.length le_rfl with ⟨quiet, later, settled⟩
  rcases trace_settleWithin conn.unread.length conn with ⟨completions, more, only⟩
  have open_ : conn.settle.socketOpen = true := by
    apply socketOpen_of_trace more
    · intro member
      cases only _ member
    · exact socketOpen_of_trace trace noError rfl
  rw [← settled.frames_eq open_ quiet]
  exact settled.pushed

theorem length_body_of_deliveries {stale : List UInt8} {frames : List (List UInt8 × List UInt8)}
    (areFrames : ∀ frame ∈ frames, (format T).IsFrame frame) (fits : stale.length < 2 ^ 32) :
    ∀ pkt ∈ (deliveries stale frames : List (Packet T)), pkt.body.length < 2 ^ 32 := by
  induction frames generalizing stale with
  | nil => simp [deliveries]
  | cons frame frames induction =>
      have isFrame := areFrames frame List.mem_cons_self
      have fitsAfter : (bodyAfter stale frame).length < 2 ^ 32 := by
        unfold bodyAfter
        split
        · exact fits
        · rw [isFrame.2]
          exact UInt32.toNat_lt _
      intro pkt member
      rcases List.mem_cons.mp member with rfl | later
      · exact fitsAfter
      · exact induction (fun other inFrames => areFrames other (List.mem_cons_of_mem _ inFrames))
          fitsAfter pkt later

end Run

/-! ## Packets sent as their frames -/

section Packets

variable {T : Type} [HeaderLayout T]

theorem isFrame_of_consistent {pkt : Packet T} (consistent : pkt.Consistent)
    (padding : HeaderLayout.Padding T) :
    (format T).IsFrame (HeaderLayout.toBytes padding pkt.header, pkt.body) := by
  refine ⟨HeaderLayout.length_toBytes padding pkt.header, ?_⟩
  simp only [format, HeaderLayout.ofBytes_toBytes]
  exact consistent.symm

/-- Delivery in terms of the packets sent: those without a body get the body
left over from before. -/
def redelivered (stale : List UInt8) : List (Packet T) → List (Packet T)
  | [] => []
  | pkt :: pkts =>
      let body := if pkt.body = [] then stale else pkt.body
      { pkt with body } :: redelivered body pkts

theorem deliveries_frames (stale : List UInt8)
    (sent : List (Packet T × HeaderLayout.Padding T)) :
    deliveries stale (sent.map fun packet =>
        (HeaderLayout.toBytes packet.2 packet.1.header, packet.1.body)) =
      redelivered stale (sent.map Prod.fst) := by
  induction sent generalizing stale with
  | nil => rfl
  | cons packet sent induction =>
      simp only [List.map_cons, deliveries, bodyAfter, redelivered, induction,
        HeaderLayout.ofBytes_toBytes]

def EmptyBodiesFirst (pkts : List (Packet T)) : Prop :=
  pkts.Pairwise fun earlier later => later.body = [] → earlier.body = []

instance (pkts : List (Packet T)) : Decidable (EmptyBodiesFirst pkts) :=
  inferInstanceAs (Decidable (pkts.Pairwise _))

omit [HeaderLayout T] in
theorem redelivered_eq_iff (stale : List UInt8) (pkts : List (Packet T)) :
    redelivered stale pkts = pkts ↔
      (∀ pkt ∈ pkts, pkt.body = [] → stale = []) ∧ EmptyBodiesFirst pkts := by
  induction pkts generalizing stale with
  | nil => simp [redelivered, EmptyBodiesFirst]
  | cons pkt pkts induction =>
      unfold EmptyBodiesFirst at induction ⊢
      by_cases isEmpty : pkt.body = []
      · have sameBody : ({ pkt with body := stale } : Packet T) = pkt ↔ stale = [] := by
          rw [Packet.ext_iff]
          simp [isEmpty]
        simp only [redelivered, isEmpty, if_true, List.cons.injEq, sameBody, induction,
          List.pairwise_cons, List.forall_mem_cons, true_implies, implies_true, true_and]
        constructor
        · rintro ⟨noStale, _, ordered⟩
          exact ⟨⟨noStale, fun _ _ _ => noStale⟩, ordered⟩
        · rintro ⟨⟨noStale, later⟩, ordered⟩
          exact ⟨noStale, later, ordered⟩
      · simp only [redelivered, isEmpty, if_false, List.cons.injEq, true_and, induction,
          List.pairwise_cons, List.forall_mem_cons, false_implies]
        constructor
        · rintro ⟨noneEmpty, ordered⟩
          refine ⟨?_, ?_, ordered⟩
          · intro later member laterEmpty
            exact (noneEmpty later member laterEmpty).elim
          · intro later member laterEmpty
            exact (noneEmpty later member laterEmpty).elim
        · rintro ⟨_, noneEmpty, ordered⟩
          exact ⟨fun later member laterEmpty =>
            (noneEmpty later member laterEmpty).elim, ordered⟩

end Packets

/-- A connection that has received the frames of a list of packets, in any
pieces, delivers that list exactly when no packet without a body comes after
one with a body. -/
theorem settle_delivers_iff (sent : List (Packet CMD × HeaderLayout.Padding CMD))
    (consistent : ∀ packet ∈ sent, packet.1.Consistent)
    {self : ConnRef} {m_Type : ConnectType} {actions : List Action} {conn : Reader CMD}
    (trace : Trace Step (connected self m_Type) actions conn) (noError : .fail ∉ actions)
    (stream : arrived actions = (sent.map fun packet => packet.1.frame packet.2).flatten) :
    conn.settle.complete = none ∧
      (conn.settle.m_PktIn.map OwnedPacket.pkt = sent.map Prod.fst ↔
        EmptyBodiesFirst (sent.map Prod.fst)) := by
  constructor
  · rcases received_of_trace trace with ⟨_, received⟩
    exact (received.settled conn.unread.length le_rfl).1
  · let frames := sent.map fun packet =>
      (HeaderLayout.toBytes packet.2 packet.1.header, packet.1.body)
    have areFrames : ∀ frame ∈ frames, (format CMD).IsFrame frame := by
      intro frame member
      rcases List.mem_map.mp member with ⟨packet, packetMember, rfl⟩
      exact isFrame_of_consistent (consistent packet packetMember) packet.2
    have parsed : ((format CMD).parse (arrived actions)).1 = frames := by
      have framesStream : arrived actions =
          (frames.map fun frame => frame.1 ++ frame.2).flatten ++ [] := by
        rw [stream, List.append_nil, List.map_map]
        rfl
      have nothingLeft : (format CMD).parse [] = ([], []) :=
        (format CMD).parse_of_short (format CMD).headerLength_pos
      rw [framesStream, (format CMD).parse_frames frames areFrames, nothingLeft,
        List.append_nil]
    rw [settle_m_PktIn trace noError, parsed, List.map_map]
    have unowned : (OwnedPacket.pkt ∘ fun pkt : Packet CMD =>
        (⟨conn.settle.connectionPtr, pkt⟩ : OwnedPacket CMD)) = id := rfl
    rw [unowned, List.map_id, deliveries_frames, redelivered_eq_iff]
    simp

theorem settle_delivers_two_pieces :
    let enter : Packet CMD := ⟨⟨.SelfEnterWorld, 0⟩, []⟩
    let ping : Packet CMD := ⟨⟨.Ping, 2⟩, [7, 9]⟩
    let stream := enter.frame (513 : UInt16) ++ ping.frame (0 : UInt16)
    let actions : List Action :=
      [.arrive (stream.take 11), .complete, .arrive (stream.drop 11), .complete]
    ∃ conn : Reader CMD, Trace Step (connected 3 .Server) actions conn ∧
      conn.settle.complete = none ∧
      (conn.settle.m_PktIn.map OwnedPacket.pkt = [enter, ping] ↔
        EmptyBodiesFirst [enter, ping]) := by
  intro enter ping stream actions
  have performed : (runSteps step (connected 3 .Server : Reader CMD) actions).isSome := by
    decide
  have trace : Trace Step (connected 3 .Server : Reader CMD) actions _ :=
    Trace.of_run (Option.some_get performed).symm
  exact ⟨_, trace, settle_delivers_iff [(enter, (513 : UInt16)), (ping, (0 : UInt16))]
    (by decide) trace (by decide) (by decide)⟩

/-- A packet without a body that follows one with a body is delivered with that
body. -/
theorem emptyPacket_delivered_with_earlier_body :
    let ping : Packet CMD := ⟨⟨.Ping, 1⟩, [7]⟩
    let enter : Packet CMD := ⟨⟨.SelfEnterWorld, 0⟩, []⟩
    let stream := ping.frame (0 : UInt16) ++ enter.frame (0 : UInt16)
    ping.Consistent ∧ enter.Consistent ∧
      ∃ conn : Reader CMD, Trace Step (connected 3 .Server) [.arrive stream] conn ∧
        conn.settle.complete = none ∧
        conn.settle.m_PktIn = [⟨some 3, ping⟩, ⟨some 3, ⟨⟨.SelfEnterWorld, 0⟩, [7]⟩⟩] ∧
        conn.settle.m_PktIn.map OwnedPacket.pkt ≠ [ping, enter] :=
  ⟨by decide, by decide, _, .cons rfl (.nil _), rfl, by decide, by decide⟩

end Reader

end GNL
