import GNL.Common.TCPConnection.Delivery

/-! # The read loop accepts whole frames

The packets a reader pushes, and the bytes it takes for each, are those of the
greedy parse of what it was given before its first error. A frame that is cut off
is not pushed, and after the error nothing is read.
-/

namespace GNL.Reader

variable {T : Type} [HeaderLayout T]

def wanted (conn : Reader T) : Nat :=
  match conn.reading with
  | [] => 0
  | .header :: _ => HeaderLayout.sizeof T
  | .data length :: _ => length

def takes (conn : Reader T) : Action → List UInt8
  | .complete => conn.unread.take conn.wanted
  | _ => []

/-- What a run takes from the stream for each packet it pushes, and what it has
taken since the last of them; `held` was taken before it. -/
def taken : Reader T → List UInt8 → List Action → List (List UInt8) × List UInt8
  | _, held, [] => ([], held)
  | conn, held, action :: actions =>
      match conn.step action with
      | none => ([], held)
      | some next =>
          let held := held ++ conn.takes action
          if conn.m_PktIn.length < next.m_PktIn.length then
            let later := taken next [] actions
            (held :: later.1, later.2)
          else
            taken next held actions

theorem taken_append {first middle : Reader T} {before after : List Action}
    (front : Trace Step first before middle) (held : List UInt8) :
    first.taken held (before ++ after) =
      let earlier := first.taken held before
      let later := middle.taken earlier.2 after
      (earlier.1 ++ later.1, later.2) := by
  induction front generalizing held with
  | nil => rfl
  | @cons current next _ action before step _ induction =>
      have isNext : current.step action = some next := step
      simp only [List.cons_append, taken, isNext]
      split
      · rw [induction]
        rfl
      · rw [induction]

theorem length_deliveries (stale : List UInt8)
    (frames : List (List UInt8 × List UInt8)) :
    (deliveries stale frames : List (Packet T)).length = frames.length := by
  induction frames generalizing stale with
  | nil => rfl
  | cons frame frames induction => rw [deliveries, List.length_cons, induction, List.length_cons]

theorem header_deliveries (stale : List UInt8) (frames : List (List UInt8 × List UInt8)) :
    (deliveries stale frames : List (Packet T)).map Packet.header =
      frames.map fun frame => HeaderLayout.ofBytes frame.1 := by
  induction frames generalizing stale with
  | nil => rfl
  | cons frame frames induction => rw [deliveries, List.map_cons, induction, List.map_cons]

theorem complete_pushes {conn next : Reader T} (ready : conn.complete = some next) :
    conn.unread = conn.takes .complete ++ next.unread ∧
      (next.m_PktIn.length = conn.m_PktIn.length + 1 ∧ .header ∈ next.reading ∨
        next.m_PktIn.length = conn.m_PktIn.length) := by
  rcases complete_cases ready with
    ⟨others, reading, -, rfl⟩ | ⟨length, others, reading, -, rfl⟩
  · constructor
    · rw [headerRead_unread, takes, wanted, reading, List.take_append_drop]
    · unfold headerRead
      dsimp only
      split
      · exact .inr rfl
      · exact .inl ⟨by simp [PushToIncomingQueue, ReadHeader], by
          simp [PushToIncomingQueue, ReadHeader]⟩
  · constructor
    · rw [takes, wanted, reading]
      exact (List.take_append_drop length conn.unread).symm
    · exact .inl ⟨by simp [dataRead, PushToIncomingQueue, ReadHeader], by
        simp [dataRead, PushToIncomingQueue, ReadHeader]⟩

theorem Awaits.length_reading {conn : Reader T} {held stale : List UInt8}
    (awaits : conn.Awaits held stale) : conn.reading.length ≤ 1 := by
  cases awaits with
  | header _ reading => simp [reading]
  | data _ _ _ _ reading => simp [reading]
  | nothing _ reading => simp [reading]

theorem Awaits.length_reading_of_open {conn : Reader T} {held stale : List UInt8}
    (awaits : conn.Awaits held stale) (open_ : conn.socketOpen = true) :
    conn.reading.length = 1 := by
  cases awaits with
  | header _ reading => rw [reading, List.length_singleton]
  | data _ _ _ _ reading => rw [reading, List.length_singleton]
  | nothing closed _ =>
      rw [open_] at closed
      contradiction

namespace Received

variable {conn next : Reader T} {stream more : List UInt8}
  {frames later : List (List UInt8 × List UInt8)}

theorem length_frames (received : conn.Received stream frames) :
    frames.length = conn.m_PktIn.length := by
  rw [received.pushed, List.length_map, length_deliveries]

theorem frames_prefix (received : conn.Received stream frames) (more : List UInt8) :
    frames <+: ((format T).parse (stream ++ more)).1 := by
  rcases received.position with ⟨held, -, streamEq⟩
  rw [streamEq, List.append_assoc, (format T).parse_frames frames received.areFrames]
  exact List.prefix_append _ _

theorem frames_prefix_later (received : conn.Received stream frames)
    (receivedLater : next.Received (stream ++ more) later)
    (notFewer : conn.m_PktIn.length ≤ next.m_PktIn.length) : frames <+: later := by
  have prefixLater := receivedLater.frames_prefix []
  rw [List.append_nil] at prefixLater
  apply List.prefix_of_prefix_length_le (received.frames_prefix more) prefixLater
  rw [receivedLater.length_frames, received.length_frames]
  exact notFewer

theorem frames_eq_of_length (received : conn.Received stream frames)
    (receivedLater : next.Received (stream ++ more) later)
    (sameLength : next.m_PktIn.length = conn.m_PktIn.length) : later = frames := by
  apply ((received.frames_prefix_later receivedLater sameLength.ge).eq_of_length _).symm
  rw [receivedLater.length_frames, received.length_frames, sameLength]

theorem frames_snoc_of_length (received : conn.Received stream frames)
    (receivedLater : next.Received (stream ++ more) later)
    (onePushed : next.m_PktIn.length = conn.m_PktIn.length + 1) :
    ∃ frame, later = frames ++ [frame] := by
  rcases received.frames_prefix_later receivedLater (by omega) with ⟨rest, rejoined⟩
  have lengths := congrArg List.length rejoined
  rw [List.length_append, receivedLater.length_frames, received.length_frames, onePushed] at lengths
  rcases List.length_eq_one_iff.mp (show rest.length = 1 by omega) with ⟨frame, rfl⟩
  exact ⟨frame, rejoined.symm⟩

theorem stream_eq_of_header (received : conn.Received stream frames)
    (readsHeader : .header ∈ conn.reading) :
    stream = (frames.map fun frame => frame.1 ++ frame.2).flatten ++ conn.unread := by
  rcases received.position with ⟨held, awaits, streamEq⟩
  generalize frames.foldl bodyAfter [] = stale at awaits
  cases awaits with
  | header => exact streamEq
  | data _ _ _ _ reading => simp [reading] at readsHeader
  | nothing _ reading => simp [reading] at readsHeader

end Received

/-- A reader and what its run took: the frames it consumed, one piece for each
packet, and the bytes of a frame that is not whole yet. -/
structure Took (conn : Reader T) (stream : List UInt8) (frames : List (List UInt8 × List UInt8))
    (pieces : List (List UInt8) × List UInt8) : Prop where
  received : conn.Received stream frames
  perFrame : pieces.1 = frames.map fun frame => frame.1 ++ frame.2
  rejoined : stream = pieces.1.flatten ++ (pieces.2 ++ conn.unread)

namespace Took

variable {start conn next : Reader T} {actions : List Action} {stream : List UInt8}
  {frames : List (List UInt8 × List UInt8)} {pieces : List (List UInt8) × List UInt8}

theorem awaits (took : conn.Took stream frames pieces) :
    conn.Awaits pieces.2 (frames.foldl bodyAfter []) := by
  rcases took.received.position with ⟨held, awaits, streamEq⟩
  have same : pieces.2 = held := by
    have rejoined := took.rejoined.symm.trans streamEq
    rw [took.perFrame, List.append_cancel_left_eq] at rejoined
    exact List.append_cancel_right rejoined
  rw [same]
  exact awaits

theorem step {action : Action} (front : Trace Step start actions conn)
    (took : conn.Took stream frames (start.taken [] actions)) (step : Step conn action next) :
    ∃ later, next.Took (stream ++ arrived [action]) later
      (start.taken [] (actions ++ [action])) := by
  rcases took.received.step step with ⟨later, received⟩
  have takenLater : start.taken [] (actions ++ [action]) = _ := taken_append front []
  rw [takenLater]
  have isNext : conn.step action = some next := step
  cases action with
  | arrive bytes =>
      cases step
      have sameFrames := took.received.frames_eq_of_length received rfl
      subst sameFrames
      refine ⟨later, received, ?_, ?_⟩
      · simpa [taken, isNext] using took.perFrame
      · simp [taken, Reader.step, takes, arrived, took.rejoined]
  | fail =>
      have sameRest : next.m_PktIn = conn.m_PktIn ∧ next.unread = conn.unread := by
        simp only [Step, Reader.step, fail] at step
        split at step
        · contradiction
        · cases step
          exact ⟨rfl, rfl⟩
      have sameFrames := took.received.frames_eq_of_length received
        (congrArg List.length sameRest.1)
      subst sameFrames
      refine ⟨later, received, ?_, ?_⟩
      · simpa [taken, isNext, sameRest.1] using took.perFrame
      · simpa [taken, isNext, sameRest, takes, arrived] using took.rejoined
  | complete =>
      rcases complete_pushes step with ⟨unread, ⟨onePushed, readsHeader⟩ | nonePushed⟩
      · rcases took.received.frames_snoc_of_length received onePushed with ⟨frame, rfl⟩
        have pushed : conn.m_PktIn.length < next.m_PktIn.length := by omega
        have whole : frame.1 ++ frame.2 =
            (start.taken [] actions).2 ++ conn.takes .complete := by
          have rejoined := took.rejoined
          have consumed := received.stream_eq_of_header readsHeader
          rw [rejoined, unread] at consumed
          have alike : frame.1 ++ frame.2 ++ next.unread =
              (start.taken [] actions).2 ++ conn.takes .complete ++ next.unread := by
            simpa [arrived, took.perFrame] using consumed.symm
          exact List.append_cancel_right alike
        refine ⟨frames ++ [frame], received, ?_, ?_⟩
        · simp [taken, isNext, pushed, whole, took.perFrame]
        · have rejoined := took.rejoined
          rw [unread] at rejoined
          simp [taken, isNext, pushed, rejoined, arrived]
      · have sameFrames := took.received.frames_eq_of_length received nonePushed
        subst sameFrames
        have notPushed : ¬conn.m_PktIn.length < next.m_PktIn.length := by omega
        refine ⟨later, received, ?_, ?_⟩
        · simpa [taken, isNext, notPushed] using took.perFrame
        · have rejoined := took.rejoined
          rw [unread] at rejoined
          simp [taken, isNext, notPushed, rejoined, arrived]

theorem parse_cut (took : conn.Took stream frames pieces) (open_ : conn.socketOpen = true)
    {cut : List UInt8} (short : cut.length < conn.wanted) :
    ((format T).parse (pieces.1.flatten ++ pieces.2 ++ cut)).1 = frames := by
  have remainder : ((format T).parse (pieces.2 ++ cut)).1 = [] := by
    have awaits := took.awaits
    generalize pieces.2 = held, frames.foldl bodyAfter [] = stale at awaits
    cases awaits with
    | header _ reading =>
        rw [wanted, reading] at short
        rw [List.nil_append, (format T).parse_of_short short]
    | data _ length _ _ reading =>
        rw [wanted, reading] at short
        rw [(format T).parse_of_truncated length short]
    | nothing closed _ =>
        rw [open_] at closed
        contradiction
  rw [took.perFrame, List.append_assoc, (format T).parse_frames frames took.received.areFrames,
    remainder, List.append_nil]

end Took

theorem took_of_trace [Inhabited T] {self : ConnRef} {m_Type : ConnectType}
    {actions : List Action} {conn : Reader T}
    (trace : Trace Step (connected self m_Type) actions conn) :
    ∃ frames, conn.Took (arrived actions) frames
      ((connected self m_Type : Reader T).taken [] actions) := by
  apply trace.snoc_induction (motive := fun actions conn =>
    ∃ frames, conn.Took (arrived actions) frames
      ((connected self m_Type : Reader T).taken [] actions))
  · exact ⟨[], received_connected self m_Type, rfl, rfl⟩
  · intro before middle action next front sofar step
    rcases sofar with ⟨frames, took⟩
    rw [arrived_append]
    exact took.step front step

theorem Received.headers {conn : Reader T} {stream : List UInt8}
    {frames : List (List UInt8 × List UInt8)} (received : conn.Received stream frames) :
    conn.m_PktIn.map (fun owned => owned.pkt.header) =
      frames.map fun frame => HeaderLayout.ofBytes frame.1 := by
  rw [received.pushed, List.map_map, ← header_deliveries []]
  rfl

theorem stopped_of_trace {conn last : Reader T} {actions : List Action}
    (trace : Trace Step conn actions last) (closed : conn.socketOpen = false)
    (stopped : conn.reading = []) :
    last.socketOpen = false ∧ last.reading = [] ∧ last.m_PktIn = conn.m_PktIn := by
  apply trace.snoc_induction (motive := fun _ last =>
    last.socketOpen = false ∧ last.reading = [] ∧ last.m_PktIn = conn.m_PktIn)
  · exact ⟨closed, stopped, rfl⟩
  · intro before middle action next _ still step
    cases action with
    | arrive bytes =>
        cases step
        exact still
    | complete => simp [Step, Reader.step, complete, still.2.1] at step
    | fail => simp [Step, Reader.step, fail, still.2.1] at step

theorem stopped_of_fail [Inhabited T] {self : ConnRef} {m_Type : ConnectType}
    {before after : List Action} {conn last : Reader T}
    (front : Trace Step (connected self m_Type) before conn)
    (back : Trace Step conn (.fail :: after) last) :
    last.socketOpen = false ∧ last.reading = [] ∧ last.m_PktIn = conn.m_PktIn := by
  rcases received_of_trace front with ⟨frames, received⟩
  rcases received.position with ⟨held, awaits, -⟩
  cases back with
  | cons step rest =>
      simp only [Step, Reader.step, fail] at step
      split at step
      · contradiction
      next reading =>
        cases step
        have stopped := stopped_of_trace rest rfl (awaits.alone reading)
        exact stopped

/-- Before its first error a reader is open, waits for one read, and has taken
from the stream, packet by packet, what the greedy parse takes. The parse is of
what was consumed and of any `cut` that was too short for the outstanding read:
with an end of the stream in place of more bytes that is everything that arrived.
After the error it is closed, reads nothing and pushes nothing. -/
theorem accepts_whole_frames [Inhabited T] {self : ConnRef} {m_Type : ConnectType}
    {actions : List Action} {conn : Reader T}
    (trace : Trace Step (connected self m_Type) actions conn) :
    conn.reading.length ≤ 1 ∧
      ∀ before after, actions = before ++ after → .fail ∉ before →
        ∃ middle, Trace Step (connected self m_Type) before middle ∧
          Trace Step middle after conn ∧
          middle.socketOpen = true ∧ middle.reading.length = 1 ∧
          (∃ consumed, arrived before = consumed ++ middle.unread ∧
            ∀ cut, cut <+: middle.unread → cut.length < middle.wanted →
              let frames := ((format T).parse (consumed ++ cut)).1
              ((connected self m_Type : Reader T).taken [] before).1 =
                  frames.map (fun frame => frame.1 ++ frame.2) ∧
                middle.m_PktIn.map (fun owned => owned.pkt.header) =
                  frames.map fun frame => HeaderLayout.ofBytes frame.1) ∧
          (middle.settle.complete = none ∧
            middle.settle.m_PktIn.map (fun owned => owned.pkt.header) =
              ((format T).parse (arrived before)).1.map
                fun frame => HeaderLayout.ofBytes frame.1) ∧
          (after.head? = some .fail →
            conn.socketOpen = false ∧ conn.reading = [] ∧ conn.m_PktIn = middle.m_PktIn) := by
  constructor
  · rcases received_of_trace trace with ⟨frames, received⟩
    rcases received.position with ⟨held, awaits, -⟩
    exact awaits.length_reading
  · rintro before after rfl noError
    rcases trace.split with ⟨middle, front, back⟩
    have open_ : middle.socketOpen = true := socketOpen_of_trace front noError rfl
    rcases took_of_trace front with ⟨frames, took⟩
    refine ⟨middle, front, back, open_, took.awaits.length_reading_of_open open_, ?_, ?_, ?_⟩
    · let pieces := (connected self m_Type : Reader T).taken [] before
      refine ⟨pieces.1.flatten ++ pieces.2, by simpa using took.rejoined, ?_⟩
      intro cut _ short
      have parsed := took.parse_cut open_ short
      dsimp only
      rw [parsed]
      exact ⟨took.perFrame, took.received.headers⟩
    · rcases took.received.settled middle.unread.length le_rfl with ⟨quiet, later, settled⟩
      rcases trace_settleWithin middle.unread.length middle with ⟨completions, more, only⟩
      have stillOpen : middle.settle.socketOpen = true := by
        apply socketOpen_of_trace more _ open_
        intro member
        cases only _ member
      refine ⟨quiet, ?_⟩
      rw [← settled.frames_eq stillOpen quiet]
      exact settled.headers
    · intro fails
      rcases List.head?_eq_some_iff.mp fails with ⟨rest, rfl⟩
      exact stopped_of_fail front back

theorem accepts_whole_frames_cut_off :
    let ping : Packet CMD := ⟨⟨.Ping, 2⟩, [7, 9]⟩
    let before : List Action :=
      [.arrive (ping.frame (0 : UInt16)), .complete, .complete, .arrive [4, 0, 0, 0, 1]]
    let after : List Action := [.fail, .arrive [0, 0, 0]]
    ∃ conn : Reader CMD, Trace Step (connected 3 .Server) (before ++ after) conn ∧
      conn.reading.length ≤ 1 ∧ conn.socketOpen = false ∧ conn.reading = [] ∧
      ∃ middle : Reader CMD, Trace Step (connected 3 .Server) before middle ∧
        conn.m_PktIn = middle.m_PktIn := by
  intro ping before after
  have performed : (runSteps step (connected 3 .Server : Reader CMD) (before ++ after)).isSome := by
    decide
  have trace : Trace Step (connected 3 .Server : Reader CMD) (before ++ after) _ :=
    Trace.of_run (Option.some_get performed).symm
  rcases accepts_whole_frames trace with ⟨oneRead, onPrefix⟩
  rcases onPrefix before after rfl (by decide) with
    ⟨middle, front, -, -, -, -, -, afterFail⟩
  rcases afterFail rfl with ⟨closed, stopped, kept⟩
  exact ⟨_, trace, oneRead, closed, stopped, middle, front, kept⟩

end GNL.Reader
