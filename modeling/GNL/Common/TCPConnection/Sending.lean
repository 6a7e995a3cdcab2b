import GNL.Common.TCPConnection.Writer

/-! # What a connection writes

The bytes on the socket are at every moment a prefix of the frames of the
packets in the order they were posted. The write loop needs no flag for this:
whether a write is in flight can be read off the outgoing queue, which keeps the
packet being written at its front until its last byte is out, and keeps it there
for good after a failure.
-/

namespace GNL

namespace Writer

section Progress

variable {T : Type} [HeaderLayout T] {padding : Nat → HeaderLayout.Padding T}

theorem frames_concat (pkts : List (Packet T)) (pkt : Packet T) :
    frames padding (pkts ++ [pkt]) =
      frames padding pkts ++ pkt.frame (padding pkts.length) := by
  simp [frames, List.mapIdx_append]

theorem frames_prefix (first second : List (Packet T)) :
    frames padding first <+: frames padding (first ++ second) := by
  simp [frames, List.mapIdx_append]

omit [HeaderLayout T] in
theorem sent_append (before after : List (Action T)) :
    sent (before ++ after) = sent before ++ sent after := by
  induction before with
  | nil => rfl
  | cons action before induction => cases action <;> simp [sent, induction]

inductive Progress (padding : Nat → HeaderLayout.Padding T) (conn : Writer T) : Prop
  | quiet (queue : conn.m_PktOut = []) (writing : conn.writing = [])
      (written : conn.written = frames padding conn.popped)
  | header (front : Packet T) (rest : List (Packet T)) (out remaining : List UInt8)
      (queue : conn.m_PktOut = front :: rest)
      (writing : conn.writing = [⟨.header, remaining⟩])
      (buffer : out ++ remaining =
        HeaderLayout.toBytes (padding conn.popped.length) front.header)
      (written : conn.written = frames padding conn.popped ++ out)
  | data (front : Packet T) (rest : List (Packet T)) (out remaining : List UInt8)
      (queue : conn.m_PktOut = front :: rest)
      (writing : conn.writing = [⟨.data, remaining⟩])
      (buffer : out ++ remaining = front.body)
      (written : conn.written = frames padding conn.popped ++
        (HeaderLayout.toBytes (padding conn.popped.length) front.header ++ out))
  | failed (front : Packet T) (rest : List (Packet T)) (out : List UInt8)
      (queue : conn.m_PktOut = front :: rest) (writing : conn.writing = [])
      (started : out <+: front.frame (padding conn.popped.length))
      (written : conn.written = frames padding conn.popped ++ out)

/-- The state of a connection after `SendPacket` has posted `pkts`. -/
structure Sending (padding : Nat → HeaderLayout.Padding T) (conn : Writer T)
    (pkts : List (Packet T)) : Prop where
  order : conn.popped ++ conn.m_PktOut ++ conn.posted = pkts
  progress : Progress padding conn

theorem Sending.written_prefix {conn : Writer T} {pkts : List (Packet T)}
    (sending : Sending padding conn pkts) : conn.written <+: frames padding pkts := by
  rw [← sending.order]
  have throughFront : ∀ front rest out, conn.m_PktOut = front :: rest →
      out <+: front.frame (padding conn.popped.length) →
      frames padding conn.popped ++ out <+:
        frames padding (conn.popped ++ conn.m_PktOut ++ conn.posted) := by
    intro front rest out queue started
    have upToFront : frames padding (conn.popped ++ [front]) <+:
        frames padding (conn.popped ++ [front] ++ (rest ++ conn.posted)) :=
      frames_prefix _ _
    rw [frames_concat] at upToFront
    rw [queue]
    simp only [List.append_assoc, List.cons_append] at upToFront ⊢
    exact ((List.prefix_append_right_inj _).mpr started).trans upToFront
  cases sending.progress with
  | quiet queue _ written =>
      rw [written, List.append_assoc]
      exact frames_prefix _ _
  | header front rest out remaining queue _ buffer written =>
      rw [written]
      apply throughFront front rest out queue
      rw [Packet.frame, ← buffer, List.append_assoc]
      exact List.prefix_append _ _
  | data front rest out remaining queue _ buffer written =>
      rw [written]
      apply throughFront front rest _ queue
      rw [Packet.frame, ← buffer, ← List.append_assoc]
      exact List.prefix_append _ _
  | failed front rest out queue _ started written =>
      rw [written]
      exact throughFront front rest out queue started

theorem sending_idle : Sending padding (idle : Writer T) [] where
  order := rfl
  progress := .quiet rfl rfl rfl

theorem WriteHeader_sending {conn : Writer T} {pkts : List (Packet T)}
    {front : Packet T} {rest : List (Packet T)}
    (order : conn.popped ++ conn.m_PktOut ++ conn.posted = pkts)
    (queue : conn.m_PktOut = front :: rest) (writing : conn.writing = [])
    (written : conn.written = frames padding conn.popped) :
    ∃ next, conn.WriteHeader padding = .ok next ∧ Sending padding next pkts := by
  refine ⟨_, WriteHeader_of_cons padding queue, order, ?_⟩
  apply Progress.header front rest []
    (HeaderLayout.toBytes (padding conn.popped.length) front.header)
  · exact queue
  · simp [writing]
  · rfl
  · simp [written]

theorem writeNext_sending {conn : Writer T} {pkts : List (Packet T)}
    (front : Packet T) (rest : List (Packet T))
    (order : conn.popped ++ conn.m_PktOut ++ conn.posted = pkts)
    (queue : conn.m_PktOut = front :: rest) (writing : conn.writing = [])
    (written : conn.written =
      frames padding conn.popped ++ front.frame (padding conn.popped.length)) :
    ∃ next, conn.writeNext padding = .ok next ∧ Sending padding next pkts := by
  let popped : Writer T := { conn with m_PktOut := rest, popped := conn.popped ++ [front] }
  have poppedOrder : popped.popped ++ popped.m_PktOut ++ popped.posted = pkts := by
    rw [← order, queue]
    simp [popped]
  have poppedWritten : popped.written = frames padding popped.popped := by
    rw [frames_concat, ← written]
  rw [writeNext_of_cons padding queue]
  cases rest with
  | nil => exact ⟨popped, rfl, poppedOrder, .quiet rfl writing poppedWritten⟩
  | cons second others => exact WriteHeader_sending poppedOrder rfl writing poppedWritten

theorem Sending.SendPacket {conn : Writer T} {pkts : List (Packet T)}
    (sending : Sending padding conn pkts) (pkt : Packet T) :
    Sending padding { conn with posted := conn.posted ++ [pkt] } (pkts ++ [pkt]) where
  order := by rw [← sending.order, ← List.append_assoc]
  progress := by
    cases sending.progress with
    | quiet queue writing written => exact .quiet queue writing written
    | header front rest out remaining queue writing buffer written =>
        exact .header front rest out remaining queue writing buffer written
    | data front rest out remaining queue writing buffer written =>
        exact .data front rest out remaining queue writing buffer written
    | failed front rest out queue writing started written =>
        exact .failed front rest out queue writing started written

theorem Sending.enqueue {conn : Writer T} {pkts : List (Packet T)} {pkt : Packet T}
    {posted : List (Packet T)} (sending : Sending padding conn pkts)
    (waiting : conn.posted = pkt :: posted) :
    ∃ next, { conn with posted }.enqueue padding pkt = .ok next ∧
      Sending padding next pkts := by
  let queued : Writer T := { conn with posted, m_PktOut := conn.m_PktOut ++ [pkt] }
  have queuedOrder : queued.popped ++ queued.m_PktOut ++ queued.posted = pkts := by
    rw [← sending.order, waiting]
    simp [queued]
  have alreadyWriting : ∀ front rest, conn.m_PktOut = front :: rest →
      Progress padding queued →
      ∃ next, { conn with posted }.enqueue padding pkt = .ok next ∧
        Sending padding next pkts := by
    intro front rest queue progress
    exact ⟨queued, by simp [Writer.enqueue, queue, queued], queuedOrder, progress⟩
  cases sending.progress with
  | quiet queue writing written =>
      have queuedEq : queued.m_PktOut = [pkt] := by simp [queued, queue]
      rcases WriteHeader_sending queuedOrder queuedEq writing written with
        ⟨next, started, nextSending⟩
      refine ⟨next, ?_, nextSending⟩
      rw [← started]
      simp [Writer.enqueue, queue, queued]
  | header front rest out remaining queue writing buffer written =>
      apply alreadyWriting front rest queue
      exact .header front (rest ++ [pkt]) out remaining (by simp [queued, queue]) writing
        buffer written
  | data front rest out remaining queue writing buffer written =>
      apply alreadyWriting front rest queue
      exact .data front (rest ++ [pkt]) out remaining (by simp [queued, queue]) writing
        buffer written
  | failed front rest out queue writing started written =>
      apply alreadyWriting front rest queue
      exact .failed front (rest ++ [pkt]) out (by simp [queued, queue]) writing started
        written

theorem Progress.alone {conn : Writer T} {index : Nat} {write : PendingWrite}
    (progress : Progress padding conn) (inFlight : conn.writing[index]? = some write) :
    index = 0 ∧ conn.writing = [write] := by
  have single : ∀ other : PendingWrite, conn.writing = [other] →
      index = 0 ∧ conn.writing = [write] := by
    intro other writing
    rw [writing, List.getElem?_singleton] at inFlight
    split at inFlight
    · cases inFlight
      exact ⟨‹_›, writing⟩
    · cases inFlight
  cases progress with
  | quiet _ writing _ => simp [writing] at inFlight
  | header _ _ _ _ _ writing _ _ => exact single _ writing
  | data _ _ _ _ _ writing _ _ => exact single _ writing
  | failed _ _ _ _ writing _ _ => simp [writing] at inFlight

theorem Sending.transfer {conn : Writer T} {pkts : List (Packet T)} {index count : Nat}
    {kind : WriteKind} {remaining : List UInt8} (sending : Sending padding conn pkts)
    (inFlight : conn.writing[index]? = some ⟨kind, remaining⟩) :
    Sending padding { conn with
      written := conn.written ++ remaining.take count
      writing := conn.writing.set index ⟨kind, remaining.drop count⟩ } pkts where
  order := sending.order
  progress := by
    rcases sending.progress.alone inFlight with ⟨rfl, alone⟩
    cases sending.progress with
    | quiet _ writing _ => simp [writing] at alone
    | header front rest out others queue writing buffer written =>
        cases alone.symm.trans writing
        apply Progress.header front rest (out ++ remaining.take count) (remaining.drop count)
        · exact queue
        · simp [writing]
        · rw [List.append_assoc, List.take_append_drop, buffer]
        · simp [written]
    | data front rest out others queue writing buffer written =>
        cases alone.symm.trans writing
        apply Progress.data front rest (out ++ remaining.take count) (remaining.drop count)
        · exact queue
        · simp [writing]
        · rw [List.append_assoc, List.take_append_drop, buffer]
        · simp [written]
    | failed _ _ _ _ writing _ _ => simp [writing] at alone

theorem Sending.complete {conn : Writer T} {pkts : List (Packet T)} {index : Nat}
    {kind : WriteKind} (sending : Sending padding conn pkts)
    (inFlight : conn.writing[index]? = some ⟨kind, []⟩) :
    ∃ next,
      (match kind with
        | .header => { conn with writing := conn.writing.eraseIdx index }.headerWritten padding
        | .data => { conn with writing := conn.writing.eraseIdx index }.dataWritten padding) =
          .ok next ∧ Sending padding next pkts := by
  rcases sending.progress.alone inFlight with ⟨rfl, alone⟩
  have order := sending.order
  cases sending.progress with
  | quiet _ writing _ => simp [writing] at alone
  | header front rest out remaining queue writing buffer written =>
      cases alone.symm.trans writing
      rw [List.append_nil] at buffer
      simp only [headerWritten, queue, writing, List.eraseIdx_zero, List.tail_cons]
      by_cases hasBody : front.body.length > 0
      · rw [if_pos hasBody]
        refine ⟨_, rfl, ?_, ?_⟩
        · simpa [queue] using order
        · apply Progress.data front rest [] front.body
          · rfl
          · rfl
          · rfl
          · rw [List.append_nil, ← buffer]
            exact written
      · rw [if_neg hasBody]
        have noBody : front.body = [] := by simpa using hasBody
        apply writeNext_sending front rest
        · simpa [queue] using order
        · rfl
        · rfl
        · rw [Packet.frame, noBody, List.append_nil, ← buffer]
          exact written
  | data front rest out remaining queue writing buffer written =>
      cases alone.symm.trans writing
      rw [List.append_nil] at buffer
      apply writeNext_sending front rest
      · exact order
      · exact queue
      · simp [writing]
      · rw [Packet.frame, ← buffer]
        exact written
  | failed _ _ _ _ writing _ _ => simp [writing] at alone

theorem Sending.fail {conn : Writer T} {pkts : List (Packet T)} {index : Nat}
    {write : PendingWrite} (sending : Sending padding conn pkts)
    (inFlight : conn.writing[index]? = some write) :
    conn.writing.eraseIdx index = [] ∧ conn.m_PktOut ≠ [] ∧
      Sending padding { conn with
        writing := conn.writing.eraseIdx index
        socketOpen := false } pkts := by
  rcases sending.progress.alone inFlight with ⟨rfl, alone⟩
  have none : conn.writing.eraseIdx 0 = [] := by simp [alone]
  cases sending.progress with
  | quiet _ writing _ => simp [writing] at alone
  | header front rest out remaining queue writing buffer written =>
      refine ⟨none, by simp [queue], sending.order, ?_⟩
      refine .failed front rest out queue none ?_ written
      rw [Packet.frame, ← buffer, List.append_assoc]
      exact List.prefix_append _ _
  | data front rest out remaining queue writing buffer written =>
      refine ⟨none, by simp [queue], sending.order, ?_⟩
      refine .failed front rest _ queue none ?_ written
      rw [Packet.frame, ← buffer, ← List.append_assoc]
      exact List.prefix_append _ _
  | failed _ _ _ _ writing _ _ => simp [writing] at alone

theorem Sending.step {conn : Writer T} {pkts : List (Packet T)} {action : Action T}
    {result : Except Fault (Writer T)} (sending : Sending padding conn pkts)
    (step : conn.step padding action = some result) :
    ∃ next, result = .ok next ∧ Sending padding next (pkts ++ sent [action]) := by
  cases action with
  | SendPacket pkt =>
      cases step
      exact ⟨_, rfl, sending.SendPacket pkt⟩
  | runPosted =>
      simp only [Writer.step] at step
      split at step
      · cases step
      · cases step
        simpa [sent] using sending.enqueue ‹_›
  | transfer index count =>
      simp only [Writer.step] at step
      split at step
      · cases step
      · cases step
        exact ⟨_, rfl, by simpa [sent] using sending.transfer ‹_›⟩
  | complete index =>
      simp only [Writer.step] at step
      split at step
      · rename_i kind inFlight
        have finished := sending.complete inFlight
        cases kind <;> cases step <;> simpa [sent] using finished
      · cases step
  | fail index =>
      simp only [Writer.step] at step
      split at step
      · cases step
      · cases step
        exact ⟨_, rfl, by simpa [sent] using (sending.fail ‹_›).2.2⟩

theorem sending_of_trace {actions : List (Action T)} {conn : Writer T}
    (trace : Trace (Step padding) idle actions conn) :
    Sending padding conn (sent actions) := by
  refine trace.snoc_induction (motive := fun actions conn =>
    Sending padding conn (sent actions)) sending_idle ?_
  intro before middle action next _ sending step
  rcases sending.step step with ⟨other, same, nextSending⟩
  cases same
  rw [sent_append]
  exact nextSending

def Stopped (conn : Writer T) : Prop := conn.m_PktOut ≠ [] ∧ conn.writing = []

/-- Once stopped, a connection writes nothing more: every later lambda takes the
packet at the front for one that is being written. -/
theorem Stopped.step {conn next : Writer T} {action : Action T} (stopped : conn.Stopped)
    (step : Step padding conn action next) : next.Stopped ∧ next.written = conn.written := by
  rcases stopped with ⟨queue, writing⟩
  cases action with
  | SendPacket pkt =>
      cases step
      exact ⟨⟨queue, writing⟩, rfl⟩
  | runPosted =>
      simp only [Step, Writer.step] at step
      split at step
      · cases step
      · simp only [Writer.enqueue, List.isEmpty_eq_false_iff.mpr queue, Bool.not_false,
          Bool.not_true, Bool.false_eq_true, if_false, Option.some.injEq,
          Except.ok.injEq] at step
        subst step
        exact ⟨⟨by simp, writing⟩, rfl⟩
  | transfer index count => simp [Step, Writer.step, writing] at step
  | complete index => simp [Step, Writer.step, writing] at step
  | fail index => simp [Step, Writer.step, writing] at step

theorem Sending.stopped_of_fail {conn next : Writer T} {pkts : List (Packet T)} {index : Nat}
    (sending : Sending padding conn pkts) (step : Step padding conn (.fail index) next) :
    next.Stopped := by
  simp only [Step, Writer.step] at step
  split at step
  · cases step
  · cases step
    have failed := sending.fail ‹_›
    exact ⟨failed.2.1, failed.1⟩

theorem Stopped.trace {conn next : Writer T} {actions : List (Action T)}
    (trace : Trace (Step padding) conn actions next) (stopped : conn.Stopped) :
    next.written = conn.written := by
  induction trace with
  | nil => rfl
  | cons step _ induction =>
      rcases stopped.step step with ⟨nextStopped, same⟩
      rw [induction nextStopped, same]

end Progress

/-- In every interleaving of `SendPacket`, posted lambdas, and writes that make
progress, complete or fail, no step meets an empty queue, the socket holds a
prefix of the frames in posting order, and nothing is written after a failure. -/
theorem written_prefix_and_stops (padding : Nat → HeaderLayout.Padding CMD)
    {actions : List (Action CMD)} {conn : Writer CMD}
    (trace : Trace (Step padding) idle actions conn) :
    (∀ action fault, conn.step padding action ≠ some (.error fault)) ∧
      conn.written <+: frames padding (sent actions) ∧
      ∀ before index after, actions = before ++ .fail index :: after →
        ∃ atFailure, Trace (Step padding) idle (before ++ [.fail index]) atFailure ∧
          conn.written = atFailure.written := by
  have sending := sending_of_trace trace
  refine ⟨?_, sending.written_prefix, ?_⟩
  · intro action fault step
    rcases sending.step step with ⟨_, impossible, _⟩
    cases impossible
  · intro before index after split
    subst split
    rcases trace.split with ⟨middle, front, back⟩
    cases back with
    | cons step rest =>
        refine ⟨_, front.snoc step, ?_⟩
        exact ((sending_of_trace front).stopped_of_fail step).trace rest

theorem written_prefix_and_stops_in_body :
    let padding : Nat → HeaderLayout.Padding CMD := fun _ => (0 : UInt16)
    let ping : Packet CMD := ⟨⟨.Ping, 2⟩, [7, 9]⟩
    let actions : List (Action CMD) :=
      [.SendPacket ping, .runPosted, .transfer 0 8, .complete 0, .transfer 0 1, .fail 0,
        .SendPacket ping, .runPosted]
    let conn : Writer CMD := {
      posted := []
      m_PktOut := [ping, ping]
      writing := []
      written := [6, 0, 0, 0, 2, 0, 0, 0, 7]
      popped := []
      socketOpen := false }
    Trace (Step padding) idle actions conn ∧
      (∀ action fault, conn.step padding action ≠ some (.error fault)) ∧
      conn.written <+: frames padding (sent actions) ∧
      ∀ before index after, actions = before ++ .fail index :: after →
        ∃ atFailure, Trace (Step padding) idle (before ++ [.fail index]) atFailure ∧
          conn.written = atFailure.written := by
  intro padding ping actions conn
  have trace : Trace (Step padding) idle actions conn :=
    Trace.of_runSteps (step_of_toOption padding) (by decide)
  exact ⟨trace, written_prefix_and_stops padding trace⟩

end Writer

end GNL
