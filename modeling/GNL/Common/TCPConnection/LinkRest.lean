import GNL.Common.TCPConnection.Link
import GNL.Common.TCPConnection.WriteLoop
import GNL.Semantics.Rest

/-! # What was sent gets there

As long as nothing fails the write loop, the stream and the read loop go on until all
that was handed to `SendPacket` is in the queue of the receiving half. Each step of
theirs uses up some of a bounded amount of work, so this takes no luck with the order.
-/

namespace GNL

namespace Writer

section Work

variable {T : Type} [HeaderLayout T] {padding : Nat → HeaderLayout.Padding T}
  {conn next : Writer T} {pkts : List (Packet T)}

/-- The handlers the write loop has still to run for the packets in its queue: two for
each, less one where the header of the first is out. -/
def handlersLeft (conn : Writer T) : Nat :=
  2 * conn.m_PktOut.length - conn.writing.countP fun write => write.kind = .data

def work (total : Nat) (conn : Writer T) : Nat :=
  3 * conn.posted.length + conn.handlersLeft + (total - conn.written.length)

def Progresses (conn : Writer T) : Action T → Prop
  | .SendPacket _ => False
  | .runPosted => True
  | .transfer index count =>
      0 < count ∧ ∃ write, conn.writing[index]? = some write ∧ write.remaining ≠ []
  | .complete _ => True
  | .fail _ => False

theorem Sending.length_written_le (sending : Sending padding conn pkts) :
    conn.written.length ≤ (frames padding pkts).length :=
  sending.written_prefix.length_le

theorem Sending.written_of_rest (sending : Sending padding conn pkts)
    (running : ¬conn.Stopped)
    (rest : ∀ action next, conn.Progresses action → ¬Step padding conn action next) :
    conn.written = frames padding pkts := by
  have noLambda : conn.posted = [] := by
    by_contra posted
    rcases runPosted_of_posted padding posted with ⟨next, step⟩
    exact rest .runPosted next trivial step
  have inFlight : ∀ kind remaining, conn.writing = [⟨kind, remaining⟩] → False := by
    intro kind remaining writing
    cases remaining with
    | nil =>
        have isFirst : conn.writing[0]? = some ⟨kind, []⟩ := by rw [writing]; rfl
        rcases sending.complete isFirst with ⟨next, finishes, -⟩
        have step : Step padding conn (.complete 0) next := by
          rw [Step, Writer.step, isFirst]
          cases kind with
          | header => exact congrArg some finishes
          | data => exact congrArg some finishes
        exact rest (.complete 0) next trivial step
    | cons byte bytes =>
        have isFirst : conn.writing[0]? = some ⟨kind, byte :: bytes⟩ := by rw [writing]; rfl
        have progresses : conn.Progresses (.transfer 0 1) :=
          ⟨Nat.one_pos, _, isFirst, List.cons_ne_nil _ _⟩
        have step : ∃ next, Step padding conn (.transfer 0 1) next := by
          simp only [Step, Writer.step, isFirst]
          exact ⟨_, rfl⟩
        rcases step with ⟨next, step⟩
        exact rest _ _ progresses step
  have order := sending.order
  cases sending.progress with
  | quiet queue _ written =>
      rw [noLambda, queue, List.append_nil, List.append_nil] at order
      rw [written, order]
  | header _ _ _ remaining _ writing _ _ => exact (inFlight _ remaining writing).elim
  | data _ _ _ remaining _ writing _ _ => exact (inFlight _ remaining writing).elim
  | failed front others _ queue writing _ _ =>
      exact absurd ⟨by rw [queue]; exact List.cons_ne_nil _ _, writing⟩ running

theorem work_WriteHeader {total : Nat} (writes : conn.WriteHeader padding = .ok next) :
    next.work total = conn.work total := by
  unfold WriteHeader at writes
  split at writes
  · contradiction
  · cases writes
    simp [work, handlersLeft, List.countP_append]

theorem work_writeNext_lt (total : Nat) (writing : conn.writing = [])
    (writes : conn.writeNext padding = .ok next) : next.work total + 2 = conn.work total := by
  unfold writeNext pop_front at writes
  split at writes
  · contradiction
  next popped pops =>
    have less : popped.work total + 2 = conn.work total := by
      split at pops
      · contradiction
      next front rest queue =>
        cases pops
        simp only [work, handlersLeft, writing, queue, List.countP_nil, List.length_cons]
        omega
    split at writes
    · cases writes
      exact less
    · rw [work_WriteHeader writes, less]

theorem Sending.work_lt {action : Action T} {total : Nat} (sending : Sending padding conn pkts)
    (fits : (frames padding pkts).length ≤ total) (progresses : conn.Progresses action)
    (step : Step padding conn action next) : next.work total < conn.work total := by
  cases action with
  | SendPacket pkt => exact progresses.elim
  | fail index => exact progresses.elim
  | runPosted =>
      simp only [Step, Writer.step, Writer.enqueue] at step
      split at step
      · contradiction
      next pkt posted isPosted =>
        split at step
        · rw [work_WriteHeader (Option.some.inj step)]
          simp only [work, handlersLeft, isPosted, List.length_append, List.length_cons,
            List.length_nil]
          omega
        · cases step
          simp only [work, handlersLeft, isPosted, List.length_append, List.length_cons,
            List.length_nil]
          omega
  | transfer index count =>
      rcases progresses with ⟨positive, write, inFlight, notDone⟩
      rcases sending.progress.alone inFlight with ⟨rfl, alone⟩
      have more : 0 < (write.remaining.take count).length := by
        have nonempty := List.length_pos_of_ne_nil notDone
        rw [List.length_take]
        omega
      rcases sending.step step with ⟨after, same, sendingAfter⟩
      cases same
      have bound := sendingAfter.length_written_le
      simp only [sent, List.append_nil] at bound
      simp only [Step, Writer.step, inFlight] at step
      cases step
      simp only [List.length_append] at bound
      simp only [work, handlersLeft, alone, List.set_cons_zero, List.countP_singleton,
        List.length_append]
      omega
  | complete index =>
      simp only [Step, Writer.step] at step
      split at step
      next kind inFlight =>
        rcases sending.progress.alone inFlight with ⟨rfl, alone⟩
        simp only [alone, List.eraseIdx_zero, List.tail_cons] at step
        cases kind with
        | header =>
            simp only [headerWritten] at step
            split at step
            · cases step
            next front rest queue =>
              split at step
              · simp only [WriteData, queue] at step
                cases step
                simp only [work, handlersLeft, alone, queue, List.nil_append,
                  List.countP_singleton, List.length_cons]
                simp
              · have less := work_writeNext_lt total rfl (Option.some.inj step)
                simp only [work, handlersLeft, alone, List.countP_nil,
                  List.countP_singleton] at less ⊢
                simp at less ⊢
                omega
        | data =>
            have less := work_writeNext_lt total rfl (Option.some.inj step)
            have queued : conn.m_PktOut ≠ [] := by
              intro empty
              simp [dataWritten, writeNext, pop_front, empty] at step
            have positive := List.length_pos_of_ne_nil queued
            simp only [work, handlersLeft, alone, List.countP_nil,
              List.countP_singleton] at less ⊢
            simp at less ⊢
            omega
      next => contradiction

end Work

end Writer

namespace Link

variable {T : Type} [HeaderLayout T] {padding : Nat → HeaderLayout.Padding T}
  {link next : Link T} {action : Action T} {frames : List (List UInt8 × List UInt8)}

def Progresses (link : Link T) : Action T → Prop
  | .write action => link.writer.Progresses action
  | .deliver count => 0 < count ∧ link.inFlight ≠ []
  | .complete => True
  | .fail => False

def Action.Fails : Action T → Prop
  | .write (.fail _) => True
  | .fail => True
  | _ => False

instance : DecidablePred (Action.Fails : Action T → Prop)
  | .write (.fail _) => isTrue trivial
  | .write (.SendPacket _) | .write .runPosted | .write (.transfer _ _)
  | .write (.complete _) => isFalse id
  | .deliver _ | .complete => isFalse id
  | .fail => isTrue trivial

structure Running (link : Link T) : Prop where
  writer : ¬link.writer.Stopped
  reader : link.reader.socketOpen = true

omit [HeaderLayout T] in
theorem running_iff : link.Running ↔
    (link.writer.writing.isEmpty → link.writer.m_PktOut.isEmpty) ∧
      link.reader.socketOpen = true := by
  rw [List.isEmpty_iff, List.isEmpty_iff]
  constructor
  · rintro ⟨writer, reader⟩
    refine ⟨fun quiet => ?_, reader⟩
    by_contra queued
    exact writer ⟨queued, quiet⟩
  · rintro ⟨writer, reader⟩
    exact ⟨fun stopped => stopped.1 (writer stopped.2), reader⟩

instance : Decidable link.Running := decidable_of_iff _ running_iff.symm

theorem Running.step (running : link.Running) (step : Step padding link action next)
    (succeeds : ¬action.Fails) : next.Running := by
  cases step_cases step with
  | write action writer writes =>
      refine ⟨Writer.not_stopped_of_step running.writer ?_ writes, running.reader⟩
      rintro index rfl
      exact succeeds trivial
  | deliver count reader arrives =>
      cases arrives
      exact ⟨running.writer, running.reader⟩
  | complete reader completes =>
      exact ⟨running.writer, (Reader.complete_socketOpen completes).trans running.reader⟩
  | fail => exact absurd trivial succeeds

omit [HeaderLayout T] in
theorem succeeds_of_progresses (progresses : link.Progresses action) : ¬action.Fails := by
  cases action with
  | write action =>
      cases action with
      | fail index => exact progresses.elim
      | _ => exact id
  | fail => exact progresses.elim
  | _ => exact id

omit [HeaderLayout T] in
theorem not_sends_of_progresses (progresses : link.Progresses action) : ¬action.Sends := by
  cases action with
  | write action =>
      cases action with
      | SendPacket pkt => exact progresses.elim
      | _ => exact id
  | _ => exact id

theorem sent_of_progresses (step : Step padding link action next)
    (progresses : link.Progresses action) : next.sent = link.sent :=
  sent_of_step step (not_sends_of_progresses progresses)

/-- The steps a link has still to take by itself: those of the write loop, two for each
byte that has not arrived, and one for each that has not been read. -/
def work (padding : Nat → HeaderLayout.Padding T) (link : Link T) : Nat :=
  let total := (Writer.frames padding link.sent).length
  link.writer.work total + 2 * (total - link.arrived.length) + link.reader.unread.length

theorem Carries.work_lt (carries : Carries padding link frames)
    (step : Step padding link action next) (progresses : link.Progresses action) :
    next.work padding < link.work padding := by
  have sameSent := sent_of_progresses step progresses
  unfold work
  rw [sameSent]
  cases step_cases step with
  | write action writer writes =>
      have less := carries.sending.work_lt (Nat.le_refl _) progresses writes
      dsimp only
      omega
  | deliver count reader arrives =>
      cases arrives
      rcases progresses with ⟨positive, nonempty⟩
      have more := List.length_pos_of_ne_nil nonempty
      have bound := (carries.append_inFlight ▸ carries.sending.length_written_le :
        (link.arrived ++ link.inFlight).length ≤ _)
      rw [List.length_append] at bound
      simp only [List.length_append, List.length_take]
      omega
  | complete reader completes =>
      have less := carries.received.consumes completes
      dsimp only
      omega
  | fail => exact progresses.elim

theorem Carries.frames_of_rest (carries : Carries padding link frames)
    (running : link.Running) (rest : AtRest (StepWhere (Step padding) Progresses) link) :
    frames = ((Reader.format T).parse (Writer.frames padding link.sent)).1 := by
  have written : link.writer.written = Writer.frames padding link.sent := by
    apply carries.sending.written_of_rest running.writer
    intro action next progresses step
    have writes : Step padding link (.write action)
        { link with writer := next, sent := link.sent ++ Writer.sent [action] } := by
      rw [Step, Link.step, step]
    exact rest _ _ ⟨writes, progresses⟩
  have nothingInFlight : link.inFlight = [] := by
    by_contra nonempty
    exact rest (.deliver 1) _ ⟨rfl, Nat.one_pos, nonempty⟩
  have arrived : link.arrived = Writer.frames padding link.sent := by
    rw [← written, ← carries.append_inFlight, nothingInFlight, List.append_nil]
  have quiet : link.reader.complete = none := by
    rw [Option.eq_none_iff_forall_ne_some]
    intro reader completes
    refine rest .complete { link with reader } ⟨?_, trivial⟩
    rw [Step, Link.step, completes]
    rfl
  rw [carries.received.frames_eq running.reader quiet, arrived]

theorem Carries.pushed_of_rest (carries : Carries padding link frames) (running : link.Running)
    (rest : AtRest (StepWhere (Step padding) Progresses) link)
    (consistent : ∀ pkt ∈ link.sent, pkt.Consistent) :
    link.reader.m_PktIn = (Reader.redelivered [] link.sent).map fun pkt =>
      ⟨link.reader.connectionPtr, pkt⟩ := by
  have allFrames := carries.frames_of_rest running rest
  rw [parse_frames_of_consistent consistent] at allFrames
  rw [carries.received.pushed, allFrames, deliveries_framesOf]

theorem carries_and_running_of_progress {current next : Link T} {action : Action T}
    (holds : (∃ frames, Carries padding current frames) ∧ current.Running)
    (step : StepWhere (Step padding) Progresses current action next) :
    (∃ frames, Carries padding next frames) ∧ next.Running := by
  rcases holds with ⟨⟨frames, carries⟩, running⟩
  exact ⟨carries.step step.1, running.step step.1 (succeeds_of_progresses step.2)⟩

variable [Inhabited T] {self : ConnRef} {m_Type : ConnectType} {actions : List (Action T)}

theorem running_of_trace (trace : Trace (Step padding) (start self m_Type) actions link)
    (noFailure : ∀ action ∈ actions, ¬action.Fails) : link.Running :=
  trace.invariant_of_forall (fun _ _ _ running succeeds step => running.step step succeeds)
    noFailure ⟨fun stopped => stopped.1 rfl, rfl⟩

/-- Nothing that was sent stays on the way: from wherever a link is before any failure,
its own steps come to an end in whatever order they are taken, after a number of them
that is known beforehand. Where every packet sent has the size of its body, the queue of
the receiving half then holds them all; one without a body with the body of the packet
before it. -/
theorem delivers_all (trace : Trace (Step padding) (start self m_Type) actions link)
    (noFailure : ∀ action ∈ actions, ¬action.Fails)
    (consistent : ∀ pkt ∈ link.sent, pkt.Consistent) :
    (∃ later after, Trace (StepWhere (Step padding) Progresses) link later after ∧
      AtRest (StepWhere (Step padding) Progresses) after) ∧
    ∀ later after, Trace (StepWhere (Step padding) Progresses) link later after →
      later.length ≤ link.work padding ∧
      (AtRest (StepWhere (Step padding) Progresses) after →
        after.reader.m_PktIn = (Reader.redelivered [] link.sent).map fun pkt =>
          ⟨(start self m_Type : Link T).reader.connectionPtr, pkt⟩) := by
  have holds : (∃ frames, Carries padding link frames) ∧ link.Running :=
    ⟨carries_of_trace trace, running_of_trace trace noFailure⟩
  have keeps : ∀ current action next,
      ((∃ frames, Carries padding current frames) ∧ current.Running) →
      StepWhere (Step padding) Progresses current action next →
      (∃ frames, Carries padding next frames) ∧ next.Running :=
    fun _ _ _ => carries_and_running_of_progress
  have decreases : ∀ current action next,
      ((∃ frames, Carries padding current frames) ∧ current.Running) →
      StepWhere (Step padding) Progresses current action next →
      next.work padding < current.work padding := by
    rintro current action next ⟨⟨frames, carries⟩, -⟩ step
    exact carries.work_lt step.1 step.2
  have settles := settles_of_decreases wellFounded_lt keeps decreases holds
  refine ⟨settles.exists_trace_atRest, ?_⟩
  intro later after laterTrace
  have bound := laterTrace.length_add_work_le keeps decreases holds
  refine ⟨by omega, ?_⟩
  intro rest
  rcases laterTrace.invariant keeps holds with ⟨⟨frames, carries⟩, running⟩
  have sameSent : after.sent = link.sent := by
    have keeps : ∀ current action next, current.sent = link.sent →
        StepWhere (Step padding) Progresses current action next → next.sent = link.sent :=
      fun _ _ _ same step => (sent_of_progresses step.1 step.2).trans same
    exact laterTrace.invariant keeps rfl
  have allPushed := carries.pushed_of_rest running rest (by rwa [sameSent])
  have whole := trace.append laterTrace.unconditional
  rw [allPushed, sameSent, connectionPtr_of_trace whole]

theorem delivers_all_midway :
    let padding : Nat → HeaderLayout.Padding CMD := fun _ => (0 : UInt16)
    let ping : Packet CMD := ⟨⟨.Ping, 2⟩, [7, 9]⟩
    let enter : Packet CMD := ⟨⟨.SelfEnterWorld, 0⟩, []⟩
    let actions : List (Action CMD) :=
      [.write (.SendPacket ping), .write .runPosted, .write (.transfer 0 8), .deliver 5,
        .write (.SendPacket enter), .write (.complete 0)]
    ∃ link, Trace (Step padding) (start 3 .Server) actions link ∧
      (∃ later after, Trace (StepWhere (Step padding) Progresses) link later after ∧
        AtRest (StepWhere (Step padding) Progresses) after) ∧
      ∀ later after, Trace (StepWhere (Step padding) Progresses) link later after →
        later.length ≤ link.work padding ∧
        (AtRest (StepWhere (Step padding) Progresses) after →
          after.reader.m_PktIn = (Reader.redelivered [] link.sent).map fun pkt =>
            ⟨(start 3 .Server : Link CMD).reader.connectionPtr, pkt⟩) := by
  intro padding ping enter actions
  have runs : ∃ link ∈ runSteps (step padding) (start 3 .Server) actions,
      ∀ pkt ∈ link.sent, pkt.Consistent := by
    decide
  rcases runs with ⟨link, reaches, consistent⟩
  have trace : Trace (Step padding) (start 3 .Server) actions link := Trace.of_run reaches
  exact ⟨link, trace, delivers_all trace (by decide) consistent⟩

end Link

end GNL
