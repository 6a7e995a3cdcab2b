import GNL.Common.TCPConnection.Sending

/-! # The write loop in step with its queue

Four places decide whether to start a write, and none of them keeps a record of
the one in flight. Until a write fails the outgoing queue is that record: there
is one write for a queue that holds something and none for an empty one. After a
failure there is something in the queue for good, and so never a write again.
-/

namespace GNL

def WriteKind.buffer [HeaderLayout T] (padding : HeaderLayout.Padding T) (pkt : Packet T) :
    WriteKind → List UInt8
  | header => HeaderLayout.toBytes padding pkt.header
  | data => pkt.body

def WriteKind.earlier [HeaderLayout T] (padding : HeaderLayout.Padding T) (pkt : Packet T) :
    WriteKind → List UInt8
  | header => []
  | data => HeaderLayout.toBytes padding pkt.header

namespace Writer

variable {T : Type} [HeaderLayout T] {padding : Nat → HeaderLayout.Padding T}
  {conn next : Writer T}

/-- One write is in flight for a queue that is not empty, of the header or the body of
the packet at the front: `out`, which it has put on the socket so far, and what it
has still to write are together that buffer. -/
structure InStep (padding : Nat → HeaderLayout.Padding T) (conn : Writer T) : Prop where
  one_iff : conn.m_PktOut ≠ [] ↔ conn.writing.length = 1
  atMostOne : conn.writing.length ≤ 1
  buffer : ∀ write ∈ conn.writing, ∃ front rest out, conn.m_PktOut = front :: rest ∧
    out ++ write.remaining = write.kind.buffer (padding conn.popped.length) front ∧
    conn.written = frames padding conn.popped ++
      (write.kind.earlier (padding conn.popped.length) front ++ out)

theorem Progress.inStep (progress : Progress padding conn) (running : ¬conn.Stopped) :
    InStep padding conn := by
  have alone : ∀ (front : Packet T) rest (write : PendingWrite) out,
      conn.m_PktOut = front :: rest → conn.writing = [write] →
      out ++ write.remaining = write.kind.buffer (padding conn.popped.length) front →
      conn.written = frames padding conn.popped ++
        (write.kind.earlier (padding conn.popped.length) front ++ out) →
      InStep padding conn := by
    intro front rest write out queue writing buffer written
    constructor
    case one_iff => simp [queue, writing]
    case atMostOne => simp [writing]
    case buffer =>
      intro other member
      rw [writing, List.mem_singleton] at member
      subst member
      exact ⟨front, rest, out, queue, buffer, written⟩
  cases progress with
  | quiet queue writing _ =>
      exact ⟨by simp [queue, writing], by simp [writing], by simp [writing]⟩
  | header front rest out remaining queue writing buffer written =>
      exact alone front rest _ out queue writing buffer written
  | data front rest out remaining queue writing buffer written =>
      exact alone front rest _ out queue writing buffer written
  | failed front rest _ queue writing _ _ => exact absurd ⟨by simp [queue], writing⟩ running

section Starts

omit [HeaderLayout T] in
theorem not_stopped_of_starts {write : PendingWrite} {writing : List PendingWrite}
    (starts : next.writing = writing ++ [write]) : ¬next.Stopped := by
  rintro ⟨-, none⟩
  simp [starts] at none

theorem WriteHeader_starts (writes : conn.WriteHeader padding = .ok next) : ¬next.Stopped := by
  unfold WriteHeader at writes
  split at writes
  · contradiction
  · cases writes
    exact not_stopped_of_starts rfl

theorem writeNext_starts (writes : conn.writeNext padding = .ok next) : ¬next.Stopped := by
  unfold writeNext at writes
  split at writes
  · contradiction
  next popped _ =>
    split at writes
    next isEmpty =>
      cases writes
      exact fun stopped => stopped.1 (List.isEmpty_iff.mp isEmpty)
    next => exact WriteHeader_starts writes

theorem headerWritten_starts (writes : conn.headerWritten padding = .ok next) :
    ¬next.Stopped := by
  unfold headerWritten at writes
  split at writes
  · contradiction
  next front rest queue =>
    split at writes
    next =>
      simp only [WriteData, queue] at writes
      cases writes
      exact not_stopped_of_starts rfl
    next => exact writeNext_starts writes

end Starts

theorem not_stopped_of_step {action : Action T} (running : ¬conn.Stopped)
    (notFail : ∀ index, action ≠ .fail index) (step : Step padding conn action next) :
    ¬next.Stopped := by
  cases action with
  | SendPacket pkt =>
      cases step
      exact running
  | runPosted =>
      simp only [Step, Writer.step, enqueue] at step
      split at step
      · contradiction
      next pkt posted _ =>
        split at step
        next => exact WriteHeader_starts (Option.some.inj step)
        next alreadyWriting =>
          cases step
          intro stopped
          refine running ⟨?_, stopped.2⟩
          simpa using alreadyWriting
  | transfer index count =>
      simp only [Step, Writer.step] at step
      split at step
      · contradiction
      next kind remaining inFlight =>
        cases step
        intro stopped
        have none : conn.writing = [] := by simpa using stopped.2
        simp [none] at inFlight
  | complete index =>
      simp only [Step, Writer.step] at step
      split at step
      · split at step
        · exact headerWritten_starts (Option.some.inj step)
        · exact writeNext_starts (Option.some.inj step)
      · contradiction
  | fail index => exact absurd rfl (notFail index)

theorem not_stopped_of_trace {actions : List (Action T)}
    (trace : Trace (Step padding) idle actions conn) (noFailure : ∀ index, .fail index ∉ actions) :
    ¬conn.Stopped := by
  have allowed : ∀ action ∈ actions, ∀ index, action ≠ .fail index := by
    rintro action member index rfl
    exact noFailure index member
  exact trace.invariant_of_forall
    (fun _ _ _ running notFail step => not_stopped_of_step running notFail step) allowed
    (fun stopped => stopped.1 rfl)

theorem stopped_of_trace {actions : List (Action T)} {index : Nat}
    (trace : Trace (Step padding) idle actions conn) (failed : .fail index ∈ actions) :
    conn.Stopped := by
  rcases List.append_of_mem failed with ⟨before, after, rfl⟩
  rcases trace.split with ⟨middle, front, back⟩
  cases back with
  | cons step rest =>
      have stopped := (sending_of_trace front).stopped_of_fail step
      exact rest.invariant (fun _ _ _ stopped step => (stopped.step step).1) stopped

/-- In every interleaving of posted lambdas and of writes that make progress,
complete or fail, no step meets an empty queue; until the first failure the queue
holds something exactly while one write is in flight, of the packet at its front;
after it the queue is never empty and no write is in flight. -/
theorem write_loop_in_step {actions : List (Action T)}
    (trace : Trace (Step padding) idle actions conn) :
    (∀ action fault, conn.step padding action ≠ some (.error fault)) ∧
      ((∀ index, .fail index ∉ actions) → InStep padding conn) ∧
      ∀ index, .fail index ∈ actions → conn.m_PktOut ≠ [] ∧ conn.writing = [] := by
  have sending := sending_of_trace trace
  refine ⟨?_, ?_, ?_⟩
  · intro action fault step
    rcases sending.step step with ⟨_, impossible, _⟩
    cases impossible
  · intro noFailure
    exact sending.progress.inStep (not_stopped_of_trace trace noFailure)
  · intro index failed
    exact stopped_of_trace trace failed

theorem write_loop_in_step_in_body :
    let padding : Nat → HeaderLayout.Padding CMD := fun _ => (0 : UInt16)
    let ping : Packet CMD := ⟨⟨.Ping, 2⟩, [7, 9]⟩
    let actions : List (Action CMD) :=
      [.SendPacket ping, .runPosted, .transfer 0 8, .SendPacket ping, .complete 0, .runPosted,
        .transfer 0 1]
    let conn : Writer CMD := {
      posted := []
      m_PktOut := [ping, ping]
      writing := [⟨.data, [9]⟩]
      written := [6, 0, 0, 0, 2, 0, 0, 0, 7]
      popped := []
      socketOpen := true }
    Trace (Step padding) idle actions conn ∧
      (∀ action fault, conn.step padding action ≠ some (.error fault)) ∧
      ((∀ index, .fail index ∉ actions) → InStep padding conn) ∧
      ∀ index, .fail index ∈ actions → conn.m_PktOut ≠ [] ∧ conn.writing = [] := by
  intro padding ping actions conn
  have trace : Trace (Step padding) idle actions conn :=
    Trace.of_runSteps (step_of_toOption padding) (by decide)
  exact ⟨trace, write_loop_in_step trace⟩

end Writer

end GNL
