import GNL.Client.NetClient
import GNL.Semantics.Trace

/-! # Connecting again

Assigning to `m_threadContext` while it is joinable terminates the process, and only
`Disconnect` joins the thread. The `io_context` stays stopped once it was stopped or
ran out of work: nothing calls `restart()`, so no later `Connect` can use it.
-/

namespace GNL.NetClient

namespace TCPConnection

variable {T : Type}

def EndsLast (conn : TCPConnection T) (kind : WriteKind) : Prop :=
  match conn.m_PktOut with
  | [pkt] => kind = .data ∨ pkt.body.length = 0
  | _ => False

def StartsNothing (conn : TCPConnection T) : Handler → Prop
  | .attempt ok => conn.socketOpen = false ∨ ok = false ∧ conn.attempt = .pending 0
  | .posted => ∀ pkt rest, conn.posted = .send pkt :: rest → conn.m_PktOut ≠ []
  | .write ok => ok = false ∨ ∃ write ∈ conn.writing.head?, conn.EndsLast write.kind
  | .read ok => ok = false

section Handlers

variable {conn next : TCPConnection T}

theorem work_WriteHeader (conn : TCPConnection T) : conn.WriteHeader.work = conn.work + 1 := by
  simp only [work, WriteHeader, List.length_append, List.length_singleton]
  omega

theorem work_WriteData (conn : TCPConnection T) : conn.WriteData.work = conn.work + 1 := by
  simp only [work, WriteData, List.length_append, List.length_singleton]
  omega

theorem work_writeNext (isNext : conn.writeNext = some next) :
    (∃ pkt, conn.m_PktOut = [pkt]) ∧ next.work = conn.work ∨
      (∀ pkt, conn.m_PktOut ≠ [pkt]) ∧ next.work = conn.work + 1 := by
  unfold writeNext at isNext
  split at isNext
  · contradiction
  next front rest queue =>
    cases isNext
    cases rest with
    | nil => exact .inl ⟨⟨front, queue⟩, rfl⟩
    | cons second rest =>
        refine .inr ⟨?_, work_WriteHeader _⟩
        intro pkt single
        rw [queue] at single
        cases single

theorem work_written {kind : WriteKind} (isNext : conn.written kind = some next) :
    conn.EndsLast kind ∧ next.work = conn.work ∨
      ¬ conn.EndsLast kind ∧ next.work = conn.work + 1 := by
  have ends : ∀ after, conn.writeNext = some after →
      (∀ pkt, conn.m_PktOut = [pkt] → kind = .data ∨ pkt.body.length = 0) →
      conn.EndsLast kind ∧ after.work = conn.work ∨
        ¬ conn.EndsLast kind ∧ after.work = conn.work + 1 := by
    intro after isAfter lastEnds
    rcases work_writeNext isAfter with ⟨⟨pkt, queue⟩, work⟩ | ⟨notLast, work⟩
    · refine .inl ⟨?_, work⟩
      simp only [EndsLast, queue]
      exact lastEnds pkt queue
    · refine .inr ⟨?_, work⟩
      unfold EndsLast
      split
      next pkt queue => exact absurd queue (notLast pkt)
      next => exact not_false
  cases kind with
  | data => exact ends next isNext fun _ _ => .inl rfl
  | header =>
      simp only [written] at isNext
      split at isNext
      · contradiction
      next front rest queue =>
        split at isNext
        next hasBody =>
          cases isNext
          refine .inr ⟨?_, work_WriteData conn⟩
          cases rest with
          | nil =>
              simp only [EndsLast, queue, reduceCtorEq, false_or]
              omega
          | cons second rest => simp [EndsLast, queue]
        next noBody =>
          apply ends next isNext
          intro pkt single
          rw [queue] at single
          cases single
          exact .inr (by omega)

theorem work_attemptEnds {left : Nat} (pending : conn.attempt = .pending left) (ok : Bool) :
    conn.StartsNothing (.attempt ok) ∧ (conn.attemptEnds ok left).work + 1 = conn.work ∨
      ¬ conn.StartsNothing (.attempt ok) ∧ (conn.attemptEnds ok left).work = conn.work := by
  unfold attemptEnds
  simp only [StartsNothing, pending]
  cases isOpen : conn.socketOpen with
  | false =>
      refine .inl ⟨.inl rfl, ?_⟩
      simp only [Bool.not_false, if_true, work, pending]
      omega
  | true =>
      cases ok with
      | true =>
          refine .inr ⟨by simp, ?_⟩
          simp only [Bool.not_true, Bool.false_eq_true, if_false, if_true, work, ReadHeader,
            pending]
          omega
      | false =>
          cases left with
          | zero =>
              refine .inl ⟨.inr ⟨rfl, rfl⟩, ?_⟩
              simp only [Bool.not_true, Bool.false_eq_true, if_false, work, pending]
              omega
          | succ left =>
              refine .inr ⟨by simp, ?_⟩
              simp only [Bool.not_true, Bool.false_eq_true, if_false, work, pending]

theorem work_handle {handler : Handler} (isNext : conn.handle handler = some next) :
    conn.StartsNothing handler ∧ next.work + 1 = conn.work ∨
      ¬ conn.StartsNothing handler ∧ next.work = conn.work ∧ 0 < conn.work := by
  cases handler with
  | attempt ok =>
      simp only [handle] at isNext
      split at isNext
      next left pending =>
        cases isNext
        have ready : 0 < conn.work := by
          simp only [work, pending]
          omega
        rcases work_attemptEnds pending ok with ends | ⟨starts, work⟩
        · exact .inl ends
        · exact .inr ⟨starts, work, ready⟩
      · contradiction
      · contradiction
  | posted =>
      simp only [handle] at isNext
      split at isNext
      · contradiction
      next pkt rest posted =>
        cases isNext
        unfold enqueue
        cases queue : conn.m_PktOut with
        | nil =>
            refine .inr ⟨fun nothing => nothing pkt rest posted queue, ?_⟩
            simp only [List.isEmpty_nil, Bool.not_true, Bool.not_false, if_true, work_WriteHeader]
            simp only [work, posted, List.length_cons]
            omega
        | cons front others =>
            refine .inl ⟨fun _ _ _ => by simp [queue], ?_⟩
            simp only [List.isEmpty_cons, Bool.not_false, Bool.not_true, Bool.false_eq_true,
              if_false, work, posted, List.length_cons]
            omega
      next rest posted =>
        cases isNext
        refine .inl ⟨fun _ _ isSend => ?_, ?_⟩
        · rw [posted] at isSend
          cases isSend
        · simp only [work, posted, List.length_cons]
          omega
  | write ok =>
      simp only [handle] at isNext
      split at isNext
      · contradiction
      next write others writing =>
        have popped : { conn with writing := others }.work + 1 = conn.work := by
          simp only [work, writing, List.length_cons]
          omega
        cases ok with
        | false =>
            cases isNext
            exact .inl ⟨.inl rfl, popped⟩
        | true =>
            simp only [Bool.not_true, Bool.false_eq_true, if_false] at isNext
            split at isNext
            next =>
              have isFirst : conn.StartsNothing (.write true) ↔ conn.EndsLast write.kind := by
                simp [StartsNothing, writing]
              rw [isFirst]
              rcases work_written isNext with ⟨ends, work⟩ | ⟨goesOn, work⟩
              · exact .inl ⟨ends, work ▸ popped⟩
              · exact .inr ⟨goesOn, work.trans popped, by omega⟩
            next => contradiction
  | read ok =>
      simp only [handle] at isNext
      split at isNext
      · contradiction
      next reading =>
        have ready : 0 < conn.reading := Nat.pos_of_ne_zero reading
        cases ok with
        | true =>
            cases isNext
            refine .inr ⟨by simp [StartsNothing], rfl, ?_⟩
            simp only [work]
            omega
        | false =>
            cases isNext
            refine .inl ⟨rfl, ?_⟩
            simp only [work]
            omega

/-- The `io_context` runs out of work with the handler of the one operation left. -/
theorem work_handle_eq_zero {handler : Handler} (isNext : conn.handle handler = some next) :
    next.work = 0 ↔ conn.work = 1 ∧ conn.StartsNothing handler := by
  rcases work_handle isNext with ⟨nothing, work⟩ | ⟨starts, work, ready⟩
  · rw [and_iff_left nothing]
    omega
  · constructor
    · intro done
      omega
    · exact fun ⟨_, nothing⟩ => absurd nothing starts

end Handlers

end TCPConnection

namespace ClientApp

variable {T : Type}

/-- The process runs, and each `Connect` that returned true left the `io_context`
running. -/
def Reconnectable (client : ClientApp T) : Prop :=
  client.terminated = false ∧ ∀ stopped ∈ client.connects, stopped = false

def Action.connects : Action T → Bool
  | .Connect (some _) => true
  | _ => false

def Action.begins : Action T → Bool
  | .Connect (some _) | .Disconnect => true
  | _ => false

/-- At most one `Connect` with a host name that resolves is called, and no `Disconnect`
before it. -/
def ConnectsFirst (actions : List (Action T)) : Prop :=
  actions.Pairwise fun earlier later => later.connects = true → earlier.begins = false

/-- While `Connect` sleeps no handler runs that starts no other operation when its own
is the only one outstanding. -/
def KeepsWorking (client : ClientApp T) : Action T → Prop
  | .handle handler => client.caller = .sleeping → ∀ conn ∈ client.m_TCPConnection,
      ¬ (conn.work = 1 ∧ conn.StartsNothing handler)
  | _ => True

def LeavesStopped (client : ClientApp T) : Prop :=
  client.caller = .joining ∨ client.caller = .releasing → client.stopped = true

theorem leavesStopped_new : (new : ClientApp T).LeavesStopped := by
  simp [LeavesStopped, new]

theorem LeavesStopped.step {client next : ClientApp T} {action : Action T}
    (leavesStopped : client.LeavesStopped) (step : Step client action next) :
    next.LeavesStopped := by
  cases (performs_of_step step).2 with
  | unresolved => exact leavesStopped
  | Connect idle =>
      unfold ClientApp.Connect
      split <;> simp [LeavesStopped, idle]
  | Disconnect => simp [LeavesStopped, ClientApp.Disconnect]
  | SendToServer =>
      unfold ClientApp.SendToServer
      split <;> exact leavesStopped
  | returns => simp [LeavesStopped]
  | stops => simp [LeavesStopped]
  | joins joining => exact fun _ => leavesStopped (.inl joining)
  | releases => simp [LeavesStopped]
  | handle _ running =>
      intro leaving
      have stopped := leavesStopped leaving
      rw [running] at stopped
      contradiction

theorem leavesStopped_of_trace {client : ClientApp T} {actions : List (Action T)}
    (trace : Trace Step new actions client) : client.LeavesStopped :=
  trace.invariant (fun _ _ _ leavesStopped step => leavesStopped.step step) leavesStopped_new

def Begun (client : ClientApp T) : Prop :=
  client.joinable = true ∨ client.stopped = true ∨ client.caller = .stopping

def Connectable (client : ClientApp T) : Prop :=
  client.Reconnectable ∧ (client.caller = .sleeping → client.stopped = false)

theorem connectable_new : (new : ClientApp T).Connectable := by
  simp [Connectable, Reconnectable, new]

section Steps

variable {client next : ClientApp T}

theorem begun_step {action : Action T} (leavesStopped : client.LeavesStopped)
    (step : Step client action next) :
    next.Begun ↔ client.Begun ∨ action.begins = true := by
  rcases performs_of_step step with ⟨-, performs⟩
  cases performs with
  | unresolved => simp [Action.begins]
  | Connect =>
      unfold ClientApp.Connect
      split
      next joinable => simp [Begun, Action.begins, joinable]
      next => simp [Begun, Action.begins]
  | Disconnect => simp [Begun, ClientApp.Disconnect, Action.begins]
  | SendToServer =>
      unfold ClientApp.SendToServer
      split <;> simp [Begun, Action.begins]
  | returns sleeping => simp [Begun, Action.begins, sleeping]
  | stops stopping => simp [Begun, Action.begins, stopping]
  | joins joining => simp [Begun, Action.begins, leavesStopped (.inl joining)]
  | releases releasing => simp [Begun, Action.begins, leavesStopped (.inr releasing)]
  | handle joinable => simp [Begun, joinable]

theorem connectable_congr (terminated : next.terminated = client.terminated)
    (connects : next.connects = client.connects) (awake : client.caller ≠ .sleeping)
    (awakeNext : next.caller ≠ .sleeping) : next.Connectable ↔ client.Connectable := by
  simp only [Connectable, Reconnectable, terminated, connects, awake, awakeNext, false_implies]

theorem connectable_Connect (idle : client.caller = .idle) (running : client.terminated = false)
    (endpoints : Nat) :
    (client.Connect endpoints).Connectable ↔ client.Connectable ∧ ¬ client.Begun := by
  unfold Connect
  split
  next joinable => simp [Connectable, Reconnectable, Begun, joinable]
  next notJoinable =>
    rw [Bool.not_eq_true] at notJoinable
    simp [Connectable, Reconnectable, Begun, running, idle, notJoinable]

theorem connectable_step {action : Action T} (step : Step client action next) :
    next.Connectable ↔ client.Connectable ∧
      (action.connects = true → ¬ client.Begun) ∧ client.KeepsWorking action := by
  rcases performs_of_step step with ⟨running, performs⟩
  cases performs with
  | unresolved => simp [Action.connects, KeepsWorking]
  | Connect idle =>
      rw [connectable_Connect idle running]
      simp [Action.connects, KeepsWorking]
  | Disconnect idle =>
      simp only [Action.connects, KeepsWorking, Bool.false_eq_true, false_implies, and_true]
      exact connectable_congr rfl rfl (by simp [idle]) (by simp [ClientApp.Disconnect])
  | SendToServer =>
      unfold ClientApp.SendToServer
      split <;> simp [Connectable, Reconnectable, Action.connects, KeepsWorking]
  | returns sleeping =>
      simp [Connectable, Reconnectable, Action.connects, KeepsWorking, sleeping,
        or_imp, forall_and, and_assoc]
  | stops stopping =>
      simp only [Action.connects, KeepsWorking, Bool.false_eq_true, false_implies, and_true]
      exact connectable_congr rfl rfl (by simp [stopping]) (by simp)
  | joins joining =>
      simp only [Action.connects, KeepsWorking, Bool.false_eq_true, false_implies, and_true]
      exact connectable_congr rfl rfl (by simp [joining]) (by simp)
  | releases releasing =>
      simp only [Action.connects, KeepsWorking, Bool.false_eq_true, false_implies, and_true]
      exact connectable_congr rfl rfl (by simp [releasing]) (by simp)
  | handle _ notStopped hasConn handles =>
      have runsOut := TCPConnection.work_handle_eq_zero handles
      simp only [Connectable, Reconnectable, Action.connects, KeepsWorking, hasConn,
        Option.mem_def, Option.some.injEq, forall_eq', ← runsOut, notStopped, implies_true,
        and_true, decide_eq_false_iff_not, Bool.false_eq_true, false_implies, true_and]

end Steps

section Runs

variable {client : ClientApp T} {actions : List (Action T)}

theorem begun_iff (trace : Trace Step new actions client) :
    client.Begun ↔ ∃ action ∈ actions, action.begins = true := by
  apply trace.snoc_induction (motive := fun actions client =>
    client.Begun ↔ ∃ action ∈ actions, action.begins = true)
  · simp [Begun, new]
  · intro before middle action next front history step
    rw [begun_step (leavesStopped_of_trace front) step, history]
    simp [or_and_right, exists_or]

theorem connectsFirst_snoc (trace : Trace Step new actions client) (action : Action T) :
    ConnectsFirst (actions ++ [action]) ↔
      ConnectsFirst actions ∧ (action.connects = true → ¬ client.Begun) := by
  rw [begun_iff trace, ConnectsFirst, List.pairwise_append]
  simp only [ConnectsFirst, List.pairwise_singleton, List.mem_singleton, true_and, forall_eq,
    not_exists, not_and, Bool.not_eq_true]
  exact and_congr_right fun _ =>
    ⟨fun calls connects earlier member => calls earlier member connects,
      fun calls earlier member connects => calls connects earlier member⟩

theorem connectable_of_connectsFirst
    (trace : Trace (StepWhere Step KeepsWorking) new actions client)
    (first : ConnectsFirst actions) : client.Connectable := by
  revert first
  apply trace.snoc_induction (motive := fun actions client =>
    ConnectsFirst actions → client.Connectable)
  · exact fun _ => connectable_new
  · intro before middle action next front induction step first
    rcases (connectsFirst_snoc front.unconditional action).mp first with ⟨before, notBegun⟩
    exact (connectable_step step.1).mpr ⟨induction before, notBegun, step.2⟩

theorem connectsFirst_of_connectable (trace : Trace Step new actions client)
    (connectable : client.Connectable) :
    ConnectsFirst actions ∧ Trace (StepWhere Step KeepsWorking) new actions client := by
  revert connectable
  apply trace.snoc_induction (motive := fun actions client => client.Connectable →
    ConnectsFirst actions ∧ Trace (StepWhere Step KeepsWorking) new actions client)
  · exact fun _ => ⟨List.Pairwise.nil, .nil new⟩
  · intro before middle action next front induction step connectable
    rcases (connectable_step step).mp connectable with ⟨held, notBegun, keepsWorking⟩
    rcases induction held with ⟨first, where_⟩
    exact ⟨(connectsFirst_snoc front action).mpr ⟨first, notBegun⟩,
      where_.snoc ⟨step, keepsWorking⟩⟩

end Runs

/-- A client can be reconnected in every run with at most one `Connect` that resolves,
no `Disconnect` before it and no handler that leaves the `io_context` without work while
it sleeps; and in no other run, once the last `Connect` has returned. -/
theorem reconnectable_iff {client : ClientApp T} {actions : List (Action T)}
    (trace : Trace Step new actions client) :
    (ConnectsFirst actions → Trace (StepWhere Step KeepsWorking) new actions client →
        client.Reconnectable) ∧
      (client.Reconnectable → client.caller ≠ .sleeping →
        ConnectsFirst actions ∧ Trace (StepWhere Step KeepsWorking) new actions client) := by
  constructor
  · intro first keepsWorking
    exact (connectable_of_connectsFirst keepsWorking first).1
  · intro reconnectable awake
    exact connectsFirst_of_connectable trace
      ⟨reconnectable, fun sleeping => absurd sleeping awake⟩

/-- The first `Connect` returned true and found the `io_context` running; the second one
terminates the process. -/
theorem reconnectable_iff_first :
    let actions : List (Action CMD) := [.Connect (some 1), .handle (.attempt true), .proceed]
    ∃ client : ClientApp CMD, ConnectsFirst actions ∧
      Trace (StepWhere Step KeepsWorking) new actions client ∧
      client.connects = [false] ∧ ∀ next, Step client (.Connect (some 1)) next →
        next.terminated = true := by
  intro actions
  have runs : ∃ client ∈ runSteps step (new : ClientApp CMD) actions,
      (client.terminated = false ∧ client.connects = [false]) ∧ client.caller = .idle ∧
        ∃ next ∈ client.step (.Connect (some 1)), next.terminated = true := by
    decide
  rcases runs with ⟨client, reaches, ⟨running, connects⟩, idle, next, isNext, terminated⟩
  have trace : Trace Step new actions client :=
    Trace.of_run reaches
  have reconnectable : client.Reconnectable := ⟨running, by simp [connects]⟩
  rcases (reconnectable_iff trace).2 reconnectable (by simp [idle]) with ⟨first, keepsWorking⟩
  refine ⟨client, first, keepsWorking, connects, ?_⟩
  intro other step
  rw [Option.some.inj (step.symm.trans isNext)]
  exact terminated

/-- The server refuses the connection: the `io_context` runs out of work, `Connect`
returns true, and to try again terminates the process. After a `Disconnect` it would
not, but the `io_context` is stopped. -/
theorem retry_after_refusal :
    let refused : List (Action CMD) := [.Connect (some 1), .handle (.attempt false), .proceed]
    let disconnect : List (Action CMD) := [.Disconnect, .proceed, .proceed, .proceed]
    let again : List (Action CMD) := [.Connect (some 1), .proceed]
    (∃ client : ClientApp CMD,
      Trace Step new (refused ++ [.Connect (some 1)]) client ∧
        client.connects = [true] ∧ client.terminated = true) ∧
      ∃ client : ClientApp CMD, Trace Step new (refused ++ disconnect ++ again) client ∧
        client.connects = [true, true] ∧ client.terminated = false := by
  intro refused disconnect again
  have runs : (∃ client ∈ runSteps step (new : ClientApp CMD) (refused ++ [.Connect (some 1)]),
      client.connects = [true] ∧ client.terminated = true) ∧
      ∃ client ∈ runSteps step (new : ClientApp CMD) (refused ++ disconnect ++ again),
        client.connects = [true, true] ∧ client.terminated = false := by
    decide
  rcases runs with ⟨⟨first, reachesFirst, terminates⟩, second, reachesSecond, stopped⟩
  exact ⟨⟨first, Trace.of_run reachesFirst, terminates⟩,
    second, Trace.of_run reachesSecond, stopped⟩

end ClientApp

end GNL.NetClient
