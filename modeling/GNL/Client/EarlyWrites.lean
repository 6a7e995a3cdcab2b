import GNL.Client.NetClient

/-! # Writing before the connection is made

`IsConnected` asks whether the socket is open, which it is as soon as `async_connect`
has started. A packet sent by then is posted, and its lambda starts to write on a
socket that may not be connected: the write fails, its handler closes the socket,
and `async_connect` gives up.
-/

namespace GNL.NetClient

namespace TCPConnection

variable {T : Type}

/-- Every write in flight was started as it says, on a connected socket after
`async_connect` had succeeded and otherwise after a header that is recorded; and where
packets are queued, a header was written for the first of them. -/
structure Honest (conn : TCPConnection T) : Prop where
  writes : ∀ write ∈ conn.writing,
    if write.connected then conn.attempt = .succeeded else false ∈ conn.headersStarted
  queue : conn.m_PktOut ≠ [] → conn.attempt = .succeeded ∨ false ∈ conn.headersStarted

def Patient (conn : TCPConnection T) : Prop :=
  ∀ connected ∈ conn.headersStarted, connected = true

def LambdaConnected (conn : TCPConnection T) : Handler → Prop
  | .posted => match conn.posted with
      | .send _ :: _ => conn.attempt = .succeeded
      | _ => True
  | _ => True

theorem honest_ConnectToServer (endpoints : Nat) :
    (ConnectToServer endpoints : TCPConnection T).Honest := by
  constructor <;> simp [ConnectToServer]

theorem patient_ConnectToServer (endpoints : Nat) :
    (ConnectToServer endpoints : TCPConnection T).Patient := by
  simp [Patient, ConnectToServer]

section Handlers

variable {conn next : TCPConnection T}

theorem handshaken_iff : conn.handshaken = true ↔ conn.attempt = .succeeded := by
  simp [handshaken]

theorem Honest.starts (honest : conn.Honest) (kind : WriteKind)
    (recorded : conn.handshaken = false → false ∈ next.headersStarted)
    (writing : next.writing = conn.writing ++ [⟨kind, conn.handshaken⟩])
    (headers : conn.headersStarted ⊆ next.headersStarted)
    (attempt : next.attempt = conn.attempt) : next.Honest where
  writes := by
    intro write member
    rw [attempt]
    rcases List.mem_append.mp (writing ▸ member) with before | isNew
    · have told := honest.writes write before
      split at told
      next connected =>
        rw [if_pos connected]
        exact told
      next notConnected =>
        rw [if_neg notConnected]
        exact headers told
    · rw [List.mem_singleton.mp isNew]
      split
      next connected => exact handshaken_iff.mp connected
      next notConnected =>
        rw [Bool.not_eq_true] at notConnected
        exact recorded notConnected
  queue _ := by
    rw [attempt, ← handshaken_iff]
    cases connected : conn.handshaken with
    | true => exact .inl rfl
    | false => exact .inr (recorded connected)

theorem Honest.WriteHeader (honest : conn.Honest) : conn.WriteHeader.Honest := by
  apply honest.starts .header
  · intro notConnected
    exact List.mem_append_right _ (List.mem_singleton.mpr notConnected.symm)
  · rfl
  · exact List.subset_append_left _ _
  · rfl

theorem Honest.WriteData (honest : conn.Honest) (succeeded : conn.attempt = .succeeded) :
    conn.WriteData.Honest := by
  apply honest.starts .data
  · intro notConnected
    rw [handshaken_iff.mpr succeeded] at notConnected
    contradiction
  · rfl
  · exact List.Subset.refl _
  · rfl

theorem patient_WriteHeader :
    conn.WriteHeader.Patient ↔ conn.Patient ∧ conn.attempt = .succeeded := by
  rw [Patient, TCPConnection.WriteHeader, List.forall_mem_append, List.forall_mem_singleton,
    handshaken_iff, Patient]

theorem written_spec (honest : conn.Honest) (succeeded : conn.attempt = .succeeded)
    {kind : WriteKind} (isNext : conn.written kind = some next) :
    next.Honest ∧ (next.Patient ↔ conn.Patient) := by
  have spec : ∀ popped, conn.writeNext = some popped →
      popped.Honest ∧ (popped.Patient ↔ conn.Patient) := by
    intro popped isPopped
    unfold writeNext at isPopped
    split at isPopped
    · contradiction
    next front rest queue =>
      have honestPopped : { conn with m_PktOut := rest }.Honest :=
        ⟨honest.writes, fun _ => .inl succeeded⟩
      rcases Option.some.inj isPopped with rfl
      split
      · exact ⟨honestPopped, Iff.rfl⟩
      · refine ⟨honestPopped.WriteHeader, ?_⟩
        rw [patient_WriteHeader]
        exact and_iff_left succeeded
  cases kind with
  | data => exact spec next isNext
  | header =>
      simp only [written] at isNext
      split at isNext
      · contradiction
      · split at isNext
        · cases isNext
          exact ⟨honest.WriteData succeeded, Iff.rfl⟩
        · exact spec next isNext

theorem attemptEnds_writes (conn : TCPConnection T) (ok : Bool) (left : Nat) :
    (conn.attemptEnds ok left).writing = conn.writing ∧
      (conn.attemptEnds ok left).headersStarted = conn.headersStarted ∧
      (conn.attemptEnds ok left).m_PktOut = conn.m_PktOut := by
  unfold attemptEnds
  split
  · exact ⟨rfl, rfl, rfl⟩
  · split
    · exact ⟨rfl, rfl, rfl⟩
    · split <;> exact ⟨rfl, rfl, rfl⟩

theorem honest_attemptEnds {left : Nat} (honest : conn.Honest)
    (pending : conn.attempt = .pending left) (ok : Bool) : (conn.attemptEnds ok left).Honest := by
  have notSucceeded : conn.attempt ≠ .succeeded := by simp [pending]
  rcases attemptEnds_writes conn ok left with ⟨writing, headers, queue⟩
  constructor
  · intro write member
    have told := honest.writes write (writing ▸ member)
    rw [headers]
    split at told
    next => exact absurd told notSucceeded
    next notConnected =>
      rw [if_neg notConnected]
      exact told
  · intro notEmpty
    rw [queue] at notEmpty
    rw [headers]
    exact .inr ((honest.queue notEmpty).resolve_left notSucceeded)

theorem enqueue_spec (honest : conn.Honest) (pkt : Packet T) :
    (conn.enqueue pkt).Honest ∧ ((conn.enqueue pkt).Patient ↔
      conn.Patient ∧ conn.attempt = .succeeded) := by
  unfold enqueue
  cases queue : conn.m_PktOut with
  | nil =>
      constructor
      · apply honest.starts .header
        · intro notConnected
          exact List.mem_append_right _ (List.mem_singleton.mpr notConnected.symm)
        · rfl
        · exact List.subset_append_left _ _
        · rfl
      · exact patient_WriteHeader
  | cons front rest =>
      have queued := honest.queue (by simp [queue])
      refine ⟨⟨honest.writes, fun _ => queued⟩, ?_⟩
      constructor
      · intro patient
        exact ⟨patient, queued.resolve_right fun early =>
          Bool.false_ne_true (patient false early)⟩
      · exact And.left

theorem handle_spec {handler : Handler} (honest : conn.Honest)
    (isNext : conn.handle handler = some next) :
    next.Honest ∧ (next.Patient ↔ conn.Patient ∧ conn.LambdaConnected handler) := by
  cases handler with
  | attempt ok =>
      simp only [handle] at isNext
      split at isNext
      next left pending =>
        cases isNext
        refine ⟨honest_attemptEnds honest pending ok, ?_⟩
        simp only [LambdaConnected, and_true, Patient, (attemptEnds_writes conn ok left).2.1]
      · contradiction
      · contradiction
  | posted =>
      simp only [handle] at isNext
      split at isNext
      · contradiction
      next pkt posted lambdas =>
        cases isNext
        have honestPopped : { conn with posted }.Honest := ⟨honest.writes, honest.queue⟩
        have spec := enqueue_spec honestPopped pkt
        simp only [LambdaConnected, lambdas]
        exact spec
      next posted lambdas =>
        cases isNext
        simp only [LambdaConnected, lambdas, and_true]
        exact ⟨⟨honest.writes, honest.queue⟩, Iff.rfl⟩
  | write ok =>
      simp only [handle] at isNext
      simp only [LambdaConnected, and_true]
      split at isNext
      · contradiction
      next write others writing =>
        have honestOthers : { conn with writing := others }.Honest :=
          ⟨fun other member => honest.writes other (writing ▸ List.mem_cons_of_mem write member),
            honest.queue⟩
        split at isNext
        · cases isNext
          exact ⟨⟨honestOthers.writes, honestOthers.queue⟩, Iff.rfl⟩
        · split at isNext
          next connected =>
            have succeeded := honest.writes write (writing ▸ List.mem_cons_self)
            rw [if_pos connected] at succeeded
            have spec := written_spec honestOthers succeeded isNext
            exact spec
          next => contradiction
  | read ok =>
      simp only [handle] at isNext
      simp only [LambdaConnected, and_true]
      split at isNext
      · contradiction
      · split at isNext
        · cases isNext
          exact ⟨⟨honest.writes, honest.queue⟩, Iff.rfl⟩
        · cases isNext
          exact ⟨⟨honest.writes, honest.queue⟩, Iff.rfl⟩

end Handlers

end TCPConnection

namespace ClientApp

variable {T : Type}

def connections (client : ClientApp T) : List (TCPConnection T) :=
  client.m_TCPConnection.toList ++ client.released

structure Sound (client : ClientApp T) : Prop where
  honest : ∀ conn ∈ client.connections, conn.Honest
  joinable : client.joinable = false → client.caller ≠ .releasing → client.m_TCPConnection = none

def WritesAfterConnect (client : ClientApp T) : Prop :=
  ∀ conn ∈ client.connections, conn.Patient

instance (client : ClientApp T) : Decidable client.WritesAfterConnect :=
  inferInstanceAs (Decidable (∀ conn ∈ client.connections,
    ∀ connected ∈ conn.headersStarted, connected = true))

def SendsAfterConnect (client : ClientApp T) : Action T → Prop
  | .handle handler => ∀ conn ∈ client.m_TCPConnection, conn.LambdaConnected handler
  | _ => True

theorem sound_new : (new : ClientApp T).Sound where
  honest := by simp [connections, new]
  joinable _ _ := rfl

section Steps

variable {client next : ClientApp T}

structure Quiet (client next : ClientApp T) : Prop where
  earlier : ∀ conn ∈ client.connections, ∃ later ∈ next.connections,
    later.headersStarted = conn.headersStarted
  later : ∀ later ∈ next.connections, (∃ endpoints, later = .ConnectToServer endpoints) ∨
    ∃ conn ∈ client.connections, later.headersStarted = conn.headersStarted ∧
      later.writing = conn.writing ∧ later.attempt = conn.attempt ∧
      later.m_PktOut = conn.m_PktOut
  joinable : next.joinable = false → next.caller ≠ .releasing → next.m_TCPConnection = none

theorem Quiet.sound (quiet : Quiet client next) (sound : client.Sound) : next.Sound where
  honest := by
    intro later member
    rcases quiet.later later member with
      ⟨endpoints, rfl⟩ | ⟨conn, isOld, headers, writing, attempt, queue⟩
    · exact TCPConnection.honest_ConnectToServer endpoints
    · have honest := sound.honest conn isOld
      constructor
      · rw [headers, writing, attempt]
        exact honest.writes
      · rw [headers, attempt, queue]
        exact honest.queue
  joinable := quiet.joinable

theorem Quiet.writesAfterConnect_iff (quiet : Quiet client next) :
    next.WritesAfterConnect ↔ client.WritesAfterConnect := by
  constructor
  · intro patient conn member
    rcases quiet.earlier conn member with ⟨later, isLater, headers⟩
    rw [TCPConnection.Patient, ← headers]
    exact patient later isLater
  · intro patient later member
    rcases quiet.later later member with ⟨endpoints, rfl⟩ | ⟨conn, isOld, headers, -⟩
    · exact TCPConnection.patient_ConnectToServer endpoints
    · rw [TCPConnection.Patient, headers]
      exact patient conn isOld

theorem handle_spec {handler : TCPConnection.Handler} {conn connNext : TCPConnection T}
    (sound : client.Sound) (joinable : client.joinable = true)
    (hasConn : client.m_TCPConnection = some conn)
    (handles : conn.handle handler = some connNext) (current : next.m_TCPConnection = some connNext)
    (released : next.released = client.released) (isJoinable : next.joinable = client.joinable) :
    next.Sound ∧ (next.WritesAfterConnect ↔
      client.WritesAfterConnect ∧ client.SendsAfterConnect (.handle handler)) := by
  have before : client.connections = conn :: client.released := by
    rw [connections, hasConn]
    rfl
  have after : next.connections = connNext :: client.released := by
    rw [connections, current, released]
    rfl
  have honest := sound.honest
  rw [before, List.forall_mem_cons] at honest
  have spec := TCPConnection.handle_spec honest.1 handles
  refine ⟨⟨?_, ?_⟩, ?_⟩
  · rw [after]
    exact List.forall_mem_cons.mpr ⟨spec.1, honest.2⟩
  · intro notJoinable
    rw [isJoinable, joinable] at notJoinable
    contradiction
  · have condition : client.SendsAfterConnect (.handle handler) ↔
        conn.LambdaConnected handler := by
      simp [SendsAfterConnect, hasConn]
    rw [condition, WritesAfterConnect, WritesAfterConnect, before, after, List.forall_mem_cons,
      List.forall_mem_cons, spec.2]
    exact and_right_comm

theorem quiet_of_map (change : TCPConnection T → TCPConnection T)
    (headers : ∀ conn, (change conn).headersStarted = conn.headersStarted)
    (writing : ∀ conn, (change conn).writing = conn.writing)
    (attempt : ∀ conn, (change conn).attempt = conn.attempt)
    (queue : ∀ conn, (change conn).m_PktOut = conn.m_PktOut)
    (changed : next.m_TCPConnection = client.m_TCPConnection.map change)
    (released : next.released = client.released)
    (joinable : next.joinable = false → next.caller ≠ .releasing →
      client.m_TCPConnection = none) : Quiet client next where
  earlier conn member := by
    rw [connections, List.mem_append, Option.mem_toList] at member
    rw [connections, changed, released]
    rcases member with isCurrent | isReleased
    · exact ⟨change conn, by simp [Option.mem_def.mp isCurrent], headers conn⟩
    · exact ⟨conn, List.mem_append_right _ isReleased, rfl⟩
  later later member := by
    rw [connections, changed, released, List.mem_append, Option.mem_toList] at member
    rcases member with isCurrent | isReleased
    · rcases Option.map_eq_some_iff.mp isCurrent with ⟨conn, hasConn, rfl⟩
      exact .inr ⟨conn, by simp [connections, hasConn], headers conn, writing conn, attempt conn,
        queue conn⟩
    · exact .inr ⟨later, List.mem_append_right _ isReleased, rfl, rfl, rfl, rfl⟩
  joinable notJoinable notReleasing := by
    rw [changed, joinable notJoinable notReleasing]
    rfl

theorem quiet_of_same (current : next.m_TCPConnection = client.m_TCPConnection)
    (released : next.released = client.released)
    (joinable : next.joinable = false → next.caller ≠ .releasing →
      client.m_TCPConnection = none) : Quiet client next :=
  quiet_of_map id (fun _ => rfl) (fun _ => rfl) (fun _ => rfl) (fun _ => rfl)
    (by rw [current, Option.map_id_fun, id]) released joinable

theorem quiet_Connect (sound : client.Sound) (idle : client.caller = .idle) (endpoints : Nat) :
    Quiet client (client.Connect endpoints) := by
  unfold Connect
  split
  next joinable => exact quiet_of_same rfl rfl (by simp [joinable])
  next notJoinable =>
    rw [Bool.not_eq_true] at notJoinable
    have none_ := sound.joinable notJoinable (by simp [idle])
    refine ⟨?_, ?_, by simp⟩
    · intro conn member
      rw [connections, none_] at member
      exact ⟨conn, List.mem_cons_of_mem _ member, rfl⟩
    · intro later member
      rcases List.mem_cons.mp member with rfl | isReleased
      · exact .inl ⟨endpoints, rfl⟩
      · exact .inr ⟨later, List.mem_append_right _ isReleased, rfl, rfl, rfl, rfl⟩

theorem disconnect_writes (conn : TCPConnection T) :
    conn.Disconnect.headersStarted = conn.headersStarted ∧
      conn.Disconnect.writing = conn.writing ∧ conn.Disconnect.attempt = conn.attempt ∧
      conn.Disconnect.m_PktOut = conn.m_PktOut := by
  unfold TCPConnection.Disconnect
  split <;> exact ⟨rfl, rfl, rfl, rfl⟩

theorem quiet_Disconnect (sound : client.Sound) (idle : client.caller = .idle) :
    Quiet client client.Disconnect := by
  have joinable : client.joinable = false → client.m_TCPConnection = none :=
    fun notJoinable => sound.joinable notJoinable (by simp [idle])
  unfold Disconnect
  split
  · exact quiet_of_map (·.Disconnect) (fun conn => (disconnect_writes conn).1)
      (fun conn => (disconnect_writes conn).2.1) (fun conn => (disconnect_writes conn).2.2.1)
      (fun conn => (disconnect_writes conn).2.2.2) rfl rfl fun notJoinable _ => joinable notJoinable
  · exact quiet_of_same rfl rfl fun notJoinable _ => joinable notJoinable

theorem quiet_SendToServer (sound : client.Sound) (pkt : Packet T) :
    Quiet client (client.SendToServer pkt) := by
  unfold SendToServer
  split
  · exact quiet_of_map (·.SendPacket pkt) (fun _ => rfl) (fun _ => rfl) (fun _ => rfl)
      (fun _ => rfl) rfl rfl sound.joinable
  · exact quiet_of_same rfl rfl sound.joinable

theorem quiet_release : Quiet client { client with
    caller := .idle
    m_TCPConnection := none
    released := client.released ++ client.m_TCPConnection.toList } := by
  have moved : ∀ conn, conn ∈ client.released ++ client.m_TCPConnection.toList ↔
      conn ∈ client.connections := fun conn => by
    rw [connections, List.mem_append, List.mem_append, or_comm]
  refine ⟨?_, ?_, fun _ _ => rfl⟩
  · exact fun conn member => ⟨conn, (moved conn).mpr member, rfl⟩
  · exact fun later member => .inr ⟨later, (moved later).mp member, rfl, rfl, rfl, rfl⟩

theorem step_spec {action : Action T} (sound : client.Sound) (step : Step client action next) :
    next.Sound ∧ (next.WritesAfterConnect ↔
      client.WritesAfterConnect ∧ client.SendsAfterConnect action) := by
  have ofQuiet : Quiet client next → client.SendsAfterConnect action →
      next.Sound ∧ (next.WritesAfterConnect ↔
        client.WritesAfterConnect ∧ client.SendsAfterConnect action) := by
    intro quiet condition
    refine ⟨quiet.sound sound, ?_⟩
    rw [quiet.writesAfterConnect_iff]
    exact (and_iff_left condition).symm
  cases (performs_of_step step).2 with
  | unresolved => exact ofQuiet (quiet_of_same rfl rfl sound.joinable) trivial
  | Connect idle => exact ofQuiet (quiet_Connect sound idle _) trivial
  | Disconnect idle => exact ofQuiet (quiet_Disconnect sound idle) trivial
  | SendToServer => exact ofQuiet (quiet_SendToServer sound _) trivial
  | returns sleeping =>
      refine ofQuiet (quiet_of_same rfl rfl fun notJoinable _ => ?_) trivial
      exact sound.joinable notJoinable (by simp [sleeping])
  | stops stopping =>
      refine ofQuiet (quiet_of_same rfl rfl fun notJoinable _ => ?_) trivial
      exact sound.joinable notJoinable (by simp [stopping])
  | joins =>
      exact ofQuiet (quiet_of_same rfl rfl fun _ notReleasing => absurd rfl notReleasing) trivial
  | releases => exact ofQuiet quiet_release trivial
  | handle joinable _ hasConn handles =>
      exact handle_spec sound joinable hasConn handles rfl rfl rfl

end Steps

/-- In every run, no header is written on a connection before its `async_connect` has
succeeded exactly if no lambda of `SendPacket` runs before; and then nothing is being
written on a connection before it is connected. -/
theorem writes_after_connect_iff {client : ClientApp T} {actions : List (Action T)}
    (trace : Trace Step new actions client) :
    (client.WritesAfterConnect ↔ Trace (StepWhere Step SendsAfterConnect) new actions client) ∧
      (client.WritesAfterConnect → ∀ conn ∈ client.connections,
        conn.attempt ≠ .succeeded → conn.writing = []) := by
  have always : ∀ current action next, Sound current → Step current action next →
      Sound (T := T) next := fun _ _ _ sound step => (step_spec sound step).1
  have exact_ : ∀ current action next, Sound current → Step current action next →
      (WritesAfterConnect next ↔ WritesAfterConnect current ∧
        SendsAfterConnect (T := T) current action) :=
    fun _ _ _ sound step => (step_spec sound step).2
  have patientAtStart : WritesAfterConnect (new : ClientApp T) := by
    simp [WritesAfterConnect, connections, new]
  refine ⟨trace.stepWhere_iff always exact_ sound_new patientAtStart, ?_⟩
  intro patient conn member notSucceeded
  have honest := ((trace.invariant always sound_new).honest conn member).writes
  rw [List.eq_nil_iff_forall_not_mem]
  intro write inFlight
  have told := honest write inFlight
  split at told
  · exact notSucceeded told
  · exact Bool.false_ne_true (patient conn member false told)

/-- The packet is sent while `Connect` sleeps, and its lambda runs after the connection
was made. -/
theorem writes_after_connect_iff_sent_early :
    let ping : Packet CMD := ⟨⟨.Ping, 0⟩, []⟩
    let actions : List (Action CMD) := [.Connect (some 1), .SendToServer ping,
      .handle (.attempt true), .handle .posted, .handle (.write true), .proceed]
    ∃ client : ClientApp CMD, Trace Step new actions client ∧
      (∃ conn ∈ client.m_TCPConnection, conn.headersStarted = [true]) ∧
      Trace (StepWhere Step SendsAfterConnect) new actions client := by
  intro ping actions
  have runs : ∃ client ∈ runSteps step (new : ClientApp CMD) actions,
      client.WritesAfterConnect ∧
        ∃ conn ∈ client.m_TCPConnection, conn.headersStarted = [true] := by
    decide
  rcases runs with ⟨client, reaches, writes, started⟩
  have trace : Trace Step new actions client :=
    Trace.of_run reaches
  exact ⟨client, trace, started, (writes_after_connect_iff trace).1.mp writes⟩

/-- The lambda runs before the connection is made: the write fails, the socket is
closed, and the attempt that ends without an error is given up. -/
theorem write_before_connect :
    let ping : Packet CMD := ⟨⟨.Ping, 0⟩, []⟩
    let actions : List (Action CMD) := [.Connect (some 1), .proceed, .SendToServer ping,
      .handle .posted, .handle (.write false), .handle (.attempt true)]
    ∃ client : ClientApp CMD, Trace Step new actions client ∧
      ¬ client.WritesAfterConnect ∧
      ∃ conn ∈ client.m_TCPConnection, conn.attempt = .failed := by
  intro ping actions
  have runs : ∃ client ∈ runSteps step (new : ClientApp CMD) actions,
      ¬ client.WritesAfterConnect ∧ ∃ conn ∈ client.m_TCPConnection, conn.attempt = .failed := by
    decide
  rcases runs with ⟨client, reaches, early, failed⟩
  exact ⟨client, Trace.of_run reaches, early, failed⟩

end ClientApp

end GNL.NetClient
