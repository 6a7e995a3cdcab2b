import GNL.Client.Reconnecting

/-! # Closing the connection on `Disconnect`

`TCPConnection::Disconnect` only posts the lambda that closes the socket. The next
statement of `ClientApp::Disconnect` stops the `io_context`, and what was not run by
then is never run; the connection is given up with its socket as it is.
-/

namespace GNL.NetClient

namespace TCPConnection

variable {T : Type} {conn next : TCPConnection T}

def ClosePosted (conn : TCPConnection T) : Prop :=
  conn.socketOpen = true → .close ∈ conn.posted

def ClosePending (conn : TCPConnection T) : Prop :=
  .close ∈ conn.posted ∧ conn.socketOpen = true

theorem closePosted_Disconnect (conn : TCPConnection T) : conn.Disconnect.ClosePosted := by
  unfold TCPConnection.Disconnect
  split
  · exact fun _ => List.mem_append_right _ List.mem_cons_self
  next notOpen => exact fun isOpen => absurd isOpen notOpen

def SameSocket (conn next : TCPConnection T) : Prop :=
  next.socketOpen = conn.socketOpen ∧ next.posted = conn.posted

theorem ClosePosted.congr (closePosted : conn.ClosePosted) (same : conn.SameSocket next) :
    next.ClosePosted := by
  intro isOpen
  rw [same.1] at isOpen
  rw [same.2]
  exact closePosted isOpen

theorem sameSocket_writeNext (isNext : conn.writeNext = some next) : conn.SameSocket next := by
  unfold writeNext at isNext
  split at isNext
  · contradiction
  · cases isNext
    split
    · exact ⟨rfl, rfl⟩
    · exact ⟨rfl, rfl⟩

theorem sameSocket_written {kind : WriteKind} (isNext : conn.written kind = some next) :
    conn.SameSocket next := by
  cases kind with
  | data => exact sameSocket_writeNext isNext
  | header =>
      simp only [written] at isNext
      split at isNext
      · contradiction
      · split at isNext
        · cases isNext
          exact ⟨rfl, rfl⟩
        · exact sameSocket_writeNext isNext

theorem sameSocket_enqueue (conn : TCPConnection T) (pkt : Packet T) :
    conn.SameSocket (conn.enqueue pkt) := by
  unfold enqueue
  dsimp only
  split
  · exact ⟨rfl, rfl⟩
  · exact ⟨rfl, rfl⟩

theorem sameSocket_attemptEnds (conn : TCPConnection T) (ok : Bool) (left : Nat) :
    conn.SameSocket (conn.attemptEnds ok left) := by
  unfold attemptEnds
  split
  · exact ⟨rfl, rfl⟩
  · split
    · exact ⟨rfl, rfl⟩
    · split
      · exact ⟨rfl, rfl⟩
      · exact ⟨rfl, rfl⟩

theorem ClosePosted.handle {handler : Handler} (closePosted : conn.ClosePosted)
    (isNext : conn.handle handler = some next) : next.ClosePosted := by
  cases handler with
  | attempt ok =>
      simp only [TCPConnection.handle] at isNext
      split at isNext
      next left pending =>
        cases isNext
        exact closePosted.congr (sameSocket_attemptEnds conn ok left)
      · contradiction
      · contradiction
  | posted =>
      simp only [TCPConnection.handle] at isNext
      split at isNext
      · contradiction
      next pkt posted lambdas =>
        cases isNext
        have stillPosted : { conn with posted }.ClosePosted := by
          intro isOpen
          have queued := closePosted isOpen
          rw [lambdas] at queued
          exact (List.mem_cons.mp queued).resolve_left (by simp)
        exact stillPosted.congr (sameSocket_enqueue _ pkt)
      next posted lambdas =>
        cases isNext
        exact fun isOpen => absurd isOpen (by simp)
  | write ok =>
      simp only [TCPConnection.handle] at isNext
      split at isNext
      · contradiction
      next write others writing =>
        split at isNext
        · cases isNext
          exact fun isOpen => absurd isOpen (by simp)
        · split at isNext
          next =>
            have unchanged : { conn with writing := others }.ClosePosted := closePosted
            exact unchanged.congr (sameSocket_written isNext)
          next => contradiction
  | read ok =>
      simp only [TCPConnection.handle] at isNext
      split at isNext
      · contradiction
      · split at isNext
        · cases isNext
          exact closePosted
        · cases isNext
          exact fun isOpen => absurd isOpen (by simp)

end TCPConnection

namespace ClientApp

variable {T : Type} {client next : ClientApp T} {action : Action T}

def ReleasedClosed (client : ClientApp T) : Prop :=
  ∀ conn ∈ client.released, conn.socketOpen = false

/-- When `Disconnect` comes to `m_ASIOContext.stop()`, no lambda is queued that would
have to close an open socket. -/
def StopsAfterClose (client : ClientApp T) : Action T → Prop
  | .proceed => client.caller = .stopping →
      ∀ conn ∈ client.m_TCPConnection, ¬conn.ClosePending
  | _ => True

def PostsClose (client : ClientApp T) : Prop :=
  client.caller = .stopping → ∀ conn ∈ client.m_TCPConnection, conn.ClosePosted

theorem caller_SendToServer (client : ClientApp T) (pkt : Packet T) :
    (client.SendToServer pkt).caller = client.caller := by
  unfold SendToServer
  split
  · rfl
  · rfl

theorem released_SendToServer (client : ClientApp T) (pkt : Packet T) :
    (client.SendToServer pkt).released = client.released := by
  unfold SendToServer
  split
  · rfl
  · rfl

theorem PostsClose.step (postsClose : client.PostsClose) (step : Step client action next) :
    next.PostsClose := by
  cases (performs_of_step step).2 with
  | unresolved => exact postsClose
  | Connect idle =>
      unfold ClientApp.Connect
      split
      · exact postsClose
      · exact fun stopping => by cases stopping
  | Disconnect idle =>
      intro _ conn hasConn
      simp only [ClientApp.Disconnect] at hasConn
      split at hasConn
      · rcases Option.map_eq_some_iff.mp hasConn with ⟨before, -, rfl⟩
        exact TCPConnection.closePosted_Disconnect before
      next notOpen =>
        intro isOpen
        rw [ClientApp.IsConnected, hasConn] at notOpen
        exact absurd isOpen notOpen
  | SendToServer awake =>
      intro stopping
      rw [caller_SendToServer] at stopping
      rcases awake with idle | sleeping
      · exact absurd (idle.symm.trans stopping) (by simp)
      · exact absurd (sleeping.symm.trans stopping) (by simp)
  | returns sleeping => exact fun stopping => by cases stopping
  | stops stopping => exact fun stopping => by cases stopping
  | joins joining => exact fun stopping => by cases stopping
  | releases releasing => exact fun stopping => by cases stopping
  | handle joinable running hasConn handles =>
      intro stopping conn isConn
      cases isConn
      exact (postsClose stopping _ hasConn).handle handles

structure Closes (client : ClientApp T) : Prop where
  released : client.ReleasedClosed
  leaving : client.caller = .joining ∨ client.caller = .releasing →
    ∀ conn ∈ client.m_TCPConnection, conn.socketOpen = false

theorem closes_new : (new : ClientApp T).Closes where
  released _ member := absurd member List.not_mem_nil
  leaving leaving := by rcases leaving with impossible | impossible <;> cases impossible

theorem closes_iff_of_awake (client : ClientApp T)
    (awake : ¬(client.caller = .joining ∨ client.caller = .releasing)) :
    client.Closes ↔ client.ReleasedClosed :=
  ⟨Closes.released, fun released => ⟨released, fun leaving => absurd leaving awake⟩⟩

theorem closes_step_iff (leavesStopped : client.LeavesStopped) (postsClose : client.PostsClose)
    (step : Step client action next) :
    next.Closes ↔ client.Closes ∧ client.StopsAfterClose action := by
  cases (performs_of_step step).2 with
  | unresolved => exact (and_iff_left trivial).symm
  | Connect idle =>
      refine Iff.trans ?_ (and_iff_left trivial).symm
      rw [closes_iff_of_awake client (by simp [idle])]
      unfold ClientApp.Connect
      split
      · exact closes_iff_of_awake _ (by simp [idle])
      · exact closes_iff_of_awake _ (by simp)
  | Disconnect idle =>
      refine Iff.trans ?_ (and_iff_left trivial).symm
      rw [closes_iff_of_awake client (by simp [idle])]
      exact closes_iff_of_awake _ (by simp [ClientApp.Disconnect])
  | @SendToServer pkt awake =>
      have notLeaving : ¬(client.caller = .joining ∨ client.caller = .releasing) := by
        rcases awake with idle | sleeping
        · simp [idle]
        · simp [sleeping]
      refine Iff.trans ?_ (and_iff_left trivial).symm
      rw [closes_iff_of_awake client notLeaving, closes_iff_of_awake, ReleasedClosed,
        released_SendToServer, ReleasedClosed]
      rw [caller_SendToServer]
      exact notLeaving
  | returns sleeping =>
      have notStopping : client.StopsAfterClose .proceed :=
        fun stopping => absurd (sleeping.symm.trans stopping) (by simp)
      rw [and_iff_left notStopping, closes_iff_of_awake client (by simp [sleeping])]
      exact closes_iff_of_awake _ (by simp)
  | stops stopping =>
      rw [closes_iff_of_awake client (by simp [stopping])]
      constructor
      · rintro ⟨released, closed⟩
        refine ⟨released, fun _ conn hasConn pending => ?_⟩
        have isOpen := pending.2
        rw [closed (.inl rfl) conn hasConn] at isOpen
        contradiction
      · rintro ⟨released, afterClose⟩
        refine ⟨released, fun _ conn hasConn => ?_⟩
        by_contra notClosed
        have isOpen := (Bool.not_eq_false _).mp notClosed
        exact afterClose stopping conn hasConn ⟨postsClose stopping conn hasConn isOpen, isOpen⟩
  | joins joining =>
      have notStopping : client.StopsAfterClose .proceed :=
        fun stopping => absurd (joining.symm.trans stopping) (by simp)
      rw [and_iff_left notStopping]
      constructor
      · exact fun closes => ⟨closes.released, fun _ => closes.leaving (.inr rfl)⟩
      · exact fun closes => ⟨closes.released, fun _ => closes.leaving (.inl joining)⟩
  | releases releasing =>
      have notStopping : client.StopsAfterClose .proceed :=
        fun stopping => absurd (releasing.symm.trans stopping) (by simp)
      rw [and_iff_left notStopping, closes_iff_of_awake _ (by simp)]
      constructor
      · intro closed
        refine ⟨fun conn member => closed conn (List.mem_append_left _ member), ?_⟩
        intro _ conn hasConn
        exact closed conn (List.mem_append_right _ (Option.mem_toList.mpr hasConn))
      · intro closes conn member
        rcases List.mem_append.mp member with before | isLast
        · exact closes.released conn before
        · exact closes.leaving (.inr releasing) conn (Option.mem_toList.mp isLast)
  | handle joinable running hasConn handles =>
      have notLeaving : ¬(client.caller = .joining ∨ client.caller = .releasing) := by
        intro leaving
        have stopped := leavesStopped leaving
        rw [running] at stopped
        contradiction
      refine Iff.trans ?_ (and_iff_left trivial).symm
      rw [closes_iff_of_awake client notLeaving]
      exact closes_iff_of_awake _ notLeaving

/-- In every run in which the posted lambda is not left in the queue at the stop, each
`Disconnect` that has returned has closed the socket; and where it has in a run, the
run is one of these, up to a `Disconnect` that has not returned. -/
theorem disconnect_closes_iff {client : ClientApp T} {actions : List (Action T)}
    (trace : Trace Step new actions client) :
    (Trace (StepWhere Step StopsAfterClose) new actions client → client.ReleasedClosed) ∧
      (client.ReleasedClosed → client.caller ≠ .joining → client.caller ≠ .releasing →
        Trace (StepWhere Step StopsAfterClose) new actions client) := by
  have always : ∀ current action next, LeavesStopped (T := T) current ∧ PostsClose current →
      Step current action next → LeavesStopped next ∧ PostsClose next :=
    fun _ _ _ ⟨leavesStopped, postsClose⟩ step => ⟨leavesStopped.step step, postsClose.step step⟩
  have exact_ : ∀ current action next, LeavesStopped (T := T) current ∧ PostsClose current →
      Step current action next →
      (Closes next ↔ Closes current ∧ StopsAfterClose current action) :=
    fun _ _ _ ⟨leavesStopped, postsClose⟩ step => closes_step_iff leavesStopped postsClose step
  have postsClose : (new : ClientApp T).PostsClose := fun stopping => by cases stopping
  have run := trace.stepWhere_iff always exact_ ⟨leavesStopped_new, postsClose⟩ closes_new
  constructor
  · intro meets
    exact (run.mpr meets).released
  · intro released notJoining notReleasing
    have awake : ¬(client.caller = .joining ∨ client.caller = .releasing) :=
      fun leaving => leaving.elim notJoining notReleasing
    exact run.mp ((closes_iff_of_awake client awake).mpr released)

theorem disconnect_closes_iff_in_time :
    let actions : List (Action CMD) := [.Connect (some 1), .handle (.attempt true), .proceed,
      .Disconnect, .handle .posted, .proceed, .proceed, .proceed]
    ∃ client : ClientApp CMD, Trace Step new actions client ∧
      (∃ conn, client.released = [conn]) ∧ client.ReleasedClosed ∧
      Trace (StepWhere Step StopsAfterClose) new actions client := by
  intro actions
  have runs : ∃ client ∈ runSteps step (new : ClientApp CMD) actions,
      client.released.map (·.socketOpen) = [false] ∧ client.caller = .idle := by
    decide
  rcases runs with ⟨client, reaches, sockets, idle⟩
  have trace : Trace Step new actions client :=
    Trace.of_run reaches
  rcases List.map_eq_singleton_iff.mp sockets with ⟨conn, released, closed⟩
  have allClosed : client.ReleasedClosed := by
    intro other member
    rw [released, List.mem_singleton] at member
    rw [member, closed]
  exact ⟨client, trace, ⟨conn, released⟩, allClosed,
    (disconnect_closes_iff trace).2 allClosed (by simp [idle]) (by simp [idle])⟩

/-- A connected client disconnects, and its `io_context` is stopped before it runs
another handler: the connection is given up with its socket open. -/
theorem released_with_open_socket :
    let actions : List (Action CMD) := [.Connect (some 1), .handle (.attempt true), .proceed,
      .Disconnect, .proceed, .proceed, .proceed]
    ∃ client : ClientApp CMD, Trace Step new actions client ∧ client.caller = .idle ∧
      client.released.map (·.socketOpen) = [true] ∧ ¬client.ReleasedClosed := by
  intro actions
  have runs : ∃ client ∈ runSteps step (new : ClientApp CMD) actions,
      client.released.map (·.socketOpen) = [true] ∧ client.caller = .idle := by
    decide
  rcases runs with ⟨client, reaches, sockets, idle⟩
  refine ⟨client, Trace.of_run reaches, idle, sockets, ?_⟩
  intro closed
  rcases List.map_eq_singleton_iff.mp sockets with ⟨conn, released, isOpen⟩
  rw [closed conn (by simp [released])] at isOpen
  contradiction

end ClientApp

end GNL.NetClient
