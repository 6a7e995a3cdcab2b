import GNL.Server.Handshake

/-! # Connections and their handlers

A handler of a connection, and a lambda that `SendPacket` posts, hold a raw `this`. The
owners of a connection are `shared_ptr`s, and nothing makes whoever gives up the last
of them wait for what is still outstanding.
-/

namespace GNL

namespace RunningServer

/-- The connections each `shared_ptr` points to. -/
def owners (server : RunningServer) : List ConnRef :=
  server.kept ++ server.main.held ++ server.io.held

def Alive (server : RunningServer) : Prop :=
  ∀ conn, (server.connection conn).Outstanding → conn ∈ server.owners

structure Orphaned (server : RunningServer) (conn : ConnRef) : Prop where
  created : conn < server.created
  outstanding : (server.connection conn).Outstanding
  unowned : conn ∉ server.owners

/-- Where the main thread gives up pointers to a connection on which something is
outstanding, they are not the last. -/
def KeepsOwner (server : RunningServer) : Action → Prop
  | .main => ∀ conn ∈ server.released server.main, (server.connection conn).Outstanding →
      (server.released server.main).count conn < server.owners.count conn
  | _ => True

instance (server : RunningServer) (action : Action) : Decidable (server.KeepsOwner action) :=
  match action with
  | .main => inferInstanceAs (Decidable (∀ conn ∈ server.released server.main,
      (server.connection conn).Outstanding →
        (server.released server.main).count conn < server.owners.count conn))
  | .accept | .Process | .SendToClient _ _ | .SendToAll _ _ | .io | .write _ _ | .read _ _ =>
      isTrue trivial

theorem alive_start (m_IDCnt : UInt32) (m_sID : ConnRef → UInt32) :
    (start m_IDCnt m_sID).Alive := by
  intro conn outstanding
  simp [ServerConnection.Outstanding, start, ServerConnection.make, Writer.idle] at outstanding

section Steps

variable {order : Iteration} {padding : ConnRef → Nat → UInt16} {server next : RunningServer}
  {action : Action}

theorem count_of_moves {thread after : Thread} {shared : RunningServer}
    (moves : Moves server thread shared after) (conn : ConnRef) :
    server.kept.count conn + thread.held.count conn ≤
        shared.kept.count conn + after.held.count conn + (server.released thread).count conn ∧
      (server.released thread ≠ [] →
        shared.kept.count conn + after.held.count conn + (server.released thread).count conn =
          server.kept.count conn + thread.held.count conn) := by
  cases moves with
  | control gives => simp [gives, Thread.held]
  | send gives => simp [gives, Thread.held, kept, SendPacket, modify]
  | @remove client other doing isDoing points goesOn =>
      have counted : ∀ key,
          (Server.owners (server.m_chaMap.RemoveChaFromWorld key).entries).count conn +
              ((server.m_chaMap.lookup key).bind Character.GetTCPConnection).toList.count conn =
            (Server.owners server.m_chaMap.entries).count conn :=
        fun key => count_erase server.m_chaMap key Character.GetTCPConnection conn
      have removed := counted (server.connection other).m_sID
      simp only [kept, List.count_append, released, isDoing, points, Thread.held]
      omega
  | @erase index client isDoing points =>
      have counted := count_filter_ne server.m_TCPConnections client conn
      simp only [kept, List.count_append, released, isDoing, points, Thread.held]
      omega
  | @resetHeld index isDoing =>
      have counted := count_set_none thread.pointers index conn
      simp only [released, isDoing, pointer, Thread.held]
      omega
  | @resetListed index isDoing =>
      have counted := count_set_none server.m_TCPConnections index conn
      simp only [kept, List.count_append, released, isDoing, pointer, Thread.held]
      omega
  | @handle client handled todo gives points handles =>
      have keeps := handles.keeps conn
      simp only [kept, List.count_append, gives, Thread.held, List.reduceOption_append,
        List.count_nil, ne_eq, not_true_eq_false, false_implies, and_true]
      omega
  | eraseNull gives =>
      simp only [kept, reduceOption_filter_ne_none, gives, List.count_nil, Thread.held]
      simp
  | destroy isDoing calls =>
      have counted := count_dropLast thread.pointers conn
      simp only [released, isDoing, calls, Thread.held]
      omega

theorem connection_of_moves {thread after : Thread} {shared : RunningServer}
    (moves : Moves server thread shared after) :
    shared.connection = server.connection ∨
      server.released thread = [] ∧ ∃ conn pkt, shared = server.SendPacket conn pkt ∧
        after.pointers = thread.pointers ∧ (conn ∈ server.kept ∨ conn ∈ thread.held) := by
  cases moves with
  | send gives owned => exact .inr ⟨gives, _, _, rfl, rfl, owned⟩
  | _ => exact .inl rfl

theorem outstanding_modify (server : RunningServer) {conn other : ConnRef}
    {change : ServerConnection → ServerConnection}
    (outstanding : ((server.modify conn change).connection other).Outstanding) :
    (server.connection other).Outstanding ∨ other = conn := by
  by_cases isConn : other = conn
  · exact .inr isConn
  · rw [connection_modify_of_ne server isConn] at outstanding
    exact .inl outstanding

theorem outstanding_of_write {conn : ConnRef} {action : Writer.Action CMD} {writer : Writer CMD}
    (ready : server.Ready (.write conn action))
    (writes : Writer.Step (padding conn) (server.connection conn).writer action writer) :
    (server.connection conn).Outstanding := by
  cases action with
  | SendPacket pkt => exact absurd ready id
  | runPosted =>
      refine .inl fun none => ?_
      simp [Writer.Step, Writer.step, none] at writes
  | transfer index count =>
      refine .inr (.inl fun none => ?_)
      simp [Writer.Step, Writer.step, none] at writes
  | complete index =>
      refine .inr (.inl fun none => ?_)
      simp [Writer.Step, Writer.step, none] at writes
  | fail index =>
      refine .inr (.inl fun none => ?_)
      simp [Writer.Step, Writer.step, none] at writes

theorem outstanding_of_read {conn next : Reader CMD} {action : Reader.Action}
    (reads : Reader.Step conn action next) :
    (action ≠ .complete ∧ action ≠ .fail ∧ next.reading = conn.reading) ∨ conn.reading ≠ [] := by
  cases action with
  | arrive bytes =>
      cases reads
      exact .inl ⟨nofun, nofun, rfl⟩
  | complete =>
      refine .inr fun none => ?_
      simp [Reader.Step, Reader.step, Reader.complete, none] at reads
  | fail =>
      refine .inr fun none => ?_
      simp [Reader.Step, Reader.step, Reader.fail, none] at reads

theorem outstanding_of_handler {conn : ConnRef} (performs : Performs padding server action next)
    (handler : action.handlerOf = some conn) : (server.connection conn).Outstanding := by
  cases performs with
  | @write writing action writer ready writes =>
      have outstanding := outstanding_of_write ready writes
      cases action <;> cases handler <;> exact outstanding
  | @read reading action reader ready reads =>
      have outstanding := outstanding_of_read reads
      cases action with
      | arrive bytes => cases handler
      | complete =>
          cases handler
          exact .inr (.inr (outstanding.resolve_left fun ⟨notComplete, _⟩ => notComplete rfl))
      | fail =>
          cases handler
          exact .inr (.inr (outstanding.resolve_left fun ⟨_, notFail, _⟩ => notFail rfl))
  | _ => cases handler

theorem alive_of_moves {after : Thread} {shared : RunningServer}
    (moves : Moves server server.main shared after) (alive : server.Alive)
    (keeps : server.KeepsOwner .main) : { shared with main := after }.Alive := by
  intro conn isOutstanding
  have outstanding : (shared.connection conn).Outstanding := isOutstanding
  have io : shared.io = server.io := io_of_moves moves
  have owned : conn ∈ server.owners ∧ ((server.connection conn).Outstanding ∨
      server.released server.main = []) := by
    rcases connection_of_moves moves with same | ⟨gives, other, pkt, rfl, -, isOwner⟩
    · rw [same] at outstanding
      exact ⟨alive conn outstanding, .inl outstanding⟩
    · refine ⟨?_, .inr gives⟩
      rcases outstanding_modify server outstanding with before | rfl
      · exact alive conn before
      · exact List.mem_append_left _ (List.mem_append.mpr isOwner)
  have counted := (count_of_moves moves conn).1
  have some_ : 0 < server.owners.count conn := List.count_pos_iff.mpr owned.1
  have left : (server.released server.main).count conn < server.owners.count conn := by
    by_cases isReleased : conn ∈ server.released server.main
    · rcases owned.2 with before | none
      · exact keeps conn isReleased before
      · rw [none] at isReleased
        exact absurd isReleased List.not_mem_nil
    · rw [List.count_eq_zero_of_not_mem isReleased]
      exact some_
  apply List.count_pos_iff.mp
  simp only [owners, kept, List.count_append, io] at left counted ⊢
  omega

theorem held_thread (stage : Stage) (newconn : ConnRef) :
    (stage.thread newconn).held = match stage with
      | .greeting | .sending | .listing => [newconn]
      | .connecting | .reading | .returning => [] := by
  cases stage <;> rfl

theorem owners_after {stage : Stage} {newconn conn : ConnRef}
    (accepting : server.AcceptingAt stage newconn) (owned : conn ∈ server.owners) :
    conn ∈ (stage.after server newconn).owners := by
  simp only [owners, accepting.io, held_thread, List.mem_append] at owned
  cases stage with
  | listing =>
      simp only [List.mem_singleton] at owned
      simp only [owners, Stage.after, held_thread, kept, List.reduceOption_append,
        List.reduceOption_cons_of_some, List.reduceOption_nil, List.mem_append,
        List.mem_singleton] at owned ⊢
      tauto
  | returning => exact List.mem_append.mpr (owned.imp_left List.mem_append.mpr)
  | _ => exact List.mem_append.mpr (owned.imp_left List.mem_append.mpr)

theorem alive_after {stage : Stage} {newconn : ConnRef}
    (accepting : server.AcceptingAt stage newconn) (alive : server.Alive) :
    (stage.after server newconn).Alive := by
  intro conn outstanding
  rw [connection_after] at outstanding
  cases stage with
  | sending =>
      apply owners_after accepting
      rcases outstanding_modify server outstanding with before | rfl
      · exact alive conn before
      · apply List.mem_append_right
        rw [accepting.io, held_thread]
        exact List.mem_singleton_self conn
  | connecting =>
      apply owners_after accepting
      apply alive conn
      exact connection_modify_of server (fun other changed =>
        changed.Outstanding → (server.connection other).Outstanding) id id outstanding
  | reading =>
      apply owners_after accepting
      rcases outstanding_modify server outstanding with before | rfl
      · exact alive conn before
      · exact List.mem_append_left _
          (List.mem_append_left _ (mem_kept_of_mem (accepting.listed rfl)))
  | _ => exact owners_after accepting (alive conn outstanding)

theorem Alive.grow (alive : server.Alive) (same : next.connection = server.connection)
    (grows : server.owners ⊆ next.owners) : next.Alive := by
  intro conn outstanding
  rw [same] at outstanding
  exact grows (alive conn outstanding)

theorem alive_calls (alive : server.Alive) (returned : server.main = .idle) (thread : Thread) :
    { server with main := thread }.Alive := by
  apply alive.grow
  · rfl
  · intro conn isOwner
    simp only [owners, returned, List.mem_append] at isOwner
    rcases isOwner with (inKept | inMain) | inIo
    · exact List.mem_append_left _ (List.mem_append_left _ inKept)
    · exact absurd inMain List.not_mem_nil
    · exact List.mem_append_right _ inIo

theorem alive_pops (alive : server.Alive) (returned : server.main = .idle)
    {owned : OwnedPacket CMD} {others : List (OwnedPacket CMD)}
    (queue : server.m_TCP_PktIn = owned :: others) (todo : List Call) :
    { server with
      m_TCP_PktIn := others
      main := ⟨[owned.connectionPtr], .calling, todo⟩ }.Alive := by
  apply alive.grow
  · rfl
  · intro conn isOwner
    simp only [owners, returned, List.mem_append, mem_held_singleton] at isOwner ⊢
    rcases isOwner with (inKept | inMain) | inIo
    · exact .inl ((mem_kept_iff_of_pop queue conn).mp inKept)
    · exact absurd inMain List.not_mem_nil
    · exact .inr inIo

theorem alive_reads (alive : server.Alive) {conn : ConnRef} {action : Reader.Action}
    {reader : Reader CMD}
    (step : Reader.Step
      { (server.connection conn).reader with m_PktIn := server.m_TCP_PktIn } action reader) :
    { server.modify conn ({ · with reader := { reader with m_PktIn := [] } }) with
      m_TCP_PktIn := reader.m_PktIn }.Alive := by
  let change : ServerConnection → ServerConnection :=
    ({ · with reader := { reader with m_PktIn := [] } })
  have same : { server.modify conn change with m_TCP_PktIn := reader.m_PktIn }.connection =
    (server.modify conn change).connection := rfl
  intro other outstanding
  rw [same] at outstanding
  have owned : other ∈ server.owners := by
    apply alive other
    rcases outstanding_modify server outstanding with before | rfl
    · exact before
    · rw [connection_modify_self] at outstanding
      rcases outstanding_of_read step with ⟨-, -, reading⟩ | reading
      · rcases outstanding with posted | writing | isReading
        · exact .inl posted
        · exact .inr (.inl writing)
        · exact .inr (.inr (reading ▸ isReading))
      · exact .inr (.inr reading)
  have queue : server.m_TCP_PktIn ⊆ reader.m_PktIn := Reader.queue_of_step step
  simp only [owners, kept, List.mem_append, List.mem_filterMap] at owned ⊢
  rcases owned with ((inShared | ⟨packet, member, owner⟩) | inMain) | inIo
  · exact .inl (.inl (.inl inShared))
  · exact .inl (.inl (.inr ⟨packet, queue member, owner⟩))
  · exact .inl (.inr inMain)
  · exact .inr inIo

theorem alive_step (coordinated : server.Coordinated) (alive : server.Alive)
    (keeps : server.KeepsOwner action) (step : Step order padding server action next) :
    next.Alive := by
  cases performs_of_step coordinated step with
  | accept waits =>
      apply alive.grow
      · rfl
      · intro conn isOwner
        simp only [owners, waits, List.mem_append] at isOwner
        have owned := isOwner.resolve_right List.not_mem_nil
        exact List.mem_append_left _ (List.mem_append.mpr owned)
  | Process queue returned => exact alive_pops alive returned queue _
  | SendToClient returned => exact alive_calls alive returned _
  | SendToAll returned => exact alive_calls alive returned _
  | main moves => exact alive_of_moves moves alive keeps
  | io accepting => exact alive_after accepting alive
  | write ready writes =>
      intro other outstanding
      rcases outstanding_modify server outstanding with before | rfl
      · exact alive other before
      · exact alive other (outstanding_of_write ready writes)
  | read ready reads => exact alive_reads alive reads

theorem orphaned_of_step (coordinated : server.Coordinated)
    (introduced : server.Introduced padding) (drops : ¬ server.KeepsOwner action)
    (step : Step order padding server action next) :
    ∃ conn, next.Orphaned conn := by
  cases performs_of_step coordinated step with
  | @main shared after moves =>
      have last : ∃ conn ∈ server.released server.main,
          (server.connection conn).Outstanding ∧
            server.owners.count conn ≤ (server.released server.main).count conn := by
        simpa [KeepsOwner] using drops
      rcases last with ⟨conn, isReleased, outstanding, notFewer⟩
      have gives : server.released server.main ≠ [] := List.ne_nil_of_mem isReleased
      have counted := (count_of_moves moves conn).2 gives
      have released := List.count_pos_iff.mpr isReleased
      have known : conn ∈ server.kept ∨ conn ∈ server.main.held := by
        apply List.mem_append.mp
        apply List.count_pos_iff.mp
        rw [List.count_append]
        omega
      have notAwaited := not_awaited_of_greeted introduced (introduced.known conn known)
      have isCreated : conn < server.created :=
        Nat.not_le.mp fun notCreated => notAwaited (.inl notCreated)
      have same : shared.connection = server.connection :=
        (connection_of_moves moves).resolve_right fun ⟨givesNone, _⟩ => gives givesNone
      refine ⟨conn, ?_, ?_, ?_⟩
      · exact (created_of_moves moves).symm ▸ isCreated
      · exact same.symm ▸ outstanding
      · apply List.count_eq_zero.mp
        have io : shared.io = server.io := io_of_moves moves
        simp only [owners, kept, List.count_append, io] at notFewer counted ⊢
        omega
  | _ => exact absurd trivial drops

theorem owners_of_after {stage : Stage} {newconn : ConnRef}
    (accepting : server.AcceptingAt stage newconn) :
    (stage.after server newconn).owners ⊆ server.owners := by
  intro conn owned
  simp only [owners, accepting.io, held_thread, List.mem_append]
  cases stage with
  | listing =>
      simp only [owners, Stage.after, held_thread, kept, List.reduceOption_append,
        List.reduceOption_cons_of_some, List.reduceOption_nil, List.mem_append,
        List.mem_singleton, List.not_mem_nil, or_false] at owned ⊢
      tauto
  | returning => exact (List.mem_append.mp owned).imp_left List.mem_append.mp
  | _ => exact (List.mem_append.mp owned).imp_left List.mem_append.mp

theorem outstanding_after {stage : Stage} {newconn conn : ConnRef}
    (outstanding : (server.connection conn).Outstanding) :
    ((stage.after server newconn).connection conn).Outstanding := by
  rw [connection_after]
  cases stage with
  | sending =>
      exact connection_modify_of server (fun other changed =>
        (server.connection other).Outstanding → changed.Outstanding)
        (fun _ => .inl (by simp [ServerConnection.SendPacket])) id outstanding
  | connecting =>
      exact connection_modify_of server (fun other changed =>
        (server.connection other).Outstanding → changed.Outstanding) id id outstanding
  | reading =>
      exact connection_modify_of server (fun other changed =>
        (server.connection other).Outstanding → changed.Outstanding)
        (fun _ => .inr (.inr (by simp [ServerConnection.ReadHeader, Reader.ReadHeader])))
        id outstanding
  | _ => exact outstanding

theorem Orphaned.after {stage : Stage} {newconn conn : ConnRef}
    (orphaned : server.Orphaned conn) (accepting : server.AcceptingAt stage newconn) :
    (stage.after server newconn).Orphaned conn where
  created := by
    cases stage <;> exact orphaned.created
  outstanding := outstanding_after orphaned.outstanding
  unowned owned := orphaned.unowned (owners_of_after accepting owned)

theorem orphaned_until_returned {stage : Stage} {newconn conn : ConnRef}
    (accepting : server.AcceptingAt stage newconn) (orphaned : server.Orphaned conn) :
    ∃ later last, Trace (Step order padding) server later last ∧ last.io = .idle ∧
      last.Orphaned conn := by
  induction steps : stage.left using Nat.strong_induction_on generalizing server stage with
  | _ left induction =>
      have step : Step order padding server .io (stage.after server newconn) :=
        proceed_io accepting
      have still := orphaned.after accepting
      rcases accepting_after accepting with waits | ⟨later, fewer, accepts⟩
      · exact ⟨[.io], _, .cons step (.nil _), waits, still⟩
      · rcases induction later.left (steps ▸ fewer) accepts still rfl with
          ⟨actions, last, trace, waits, orphanedLast⟩
        exact ⟨.io :: actions, last, .cons step trace, waits, orphanedLast⟩

theorem step_of_write {conn : ConnRef} {action : Writer.Action CMD} {writer : Writer CMD}
    (ready : server.Ready (.write conn action))
    (writes : Writer.Step (padding conn) (server.connection conn).writer action writer) :
    Step order padding server (.write conn action) (server.modify conn ({ · with writer })) := by
  have result : (server.connection conn).writer.step (padding conn) action =
      some (.ok writer) := writes
  simp [Step, RunningServer.step, ready, write, result, Except.toOption]

theorem step_of_read {conn : ConnRef} {action : Reader.Action} {reader : Reader CMD}
    (ready : server.Ready (.read conn action))
    (reads : Reader.Step
      { (server.connection conn).reader with m_PktIn := server.m_TCP_PktIn } action reader) :
    Step order padding server (.read conn action)
      { server.modify conn ({ · with reader := { reader with m_PktIn := [] } }) with
        m_TCP_PktIn := reader.m_PktIn } := by
  have result : Reader.step
      { (server.connection conn).reader with m_PktIn := server.m_TCP_PktIn } action =
        some reader := reads
  simp [Step, RunningServer.step, ready, read, result]

theorem handler_of_outstanding {conn : ConnRef} (waits : server.io = .idle)
    (isCreated : conn < server.created) (outstanding : (server.connection conn).Outstanding) :
    ∃ action next, Step order padding server action next ∧ action.handlerOf = some conn := by
  rcases outstanding with posted | writing | reading
  · rcases Writer.runPosted_of_posted (padding conn) posted with ⟨writer, runs⟩
    exact ⟨.write conn .runPosted, _, step_of_write ⟨isCreated, waits⟩ runs, rfl⟩
  · rcases Writer.fail_of_writing (padding conn) writing with ⟨writer, fails⟩
    exact ⟨.write conn (.fail 0), _, step_of_write ⟨isCreated, waits⟩ fails, rfl⟩
  · rcases List.exists_cons_of_ne_nil reading with ⟨read, others, isReading⟩
    have fails : Reader.Step
        { (server.connection conn).reader with m_PktIn := server.m_TCP_PktIn } .fail
        { (server.connection conn).reader with
          m_PktIn := server.m_TCP_PktIn, reading := others, socketOpen := false } := by
      simp only [Reader.Step, Reader.step, Reader.fail, isReading]
    exact ⟨.read conn .fail, _, step_of_read ⟨isCreated, waits⟩ fails, rfl⟩

end Steps

/-- In every interleaving of the two threads in which no last owner of a connection is
given up while something is outstanding on it, a handler that starts to run finds its
connection alive. After the first step that does, a handler can start that does not. -/
theorem handlers_have_owners {order : Iteration} {padding : ConnRef → Nat → UInt16}
    {m_IDCnt : UInt32} {m_sID : ConnRef → UInt32} {actions : List Action}
    {server : RunningServer}
    (trace : Trace (StepWhere (Step order padding) KeepsOwner) (start m_IDCnt m_sID) actions
      server) :
    (∀ action next conn, Step order padding server action next →
      action.handlerOf = some conn → conn ∈ server.owners) ∧
    ∀ action next, Step order padding server action next → ¬ server.KeepsOwner action →
      ∃ later last handler after conn, Trace (Step order padding) next later last ∧
        Step order padding last handler after ∧ handler.handlerOf = some conn ∧
        conn ∉ last.owners := by
  have preserved : ∀ current action next, Coordinated current → Alive current →
      KeepsOwner current action → Step order padding current action next → Alive next :=
    fun _ _ _ coordinated alive keeps step => alive_step coordinated alive keeps step
  rcases trace.invariant_where (fun _ _ _ coordinated step => coordinated.step step) preserved
    (coordinated_start m_IDCnt m_sID) (alive_start m_IDCnt m_sID) with ⟨coordinated, alive⟩
  have introduced := introduced_of_trace trace.unconditional
  constructor
  · intro action next conn step handler
    exact alive conn (outstanding_of_handler (performs_of_step coordinated step) handler)
  · intro action next step drops
    rcases orphaned_of_step coordinated introduced drops step with ⟨conn, orphaned⟩
    have returns : ∃ later last, Trace (Step order padding) next later last ∧
        last.io = .idle ∧ last.Orphaned conn := by
      rcases (coordinated.step step).accepting with waits | ⟨stage, newconn, accepting⟩
      · exact ⟨[], next, .nil next, waits, orphaned⟩
      · exact orphaned_until_returned accepting orphaned
    rcases returns with ⟨later, last, traceLast, waits, orphanedLast⟩
    rcases handler_of_outstanding waits orphanedLast.created orphanedLast.outstanding with
      ⟨handler, after, runs, isHandler⟩
    exact ⟨later, last, handler, after, conn, traceLast, runs, isHandler, orphanedLast.unowned⟩

theorem handlers_have_owners_one_dropped :
    let padding : ConnRef → Nat → UInt16 := fun _ _ => 0
    let accepted : List Action := [.accept, .io, .io, .io, .io, .io, .io]
    let actions : List Action := accepted ++ accepted ++ [.write 0 .runPosted,
      .write 0 (.fail 0), .read 0 .fail, .SendToAll (Server.emptyPacket .ServerMessage) none,
      .main, .main, .main, .main, .main, .main, .main, .main]
    ∃ server next,
      Trace (StepWhere (Step .asKept padding) KeepsOwner) (start 5 fun _ => 0) actions server ∧
      server.m_TCPConnections = [some 1] ∧
      Step .asKept padding server (.write 1 .runPosted) next ∧ 1 ∈ server.owners := by
  intro padding accepted actions
  have runs : ∃ server ∈ runSteps (stepWhere (step .asKept padding) KeepsOwner)
        (start 5 fun _ => 0) actions,
      server.m_TCPConnections = [some 1] ∧
        (step .asKept padding server (.write 1 .runPosted)).isSome = true := by
    decide
  rcases runs with ⟨server, reaches, listed, runsPosted⟩
  rcases Option.isSome_iff_exists.mp runsPosted with ⟨next, step⟩
  have trace : Trace (StepWhere (Step .asKept padding) KeepsOwner) (start 5 fun _ => 0) actions
      server := Trace.of_runStepsWhere reaches
  exact ⟨server, next, trace, listed, step,
    (handlers_have_owners trace).1 (.write 1 .runPosted) next 1 step rfl⟩

/-- The handler of a write that was in flight when the read failed starts after `SendToAll`
found the connection closed and `Process` is done with the packet that had been read. -/
theorem handler_without_owner :
    let padding : ConnRef → Nat → UInt16 := fun _ _ => 0
    let actions : List Action := [.accept, .io, .io, .io, .io, .io, .io, .write 0 .runPosted,
      .read 0 (.arrive [7, 0, 0, 0, 0, 0, 0, 0]), .read 0 .complete, .read 0 .fail, .Process,
      .main, .main, .main, .main, .main, .main, .main]
    ∃ server next, Trace (Step .asKept padding) (start 5 fun _ => 0) actions server ∧
      Step .asKept padding server (.write 0 (.fail 0)) next ∧
      Action.handlerOf (.write 0 (.fail 0)) = some 0 ∧ 0 ∉ server.owners := by
  intro padding actions
  have runs : ∃ server ∈ runSteps (step .asKept padding) (start 5 fun _ => 0) actions,
      (step .asKept padding server (.write 0 (.fail 0))).isSome = true ∧
        0 ∉ server.owners := by
    decide
  rcases runs with ⟨server, reaches, runsHandler, unowned⟩
  rcases Option.isSome_iff_exists.mp runsHandler with ⟨next, step⟩
  have trace : Trace (Step .asKept padding) (start 5 fun _ => 0) actions server :=
    Trace.of_run reaches
  exact ⟨server, next, trace, step, rfl, unowned⟩

end RunningServer

end GNL
