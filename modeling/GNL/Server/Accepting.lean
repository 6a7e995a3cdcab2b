import GNL.Server.Moves

/-! # The handler of an accept

The main thread drops only connections that it found closed. While the handler of
an accept runs no other handler does, so the new connection stays open, and it
stays in `m_TCPConnections` until its first read is started.
-/

namespace GNL

namespace RunningServer

/-- Where the handler of an accept stands: at `SendToClient`, at its `SendPacket`, at
`push_back`, at `ConnectToClient`, at the `ReadHeader` in it, and at its end. -/
inductive Stage
  | greeting
  | sending
  | listing
  | connecting
  | reading
  | returning

namespace Stage

def thread (newconn : ConnRef) : Stage → Thread
  | .greeting => .acceptHandler newconn
  | .sending => ⟨[some newconn], .sending (.held 0) Server.acceptPacket,
      [.push_back 0, .ConnectToClient, .destroy]⟩
  | .listing => ⟨[some newconn], .calling, [.push_back 0, .ConnectToClient, .destroy]⟩
  | .connecting => ⟨[none], .calling, [.ConnectToClient, .destroy]⟩
  | .reading => ⟨[none], .reading newconn, [.destroy]⟩
  | .returning => ⟨[none], .calling, [.destroy]⟩

def after (server : RunningServer) (newconn : ConnRef) : Stage → RunningServer
  | .greeting => { server with io := thread newconn .sending }
  | .sending =>
      { server.SendPacket newconn Server.acceptPacket with io := thread newconn .listing }
  | .listing => { server with
      m_TCPConnections := server.m_TCPConnections ++ [some newconn]
      io := thread newconn .connecting }
  | .connecting =>
      { server.modify newconn ({ · with m_sID := server.m_IDCnt, identified := true }) with
        m_IDCnt := server.m_IDCnt + 1
        io := thread newconn .reading }
  | .reading => { server.modify newconn (·.ReadHeader) with io := thread newconn .returning }
  | .returning => { server with io := .idle }

def left : Stage → Nat
  | .greeting => 6
  | .sending => 5
  | .listing => 4
  | .connecting => 3
  | .reading => 2
  | .returning => 1

theorem thread_ne_idle (newconn : ConnRef) (stage : Stage) : stage.thread newconn ≠ .idle := by
  cases stage <;> exact nofun

end Stage

structure AcceptingAt (server : RunningServer) (stage : Stage) (newconn : ConnRef) : Prop where
  io : server.io = stage.thread newconn
  newest : newconn + 1 = server.created
  isConnected : (server.connection newconn).IsConnected = true
  last : stage = .connecting → ∃ front, server.m_TCPConnections = front ++ [some newconn]
  listed : stage = .reading → some newconn ∈ server.m_TCPConnections

def DropsClosed (server : RunningServer) (thread : Thread) : Prop :=
  ∀ place ∈ thread.doing.drops, ∃ client, server.pointer thread place = some client ∧
    server.connected client = false

theorem dropsClosed_of_none {server : RunningServer} {thread : Thread}
    (dropsNone : thread.doing.drops = none) : server.DropsClosed thread := by
  intro place isPlace
  rw [dropsNone] at isPlace
  cases isPlace

structure Coordinated (server : RunningServer) : Prop where
  unmade : ∀ conn, server.created ≤ conn → (server.connection conn).IsConnected = true
  ordinary : server.main.Ordinary
  drops : server.DropsClosed server.main
  accepting : server.io = .idle ∨ ∃ stage newconn, server.AcceptingAt stage newconn

theorem coordinated_start (m_IDCnt : UInt32) (m_sID : ConnRef → UInt32) :
    (start m_IDCnt m_sID).Coordinated where
  unmade _ _ := rfl
  ordinary := Thread.ordinary_idle
  drops := dropsClosed_of_none rfl
  accepting := .inl rfl

inductive Performs (padding : ConnRef → Nat → UInt16) (server : RunningServer) :
    Action → RunningServer → Prop
  | accept (waits : server.io = .idle) :
      Performs padding server .accept { server with
        created := server.created + 1
        io := .acceptHandler server.created }
  | Process {owned : OwnedPacket CMD} {rest : List (OwnedPacket CMD)}
      (queue : server.m_TCP_PktIn = owned :: rest) (returned : server.main = .idle) :
      Performs padding server .Process { server with
        m_TCP_PktIn := rest
        main := ⟨[owned.connectionPtr], .calling, [.OnPacket owned.pkt, .destroy]⟩ }
  | SendToClient {client : ConnRef} {pkt : Packet CMD} (returned : server.main = .idle)
      (listed : some client ∈ server.m_TCPConnections)
      (other : pkt.header.cmdID ≠ .AcceptTCPConnection) :
      Performs padding server (.SendToClient client pkt)
        { server with main := ⟨[some client], .calling, [.SendToClient 0 pkt, .destroy]⟩ }
  | SendToAll {pkt : Packet CMD} {ignore_client : Option ConnRef}
      (returned : server.main = .idle)
      (listed : ignore_client = none ∨ ignore_client ∈ server.m_TCPConnections)
      (other : pkt.header.cmdID ≠ .AcceptTCPConnection) :
      Performs padding server (.SendToAll pkt ignore_client)
        { server with main := ⟨[ignore_client], .calling, [.SendToAll pkt 0, .destroy]⟩ }
  | main {shared : RunningServer} {after : Thread} (moves : Moves server server.main shared after)
      (ordinary : after.Ordinary) :
      Performs padding server .main { shared with main := after }
  | io {stage : Stage} {newconn : ConnRef} (accepting : server.AcceptingAt stage newconn) :
      Performs padding server .io (stage.after server newconn)
  | write {conn : ConnRef} {action : Writer.Action CMD} {writer : Writer CMD}
      (ready : server.Ready (.write conn action))
      (writes : Writer.Step (padding conn) (server.connection conn).writer action writer) :
      Performs padding server (.write conn action) (server.modify conn ({ · with writer }))
  | read {conn : ConnRef} {action : Reader.Action} {reader : Reader CMD}
      (ready : server.Ready (.read conn action))
      (reads : Reader.Step
        { (server.connection conn).reader with m_PktIn := server.m_TCP_PktIn } action reader) :
      Performs padding server (.read conn action)
        { server.modify conn ({ · with reader := { reader with m_PktIn := [] } }) with
          m_TCP_PktIn := reader.m_PktIn }

section Steps

variable {order : Iteration} {padding : ConnRef → Nat → UInt16} {server next : RunningServer}
  {action : Action}

theorem proceed_io {stage : Stage} {newconn : ConnRef}
    (accepting : server.AcceptingAt stage newconn) :
    (server.proceed order server.io).map (fun next => { next.1 with io := next.2 }) =
      some (stage.after server newconn) := by
  have isOpen : (server.connection newconn).IsConnected = true := accepting.isConnected
  rw [accepting.io]
  cases stage with
  | greeting =>
      simp [proceed, Stage.thread, Thread.acceptHandler, call, connected, isOpen, Stage.after]
  | sending => simp [proceed, Stage.thread, pointer, Stage.after]
  | listing => simp [proceed, Stage.thread, call, Stage.after]
  | connecting =>
      rcases accepting.last rfl with ⟨front, listed⟩
      simp [proceed, Stage.thread, call, listed, isOpen, Stage.after, modify]
  | reading => simp [proceed, Stage.thread, Stage.after]
  | returning => simp [proceed, Stage.thread, call, Stage.after, Thread.idle]

theorem performs_of_step (coordinated : server.Coordinated)
    (step : Step order padding server action next) : Performs padding server action next := by
  cases action with
  | accept =>
      rcases Option.ite_none_right_eq_some.mp step with ⟨waits, isNext⟩
      cases isNext
      exact .accept waits
  | Process =>
      simp only [Step, RunningServer.step] at step
      split at step
      · contradiction
      next owned rest queue =>
        rcases Option.ite_none_right_eq_some.mp step with ⟨returned, isNext⟩
        cases isNext
        exact .Process queue returned
  | SendToClient client pkt =>
      rcases Option.ite_none_right_eq_some.mp step with ⟨⟨returned, listed, other⟩, isNext⟩
      cases isNext
      exact .SendToClient returned listed other
  | SendToAll pkt ignore_client =>
      rcases Option.ite_none_right_eq_some.mp step with ⟨⟨returned, listed, other⟩, isNext⟩
      cases isNext
      exact .SendToAll returned listed other
  | main =>
      rcases Option.map_eq_some_iff.mp step with ⟨⟨shared, after⟩, proceeds, rfl⟩
      rcases moves_of_proceed coordinated.ordinary proceeds with ⟨moves, ordinary⟩
      exact .main moves ordinary
  | io =>
      rcases coordinated.accepting with waits | ⟨stage, newconn, accepting⟩
      · simp [Step, RunningServer.step, waits, proceed, Thread.idle] at step
      · rw [Step, RunningServer.step, proceed_io accepting] at step
        cases step
        exact .io accepting
  | write conn action =>
      rcases Option.ite_none_right_eq_some.mp step with ⟨ready, writes⟩
      rcases Option.map_eq_some_iff.mp writes with ⟨writer, result, rfl⟩
      exact .write ready (Writer.step_of_toOption _ _ _ _ result)
  | read conn action =>
      rcases Option.ite_none_right_eq_some.mp step with ⟨ready, reads⟩
      rcases Option.map_eq_some_iff.mp reads with ⟨reader, result, rfl⟩
      exact .read ready result

theorem connection_modify_of_ne (server : RunningServer) {conn other : ConnRef}
    (isOther : other ≠ conn) (change : ServerConnection → ServerConnection) :
    (server.modify conn change).connection other = server.connection other :=
  Function.update_of_ne isOther _ _

@[simp] theorem connection_modify_self (server : RunningServer) (conn : ConnRef)
    (change : ServerConnection → ServerConnection) :
    (server.modify conn change).connection conn = change (server.connection conn) :=
  Function.update_self _ _ _

theorem connection_modify_of (server : RunningServer) (property : ConnRef → ServerConnection → Prop)
    {conn other : ConnRef} {change : ServerConnection → ServerConnection}
    (changed : property conn (change (server.connection conn)))
    (unchanged : property other (server.connection other)) :
    property other ((server.modify conn change).connection other) := by
  by_cases isConn : other = conn
  · subst isConn
    rw [connection_modify_self]
    exact changed
  · rw [connection_modify_of_ne server isConn]
    exact unchanged

theorem isConnected_modify (server : RunningServer) (conn other : ConnRef)
    {change : ServerConnection → ServerConnection}
    (same : ∀ conn, (change conn).IsConnected = conn.IsConnected) :
    ((server.modify conn change).connection other).IsConnected =
      (server.connection other).IsConnected :=
  connection_modify_of server (fun other changed =>
    changed.IsConnected = (server.connection other).IsConnected) (same _) rfl

theorem isConnected_of_moves {thread after : Thread} {shared : RunningServer}
    (moves : Moves server thread shared after) (conn : ConnRef) :
    (shared.connection conn).IsConnected = (server.connection conn).IsConnected := by
  cases moves with
  | send =>
      apply isConnected_modify
      exact fun _ => rfl
  | _ => rfl

theorem connection_after (stage : Stage) (newconn : ConnRef) :
    (stage.after server newconn).connection = match stage with
      | .sending => (server.SendPacket newconn Server.acceptPacket).connection
      | .connecting => (server.modify newconn
          ({ · with m_sID := server.m_IDCnt, identified := true })).connection
      | .reading => (server.modify newconn (·.ReadHeader)).connection
      | .greeting | .listing | .returning => server.connection := by
  cases stage <;> rfl

theorem isConnected_after (server : RunningServer) (stage : Stage) (newconn conn : ConnRef) :
    ((stage.after server newconn).connection conn).IsConnected =
      (server.connection conn).IsConnected := by
  rw [connection_after]
  cases stage with
  | sending =>
      apply isConnected_modify
      exact fun _ => rfl
  | connecting =>
      apply isConnected_modify
      exact fun _ => rfl
  | reading =>
      apply isConnected_modify
      exact fun _ => rfl
  | _ => rfl

theorem ready_of_handlerOf {conn : ConnRef} (performs : Performs padding server action next)
    (handler : action.handlerOf = some conn) : conn < server.created ∧ server.io = .idle := by
  cases performs with
  | write ready writes =>
      rename_i isAction _
      cases isAction with
      | SendPacket pkt => cases handler
      | transfer index count => cases handler
      | runPosted =>
          cases handler
          exact ready
      | complete index =>
          cases handler
          exact ready
      | fail index =>
          cases handler
          exact ready
  | read ready reads =>
      rename_i isAction _
      cases isAction with
      | arrive bytes => cases handler
      | complete =>
          cases handler
          exact ready
      | fail =>
          cases handler
          exact ready
  | _ => cases handler

theorem isConnected_of_performs (performs : Performs padding server action next)
    (conn : ConnRef) :
    (next.connection conn).IsConnected = (server.connection conn).IsConnected ∨
      action.handlerOf = some conn ∧ (next.connection conn).IsConnected = false := by
  cases performs with
  | main moves => exact .inl (isConnected_of_moves moves conn)
  | @io stage newconn => exact .inl (isConnected_after server stage newconn conn)
  | @write writing action writer ready writes =>
      by_cases isOther : conn ≠ writing
      · rw [connection_modify_of_ne server isOther]
        exact .inl rfl
      · rw [Decidable.not_not] at isOther
        subst isOther
        rw [connection_modify_self]
        rcases Writer.socketOpen_of_step writes with same | ⟨⟨index, rfl⟩, closed⟩
        · simp [ServerConnection.IsConnected, same]
        · exact .inr ⟨rfl, by simp [ServerConnection.IsConnected, closed]⟩
  | @read reading action reader ready reads =>
      by_cases isOther : conn ≠ reading
      · have same := connection_modify_of_ne server isOther
          ({ · with reader := { reader with m_PktIn := [] } })
        exact .inl (congrArg ServerConnection.IsConnected same)
      · rw [Decidable.not_not] at isOther
        subst isOther
        rw [connection_modify_self]
        rcases Reader.socketOpen_of_step reads with same | ⟨rfl, closed⟩
        · simp [ServerConnection.IsConnected, same]
        · exact .inr ⟨rfl, by simp [ServerConnection.IsConnected, closed]⟩
  | _ => exact .inl rfl

theorem created_of_moves {thread after : Thread} {shared : RunningServer}
    (moves : Moves server thread shared after) : shared.created = server.created := by
  cases moves <;> rfl

theorem created_of_performs (performs : Performs padding server action next) :
    server.created ≤ next.created := by
  cases performs with
  | accept => exact Nat.le_succ _
  | main moves => exact (created_of_moves moves).ge
  | @io stage newconn => cases stage <;> exact Nat.le_refl _
  | _ => exact Nat.le_refl _

theorem opened_before (performs : Performs padding server action next) (conn : ConnRef)
    (isConnected : (next.connection conn).IsConnected = true) :
    (server.connection conn).IsConnected = true := by
  rcases isConnected_of_performs performs conn with same | ⟨-, closed⟩
  · rw [← same, isConnected]
  · rw [closed] at isConnected
    contradiction

theorem connected_eq_false (performs : Performs padding server action next)
    {client : Option ConnRef} (closed : server.connected client = false) :
    next.connected client = false := by
  cases client with
  | none => rfl
  | some conn =>
      by_contra isConnected
      rw [Bool.not_eq_false] at isConnected
      have before := opened_before performs conn isConnected
      rw [connected, before] at closed
      contradiction

theorem drops_of_moves {thread after : Thread} {shared : RunningServer}
    (moves : Moves server thread shared after) (drops : server.DropsClosed thread) :
    ∀ place ∈ after.doing.drops, ∃ client, shared.pointer after place = some client ∧
      server.connected client = false := by
  cases moves with
  | control gives dropsNext => exact dropsNext
  | @remove client conn doing isDoing points goesOn =>
      intro place isPlace
      have same : client = place := Option.some.inj (goesOn.symm.trans isPlace)
      subst same
      have found := drops client (by rw [isDoing]; rfl)
      cases client <;> exact found
  | erase isDoing points =>
      intro place isPlace
      cases isPlace
      exact drops _ (by rw [isDoing]; rfl)
  | _ => exact fun place isPlace => by cases isPlace

theorem listed_of_moves {thread after : Thread} {shared : RunningServer} {conn : ConnRef}
    (moves : Moves server thread shared after)
    (drops : server.DropsClosed thread)
    (isConnected : (server.connection conn).IsConnected = true) :
    (some conn ∈ server.m_TCPConnections → some conn ∈ shared.m_TCPConnections) ∧
      ((∃ front, server.m_TCPConnections = front ++ [some conn]) →
        ∃ front, shared.m_TCPConnections = front ++ [some conn]) := by
  have isOpen : ∀ client, server.connected client = false → some conn ≠ client := by
    rintro client closed rfl
    rw [connected, isConnected] at closed
    contradiction
  have filtered : ∀ client, some conn ≠ client →
      (some conn ∈ server.m_TCPConnections →
        some conn ∈ server.m_TCPConnections.filter (· ≠ client)) ∧
        ((∃ front, server.m_TCPConnections = front ++ [some conn]) →
          ∃ front, server.m_TCPConnections.filter (· ≠ client) = front ++ [some conn]) := by
    intro client isOther
    constructor
    · exact fun listed => List.mem_filter.mpr ⟨listed, by simpa using isOther⟩
    · rintro ⟨front, last⟩
      refine ⟨front.filter (· ≠ client), ?_⟩
      rw [last, List.filter_append, List.filter_cons_of_pos (by simpa using isOther),
        List.filter_nil]
  cases moves with
  | @erase index client isDoing points =>
      rcases drops (.held index) (by rw [isDoing]; rfl) with ⟨found, isPointer, closed⟩
      rw [Option.some.inj (points.symm.trans isPointer)]
      exact filtered found (isOpen found closed)
  | @resetListed index isDoing =>
      rcases drops (.listed index) (by rw [isDoing]; rfl) with ⟨client, isPointer, closed⟩
      have isOther := isOpen client closed
      have inRange : server.m_TCPConnections[index]? = some client := isPointer
      constructor
      · intro listed
        rcases List.mem_iff_getElem?.mp listed with ⟨place, isAt⟩
        apply List.mem_iff_getElem?.mpr
        refine ⟨place, ?_⟩
        rw [List.getElem?_set_ne, isAt]
        rintro rfl
        exact isOther (Option.some.inj (isAt.symm.trans inRange))
      · rintro ⟨front, last⟩
        refine ⟨front.set index none, ?_⟩
        have before : index < front.length := by
          by_contra notBefore
          rw [last, List.getElem?_append_right (Nat.not_lt.mp notBefore)] at inRange
          have isLast := List.mem_of_getElem? inRange
          exact isOther (List.mem_singleton.mp isLast).symm
        simp only [last, List.set_append_left _ _ before]
  | eraseNull => exact filtered none nofun
  | _ => exact ⟨id, id⟩

theorem accepting_of_moves {thread after : Thread} {shared : RunningServer} {stage : Stage}
    {newconn : ConnRef} (moves : Moves server thread shared after)
    (drops : server.DropsClosed thread) (accepting : server.AcceptingAt stage newconn) :
    shared.AcceptingAt stage newconn where
  io := (io_of_moves moves).trans accepting.io
  newest := accepting.newest.trans (created_of_moves moves).symm
  isConnected := (isConnected_of_moves moves newconn).trans accepting.isConnected
  last connecting :=
    (listed_of_moves moves drops accepting.isConnected).2 (accepting.last connecting)
  listed reading :=
    (listed_of_moves moves drops accepting.isConnected).1 (accepting.listed reading)

theorem AcceptingAt.keep {stage : Stage} {newconn : ConnRef}
    (accepting : server.AcceptingAt stage newconn) (io : next.io = server.io)
    (created : next.created = server.created)
    (connections : next.m_TCPConnections = server.m_TCPConnections)
    (isConnected : (next.connection newconn).IsConnected = true) :
    next.AcceptingAt stage newconn where
  io := io.trans accepting.io
  newest := accepting.newest.trans created.symm
  isConnected := isConnected
  last connecting := connections ▸ accepting.last connecting
  listed reading := connections ▸ accepting.listed reading

theorem pointer_after {stage : Stage} {newconn : ConnRef} {place : Place}
    {client : Option ConnRef} {thread : Thread}
    (points : server.pointer thread place = some client) :
    (stage.after server newconn).pointer thread place = some client := by
  cases place with
  | held index => exact points
  | listed index =>
      have inRange : server.m_TCPConnections[index]? = some client := points
      cases stage with
      | listing =>
          have before := (List.getElem?_eq_some_iff.mp inRange).1
          exact (List.getElem?_append_left before).trans inRange
      | _ => exact points

theorem accepting_after {stage : Stage} {newconn : ConnRef}
    (accepting : server.AcceptingAt stage newconn) :
    (stage.after server newconn).io = .idle ∨
      ∃ later : Stage, later.left < stage.left ∧
        (stage.after server newconn).AcceptingAt later newconn := by
  have isConnected := (isConnected_after server stage newconn newconn).trans
    accepting.isConnected
  have newest := accepting.newest
  cases stage with
  | greeting =>
      exact .inr ⟨.sending, by decide, rfl, newest, isConnected, nofun, nofun⟩
  | sending =>
      exact .inr ⟨.listing, by decide, rfl, newest, isConnected, nofun, nofun⟩
  | listing =>
      exact .inr ⟨.connecting, by decide, rfl, newest, isConnected,
        fun _ => ⟨server.m_TCPConnections, rfl⟩, nofun⟩
  | connecting =>
      refine .inr ⟨.reading, by decide, rfl, newest, isConnected, nofun, fun _ => ?_⟩
      rcases accepting.last rfl with ⟨front, listed⟩
      exact listed ▸ List.mem_append_right front List.mem_cons_self
  | reading =>
      exact .inr ⟨.returning, by decide, rfl, newest, isConnected, nofun, nofun⟩
  | returning => exact .inl rfl

theorem Coordinated.step (coordinated : server.Coordinated)
    (step : Step order padding server action next) : next.Coordinated := by
  have performs := performs_of_step coordinated step
  have unmade : ∀ conn, next.created ≤ conn → (next.connection conn).IsConnected = true := by
    intro conn notCreated
    have before := Nat.le_trans (created_of_performs performs) notCreated
    rcases isConnected_of_performs performs conn with same | ⟨handler, -⟩
    · exact same.trans (coordinated.unmade conn before)
    · exact absurd (ready_of_handlerOf performs handler).1 (Nat.not_lt.mpr before)
  have stays : ∀ stage newconn, server.AcceptingAt stage newconn →
      (next.connection newconn).IsConnected = true := by
    intro stage newconn accepting
    rcases isConnected_of_performs performs newconn with same | ⟨handler, -⟩
    · exact same.trans accepting.isConnected
    · have waits := (ready_of_handlerOf performs handler).2
      exact absurd (accepting.io.symm.trans waits) (stage.thread_ne_idle newconn)
  have closedOn : ∀ client, server.connected client = false → next.connected client = false :=
    fun _ closed => connected_eq_false performs closed
  have dropsOn : next.main = server.main →
      (∀ place client, server.pointer server.main place = some client →
        next.pointer server.main place = some client) → next.DropsClosed next.main := by
    intro sameMain pointers place isPlace
    rw [sameMain] at isPlace ⊢
    rcases coordinated.drops place isPlace with ⟨client, points, closed⟩
    exact ⟨client, pointers place client points, closedOn client closed⟩
  have acceptsOn : next.io = server.io → next.created = server.created →
      next.m_TCPConnections = server.m_TCPConnections →
      next.io = .idle ∨ ∃ stage newconn, next.AcceptingAt stage newconn := by
    intro io created connections
    rcases coordinated.accepting with waits | ⟨stage, newconn, accepting⟩
    · exact .inl (io.trans waits)
    · have isConnected := stays stage newconn accepting
      exact .inr ⟨stage, newconn, accepting.keep io created connections isConnected⟩
  cases performs with
  | accept waits =>
      refine ⟨unmade, coordinated.ordinary, dropsOn rfl fun _ _ points => points, .inr ?_⟩
      have isConnected := coordinated.unmade server.created (Nat.le_refl _)
      exact ⟨.greeting, server.created, rfl, rfl, isConnected, by simp, by simp⟩
  | Process =>
      exact ⟨unmade, ⟨trivial, by simp [Call.Ordinary]⟩, dropsClosed_of_none rfl,
        acceptsOn rfl rfl rfl⟩
  | SendToClient _ _ other =>
      exact ⟨unmade, ⟨trivial, by simpa [Call.Ordinary] using other⟩,
        dropsClosed_of_none rfl, acceptsOn rfl rfl rfl⟩
  | SendToAll _ _ other =>
      exact ⟨unmade, ⟨trivial, by simpa [Call.Ordinary] using other⟩,
        dropsClosed_of_none rfl, acceptsOn rfl rfl rfl⟩
  | @main shared after moves ordinary =>
      refine ⟨unmade, ordinary, ?_, ?_⟩
      · intro place isPlace
        rcases drops_of_moves moves coordinated.drops place isPlace with ⟨client, points, closed⟩
        refine ⟨client, ?_, closedOn client closed⟩
        cases place <;> exact points
      · rcases coordinated.accepting with waits | ⟨stage, newconn, accepting⟩
        · exact .inl ((io_of_moves moves).trans waits)
        · have moved := accepting_of_moves moves coordinated.drops accepting
          exact .inr ⟨stage, newconn, moved.keep rfl rfl rfl moved.isConnected⟩
  | @io stage newconn accepting =>
      refine ⟨unmade, ?_, dropsOn ?_ fun _ _ => pointer_after, ?_⟩
      · cases stage <;> exact coordinated.ordinary
      · cases stage <;> rfl
      · rcases accepting_after accepting with waits | ⟨later, -, accepts⟩
        · exact .inl waits
        · exact .inr ⟨later, newconn, accepts⟩
  | write =>
      refine ⟨unmade, coordinated.ordinary, dropsOn rfl ?_, acceptsOn rfl rfl rfl⟩
      intro place client points
      cases place <;> exact points
  | read =>
      refine ⟨unmade, coordinated.ordinary, dropsOn rfl ?_, acceptsOn rfl rfl rfl⟩
      intro place client points
      cases place <;> exact points

theorem coordinated_of_trace {m_IDCnt : UInt32} {m_sID : ConnRef → UInt32}
    {actions : List Action}
    (trace : Trace (Step order padding) (start m_IDCnt m_sID) actions server) :
    server.Coordinated := by
  have preserved : ∀ current action next, Coordinated current →
      Step order padding current action next → next.Coordinated :=
    fun _ _ _ coordinated step => coordinated.step step
  exact trace.invariant preserved (coordinated_start m_IDCnt m_sID)

end Steps

end RunningServer

end GNL
