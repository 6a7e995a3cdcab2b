import GNL.Server.Serial
import GNL.Network

/-! # What reaches the server

One queue takes the packets of all connections, and the threads take turns at it. Still the
packets of a connection come out of it as they went into the connection at the other end.
-/

namespace GNL

namespace Reader

variable {T : Type} [HeaderLayout T]

/-- What a step does does not depend on what is in the queue, and stays in front of it. -/
theorem step_with_queue {conn next : Reader T} {queue : List (OwnedPacket T)} {action : Action}
    (step : Step { conn with m_PktIn := queue } action next) :
    ∃ pkts : List (Packet T), next.m_PktIn = queue ++ pkts.map (⟨conn.connectionPtr, ·⟩) ∧
      ∀ other, Step { conn with m_PktIn := other } action
        { next with m_PktIn := other ++ pkts.map (⟨conn.connectionPtr, ·⟩) } := by
  cases action with
  | arrive bytes =>
      cases step
      refine ⟨[], (List.append_nil _).symm, fun other => ?_⟩
      rw [List.map_nil, List.append_nil]
      rfl
  | complete =>
      rcases complete_cases step with
        ⟨others, reading, enough, rfl⟩ | ⟨length, others, reading, enough, rfl⟩
      · have completes : ∀ other, Step { conn with m_PktIn := other } .complete
            (headerRead { conn with
              reading := others
              unread := conn.unread.drop (HeaderLayout.sizeof T)
              m_PktIn := other } (conn.unread.take (HeaderLayout.sizeof T))) := by
          intro other
          have isReading : conn.reading = .header :: others := reading
          simp only [Step, Reader.step, complete, isReading]
          exact if_pos enough
        simp only [headerRead] at completes ⊢
        split
        next announced =>
          refine ⟨[], (List.append_nil _).symm, fun other => ?_⟩
          have completed := completes other
          rw [if_pos announced] at completed
          rw [List.map_nil, List.append_nil]
          exact completed
        next announced =>
          refine ⟨[_], rfl, fun other => ?_⟩
          have completed := completes other
          rw [if_neg announced] at completed
          exact completed
      · refine ⟨[⟨conn.m_tmpPktIn.header, conn.unread.take length⟩], rfl, fun other => ?_⟩
        have isReading : conn.reading = .data length :: others := reading
        simp only [Step, Reader.step, complete, isReading]
        exact if_pos enough
  | fail =>
      simp only [Step, Reader.step, fail] at step
      split at step
      · contradiction
      next read others reading =>
        cases step
        refine ⟨[], (List.append_nil _).symm, fun other => ?_⟩
        have isReading : conn.reading = read :: others := reading
        rw [List.map_nil, List.append_nil]
        simp only [Step, Reader.step, fail, isReading]

end Reader

namespace RunningServer

open Network (packetsFrom packetsFrom_append handledBy)

def Action.arrivesOn (conn : ConnRef) : Action → List UInt8
  | .read other (.arrive bytes) => if other = conn then bytes else []
  | _ => []

def Unread (running : RunningServer) (conn : ConnRef) : Prop :=
  running.created ≤ conn ∨
    conn + 1 = running.created ∧ running.io ≠ .idle ∧ running.io ≠ Stage.returning.thread conn

def unreadReader (conn : ConnRef) (stream : List UInt8) : Reader CMD :=
  { (ServerConnection.make conn 0).reader with unread := stream }

/-- The bytes that have arrived at a receiving half, and what it has pushed of them. -/
inductive Takes (conn : ConnRef) (reader : Reader CMD) (stream : List UInt8)
    (pkts : List (Packet CMD)) : Prop
  | waits (isUnread : reader = unreadReader conn stream) (nothing : pkts = [])
  | reads {frames : List (List UInt8 × List UInt8)} (object : reader.connectionPtr = some conn)
      (received : Reader.Received { reader with m_PktIn := pkts.map (⟨some conn, ·⟩) } stream
        frames)

theorem unreadReader_step {conn : ConnRef} {stream : List UInt8} {queue : List (OwnedPacket CMD)}
    {action : Reader.Action} {next : Reader CMD}
    (step : Reader.Step { unreadReader conn stream with m_PktIn := queue } action next) :
    next.m_PktIn = queue ∧
      { next with m_PktIn := [] } = unreadReader conn (stream ++ Reader.arrived [action]) := by
  cases action with
  | arrive bytes =>
      cases step
      rw [Reader.arrived, Reader.arrived, List.append_nil]
      exact ⟨rfl, rfl⟩
  | complete => cases step
  | fail => cases step

theorem Takes.step {conn : ConnRef} {reader next : Reader CMD} {stream : List UInt8}
    {pkts : List (Packet CMD)} {queue : List (OwnedPacket CMD)} {action : Reader.Action}
    (takes : Takes conn reader stream pkts)
    (step : Reader.Step { reader with m_PktIn := queue } action next) :
    ∃ more : List (Packet CMD), next.m_PktIn = queue ++ more.map (⟨some conn, ·⟩) ∧
      Takes conn { next with m_PktIn := [] } (stream ++ Reader.arrived [action])
        (pkts ++ more) := by
  cases takes with
  | waits isUnread nothing =>
      rw [isUnread] at step
      rcases unreadReader_step step with ⟨queueNext, stays⟩
      refine ⟨[], queueNext.trans (List.append_nil _).symm, .waits stays ?_⟩
      rw [nothing]
      rfl
  | reads object received =>
      rcases Reader.step_with_queue step with ⟨more, pushes, steps⟩
      rw [object] at pushes steps
      rcases received.step (steps _) with ⟨later, receivedNext⟩
      rw [← List.map_append] at receivedNext
      exact ⟨more, pushes, .reads ((Reader.connectionPtr_of_step step).trans object) receivedNext⟩

/-- The packets popped and those in the queue are, connection by connection, what has come of
the bytes that have arrived. -/
structure Incoming (running : RunningServer) (stream : ConnRef → List UInt8)
    (popped : List (OwnedPacket CMD)) : Prop where
  unread : ∀ conn, running.Unread conn →
    (running.connection conn).reader = unreadReader conn (stream conn) ∧
      packetsFrom conn (popped ++ running.m_TCP_PktIn) = []
  takes : ∀ conn, Takes conn (running.connection conn).reader (stream conn)
    (packetsFrom conn (popped ++ running.m_TCP_PktIn))

section Steps

variable {padding : ConnRef → Nat → UInt16} {running next : RunningServer}
  {stream : ConnRef → List UInt8} {popped later : List (OwnedPacket CMD)} {act : Action}

theorem takes_of_ReadHeader {conn : ConnRef} {connection : ServerConnection} {bytes : List UInt8}
    (isUnread : connection.reader = unreadReader conn bytes) :
    Takes conn connection.ReadHeader.reader bytes [] := by
  have isReader : connection.ReadHeader.reader = (unreadReader conn bytes).ReadHeader :=
    congrArg Reader.ReadHeader isUnread
  have received : Reader.Received
      { (unreadReader conn bytes).ReadHeader with
        m_PktIn := ([] : List (Packet CMD)).map (⟨some conn, ·⟩) } bytes [] :=
    ⟨fun frame member => absurd member List.not_mem_nil, rfl, [], .header rfl rfl, rfl⟩
  rw [isReader]
  exact .reads rfl received

theorem Incoming.frame (incoming : running.Incoming stream popped)
    (readers : ∀ conn, (next.connection conn).reader = (running.connection conn).reader)
    (unread : ∀ conn, next.Unread conn → running.Unread conn)
    (queue : later ++ next.m_TCP_PktIn = popped ++ running.m_TCP_PktIn) :
    next.Incoming stream later where
  unread conn isUnread := by
    rw [readers, queue]
    exact incoming.unread conn (unread conn isUnread)
  takes conn := by
    rw [readers, queue]
    exact incoming.takes conn

theorem unread_of_same (created : next.created = running.created) (io : next.io = running.io)
    (conn : ConnRef) (isUnread : next.Unread conn) : running.Unread conn := by
  rw [Unread, created, io] at isUnread
  exact isUnread

theorem queue_of_moves {thread after : Thread} (moves : Moves running thread next after) :
    next.m_TCP_PktIn = running.m_TCP_PktIn := by
  cases moves <;> rfl

theorem reader_modify {conn : ConnRef} {change : ServerConnection → ServerConnection}
    (same : ∀ before : ServerConnection, (change before).reader = before.reader) (other : ConnRef) :
    ((running.modify conn change).connection other).reader = (running.connection other).reader :=
  connection_modify_of running
    (fun other changed => changed.reader = (running.connection other).reader) (same _) rfl

theorem Incoming.after (incoming : running.Incoming stream popped) {stage : Stage}
    {newconn : ConnRef} (accepting : running.AcceptingAt stage newconn) :
    (stage.after running newconn).Incoming stream popped := by
  have busy : running.io ≠ .idle := accepting.io ▸ Stage.thread_ne_idle newconn stage
  have newest : stage ≠ .returning → running.Unread newconn := by
    intro early
    refine .inr ⟨accepting.newest, busy, ?_⟩
    rw [accepting.io]
    cases stage <;> first | contradiction | (intro same; cases same)
  have unread : ∀ conn, (stage.after running newconn).Unread conn → running.Unread conn := by
    rintro conn (notCreated | ⟨isNewest, busyNext, early⟩)
    · left
      cases stage <;> exact notCreated
    · have created : (stage.after running newconn).created = running.created := by
        cases stage <;> rfl
      have isNew : conn = newconn :=
        Nat.succ_injective (isNewest.trans (created.trans accepting.newest.symm))
      rw [isNew]
      apply newest
      rintro rfl
      exact busyNext rfl
  cases stage with
  | greeting | listing | returning => exact incoming.frame (fun _ => rfl) unread rfl
  | sending =>
      let change : ServerConnection → ServerConnection := (·.SendPacket Server.acceptPacket)
      have same : ∀ before : ServerConnection, (change before).reader = before.reader :=
        fun _ => rfl
      exact incoming.frame (reader_modify same) unread rfl
  | connecting =>
      let change : ServerConnection → ServerConnection :=
        ({ · with m_sID := running.m_IDCnt, identified := true })
      have same : ∀ before : ServerConnection, (change before).reader = before.reader :=
        fun _ => rfl
      exact incoming.frame (reader_modify same) unread rfl
  | reading =>
      rcases incoming.unread newconn (newest (by intro same; cases same)) with ⟨isUnread, nothing⟩
      constructor
      · intro conn isUnreadNext
        have isOther : conn ≠ newconn := by
          rintro rfl
          rcases isUnreadNext with notCreated | ⟨-, -, early⟩
          · have isLess := Nat.lt_of_lt_of_eq (Nat.lt_succ_self conn) accepting.newest
            exact Nat.not_lt.mpr notCreated isLess
          · exact early rfl
        change ((running.modify newconn (·.ReadHeader)).connection conn).reader = _ ∧ _
        rw [connection_modify_of_ne running isOther]
        exact incoming.unread conn (unread conn isUnreadNext)
      · intro conn
        by_cases isNew : conn = newconn
        · subst isNew
          change Takes conn ((running.modify conn (·.ReadHeader)).connection conn).reader
            (stream conn) (packetsFrom conn (popped ++ running.m_TCP_PktIn))
          rw [connection_modify_self, nothing]
          exact takes_of_ReadHeader isUnread
        · change Takes conn ((running.modify newconn (·.ReadHeader)).connection conn).reader _ _
          rw [connection_modify_of_ne running isNew]
          exact incoming.takes conn

theorem arrivesOn_read (conn other : ConnRef) (action : Reader.Action) :
    (Action.read conn action).arrivesOn other =
      if conn = other then Reader.arrived [action] else [] := by
  cases action with
  | arrive bytes =>
      rw [Reader.arrived, Reader.arrived, List.append_nil]
      rfl
  | complete => exact (ite_self _).symm
  | fail => exact (ite_self _).symm

theorem packetsFrom_map_self (conn : ConnRef) (pkts : List (Packet CMD)) :
    packetsFrom conn (pkts.map (⟨some conn, ·⟩)) = pkts := by
  rw [packetsFrom, List.filter_eq_self.mpr]
  · rw [List.map_map]
    exact List.map_id _
  · intro owned member
    rcases List.mem_map.mp member with ⟨pkt, -, rfl⟩
    exact decide_eq_true rfl

theorem packetsFrom_map_of_ne {conn other : ConnRef} (isOther : other ≠ conn)
    (pkts : List (Packet CMD)) : packetsFrom other (pkts.map (⟨some conn, ·⟩)) = [] := by
  rw [packetsFrom, List.filter_eq_nil_iff.mpr]
  · rfl
  · intro owned member isSame
    rcases List.mem_map.mp member with ⟨pkt, -, rfl⟩
    exact isOther (Option.some.inj (of_decide_eq_true isSame)).symm

theorem Incoming.reads (incoming : running.Incoming stream popped) {conn : ConnRef}
    {action : Reader.Action} {reader : Reader CMD}
    (step : Reader.Step
      { (running.connection conn).reader with m_PktIn := running.m_TCP_PktIn } action reader) :
    { running.modify conn ({ · with reader := { reader with m_PktIn := [] } }) with
      m_TCP_PktIn := reader.m_PktIn }.Incoming
        (fun other => stream other ++ (Action.read conn action).arrivesOn other) popped := by
  rcases (incoming.takes conn).step step with ⟨more, pushes, takes⟩
  let change : ServerConnection → ServerConnection :=
    ({ · with reader := { reader with m_PktIn := [] } })
  have others : ∀ other, other ≠ conn →
      (running.modify conn change).connection other = running.connection other ∧
      stream other ++ (Action.read conn action).arrivesOn other = stream other ∧
      packetsFrom other (popped ++ reader.m_PktIn) =
        packetsFrom other (popped ++ running.m_TCP_PktIn) := by
    intro other isOther
    refine ⟨connection_modify_of_ne running isOther change, ?_, ?_⟩
    · rw [arrivesOn_read, if_neg isOther.symm, List.append_nil]
    · rw [pushes, ← List.append_assoc, packetsFrom_append, packetsFrom_map_of_ne isOther,
        List.append_nil]
  have own : (running.modify conn change).connection conn = change (running.connection conn) ∧
      stream conn ++ (Action.read conn action).arrivesOn conn =
        stream conn ++ Reader.arrived [action] := by
    refine ⟨connection_modify_self running conn change, ?_⟩
    rw [arrivesOn_read, if_pos rfl]
  constructor
  · intro other isUnread
    change ((running.modify conn change).connection other).reader = _ ∧
      packetsFrom other (popped ++ reader.m_PktIn) = []
    have before := incoming.unread other isUnread
    by_cases isConn : other = conn
    · subst isConn
      rw [before.1] at step
      rcases unreadReader_step step with ⟨queueNext, stays⟩
      rw [own.1, own.2, queueNext]
      exact ⟨stays, before.2⟩
    · rcases others other isConn with ⟨connection, same, pkts⟩
      rw [connection, same, pkts]
      exact before
  · intro other
    change Takes other ((running.modify conn change).connection other).reader _
      (packetsFrom other (popped ++ reader.m_PktIn))
    by_cases isConn : other = conn
    · subst isConn
      rw [own.1, own.2, pushes, ← List.append_assoc, packetsFrom_append, packetsFrom_map_self]
      exact takes
    · rcases others other isConn with ⟨connection, same, pkts⟩
      rw [connection, same, pkts]
      exact incoming.takes other

theorem Incoming.step (incoming : running.Incoming stream popped)
    (performs : Performs padding running act next) :
    next.Incoming (fun conn => stream conn ++ act.arrivesOn conn)
      (popped ++ (running.mainCalls act).flatMap handledBy) := by
  have nothing : ∀ {later : List (OwnedPacket CMD)}, (∀ conn, act.arrivesOn conn = []) →
      next.Incoming stream later →
      next.Incoming (fun conn => stream conn ++ act.arrivesOn conn) later := by
    intro later none_ holds
    have same : (fun conn => stream conn ++ act.arrivesOn conn) = stream := by
      funext conn
      rw [none_, List.append_nil]
    rwa [same]
  cases performs with
  | accept waits =>
      refine nothing (fun _ => rfl) (incoming.frame (fun _ => rfl) ?_ (by simp [mainCalls]))
      intro conn isUnread
      left
      rcases isUnread with notCreated | ⟨isNewest, -⟩
      · exact Nat.le_of_succ_le notCreated
      · exact Nat.le_of_eq (Nat.succ_injective isNewest).symm
  | @Process owned rest queue returned =>
      refine nothing (fun _ => rfl) (incoming.frame (fun _ => rfl) (unread_of_same rfl rfl) ?_)
      simp [mainCalls, queue, handledBy]
  | SendToClient =>
      exact nothing (fun _ => rfl) (incoming.frame (fun _ => rfl) (unread_of_same rfl rfl)
        (by simp [mainCalls, handledBy]))
  | SendToAll =>
      exact nothing (fun _ => rfl) (incoming.frame (fun _ => rfl) (unread_of_same rfl rfl)
        (by simp [mainCalls, handledBy]))
  | @main shared after moves =>
      have created : shared.created = running.created := created_of_moves moves
      have io : shared.io = running.io := io_of_moves moves
      refine nothing (fun _ => rfl) (incoming.frame ?_ (unread_of_same created io) ?_)
      · rcases connection_of_moves moves with same | ⟨-, conn, pkt, rfl, -⟩
        · exact fun conn => congrArg (fun connection => (connection conn).reader) same
        · let change : ServerConnection → ServerConnection := (·.SendPacket pkt)
          have same : ∀ before : ServerConnection, (change before).reader = before.reader :=
            fun _ => rfl
          exact reader_modify same
      · change (popped ++ []) ++ shared.m_TCP_PktIn = _
        rw [List.append_nil, queue_of_moves moves]
  | io accepting =>
      refine nothing (fun _ => rfl) ?_
      rw [mainCalls, List.flatMap_nil, List.append_nil]
      exact incoming.after accepting
  | @write conn action writer =>
      have sameQueue : popped ++ (running.mainCalls (.write conn action)).flatMap handledBy =
          popped := List.append_nil popped
      rw [sameQueue]
      refine nothing (fun _ => rfl) (incoming.frame ?_ (unread_of_same rfl rfl) rfl)
      let change : ServerConnection → ServerConnection := ({ · with writer })
      have same : ∀ before : ServerConnection, (change before).reader = before.reader :=
        fun _ => rfl
      exact reader_modify same
  | read ready reads =>
      rw [mainCalls, List.flatMap_nil, List.append_nil]
      exact incoming.reads reads

end Steps

section Runs

variable {order : Iteration} {padding : ConnRef → Nat → UInt16} {m_IDCnt : UInt32}
  {m_sID : ConnRef → UInt32} {actions : List Action} {running : RunningServer}

end Runs

end RunningServer

end GNL
