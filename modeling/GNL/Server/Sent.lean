import GNL.Server.OnPacket

/-! # What sending does

Whatever the server sends, through whichever function, it may find connections
closed on the way and drop them. `Sent` says all that can change, so that what
is proved of a handler does not depend on how it sends.
-/

namespace GNL.Server

variable {env : Environment} {Sends : Packet CMD → Prop}

/-- A server sends packets that satisfy `Sends`, and drops connections that it
finds closed together with what the world holds under their IDs. -/
structure Sent (env : Environment) (Sends : Packet CMD → Prop) (before after : Server) :
    Prop where
  tick : before.tick ≤ after.tick
  created : after.created = before.created
  m_sID : after.m_sID = before.m_sID
  reading : after.reading = before.reading
  m_IDCnt : after.m_IDCnt = before.m_IDCnt
  m_TCP_PktIn : after.m_TCP_PktIn = before.m_TCP_PktIn
  m_TCPConnections : ∀ client ∈ after.m_TCPConnections, client ∈ before.m_TCPConnections
  m_chaMap : ∀ key, after.m_chaMap.lookup key = before.m_chaMap.lookup key ∨
    after.m_chaMap.lookup key = none ∧
      ∃ conn < before.created, before.m_sID conn = key ∧ env.isOpen after.tick conn = false
  sent : ∃ new, after.sent = before.sent ++ new ∧ ∀ message ∈ new, Sends message.2

namespace Sent

theorem refl (env : Environment) (Sends : Packet CMD → Prop) (server : Server) :
    Sent env Sends server server where
  tick := Nat.le_refl _
  created := rfl
  m_sID := rfl
  reading := rfl
  m_IDCnt := rfl
  m_TCP_PktIn := rfl
  m_TCPConnections _ member := member
  m_chaMap _ := .inl rfl
  sent := ⟨[], (List.append_nil _).symm, by simp⟩

theorem trans {first second third : Server} (earlier : Sent env Sends first second)
    (later : Sent env Sends second third) : Sent env Sends first third where
  tick := earlier.tick.trans later.tick
  created := later.created.trans earlier.created
  m_sID := later.m_sID.trans earlier.m_sID
  reading := later.reading.trans earlier.reading
  m_IDCnt := later.m_IDCnt.trans earlier.m_IDCnt
  m_TCP_PktIn := later.m_TCP_PktIn.trans earlier.m_TCP_PktIn
  m_TCPConnections client member :=
    earlier.m_TCPConnections client (later.m_TCPConnections client member)
  m_chaMap key := by
    rcases later.m_chaMap key with same | ⟨gone, conn, isCreated, hasKey, closed⟩
    · rw [same]
      rcases earlier.m_chaMap key with same | ⟨gone, conn, isCreated, hasKey, closed⟩
      · exact .inl same
      · refine .inr ⟨gone, conn, isCreated, hasKey, ?_⟩
        by_contra isOpen
        rw [Bool.not_eq_false] at isOpen
        rw [env.closed_stays_closed later.tick isOpen] at closed
        contradiction
    · rw [earlier.created] at isCreated
      rw [earlier.m_sID] at hasKey
      exact .inr ⟨gone, conn, isCreated, hasKey, closed⟩
  sent := by
    rcases earlier.sent with ⟨new, sent, sends⟩
    rcases later.sent with ⟨newer, sentLater, sendsLater⟩
    refine ⟨new ++ newer, by rw [sentLater, sent, List.append_assoc], ?_⟩
    intro message member
    rcases List.mem_append.mp member with isNew | isNewer
    · exact sends message isNew
    · exact sendsLater message isNewer

theorem lookup_of_open {before after : Server} (sent : Sent env Sends before after)
    {key : UInt32} (isOpen : ∀ conn < before.created, before.m_sID conn = key →
      env.isOpen after.tick conn) :
    after.m_chaMap.lookup key = before.m_chaMap.lookup key := by
  rcases sent.m_chaMap key with same | ⟨_, conn, isCreated, hasKey, closed⟩
  · exact same
  · rw [isOpen conn isCreated hasKey] at closed
    contradiction

theorem lookup_eq_some {before after : Server} (sent : Sent env Sends before after)
    {key : UInt32} {cha : Character} (found : after.m_chaMap.lookup key = some cha) :
    before.m_chaMap.lookup key = some cha := by
  rcases sent.m_chaMap key with same | ⟨gone, _⟩
  · exact same ▸ found
  · rw [gone] at found
    contradiction

end Sent

theorem sent_asked (server : Server) : Sent env Sends server server.asked where
  __ := Sent.refl env Sends server
  tick := Nat.le_succ _
  m_chaMap _ := .inl rfl

theorem sent_SendPacket (server : Server) (conn : ConnRef) {pkt : Packet CMD}
    (sends : Sends pkt) : Sent env Sends server (server.SendPacket conn pkt) where
  __ := Sent.refl env Sends server
  sent := ⟨[(conn, pkt)], rfl, by simpa using sends⟩

def disconnected (server : Server) (conn : ConnRef) : Server :=
  { server with
    m_chaMap := server.m_chaMap.RemoveChaFromWorld (server.m_sID conn)
    removed := server.removed ++ [conn] }

theorem sent_disconnected {server : Server} {conn : ConnRef}
    (isCreated : conn < server.created) (closed : env.isOpen server.tick conn = false) :
    Sent env Sends server (server.disconnected conn) where
  __ := Sent.refl env Sends server
  m_chaMap key := by
    simp only [disconnected, ChaMap.lookup_RemoveChaFromWorld]
    split
    next same => exact .inr ⟨rfl, conn, isCreated, same.symm, closed⟩
    next => exact .inl rfl

theorem sent_connections {server : Server} {clients : List (Option ConnRef)}
    (subset : ∀ client ∈ clients, client ∈ server.m_TCPConnections) :
    Sent env Sends server { server with m_TCPConnections := clients } where
  __ := Sent.refl env Sends server
  m_TCPConnections := subset

theorem SendToClient_of_open {server : Server} {conn : ConnRef} (pkt : Packet CMD)
    (isOpen : env.isOpen server.tick conn = true) :
    server.SendToClient env (some conn) pkt =
      .ok (some conn, server.asked.SendPacket conn pkt) := by
  simp only [SendToClient, connected, IsConnected, isOpen, if_true]
  rfl

theorem SendToClient_of_closed {server : Server} {conn : ConnRef} (pkt : Packet CMD)
    (closed : env.isOpen server.tick conn = false) :
    server.SendToClient env (some conn) pkt =
      .ok (none, { server.asked.disconnected conn with
        m_TCPConnections := server.m_TCPConnections.filter (· ≠ some conn) }) := by
  simp only [SendToClient, connected, IsConnected, closed]
  rfl

theorem closed_asked {server : Server} {conn : ConnRef}
    (closed : env.isOpen server.tick conn = false) :
    env.isOpen server.asked.tick conn = false := by
  by_contra isOpen
  rw [Bool.not_eq_false] at isOpen
  rw [env.closed_stays_closed (Nat.le_succ _) isOpen] at closed
  contradiction

theorem sent_SendToClient (env : Environment) {server : Server} {conn : ConnRef} {pkt : Packet CMD}
    (isCreated : conn < server.created) (sends : Sends pkt) :
    ∃ client after, server.SendToClient env (some conn) pkt = .ok (client, after) ∧
      Sent env Sends server after := by
  have asked : Sent env Sends server server.asked := sent_asked server
  cases isOpen : env.isOpen server.tick conn with
  | true =>
      exact ⟨_, _, SendToClient_of_open pkt isOpen, asked.trans (sent_SendPacket _ conn sends)⟩
  | false =>
      have dropped := asked.trans (sent_disconnected isCreated (closed_asked isOpen))
      exact ⟨_, _, SendToClient_of_closed pkt isOpen, dropped.trans
        (sent_connections fun client member => (List.mem_filter.mp member).1)⟩

theorem sent_notifyEach (env : Environment) {pkt : Packet CMD} (sends : Sends pkt)
    {clients : List (Option ConnRef)} {server : Server}
    (areCreated : ∀ client ∈ clients, ∃ conn < server.created, client = some conn) :
    ∃ after, notifyEach env pkt clients server = .ok after ∧ Sent env Sends server after := by
  induction clients generalizing server with
  | nil => exact ⟨server, rfl, Sent.refl env Sends server⟩
  | cons client rest induction =>
      rcases List.forall_mem_cons.mp areCreated with ⟨⟨conn, isCreated, rfl⟩, restCreated⟩
      rcases sent_SendToClient env isCreated sends with ⟨_, middle, sendsClient, sent⟩
      rw [← sent.created] at restCreated
      rcases induction restCreated with ⟨after, notified, sentRest⟩
      refine ⟨after, ?_, sent.trans sentRest⟩
      rw [notifyEach, sendsClient]
      exact notified

section SendToEach

variable {pkt : Packet CMD} {ignore_client : Option ConnRef} {server : Server} {conn : ConnRef}

def passed (server : Server) (pkt : Packet CMD) (ignore_client : Option ConnRef)
    (conn : ConnRef) : Server :=
  if some conn ≠ ignore_client then server.asked.SendPacket conn pkt else server.asked

theorem sendToEach_of_open (isOpen : env.isOpen server.tick conn = true)
    (rest : List (Option ConnRef)) :
    sendToEach env pkt ignore_client (some conn :: rest) server =
      (sendToEach env pkt ignore_client rest (server.passed pkt ignore_client conn)).map
        fun left => (some conn :: left.1, left.2.1, left.2.2) := by
  simp only [sendToEach, connected, IsConnected, isOpen, if_true]
  change (sendToEach env pkt ignore_client rest (server.passed pkt ignore_client conn) >>= _) = _
  cases sendToEach env pkt ignore_client rest (server.passed pkt ignore_client conn) <;> rfl

theorem sendToEach_of_closed (closed : env.isOpen server.tick conn = false)
    (rest : List (Option ConnRef)) :
    sendToEach env pkt ignore_client (some conn :: rest) server =
      (sendToEach env pkt ignore_client rest (server.asked.disconnected conn)).map
        fun left => (none :: left.1, true, left.2.2) := by
  simp only [sendToEach, connected, IsConnected, closed]
  change (sendToEach env pkt ignore_client rest (server.asked.disconnected conn) >>= _) = _
  cases sendToEach env pkt ignore_client rest (server.asked.disconnected conn) <;> rfl

theorem sent_passed (sends : Sends pkt) :
    Sent env Sends server (server.passed pkt ignore_client conn) := by
  have asked : Sent env Sends server server.asked := sent_asked server
  unfold passed
  split
  · exact asked.trans (sent_SendPacket _ conn sends)
  · exact asked

theorem m_TCPConnections_passed :
    (server.passed pkt ignore_client conn).m_TCPConnections = server.m_TCPConnections := by
  unfold passed
  split <;> rfl

end SendToEach

theorem sent_sendToEach (env : Environment) {pkt : Packet CMD} (sends : Sends pkt)
    (ignore_client : Option ConnRef) {clients : List (Option ConnRef)} {server : Server}
    (areCreated : ∀ client ∈ clients, ∃ conn < server.created, client = some conn) :
    ∃ left invalid after, sendToEach env pkt ignore_client clients server =
        .ok (left, invalid, after) ∧
      (∀ client ∈ left, client ∈ clients ∨ invalid = true ∧ client = none) ∧
      after.m_TCPConnections = server.m_TCPConnections ∧ Sent env Sends server after := by
  induction clients generalizing server with
  | nil => exact ⟨[], false, server, rfl, by simp, rfl, Sent.refl env Sends server⟩
  | cons client rest induction =>
      rcases List.forall_mem_cons.mp areCreated with ⟨⟨conn, isCreated, rfl⟩, restCreated⟩
      cases isOpen : env.isOpen server.tick conn with
      | true =>
          have handed : Sent env Sends server (server.passed pkt ignore_client conn) :=
            sent_passed sends
          rw [← handed.created] at restCreated
          rcases induction restCreated with
            ⟨left, invalid, after, looped, subset, connections, sent⟩
          refine ⟨some conn :: left, invalid, after, ?_, ?_,
            connections.trans m_TCPConnections_passed, handed.trans sent⟩
          · rw [sendToEach_of_open isOpen, looped]
            rfl
          · intro client member
            rcases List.mem_cons.mp member with rfl | inLeft
            · exact .inl List.mem_cons_self
            · exact (subset client inLeft).imp_left (List.mem_cons_of_mem _)
      | false =>
          have dropped : Sent env Sends server (server.asked.disconnected conn) :=
            (sent_asked server).trans (sent_disconnected isCreated (closed_asked isOpen))
          rw [← dropped.created] at restCreated
          rcases induction restCreated with
            ⟨left, invalid, after, looped, subset, connections, sent⟩
          refine ⟨none :: left, true, after, ?_, ?_, connections, dropped.trans sent⟩
          · rw [sendToEach_of_closed isOpen, looped]
            rfl
          · intro client member
            rcases List.mem_cons.mp member with rfl | inLeft
            · exact .inr ⟨rfl, rfl⟩
            · rcases subset client inLeft with inRest | ⟨-, isNull⟩
              · exact .inl (List.mem_cons_of_mem _ inRest)
              · exact .inr ⟨rfl, isNull⟩

theorem sent_SendToAll (env : Environment) {server : Server} {pkt : Packet CMD}
    (sends : Sends pkt) (ignore_client : Option ConnRef)
    (areCreated : ∀ client ∈ server.m_TCPConnections, ∃ conn < server.created,
      client = some conn) :
    ∃ after, server.SendToAll env pkt ignore_client = .ok after ∧
      Sent env Sends server after := by
  rcases sent_sendToEach env sends ignore_client areCreated with
    ⟨left, invalid, after, looped, subset, connections, sent⟩
  rw [← connections] at subset
  cases invalid with
  | false =>
      refine ⟨{ after with m_TCPConnections := left }, ?_, sent.trans (sent_connections ?_)⟩
      · rw [SendToAll, looped]
        rfl
      · intro client member
        simpa using subset client member
  | true =>
      refine ⟨{ after with m_TCPConnections := left.filter (· ≠ none) }, ?_,
        sent.trans (sent_connections ?_)⟩
      · rw [SendToAll, looped]
        rfl
      · intro client member
        rcases List.mem_filter.mp member with ⟨inLeft, notNull⟩
        rcases subset client inLeft with present | ⟨-, isNull⟩
        · exact present
        · simp [isNull] at notNull

def announced (pkt : Packet CMD) (entries : List ChaEntry) : List (ConnRef × Packet CMD) :=
  entries.filterMap fun entry => entry.2.GetTCPConnection.map fun conn => (conn, pkt)

theorem mem_announced {pkt : Packet CMD} {entries : List ChaEntry} {conn : ConnRef} :
    (conn, pkt) ∈ announced pkt entries ↔
      ∃ entry ∈ entries, entry.2.GetTCPConnection = some conn := by
  simp [announced, List.mem_filterMap]

theorem eq_of_mem_announced {pkt : Packet CMD} {entries : List ChaEntry}
    {message : ConnRef × Packet CMD} (member : message ∈ announced pkt entries) :
    message.2 = pkt := by
  rcases List.mem_filterMap.mp member with ⟨entry, -, isMessage⟩
  rcases Option.map_eq_some_iff.mp isMessage with ⟨_, -, rfl⟩
  rfl

def flagged (cha : Character) (pkt : Packet CMD) (entries : List ChaEntry) :
    List (ConnRef × Packet CMD) :=
  (entries.filter fun entry => entry.2.GetID ≠ cha.GetID).filterMap fun entry =>
    entry.2.GetTCPConnection.map fun conn => (conn, pkt)

theorem flagEach_eq (cha : Character) (pkt : Packet CMD) {entries : List ChaEntry}
    {server : Server} {created : Nat}
    (owned : ∀ entry ∈ entries, ∃ conn < created, entry.2.GetTCPConnection = some conn) :
    flagEach cha pkt entries server =
      .ok { server with sent := server.sent ++ flagged cha pkt entries } := by
  induction entries generalizing server with
  | nil => simp [flagEach, flagged]
  | cons entry rest induction =>
      rcases List.forall_mem_cons.mp owned with ⟨⟨conn, -, isOwner⟩, restOwned⟩
      rw [flagEach]
      by_cases same : entry.2.GetID = cha.GetID
      · rw [if_pos same, induction restOwned]
        simp [flagged, same]
      · rw [if_neg same, isOwner]
        change flagEach cha pkt rest (server.SendPacket conn pkt) = _
        rw [induction restOwned]
        simp [flagged, same, isOwner, SendPacket]

end GNL.Server
