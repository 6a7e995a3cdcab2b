import GNL.Server.Handling

/-! # Which connections a step drops

Whatever sends to connections asks them one after the other whether they are
open, and drops those it finds closed. `Drops` says what becomes of the server
with them, and `lostIn` which they are.
-/

namespace GNL.Server

variable {env : Environment}

/-- One socket closes, after as many questions as `moment` says. -/
def Environment.closing (closed : ConnRef) (moment : Nat) : Environment where
  __ := Environment.calm
  isOpen tick conn := conn ≠ closed ∨ tick < moment
  closed_stays_closed := by
    intro earlier later conn order isOpen
    simp only [decide_eq_true_eq] at isOpen ⊢
    exact isOpen.imp_right (Nat.lt_of_le_of_lt order)

def foundClosed (env : Environment) : Nat → List ConnRef → List ConnRef
  | _, [] => []
  | tick, conn :: rest =>
      if env.isOpen tick conn then foundClosed env (tick + 1) rest
      else conn :: foundClosed env (tick + 1) rest

theorem mem_foundClosed {tick : Nat} {conns : List ConnRef} {conn : ConnRef} :
    conn ∈ foundClosed env tick conns ↔
      ∃ index, conns[index]? = some conn ∧ env.isOpen (tick + index) conn = false := by
  induction conns generalizing tick with
  | nil => simp [foundClosed]
  | cons first rest induction =>
      have isHead : conn ∈ foundClosed env tick (first :: rest) ↔
          first = conn ∧ env.isOpen tick conn = false ∨ conn ∈ foundClosed env (tick + 1) rest := by
        rw [foundClosed]
        split
        next isOpen =>
          constructor
          · exact .inr
          · rintro (⟨rfl, closed⟩ | later)
            · rw [isOpen] at closed
              contradiction
            · exact later
        next closed =>
          rw [List.mem_cons, Bool.not_eq_true] at *
          constructor
          · rintro (rfl | later)
            · exact .inl ⟨rfl, closed⟩
            · exact .inr later
          · exact Or.imp_left fun isFirst => isFirst.1.symm
      rw [isHead, ← Nat.or_exists_add_one, induction]
      simp only [List.getElem?_cons_zero, List.getElem?_cons_succ, Option.some.injEq,
        Nat.add_zero, Nat.add_assoc, Nat.add_comm 1]

theorem foundClosed_append (tick : Nat) (first second : List ConnRef) :
    foundClosed env tick (first ++ second) =
      foundClosed env tick first ++ foundClosed env (tick + first.length) second := by
  induction first generalizing tick with
  | nil => rfl
  | cons conn first induction =>
      have shifted : tick + 1 + first.length = tick + (conn :: first).length := by
        rw [List.length_cons]
        omega
      simp only [List.cons_append, foundClosed, induction, shifted]
      split <;> rfl

theorem foundClosed_sublist (tick : Nat) (conns : List ConnRef) :
    (foundClosed env tick conns).Sublist conns := by
  induction conns generalizing tick with
  | nil => exact List.Sublist.slnil
  | cons conn conns induction =>
      rw [foundClosed]
      split
      · exact (induction (tick + 1)).cons conn
      · exact (induction (tick + 1)).cons_cons conn

structure Forgets (env : Environment) (before after : Server) (lost : List ConnRef) : Prop where
  tick : before.tick ≤ after.tick
  created : after.created = before.created
  m_sID : after.m_sID = before.m_sID
  reading : after.reading = before.reading
  m_IDCnt : after.m_IDCnt = before.m_IDCnt
  m_TCP_PktIn : after.m_TCP_PktIn = before.m_TCP_PktIn
  areCreated : ∀ conn ∈ lost, conn < before.created
  closed : ∀ conn ∈ lost, env.isOpen after.tick conn = false
  removed : after.removed = before.removed ++ lost
  m_chaMap : ∀ key, after.m_chaMap.lookup key =
    if key ∈ lost.map before.m_sID then none else before.m_chaMap.lookup key

structure Drops (env : Environment) (before after : Server) (lost : List ConnRef) : Prop
    extends Forgets env before after lost where
  sublist : after.m_TCPConnections.Sublist before.m_TCPConnections
  m_TCPConnections : ∀ client, client ∈ after.m_TCPConnections ↔
    client ∈ before.m_TCPConnections ∧ ∀ conn ∈ lost, client ≠ some conn

theorem closed_mono {earlier later : Nat} {conn : ConnRef} (order : earlier ≤ later)
    (closed : env.isOpen earlier conn = false) : env.isOpen later conn = false := by
  by_contra isOpen
  rw [Bool.not_eq_false] at isOpen
  rw [env.closed_stays_closed order isOpen] at closed
  contradiction

namespace Forgets

theorem refl (env : Environment) (server : Server) : Forgets env server server [] where
  tick := Nat.le_refl _
  created := rfl
  m_sID := rfl
  reading := rfl
  m_IDCnt := rfl
  m_TCP_PktIn := rfl
  areCreated := by simp
  closed := by simp
  removed := (List.append_nil _).symm
  m_chaMap key := by simp

theorem trans {first second third : Server} {lost lostLater : List ConnRef}
    (earlier : Forgets env first second lost) (later : Forgets env second third lostLater) :
    Forgets env first third (lost ++ lostLater) where
  tick := earlier.tick.trans later.tick
  created := later.created.trans earlier.created
  m_sID := later.m_sID.trans earlier.m_sID
  reading := later.reading.trans earlier.reading
  m_IDCnt := later.m_IDCnt.trans earlier.m_IDCnt
  m_TCP_PktIn := later.m_TCP_PktIn.trans earlier.m_TCP_PktIn
  areCreated := by
    intro conn member
    rcases List.mem_append.mp member with isFirst | isSecond
    · exact earlier.areCreated conn isFirst
    · rw [← earlier.created]
      exact later.areCreated conn isSecond
  closed := by
    intro conn member
    rcases List.mem_append.mp member with isFirst | isSecond
    · exact closed_mono later.tick (earlier.closed conn isFirst)
    · exact later.closed conn isSecond
  removed := by rw [later.removed, earlier.removed, List.append_assoc]
  m_chaMap key := by
    rw [later.m_chaMap, earlier.m_chaMap, earlier.m_sID, List.map_append]
    simp only [List.mem_append]
    by_cases isSecond : key ∈ lostLater.map first.m_sID
    · rw [if_pos isSecond, if_pos (.inr isSecond)]
    · simp only [isSecond, if_false, or_false]

end Forgets

namespace Drops

theorem refl (env : Environment) (server : Server) : Drops env server server [] where
  __ := Forgets.refl env server
  sublist := List.Sublist.refl _
  m_TCPConnections := by simp

theorem trans {first second third : Server} {lost lostLater : List ConnRef}
    (earlier : Drops env first second lost) (later : Drops env second third lostLater) :
    Drops env first third (lost ++ lostLater) where
  __ := earlier.toForgets.trans later.toForgets
  sublist := later.sublist.trans earlier.sublist
  m_TCPConnections client := by
    rw [later.m_TCPConnections, earlier.m_TCPConnections, and_assoc]
    simp only [List.mem_append, or_imp, forall_and]

end Drops

theorem drops_nothing {before after : Server} (tick : before.tick ≤ after.tick)
    (same : after = { before with tick := after.tick, sent := after.sent, pings := after.pings }) :
    Drops env before after [] := by
  rw [same]
  exact { Drops.refl env before with tick := tick, closed := by simp }

theorem forgets_disconnected {server : Server} {conn : ConnRef} (isCreated : conn < server.created)
    (closed : env.isOpen server.tick conn = false) :
    Forgets env server (server.asked.disconnected conn) [conn] where
  tick := Nat.le_succ _
  created := rfl
  m_sID := rfl
  reading := rfl
  m_IDCnt := rfl
  m_TCP_PktIn := rfl
  areCreated := by simpa using isCreated
  closed := by
    rw [List.forall_mem_singleton]
    exact closed_asked closed
  removed := rfl
  m_chaMap key := by
    simp only [disconnected, ChaMap.lookup_RemoveChaFromWorld, List.map_singleton,
      List.mem_singleton]
    rfl

theorem drops_SendToClient (env : Environment) {server : Server} {conn : ConnRef}
    (isCreated : conn < server.created) (pkt : Packet CMD) :
    ∃ client after, server.SendToClient env (some conn) pkt = .ok (client, after) ∧
      after.tick = server.tick + 1 ∧
      Drops env server after (foundClosed env server.tick [conn]) := by
  cases isOpen : env.isOpen server.tick conn with
  | true =>
      refine ⟨_, _, SendToClient_of_open pkt isOpen, rfl, ?_⟩
      simp only [foundClosed, isOpen, if_true]
      exact drops_nothing (Nat.le_succ _) rfl
  | false =>
      have forgets := forgets_disconnected isCreated isOpen
      refine ⟨_, _, SendToClient_of_closed pkt isOpen, rfl, ?_⟩
      simp only [foundClosed, isOpen, Bool.false_eq_true, if_false]
      exact {
        forgets with
        sublist := List.filter_sublist
        m_TCPConnections := by simp }

theorem drops_notifyEach (env : Environment) (pkt : Packet CMD) {conns : List ConnRef}
    {server : Server} (areCreated : ∀ conn ∈ conns, conn < server.created) :
    ∃ after, notifyEach env pkt (conns.map some) server = .ok after ∧
      after.tick = server.tick + conns.length ∧
      Drops env server after (foundClosed env server.tick conns) := by
  induction conns generalizing server with
  | nil => exact ⟨server, rfl, rfl, Drops.refl env server⟩
  | cons conn rest induction =>
      rcases List.forall_mem_cons.mp areCreated with ⟨isCreated, restCreated⟩
      rcases drops_SendToClient env isCreated pkt with ⟨_, middle, sends, ticks, drops⟩
      rw [← drops.created] at restCreated
      rcases induction restCreated with ⟨after, notified, ticksRest, dropsRest⟩
      refine ⟨after, ?_, ?_, ?_⟩
      · rw [List.map_cons, notifyEach, sends]
        exact notified
      · rw [ticksRest, ticks, List.length_cons]
        omega
      · have split : foundClosed env server.tick (conn :: rest) =
            foundClosed env server.tick [conn] ++ foundClosed env middle.tick rest := by
          rw [ticks]
          exact foundClosed_append server.tick [conn] rest
        rw [split]
        exact drops.trans dropsRest

/-- What the loop of `SendToAll` leaves of the connections it went through. -/
structure Passed (clients left : List (Option ConnRef)) (invalid : Bool)
    (lost : List ConnRef) : Prop where
  sublist : (left.filter (· ≠ none)).Sublist clients
  invalid : invalid = false → none ∉ left
  left : ∀ conn, some conn ∈ left ↔ some conn ∈ clients ∧ conn ∉ lost

namespace Passed

variable {clients left : List (Option ConnRef)} {invalid : Bool} {lost : List ConnRef}
  {conn : ConnRef}

theorem stays (passed : Passed clients left invalid lost) (isOpen : conn ∉ lost) :
    Passed (some conn :: clients) (some conn :: left) invalid lost where
  sublist := by simpa using passed.sublist
  invalid isFalse := by simpa using passed.invalid isFalse
  left other := by
    simp only [List.mem_cons, Option.some.injEq, passed.left, or_and_right]
    constructor
    · rintro (rfl | later)
      · exact .inl ⟨rfl, isOpen⟩
      · exact .inr later
    · exact Or.imp_left And.left

theorem goes (passed : Passed clients left invalid lost) (notLater : some conn ∉ clients) :
    Passed (some conn :: clients) (none :: left) true (conn :: lost) where
  sublist := by simpa using passed.sublist.cons (some conn)
  invalid := by simp
  left other := by
    by_cases same : other = conn
    · subst same
      simp [passed.left, notLater]
    · simp [passed.left, same]

end Passed

theorem drops_passed {pkt : Packet CMD} {ignore_client : Option ConnRef} {server : Server}
    {conn : ConnRef} : Drops env server (server.passed pkt ignore_client conn) [] := by
  unfold passed
  split
  · exact drops_nothing (Nat.le_succ _) rfl
  · exact drops_nothing (Nat.le_succ _) rfl

theorem tick_passed {pkt : Packet CMD} {ignore_client : Option ConnRef} {server : Server}
    {conn : ConnRef} : (server.passed pkt ignore_client conn).tick = server.tick + 1 := by
  unfold passed
  split <;> rfl

theorem drops_sendToEach (env : Environment) (pkt : Packet CMD) (ignore_client : Option ConnRef)
    {conns : List ConnRef} {server : Server} (distinct : conns.Nodup)
    (areCreated : ∀ conn ∈ conns, conn < server.created) :
    ∃ left invalid after, sendToEach env pkt ignore_client (conns.map some) server =
        .ok (left, invalid, after) ∧
      Passed (conns.map some) left invalid (foundClosed env server.tick conns) ∧
      after.m_TCPConnections = server.m_TCPConnections ∧
      Forgets env server after (foundClosed env server.tick conns) := by
  induction conns generalizing server with
  | nil =>
      refine ⟨[], false, server, rfl, ⟨List.Sublist.refl _, by simp, by simp⟩, rfl, ?_⟩
      exact Forgets.refl env server
  | cons conn rest induction =>
      rcases List.forall_mem_cons.mp areCreated with ⟨isCreated, restCreated⟩
      rcases List.nodup_cons.mp distinct with ⟨notLater, restDistinct⟩
      rw [List.map_cons]
      cases isOpen : env.isOpen server.tick conn with
      | true =>
          let handed := server.passed pkt ignore_client conn
          have unchanged : Drops env server handed [] := drops_passed
          rw [← unchanged.created] at restCreated
          rcases induction restDistinct restCreated with
            ⟨left, invalid, after, looped, passed, connections, forgets⟩
          rw [tick_passed] at passed forgets
          refine ⟨some conn :: left, invalid, after, ?_, ?_,
            connections.trans m_TCPConnections_passed, ?_⟩
          · rw [sendToEach_of_open isOpen, looped]
            rfl
          · rw [foundClosed, isOpen, if_pos rfl]
            exact passed.stays fun lost => notLater ((foundClosed_sublist _ rest).subset lost)
          · rw [foundClosed, isOpen, if_pos rfl]
            exact unchanged.toForgets.trans forgets
      | false =>
          have dropped : Forgets env server (server.asked.disconnected conn) [conn] :=
            forgets_disconnected isCreated isOpen
          rw [← dropped.created] at restCreated
          rcases induction restDistinct restCreated with
            ⟨left, invalid, after, looped, passed, connections, forgets⟩
          refine ⟨none :: left, true, after, ?_, ?_, connections, ?_⟩
          · rw [sendToEach_of_closed isOpen, looped]
            rfl
          · rw [foundClosed, isOpen, if_neg Bool.false_ne_true]
            exact passed.goes (by simpa using notLater)
          · rw [foundClosed, isOpen, if_neg Bool.false_ne_true]
            exact dropped.trans forgets

def listed (server : Server) : List ConnRef := server.m_TCPConnections.filterMap id

theorem drops_SendToAll (env : Environment) {server : Server} {conns : List ConnRef}
    (connections : server.m_TCPConnections = conns.map some) (distinct : conns.Nodup)
    (areCreated : ∀ conn ∈ conns, conn < server.created) (pkt : Packet CMD)
    (ignore_client : Option ConnRef) :
    ∃ after, server.SendToAll env pkt ignore_client = .ok after ∧
      Drops env server after (foundClosed env server.tick conns) := by
  rcases drops_sendToEach env pkt ignore_client distinct areCreated with
    ⟨left, invalid, after, looped, passed, unchanged, forgets⟩
  rw [← connections] at looped passed
  have member : ∀ client, client ∈ left.filter (· ≠ none) ↔
      client ∈ server.m_TCPConnections ∧
        ∀ conn ∈ foundClosed env server.tick conns, client ≠ some conn := by
    intro client
    cases client with
    | none => simp [connections]
    | some conn =>
        rw [List.mem_filter, passed.left]
        simp only [ne_eq, reduceCtorEq, not_false_eq_true, decide_true, and_true,
          Option.some.injEq, and_congr_right_iff]
        exact fun _ => ⟨fun notLost _ isLost same => notLost (same ▸ isLost),
          fun notLost isLost => notLost conn isLost rfl⟩
  have isLeft : server.SendToAll env pkt ignore_client =
      .ok { after with m_TCPConnections := left.filter (· ≠ none) } := by
    rw [SendToAll, looped]
    cases invalid with
    | true => rfl
    | false =>
        have noneNull : left.filter (· ≠ none) = left := by
          rw [List.filter_eq_self]
          intro client inLeft
          have notNull : client ≠ none := fun isNull => passed.invalid rfl (isNull ▸ inLeft)
          simpa using notNull
        rw [noneNull]
        rfl
  refine ⟨_, isLeft, { forgets with sublist := passed.sublist, m_TCPConnections := member }⟩

theorem WellFormed.m_TCPConnections_eq {server : Server} (wf : server.WellFormed) :
    server.m_TCPConnections = server.listed.map some := by
  rw [listed, List.map_filterMap_some_eq_filter_map_isSome, List.map_id, eq_comm,
    List.filter_eq_self]
  intro client member
  rcases wf.connections client member with ⟨conn, -, rfl⟩
  rfl

theorem WellFormed.listed_lt {server : Server} (wf : server.WellFormed) :
    ∀ conn ∈ server.listed, conn < server.created := by
  intro conn member
  rcases List.mem_filterMap.mp member with ⟨client, inList, rfl⟩
  rcases wf.connections _ inList with ⟨_, isCreated, same⟩
  cases same
  exact isCreated

def owners (entries : List ChaEntry) : List ConnRef :=
  entries.filterMap fun entry => entry.2.GetTCPConnection

def notified (env : Environment) (server : Server) : List ConnRef :=
  owners (env.iteration server.tick server.m_chaMap.entries)

def inside (server : Server) (conn : ConnRef) : Server :=
  { server with m_chaMap := server.entered conn }

def lostBy (env : Environment) (server : Server) (conn : ConnRef) : CMD → List ConnRef
  | .Ping => foundClosed env server.tick [conn]
  | .MessageAll => foundClosed env server.tick server.listed
  | .SelfEnterWorld =>
      foundClosed env (server.tick + 1) ((server.inside conn).notified env ++ [conn])
  | _ => []

def lostIn (env : Environment) (server : Server) : Action → List ConnRef
  | .accept => []
  | .receive _ _ => []
  | .process owned =>
      owned.connectionPtr.elim [] fun conn =>
        server.popped.lostBy env conn owned.pkt.header.cmdID
  | .sendToClient conn _ => foundClosed env server.tick [conn]
  | .sendToAll _ _ => foundClosed env server.tick server.listed

theorem WellFormed.owners_eq {server : Server} (wf : server.WellFormed) :
    (env.iteration server.tick server.m_chaMap.entries).map
        (fun entry => entry.2.GetTCPConnection) = (server.notified env).map some := by
  rw [notified, owners, List.map_filterMap_some_eq_filter_map_isSome, eq_comm,
    List.filter_eq_self]
  intro client member
  rcases List.mem_map.mp member with ⟨entry, inEntries, rfl⟩
  rcases wf.owned entry inEntries with ⟨conn, -, isOwner⟩
  rw [isOwner]
  rfl

theorem WellFormed.notified_lt {server : Server} (wf : server.WellFormed) :
    ∀ conn ∈ server.notified env, conn < server.created := by
  intro conn member
  rcases List.mem_filterMap.mp member with ⟨entry, inEntries, isOwner⟩
  rcases wf.owned entry inEntries with ⟨_, isCreated, same⟩
  cases isOwner.symm.trans same
  exact isCreated

section Handlers

variable {server : Server} {conn : ConnRef} {pkt : Packet CMD} {handled : Handled}

theorem drops_onPing (isCreated : conn < server.created)
    (result : server.onPing env (some conn) pkt = .ok handled) :
    Drops env server handled.2.2 (server.lostBy env conn .Ping) := by
  simp only [onPing, deref, bind, Except.bind] at result
  split at result
  · contradiction
  next extracted _ =>
    have printed : Drops env server { server with
        pings := server.pings ++ [env.clock.milliseconds (env.now server.tick) - extracted.1] }
          [] := drops_nothing (Nat.le_refl _) rfl
    rw [← printed.created] at isCreated
    rcases drops_SendToClient env isCreated (extracted.2 <<< extracted.1) with
      ⟨client, after, sends, -, drops⟩
    rw [sends] at result
    cases result
    exact printed.trans drops

theorem drops_onMessageAll (wf : server.WellFormed) (distinct : server.m_TCPConnections.Nodup)
    (result : server.onMessageAll env (some conn) pkt = .ok handled) :
    Drops env server handled.2.2 (server.lostBy env conn .MessageAll) := by
  rw [wf.m_TCPConnections_eq] at distinct
  rcases drops_SendToAll env wf.m_TCPConnections_eq (List.Nodup.of_map _ distinct) wf.listed_lt
    (emptyPacket .ServerMessage <<< server.m_sID conn) (some conn) with ⟨after, sends, drops⟩
  simp only [onMessageAll, deref, bind, Except.bind, sends] at result
  cases result
  exact drops

theorem drops_notified (env : Environment) (wf : server.WellFormed)
    (isCreated : conn < server.created) :
    ∃ told, notifyEach env (positionPacket .PlyEnterWorld (server.newCharacter conn))
        ((env.iteration server.tick (server.inside conn).m_chaMap.entries).map
          fun entry => entry.2.GetTCPConnection) (server.inside conn).asked = .ok told ∧
      told.tick = server.tick + 1 + ((server.inside conn).notified env).length ∧
      Drops env (server.inside conn) told
        (foundClosed env (server.tick + 1) ((server.inside conn).notified env)) := by
  have wfInside : (server.inside conn).WellFormed := wf.enters isCreated
  have asked : Drops env (server.inside conn) (server.inside conn).asked [] :=
    drops_nothing (Nat.le_succ _) rfl
  have toldCreated : ∀ other ∈ (server.inside conn).notified env,
      other < (server.inside conn).asked.created := wfInside.notified_lt
  rcases drops_notifyEach env (positionPacket .PlyEnterWorld (server.newCharacter conn))
    toldCreated with ⟨told, notifies, ticks, drops⟩
  rw [← wfInside.owners_eq] at notifies
  exact ⟨told, notifies, ticks, asked.trans drops⟩

theorem drops_onSelfEnterWorld (wf : server.WellFormed) (isCreated : conn < server.created)
    (result : server.onSelfEnterWorld env (some conn) pkt = .ok handled) :
    Drops env (server.inside conn) handled.2.2 (server.lostBy env conn .SelfEnterWorld) := by
  rcases drops_notified env wf isCreated with ⟨told, notifies, ticks, drops⟩
  have stillCreated : conn < told.created := by
    rw [drops.created]
    exact isCreated
  rcases drops_SendToClient env stillCreated (worldPacket (env.iteration server.tick
    (server.inside conn).m_chaMap.entries) (server.newCharacter conn)) with
      ⟨client, after, sends, -, dropsReply⟩
  have handles : server.onSelfEnterWorld env (some conn) pkt = .ok (client, pkt, after) :=
    onSelfEnterWorld_of_sends notifies sends
  cases handles.symm.trans result
  rw [ticks] at dropsReply
  rw [lostBy, foundClosed_append]
  exact drops.trans dropsReply

theorem drops_onMovePlayer (wf : server.WellFormed)
    (result : server.onMovePlayer env (some conn) pkt = .ok handled) :
    Drops env server handled.2.2 [] ∨
      ∃ cha x y, server.m_chaMap.lookup (server.m_sID conn) = some cha ∧
        Drops env { server with m_chaMap := server.moved conn cha x y } handled.2.2 [] := by
  cases found : server.m_chaMap.lookup (server.m_sID conn) with
  | none =>
      simp only [onMovePlayer, deref, bind, Except.bind, found] at result
      cases result
      exact .inl (Drops.refl env server)
  | some cha =>
      have longEnough : 18 ≤ pkt.body.length := by
        by_contra short
        rw [onMovePlayer_of_short (ChaMap.mem_of_lookup found) (Nat.not_le.mp short)] at result
        contradiction
      rcases exists_extracts longEnough with ⟨id, x, y, rest, extracts⟩
      cases (onMovePlayer_of_extracts wf found extracts).symm.trans result
      exact .inr ⟨cha, x, y, rfl, drops_nothing (Nat.le_succ _) rfl⟩

end Handlers

/-- The server as the sends of an action find it: what the action does first is
done. -/
inductive Prepared (server : Server) : Action → Server → Prop
  | accept : Prepared server .accept server.accepted
  | receive (conn : ConnRef) (pkt : Packet CMD) (reading : conn ∈ server.reading) :
      Prepared server (.receive conn pkt) (server.received conn pkt)
  | handles (conn : ConnRef) (pkt : Packet CMD) (isCreated : conn < server.created)
      (notEnters : pkt.header.cmdID ≠ .SelfEnterWorld) :
      Prepared server (.process ⟨some conn, pkt⟩) server.popped
  | enters (conn : ConnRef) (pkt : Packet CMD) (isCreated : conn < server.created)
      (cmdID : pkt.header.cmdID = .SelfEnterWorld) :
      Prepared server (.process ⟨some conn, pkt⟩) (server.popped.inside conn)
  | moves (conn : ConnRef) (pkt : Packet CMD) (isCreated : conn < server.created)
      (cha : Character) (x y : Double)
      (found : server.m_chaMap.lookup (server.m_sID conn) = some cha) :
      Prepared server (.process ⟨some conn, pkt⟩)
        { server.popped with m_chaMap := server.popped.moved conn cha x y }
  | sendToClient (conn : ConnRef) (pkt : Packet CMD) :
      Prepared server (.sendToClient conn pkt) server
  | sendToAll (pkt : Packet CMD) (ignore_client : Option ConnRef) :
      Prepared server (.sendToAll pkt ignore_client) server

theorem drops_OnPacket {server : Server} {conn : ConnRef} {pkt : Packet CMD} {handled : Handled}
    (wf : server.WellFormed) (distinct : server.m_TCPConnections.Nodup)
    (isCreated : conn < server.created)
    (result : server.popped.OnPacket env (some conn) pkt = .ok handled) :
    ∃ prepared, Prepared server (.process ⟨some conn, pkt⟩) prepared ∧
      Drops env prepared handled.2.2 (server.popped.lostBy env conn pkt.header.cmdID) := by
  unfold OnPacket at result
  split at result
  case h_1 isPing =>
    refine ⟨_, .handles conn pkt isCreated (by simp [isPing]), ?_⟩
    rw [isPing]
    exact drops_onPing isCreated result
  case h_2 isMessageAll =>
    refine ⟨_, .handles conn pkt isCreated (by simp [isMessageAll]), ?_⟩
    rw [isMessageAll]
    exact drops_onMessageAll wf.popped distinct result
  case h_3 isSelfEnterWorld =>
    refine ⟨_, .enters conn pkt isCreated isSelfEnterWorld, ?_⟩
    rw [isSelfEnterWorld]
    exact drops_onSelfEnterWorld wf.popped isCreated result
  case h_4 isMovePlayer =>
    rw [isMovePlayer]
    rcases drops_onMovePlayer wf.popped result with drops | ⟨cha, x, y, found, drops⟩
    · exact ⟨_, .handles conn pkt isCreated (by simp [isMovePlayer]), drops⟩
    · exact ⟨_, .moves conn pkt isCreated cha x y found, drops⟩
  case h_5 notPing notMessageAll notEnters notMoves =>
    cases result
    refine ⟨_, .handles conn pkt isCreated notEnters, ?_⟩
    have dropsNothing : server.popped.lostBy env conn pkt.header.cmdID = [] := by
      unfold lostBy
      split <;> first | contradiction | rfl
    rw [dropsNothing]
    exact Drops.refl env _

/-- What a step does first, and which connections it drops while it sends. -/
theorem step_drops {server next : Server} {action : Action} (wf : server.WellFormed)
    (distinct : server.m_TCPConnections.Nodup) (step : Step env server action next) :
    ∃ prepared, Prepared server action prepared ∧
      Drops env prepared next (server.lostIn env action) := by
  cases action with
  | accept =>
      cases step_cases wf step with
      | accept => exact ⟨_, .accept, Drops.refl env _⟩
  | receive conn pkt =>
      cases step_cases wf step with
      | receive _ _ reading => exact ⟨_, .receive conn pkt reading, Drops.refl env _⟩
  | process owned =>
      have queue := head_of_step_process step
      rcases owned with ⟨owner, pkt⟩
      rcases wf.queue _ (List.mem_of_mem_head? queue) with ⟨⟨conn, isCreated, rfl⟩, -⟩
      rw [Step, step_process queue] at step
      rcases Option.map_eq_some_iff.mp step with ⟨handled, isHandled, rfl⟩
      exact drops_OnPacket wf distinct isCreated (toOption_eq_some_iff.mp isHandled)
  | sendToClient conn pkt =>
      rw [Step, Server.step] at step
      split at step
      next reading =>
        rcases drops_SendToClient env (wf.reading conn reading) pkt with
          ⟨client, after, sends, -, drops⟩
        rw [sends] at step
        cases step
        exact ⟨_, .sendToClient conn pkt, drops⟩
      next => contradiction
  | sendToAll pkt ignore_client =>
      rw [wf.m_TCPConnections_eq] at distinct
      rcases drops_SendToAll env wf.m_TCPConnections_eq (List.Nodup.of_map _ distinct)
        wf.listed_lt pkt ignore_client with ⟨after, sends, drops⟩
      rw [Step, Server.step, sends] at step
      cases step
      exact ⟨_, .sendToAll pkt ignore_client, drops⟩

namespace Prepared

variable {server prepared : Server} {action : Action}

theorem removed (prepares : Prepared server action prepared) :
    prepared.removed = server.removed := by
  cases prepares <;> rfl

theorem tick_le (prepares : Prepared server action prepared) :
    server.tick ≤ prepared.tick := by
  cases prepares with
  | accept => exact Nat.le_add_right _ 2
  | _ => exact Nat.le_refl _

theorem created_le (prepares : Prepared server action prepared) :
    server.created ≤ prepared.created := by
  cases prepares with
  | accept => exact Nat.le_succ _
  | _ => exact Nat.le_refl _

theorem mem_m_TCPConnections (prepares : Prepared server action prepared)
    {client : Option ConnRef} (member : client ∈ prepared.m_TCPConnections) :
    client ∈ server.m_TCPConnections ∨ action = .accept ∧ client = some server.created := by
  cases prepares with
  | accept => exact (List.mem_append.mp member).imp_right fun isNew =>
      ⟨rfl, List.mem_singleton.mp isNew⟩
  | _ => exact .inl member

theorem owner (prepares : Prepared server action prepared) {key : UInt32} {cha : Character}
    (found : prepared.m_chaMap.lookup key = some cha) :
    (∃ before, server.m_chaMap.lookup key = some before ∧
        before.m_TCPConnection = cha.m_TCPConnection) ∨
      ∃ conn pkt, action = .process ⟨some conn, pkt⟩ ∧ pkt.header.cmdID = .SelfEnterWorld ∧
        key = (server.newCharacter conn).GetID.toUInt32 ∧ cha.m_TCPConnection = some conn := by
  cases prepares with
  | enters conn pkt isCreated cmdID =>
      rcases ChaMap.lookup_AddChaToWorld found with before | ⟨isKey, rfl⟩
      · exact .inl ⟨cha, before, rfl⟩
      · exact .inr ⟨conn, pkt, rfl, cmdID, isKey, rfl⟩
  | moves conn pkt isCreated moving x y foundMoving =>
      have lookup : (server.popped.moved conn moving x y).lookup key = some cha := found
      rw [lookup_moved] at lookup
      split at lookup
      next same =>
        cases lookup
        exact .inl ⟨moving, same ▸ foundMoving, rfl⟩
      next => exact .inl ⟨cha, lookup, rfl⟩
  | _ => exact .inl ⟨cha, found, rfl⟩

end Prepared

theorem removed_of_step {server next : Server} {action : Action} (wf : server.WellFormed)
    (distinct : server.m_TCPConnections.Nodup) (step : Step env server action next) :
    next.removed = server.removed ++ server.lostIn env action := by
  rcases step_drops wf distinct step with ⟨prepared, prepares, drops⟩
  rw [drops.removed, prepares.removed]

end GNL.Server
