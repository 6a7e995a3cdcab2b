import GNL.Server.Handshake
import GNL.Server.Outbox
import GNL.Server.Starting

/-! # The main thread and what the other thread did meanwhile

A call of the main thread, followed on a server that nobody else touches. The running
server differs from it by the connections accepted and the packets read since the call
began, which the call never looks at.
-/

namespace GNL

def Environment.closedFrom (env : Environment) (tick : Nat) (conn : ConnRef) : Environment :=
  { env with
    isOpen := fun asked other => env.isOpen asked other && !(other = conn && tick ≤ asked)
    closed_stays_closed := by
      intro earlier later other order isOpen
      simp only [Bool.and_eq_true, Bool.not_eq_true', Bool.and_eq_false_iff,
        decide_eq_false_iff_not] at isOpen ⊢
      refine ⟨env.closed_stays_closed order isOpen.1, isOpen.2.imp_right ?_⟩
      exact fun notYet before => notYet (Nat.le_trans before order) }

theorem Environment.extends_closedFrom (env : Environment) (tick : Nat) (conn : ConnRef) :
    (env.closedFrom tick conn).Extends env tick where
  isOpen earlier less other := by
    have notYet : ¬tick ≤ earlier := Nat.not_le.mpr less
    simp [closedFrom, notYet]
  iteration := rfl
  now := rfl
  clock := rfl

theorem Environment.isOpen_closedFrom (env : Environment) (tick : Nat) (conn : ConnRef) :
    (env.closedFrom tick conn).isOpen tick conn = false := by
  simp [closedFrom]

theorem Environment.isOpen_closedFrom_of_ne (env : Environment) (tick asked : Nat)
    {conn other : ConnRef} (isOther : other ≠ conn) :
    (env.closedFrom tick conn).isOpen asked other = env.isOpen asked other := by
  simp [closedFrom, isOther]

namespace Server

def laterID (server : Server) (conn : ConnRef) : UInt32 :=
  if conn < server.created then server.m_sID conn
  else server.m_IDCnt + UInt32.ofNat (conn - server.created)

def laterSentTo (server : Server) (conn : ConnRef) : List (Packet CMD) :=
  if conn < server.created then server.sentTo conn else [acceptPacket]

def newcomers (server : Server) (count : Nat) : List (Option ConnRef) :=
  (List.range' server.created count).map some

theorem mem_newcomers {server : Server} {count : Nat} {client : Option ConnRef}
    (member : client ∈ server.newcomers count) :
    ∃ conn, server.created ≤ conn ∧ client = some conn := by
  rcases List.mem_map.mp member with ⟨conn, inRange, rfl⟩
  exact ⟨conn, (List.mem_range'_1.mp inRange).1, rfl⟩

structure Bounded (server : Server) (pointers : List (Option ConnRef)) : Prop where
  listed : ∀ conn, some conn ∈ server.m_TCPConnections → conn < server.created
  owners : ∀ conn ∈ owners server.m_chaMap.entries, conn < server.created
  held : ∀ conn, some conn ∈ pointers → conn < server.created
  sent : ∀ message ∈ server.sent, message.1 < server.created
  reading : ∀ conn < server.created, conn ∈ server.reading

namespace Bounded

variable {server : Server} {pointers : List (Option ConnRef)} {conn : ConnRef}

theorem hold (bounded : server.Bounded pointers) {others : List (Option ConnRef)}
    (held : ∀ conn, some conn ∈ others → conn < server.created) : server.Bounded others :=
  { bounded with held }

theorem SendPacket (bounded : server.Bounded pointers) (pkt : Packet CMD)
    (isCreated : conn < server.created) : (server.SendPacket conn pkt).Bounded pointers :=
  { bounded with
    sent := List.forall_mem_append.mpr ⟨bounded.sent, List.forall_mem_singleton.mpr isCreated⟩ }

theorem disconnected (bounded : server.Bounded pointers) (conn : ConnRef) :
    (server.disconnected conn).Bounded pointers where
  __ := bounded
  owners other member := by
    rcases List.mem_filterMap.mp member with ⟨entry, inEntries, points⟩
    have isEntry := (List.kerase_sublist _ _).subset inEntries
    exact bounded.owners other (List.mem_filterMap.mpr ⟨entry, isEntry, points⟩)

theorem connections (bounded : server.Bounded pointers) {clients : List (Option ConnRef)}
    (fewer : ∀ conn, some conn ∈ clients → some conn ∈ server.m_TCPConnections) :
    { server with m_TCPConnections := clients }.Bounded pointers :=
  { bounded with listed := fun conn member => bounded.listed conn (fewer conn member) }

theorem of_pointer (bounded : server.Bounded pointers) {place : Place}
    (points : server.pointer pointers place = some (some conn)) : conn < server.created := by
  cases place with
  | held index => exact bounded.held conn (List.mem_of_getElem? points)
  | listed index => exact bounded.listed conn (List.mem_of_getElem? points)

theorem of_lookup (bounded : server.Bounded pointers) {key : UInt32} {cha : Character}
    (found : server.m_chaMap.lookup key = some cha) (points : cha.GetTCPConnection = some conn) :
    conn < server.created := by
  apply bounded.owners
  exact List.mem_filterMap.mpr ⟨⟨key, cha⟩, AList.mem_lookup_iff.mp found, points⟩

end Bounded

theorem Proceeds.bounded {env : Environment} {server next : Server} {thread after : Thread}
    (proceeds : Proceeds env server thread next after)
    (bounded : server.Bounded thread.pointers) : next.Bounded after.pointers := by
  have notNull : ∀ {pointers : List (Option ConnRef)} {index : Nat} {conn : ConnRef},
      some conn ∈ pointers.set index none → some conn ∈ pointers := fun member =>
    (List.mem_or_eq_of_mem_set member).resolve_right (Option.some_ne_none _)
  cases proceeds with
  | @send _ _ place pkt conn points => exact bounded.SendPacket pkt (bounded.of_pointer points)
  | removeHeld => exact bounded.disconnected _
  | removeListed => exact bounded.disconnected _
  | erase => exact bounded.connections fun _ member => List.mem_of_mem_filter member
  | resetHeld => exact bounded.hold fun conn member => bounded.held conn (notNull member)
  | resetListed => exact bounded.connections fun _ member => notNull member
  | ends =>
      apply bounded.connections
      intro conn member
      split at member
      · exact List.mem_of_mem_filter member
      · exact member
  | flags found _ points => exact bounded.SendPacket _ (bounded.of_lookup found points)
  | destroy =>
      exact bounded.hold fun conn member =>
        bounded.held conn ((List.dropLast_sublist _).subset member)
  | _ => exact { bounded with }

end Server

def Doing.InHand : Doing → Prop
  | .calling | .sending (.held _) _ | .removing (.held _) | .erasing _ | .resetting (.held _) =>
      True
  | .sending (.listed _) _ | .removing (.listed _) | .resetting (.listed _) | .reading _ => False

def Doing.InList (stop : Nat) : Doing → Prop
  | .calling => True
  | .sending (.listed index) _ | .removing (.listed index) | .resetting (.listed index) =>
      index < stop
  | .sending (.held _) _ | .removing (.held _) | .erasing _ | .resetting (.held _)
  | .reading _ => False

/-- Where a call is that has begun: it sends to the connections in its variables, or is in the
loop of `SendToAll` over a list of `stop` elements, or in that of `FlagMoveUpdate`. -/
inductive Course (stop : Nat) : Thread → Prop
  | notifies {pointers : List (Option ConnRef)} {doing : Doing} {todo : List Call}
      (inHand : doing.InHand)
      (calls : ∀ call ∈ todo, call = .destroy ∨ ∃ index pkt, call = .SendToClient index pkt) :
      Course stop ⟨pointers, doing, todo⟩
  | loops {pointers : List (Option ConnRef)} {doing : Doing} {todo : List Call} {index : Nat}
      {bInvalidClientExists : Bool} {pkt : Packet CMD} {ignore_client : Nat}
      {ignored : Option ConnRef} (inList : doing.InList stop) (inside : index ≤ stop)
      (points : pointers[ignore_client]? = some ignored)
      (calls : ∀ call ∈ todo, call = .destroy) :
      Course stop
        ⟨pointers, doing, .sendToEach index stop bInvalidClientExists pkt ignore_client :: todo⟩
  | flags {pointers : List (Option ConnRef)} {todo : List Call} {keys : List UInt32}
      {pkt : Packet CMD} {id : UInt16} (calls : ∀ call ∈ todo, call = .destroy) :
      Course stop ⟨pointers, .calling, .flagEach keys pkt id :: todo⟩

theorem Server.Proceeds.course {env : Environment} {server next : Server} {thread after : Thread}
    (proceeds : Server.Proceeds env server thread next after)
    (course : Course server.m_TCPConnections.length thread) :
    Course next.m_TCPConnections.length after := by
  cases course with
  | notifies inHand calls =>
      cases proceeds with
      | send | removeHeld | erase | resetHeld => exact .notifies trivial calls
      | removeListed | resetListed => exact absurd inHand id
      | findsOpen | findsClosed | findsNull | destroy =>
          exact .notifies trivial (List.forall_mem_cons.mp calls).2
      | _ => simp at calls
  | loops inList inside points calls =>
      cases proceeds with
      | send => exact .loops trivial inside points calls
      | removeListed => exact .loops inList inside points calls
      | resetListed =>
          simp only [List.length_set]
          exact .loops trivial inside points calls
      | ends => exact .notifies trivial fun call member => .inl (calls call member)
      | tells _ listed =>
          have isInside := (List.getElem?_eq_some_iff.mp listed).1
          refine .loops ?_ isInside points calls
          split
          · exact isInside
          · exact trivial
      | misses _ listed | missesNull _ listed =>
          have isInside := (List.getElem?_eq_some_iff.mp listed).1
          exact .loops isInside isInside points calls
      | _ => exact absurd inList id
  | flags calls =>
      cases proceeds with
      | flagsAll => exact .notifies trivial fun call member => .inl (calls call member)
      | skips | flags => exact .flags calls

namespace RunningServer

def Unnamed (running : RunningServer) (conn : ConnRef) : Prop :=
  running.io = Stage.connecting.thread conn ∧ conn + 1 = running.created

/-- How far the handler of an accept has got, where the first `known` connections are listed
and the next has the ID `nextID`. -/
inductive Accepts (running : RunningServer) (known : Nat) (nextID : UInt32) : Prop
  | waits (io : running.io = .idle) (created : running.created = known)
      (m_IDCnt : running.m_IDCnt = nextID)
  | unlisted {stage : Stage} (io : running.io = stage.thread known)
      (early : stage = .greeting ∨ stage = .sending ∨ stage = .listing)
      (created : running.created = known + 1) (m_IDCnt : running.m_IDCnt = nextID)
      (sent : stage = .listing → (running.connection known).sent = [Server.acceptPacket])
  | unnamed {newconn : ConnRef} (io : running.io = Stage.connecting.thread newconn)
      (newest : newconn + 1 = known) (created : running.created = known)
      (m_IDCnt : running.m_IDCnt + 1 = nextID)
  | named {stage : Stage} {newconn : ConnRef} (io : running.io = stage.thread newconn)
      (late : stage = .reading ∨ stage = .returning) (created : running.created = known)
      (m_IDCnt : running.m_IDCnt = nextID)

/-- The running server is the other one, where `count` connections more are accepted, the
packets `queued` more are read, and those in `front` are not popped yet. -/
structure Matches (running : RunningServer) (front : List (OwnedPacket CMD)) (count : Nat)
    (queued : List (OwnedPacket CMD)) (server : Server) : Prop where
  m_chaMap : running.m_chaMap = server.m_chaMap
  m_TCPConnections : running.m_TCPConnections = server.m_TCPConnections ++ server.newcomers count
  m_TCP_PktIn : front ++ running.m_TCP_PktIn = server.m_TCP_PktIn ++ queued
  sent : ∀ conn < server.created + count,
    (running.connection conn).sent = server.laterSentTo conn
  m_sID : ∀ conn < server.created + count, ¬running.Unnamed conn →
    (running.connection conn).m_sID = server.laterID conn
  unnamed : ∀ conn < server.created + count, running.Unnamed conn →
    running.m_IDCnt = server.laterID conn
  accepts : running.Accepts (server.created + count) (server.m_IDCnt + UInt32.ofNat count)
  identified : ∀ conn, (running.connection conn).identified = true →
    conn < server.created + count ∧ ¬running.Unnamed conn
  queued : ∀ owned ∈ queued, ∃ conn < server.created + count,
    owned.connectionPtr = some conn ∧ owned.pkt.body.length < 2 ^ 32

namespace Matches

variable {running next : RunningServer} {front queued : List (OwnedPacket CMD)} {count : Nat}
  {server after : Server} {conn : ConnRef}

theorem frame (same : running.Matches front count queued server) (io : next.io = running.io)
    (created : next.created = running.created) (m_IDCnt : next.m_IDCnt = running.m_IDCnt)
    (queue : next.m_TCP_PktIn = running.m_TCP_PktIn)
    (names : ∀ conn, (next.connection conn).m_sID = (running.connection conn).m_sID ∧
      (next.connection conn).identified = (running.connection conn).identified)
    (createdAfter : after.created = server.created) (m_sIDAfter : after.m_sID = server.m_sID)
    (m_IDCntAfter : after.m_IDCnt = server.m_IDCnt)
    (queueAfter : after.m_TCP_PktIn = server.m_TCP_PktIn)
    (m_chaMap : next.m_chaMap = after.m_chaMap)
    (connections : next.m_TCPConnections = after.m_TCPConnections ++ server.newcomers count)
    (sent : ∀ conn < server.created, (next.connection conn).sent = after.sentTo conn)
    (others : ∀ conn, server.created ≤ conn →
      (next.connection conn).sent = (running.connection conn).sent) :
    next.Matches front count queued after := by
  have unnamed : ∀ conn, next.Unnamed conn ↔ running.Unnamed conn := by
    intro conn
    rw [Unnamed, Unnamed, io, created]
  have laterID : ∀ conn, after.laterID conn = server.laterID conn := by
    intro conn
    rw [Server.laterID, Server.laterID, createdAfter, m_sIDAfter, m_IDCntAfter]
  constructor
  · exact m_chaMap
  · rw [connections, Server.newcomers, Server.newcomers, createdAfter]
  · rw [queue, queueAfter, same.m_TCP_PktIn]
  · intro conn isKnown
    rw [createdAfter] at isKnown
    rw [Server.laterSentTo, createdAfter]
    split
    next isCreated => exact sent conn isCreated
    next notCreated =>
      have before := same.sent conn isKnown
      rw [Server.laterSentTo, if_neg notCreated] at before
      exact (others conn (Nat.not_lt.mp notCreated)).trans before
  · intro conn isKnown isNamed
    rw [createdAfter] at isKnown
    rw [(names conn).1, laterID]
    exact same.m_sID conn isKnown fun isUnnamed => isNamed ((unnamed conn).mpr isUnnamed)
  · intro conn isKnown isUnnamed
    rw [createdAfter] at isKnown
    rw [m_IDCnt, laterID]
    exact same.unnamed conn isKnown ((unnamed conn).mp isUnnamed)
  · rw [createdAfter, m_IDCntAfter]
    cases same.accepts with
    | waits io' created' m_IDCnt' =>
        exact .waits (io.trans io') (created.trans created') (m_IDCnt.trans m_IDCnt')
    | unlisted io' early created' m_IDCnt' sent' =>
        refine .unlisted (io.trans io') early (created.trans created') (m_IDCnt.trans m_IDCnt') ?_
        exact fun listing => (others _ (Nat.le_add_right _ _)).trans (sent' listing)
    | unnamed io' newest created' m_IDCnt' =>
        exact .unnamed (io.trans io') newest (created.trans created') (m_IDCnt ▸ m_IDCnt')
    | named io' late created' m_IDCnt' =>
        exact .named (io.trans io') late (created.trans created') (m_IDCnt.trans m_IDCnt')
  · intro conn isIdentified
    rw [(names conn).2] at isIdentified
    rw [createdAfter, unnamed]
    exact same.identified conn isIdentified
  · rw [createdAfter]
    exact same.queued

theorem sent_of_created (same : running.Matches front count queued server)
    (isCreated : conn < server.created) :
    (running.connection conn).sent = server.sentTo conn := by
  rw [same.sent conn (Nat.lt_add_right count isCreated), Server.laterSentTo, if_pos isCreated]

theorem keep (same : running.Matches front count queued server)
    (io : next.io = running.io) (created : next.created = running.created)
    (m_IDCnt : next.m_IDCnt = running.m_IDCnt) (queue : next.m_TCP_PktIn = running.m_TCP_PktIn)
    (connection : next.connection = running.connection)
    (createdAfter : after.created = server.created) (m_sIDAfter : after.m_sID = server.m_sID)
    (m_IDCntAfter : after.m_IDCnt = server.m_IDCnt)
    (queueAfter : after.m_TCP_PktIn = server.m_TCP_PktIn) (sent : after.sent = server.sent)
    (m_chaMap : next.m_chaMap = after.m_chaMap)
    (connections : next.m_TCPConnections = after.m_TCPConnections ++ server.newcomers count) :
    next.Matches front count queued after := by
  refine same.frame io created m_IDCnt queue ?_ createdAfter m_sIDAfter m_IDCntAfter queueAfter
    m_chaMap connections ?_ ?_
  all_goals rw [connection]
  · exact fun conn => ⟨rfl, rfl⟩
  · intro conn isCreated
    rw [same.sent_of_created isCreated, Server.sentTo, Server.sentTo, sent]
  · exact fun conn _ => rfl

theorem asked (same : running.Matches front count queued server) :
    running.Matches front count queued server.asked :=
  same.keep rfl rfl rfl rfl rfl rfl rfl rfl rfl rfl same.m_chaMap same.m_TCPConnections

theorem SendPacket (same : running.Matches front count queued server) (pkt : Packet CMD)
    (isCreated : conn < server.created) :
    (running.SendPacket conn pkt).Matches front count queued (server.SendPacket conn pkt) := by
  refine same.frame rfl rfl rfl rfl ?_ rfl rfl rfl rfl same.m_chaMap same.m_TCPConnections ?_ ?_
  · intro other
    exact connection_modify_of running (fun other changed =>
      changed.m_sID = (running.connection other).m_sID ∧
        changed.identified = (running.connection other).identified) ⟨rfl, rfl⟩ ⟨rfl, rfl⟩
  · intro other otherCreated
    have isSent : (server.SendPacket conn pkt).sent = server.sent ++ [(conn, pkt)] := rfl
    rw [Server.sentTo_append isSent, ← same.sent_of_created otherCreated]
    by_cases isConn : other = conn
    · subst isConn
      rw [RunningServer.SendPacket, connection_modify_self, List.filter_cons_of_pos (by simp)]
      rfl
    · rw [RunningServer.SendPacket, connection_modify_of_ne running isConn,
        List.filter_cons_of_neg (by simpa using Ne.symm isConn)]
      exact (List.append_nil _).symm
  · intro other notCreated
    have isOther : other ≠ conn := (Nat.ne_of_lt (Nat.lt_of_lt_of_le isCreated notCreated)).symm
    rw [RunningServer.SendPacket, connection_modify_of_ne running isOther]

theorem disconnected (same : running.Matches front count queued server)
    (isCreated : conn < server.created) (isNamed : ¬running.Unnamed conn) :
    { running with m_chaMap :=
        running.m_chaMap.RemoveChaFromWorld (running.connection conn).m_sID }.Matches front count
      queued (server.disconnected conn) := by
  refine same.keep rfl rfl rfl rfl rfl rfl rfl rfl rfl rfl ?_ same.m_TCPConnections
  have sameID := same.m_sID conn (Nat.lt_add_right count isCreated) isNamed
  rw [Server.laterID, if_pos isCreated] at sameID
  change running.m_chaMap.RemoveChaFromWorld _ = server.m_chaMap.RemoveChaFromWorld _
  rw [sameID, same.m_chaMap]

theorem filter (same : running.Matches front count queued server) (client : Option ConnRef)
    (known : ∀ conn, client = some conn → conn < server.created) :
    { running with m_TCPConnections := running.m_TCPConnections.filter (· ≠ client) }.Matches
      front count queued
      { server with m_TCPConnections := server.m_TCPConnections.filter (· ≠ client) } := by
  refine same.keep rfl rfl rfl rfl rfl rfl rfl rfl rfl rfl same.m_chaMap ?_
  have stay : (server.newcomers count).filter (· ≠ client) = server.newcomers count := by
    apply List.filter_eq_self.mpr
    intro other member
    rcases Server.mem_newcomers member with ⟨conn, notCreated, rfl⟩
    have isOther : some conn ≠ client := fun isClient =>
      Nat.not_lt.mpr notCreated (known conn isClient.symm)
    simpa using isOther
  change running.m_TCPConnections.filter (· ≠ client) = _
  rw [same.m_TCPConnections, List.filter_append, stay]

theorem set (same : running.Matches front count queued server) {index : Nat}
    (inside : index < server.m_TCPConnections.length) :
    { running with m_TCPConnections := running.m_TCPConnections.set index none }.Matches
      front count queued
      { server with m_TCPConnections := server.m_TCPConnections.set index none } := by
  refine same.keep rfl rfl rfl rfl rfl rfl rfl rfl rfl rfl same.m_chaMap ?_
  change running.m_TCPConnections.set index none = _
  rw [same.m_TCPConnections, List.set_append_left _ _ inside]

theorem getElem? (same : running.Matches front count queued server) {index : Nat}
    (inside : index < server.m_TCPConnections.length) :
    running.m_TCPConnections[index]? = server.m_TCPConnections[index]? := by
  rw [same.m_TCPConnections, List.getElem?_append_left inside]

end Matches

/-- The environment answers as the running server finds it: nothing is closed yet that is
open there, or that was not accepted. -/
structure Answers (order : Iteration) (running : RunningServer) (server : Server)
    (env : Environment) : Prop where
  isOpen : ∀ conn, (running.connection conn).IsConnected = true ∨ server.created ≤ conn →
    ∀ tick, env.isOpen tick conn = true
  iterates : ∀ tick (m_chaMap : ChaMap),
    env.iteration tick m_chaMap.entries = order.entries m_chaMap

/-- The step of a thread to `shared` is one on `server` as well, in an environment that
answers what the step asks. -/
def Follows (order : Iteration) (env : Environment) (server : Server) (count : Nat)
    (queued : List (OwnedPacket CMD)) (thread : Thread) (shared : RunningServer) (after : Thread) :
    Prop :=
  ∃ (answered : Environment) (following : Server), answered.Extends env server.tick ∧
    server.tick ≤ following.tick ∧ shared.Answers order following answered ∧
      shared.Matches [] count queued following ∧
        ∀ later : Environment, later.Extends answered following.tick →
          Server.Proceeds later server thread following after

section Follows

variable {order : Iteration} {env : Environment} {running shared : RunningServer}
  {server following : Server} {count : Nat} {queued : List (OwnedPacket CMD)}
  {pointers : List (Option ConnRef)} {doing : Doing} {todo : List Call} {thread after : Thread}
  {conn : ConnRef}

theorem Answers.mono (answers : running.Answers order server env)
    (isConnected : ∀ conn, (shared.connection conn).IsConnected = true →
      (running.connection conn).IsConnected = true)
    (created : server.created ≤ following.created) : shared.Answers order following env where
  isOpen conn isOpen := answers.isOpen conn
    (isOpen.imp (isConnected conn) (Nat.le_trans created))
  iterates := answers.iterates

theorem follows_of_open (answers : running.Answers order server env)
    (same : shared.Matches [] count queued following)
    (isConnected : ∀ conn, (shared.connection conn).IsConnected =
      (running.connection conn).IsConnected)
    (tick : server.tick ≤ following.tick) (created : following.created = server.created)
    (proceeds : ∀ later : Environment, later.Extends env following.tick →
      Server.Proceeds later server thread following after) :
    Follows order env server count queued thread shared after :=
  ⟨env, following, .refl env _, tick,
    answers.mono (fun conn isOpen => (isConnected conn).symm.trans isOpen) created.ge, same,
    proceeds⟩

theorem follows_of_closed (answers : running.Answers order server env)
    (same : running.Matches [] count queued server) (isCreated : conn < server.created)
    (closed : (running.connection conn).IsConnected = false)
    (proceeds : ∀ later : Environment, later.isOpen server.tick conn = false →
      Server.Proceeds later server thread server.asked after) :
    Follows order env server count queued thread running after := by
  refine ⟨env.closedFrom server.tick conn, server.asked,
    env.extends_closedFrom server.tick conn, Nat.le_succ _, ⟨?_, answers.iterates⟩, same.asked, ?_⟩
  · intro other isOpen tick
    have isOther : other ≠ conn := by
      rintro rfl
      rcases isOpen with isConnected | notCreated
      · rw [closed] at isConnected
        contradiction
      · exact Nat.not_lt.mpr notCreated isCreated
    rw [env.isOpen_closedFrom_of_ne server.tick tick isOther]
    exact answers.isOpen other isOpen tick
  · intro later extends_
    apply proceeds
    rw [extends_.isOpen server.tick (Nat.lt_succ_self _), env.isOpen_closedFrom]

theorem Matches.pointer (same : running.Matches [] count queued server) {place : Place}
    (inside : ∀ index, place = .listed index → index < server.m_TCPConnections.length) :
    running.pointer thread place = server.pointer thread.pointers place := by
  cases place with
  | held index => rfl
  | listed index => exact same.getElem? (inside index rfl)

theorem follows_sending (answers : running.Answers order server env)
    (same : running.Matches [] count queued server) (bounded : server.Bounded pointers)
    {place : Place} {pkt : Packet CMD}
    (inside : ∀ index, place = .listed index → index < server.m_TCPConnections.length)
    (isConnected : ∀ conn, (shared.connection conn).IsConnected =
      (running.connection conn).IsConnected)
    (proceeds : running.proceed order ⟨pointers, .sending place pkt, todo⟩ =
      some (shared, after)) :
    Follows order env server count queued ⟨pointers, .sending place pkt, todo⟩ shared after := by
  rcases Option.bind_eq_some_iff.mp proceeds with ⟨conn, joined, isNext⟩
  cases isNext
  have points := Option.join_eq_some_iff.mp joined
  rw [same.pointer inside] at points
  exact follows_of_open answers (same.SendPacket pkt (bounded.of_pointer points)) isConnected
    (Nat.le_refl _) rfl fun _ _ => .send points

theorem follows_removing (answers : running.Answers order server env)
    (same : running.Matches [] count queued server) (bounded : server.Bounded pointers)
    {place : Place}
    (inside : ∀ index, place = .listed index → index < server.m_TCPConnections.length)
    (named : ∀ conn, running.pointer ⟨pointers, .removing place, todo⟩ place =
      some (some conn) → ¬running.Unnamed conn)
    (proceeds : running.proceed order ⟨pointers, .removing place, todo⟩ = some (shared, after)) :
    Follows order env server count queued ⟨pointers, .removing place, todo⟩ shared after := by
  rcases Option.bind_eq_some_iff.mp proceeds with ⟨conn, joined, isNext⟩
  cases isNext
  have points := Option.join_eq_some_iff.mp joined
  have isNamed := named conn points
  rw [same.pointer inside] at points
  have dropped := same.disconnected (bounded.of_pointer points) isNamed
  cases place with
  | held index =>
      exact follows_of_open answers dropped (fun _ => rfl) (Nat.le_refl _) rfl
        fun _ _ => .removeHeld points
  | listed index =>
      exact follows_of_open answers dropped (fun _ => rfl) (Nat.le_refl _) rfl
        fun _ _ => .removeListed points

theorem follows_SendToClient (answers : running.Answers order server env)
    (same : running.Matches [] count queued server) (bounded : server.Bounded pointers)
    {index : Nat} {pkt : Packet CMD}
    (proceeds : running.proceed order ⟨pointers, .calling, .SendToClient index pkt :: todo⟩ =
      some (shared, after)) :
    Follows order env server count queued ⟨pointers, .calling, .SendToClient index pkt :: todo⟩
      shared after := by
  rcases Option.bind_eq_some_iff.mp proceeds with ⟨client, points, isNext⟩
  cases isNext
  cases client with
  | none =>
      exact follows_of_open answers same (fun _ => rfl) (Nat.le_refl _) rfl
        fun _ _ => .findsNull points
  | some conn =>
      have isCreated := bounded.held conn (List.mem_of_getElem? points)
      cases isConnected : (running.connection conn).IsConnected with
      | true =>
          simp only [connected, isConnected, if_true]
          refine follows_of_open answers same.asked (fun _ => rfl) (Nat.le_succ _) rfl ?_
          intro later extends_
          apply Server.Proceeds.findsOpen points
          rw [extends_.isOpen server.tick (Nat.lt_succ_self _)]
          exact answers.isOpen conn (.inl isConnected) server.tick
      | false =>
          simp only [connected, isConnected, Bool.false_eq_true, if_false]
          exact follows_of_closed answers same isCreated isConnected
            fun _ closed => .findsClosed points closed

theorem follows_sendToEach (answers : running.Answers order server env)
    (same : running.Matches [] count queued server) (bounded : server.Bounded pointers)
    {index : Nat} {bInvalidClientExists : Bool} {pkt : Packet CMD} {ignore_client : Nat}
    {ignored : Option ConnRef} (inside : index ≤ server.m_TCPConnections.length)
    (points : pointers[ignore_client]? = some ignored)
    (proceeds : running.proceed order ⟨pointers, .calling, .sendToEach index
        server.m_TCPConnections.length bInvalidClientExists pkt ignore_client :: todo⟩ =
      some (shared, after)) :
    Follows order env server count queued ⟨pointers, .calling, .sendToEach index
      server.m_TCPConnections.length bInvalidClientExists pkt ignore_client :: todo⟩
        shared after := by
  simp only [proceed, call] at proceeds
  split at proceeds
  next isLast =>
    cases proceeds
    cases bInvalidClientExists with
    | true =>
        have isNull : ∀ conn, none = some conn → conn < server.created := by
          intro conn isSome
          cases isSome
        exact follows_of_open answers (same.filter none isNull) (fun _ => rfl) (Nat.le_refl _) rfl
          fun _ _ => .ends points isLast
    | false =>
        exact follows_of_open answers same (fun _ => rfl) (Nat.le_refl _) rfl
          fun _ _ => .ends points isLast
  next notLast =>
    have isInside := Nat.lt_of_le_of_ne inside notLast
    rw [same.getElem? isInside, points] at proceeds
    rcases Option.bind_eq_some_iff.mp proceeds with ⟨client, listed, isNext⟩
    rw [Option.bind_eq_bind, Option.bind_some] at isNext
    cases client with
    | none =>
        cases isNext
        exact follows_of_open answers same (fun _ => rfl) (Nat.le_refl _) rfl
          fun _ _ => .missesNull points listed
    | some conn =>
        have isCreated := bounded.listed conn (List.mem_of_getElem? listed)
        cases isConnected : (running.connection conn).IsConnected with
        | true =>
            simp only [connected, isConnected, if_true] at isNext
            cases isNext
            refine follows_of_open answers same.asked (fun _ => rfl) (Nat.le_succ _) rfl ?_
            intro later extends_
            apply Server.Proceeds.tells points listed
            rw [extends_.isOpen server.tick (Nat.lt_succ_self _)]
            exact answers.isOpen conn (.inl isConnected) server.tick
        | false =>
            simp only [connected, isConnected, Bool.false_eq_true, if_false] at isNext
            cases isNext
            exact follows_of_closed answers same isCreated isConnected
              fun _ closed => .misses points listed closed

theorem follows_flagEach (answers : running.Answers order server env)
    (same : running.Matches [] count queued server) (bounded : server.Bounded pointers)
    {keys : List UInt32} {pkt : Packet CMD} {id : UInt16}
    (isConnected : ∀ conn, (shared.connection conn).IsConnected =
      (running.connection conn).IsConnected)
    (proceeds : running.proceed order ⟨pointers, .calling, .flagEach keys pkt id :: todo⟩ =
      some (shared, after)) :
    Follows order env server count queued ⟨pointers, .calling, .flagEach keys pkt id :: todo⟩
      shared after := by
  cases keys with
  | nil =>
      cases proceeds
      exact follows_of_open answers same isConnected (Nat.le_refl _) rfl fun _ _ => .flagsAll
  | cons key keys =>
      simp only [proceed, call, same.m_chaMap] at proceeds
      rcases Option.bind_eq_some_iff.mp proceeds with ⟨other, found, isNext⟩
      split at isNext
      next isSame =>
        cases isNext
        exact follows_of_open answers same isConnected (Nat.le_refl _) rfl
          fun _ _ => .skips found isSame
      next isOther =>
        rcases Option.bind_eq_some_iff.mp isNext with ⟨conn, points, isNext⟩
        cases isNext
        exact follows_of_open answers (same.SendPacket pkt (bounded.of_lookup found points))
          isConnected (Nat.le_refl _) rfl fun _ _ => .flags found isOther points

theorem follows_of_proceed (answers : running.Answers order server env)
    (same : running.Matches [] count queued server) (bounded : server.Bounded thread.pointers)
    (course : Course server.m_TCPConnections.length thread)
    (named : ∀ place conn, thread.doing = .removing place →
      running.pointer thread place = some (some conn) → ¬running.Unnamed conn)
    (isConnected : ∀ conn, (shared.connection conn).IsConnected =
      (running.connection conn).IsConnected)
    (proceeds : running.proceed order thread = some (shared, after)) :
    Follows order env server count queued thread shared after := by
  cases course with
  | @notifies pointers doing todo inHand calls =>
      cases doing with
      | calling =>
          cases todo with
          | nil => cases proceeds
          | cons call todo =>
              rcases calls call List.mem_cons_self with rfl | ⟨index, pkt, rfl⟩
              · cases proceeds
                exact follows_of_open answers same isConnected (Nat.le_refl _) rfl
                  fun _ _ => .destroy
              · exact follows_SendToClient answers same bounded proceeds
      | sending place pkt =>
          cases place with
          | held index => exact follows_sending answers same bounded nofun isConnected proceeds
          | listed index => exact absurd inHand id
      | removing place =>
          cases place with
          | held index =>
              exact follows_removing answers same bounded nofun (fun conn => named _ conn rfl)
                proceeds
          | listed index => exact absurd inHand id
      | erasing index =>
          rcases Option.bind_eq_some_iff.mp proceeds with ⟨client, points, isNext⟩
          cases isNext
          have known : ∀ conn, client = some conn → conn < server.created := by
            rintro conn rfl
            exact bounded.held conn (List.mem_of_getElem? points)
          exact follows_of_open answers (same.filter client known) isConnected (Nat.le_refl _) rfl
            fun _ _ => .erase points
      | resetting place =>
          cases place with
          | held index =>
              cases proceeds
              exact follows_of_open answers same isConnected (Nat.le_refl _) rfl
                fun _ _ => .resetHeld
          | listed index => exact absurd inHand id
      | reading conn => exact absurd inHand id
  | @loops pointers doing todo index _ _ _ ignored inList inside points calls =>
      have below : ∀ {first : Nat}, first < server.m_TCPConnections.length →
          ∀ place, Place.listed first = .listed place →
            place < server.m_TCPConnections.length := by
        rintro first less _ ⟨⟩
        exact less
      cases doing with
      | calling => exact follows_sendToEach answers same bounded inside points proceeds
      | sending place pkt =>
          cases place with
          | held index => exact absurd inList id
          | listed index =>
              exact follows_sending answers same bounded (below inList) isConnected proceeds
      | removing place =>
          cases place with
          | held index => exact absurd inList id
          | listed index =>
              exact follows_removing answers same bounded (below inList)
                (fun conn => named _ conn rfl) proceeds
      | erasing index => exact absurd inList id
      | resetting place =>
          cases place with
          | held index => exact absurd inList id
          | listed index =>
              cases proceeds
              exact follows_of_open answers (same.set inList) isConnected (Nat.le_refl _) rfl
                fun _ _ => .resetListed
      | reading conn => exact absurd inList id
  | flags calls => exact follows_flagEach answers same bounded isConnected proceeds

end Follows

end RunningServer

end GNL
