import GNL.Server.Invariant

/-! # What handling a packet does

A handled packet changes one entry of the world at most, and then sends. The
handlers extract without looking at the length of the body, so they fail on the
packets that are too short, and on no other.
-/

namespace GNL.Server

variable {env : Environment}

def LongEnough (server : Server) (conn : ConnRef) (pkt : Packet CMD) : Prop :=
  match pkt.header.cmdID with
  | .Ping => 8 ≤ pkt.body.length
  | .MovePlayer => server.m_sID conn ∈ server.m_chaMap → 18 ≤ pkt.body.length
  | _ => True

instance (server : Server) (conn : ConnRef) (pkt : Packet CMD) :
    Decidable (server.LongEnough conn pkt) := by
  unfold LongEnough
  split <;> infer_instance

def entered (server : Server) (conn : ConnRef) : ChaMap :=
  let cha := server.newCharacter conn
  server.m_chaMap.AddChaToWorld cha.GetID.toUInt32 cha

def moved (server : Server) (conn : ConnRef) (cha : Character) (x y : Double) : ChaMap :=
  server.m_chaMap.insert (server.m_sID conn) { cha with pos := (x, y) }

inductive Handles (env : Environment) (server : Server) (conn : ConnRef) (pkt : Packet CMD)
    (after : Server) : Prop
  | sends (notEnters : pkt.header.cmdID ≠ .SelfEnterWorld)
      (sent : Sent env Packet.Consistent server after)
  | enters (cmdID : pkt.header.cmdID = .SelfEnterWorld)
      (sent : Sent env Packet.Consistent { server with m_chaMap := server.entered conn } after)
  | moves (cmdID : pkt.header.cmdID = .MovePlayer) (cha : Character) (x y : Double)
      (found : server.m_chaMap.lookup (server.m_sID conn) = some cha)
      (sent : Sent env Packet.Consistent
        { server with m_chaMap := server.moved conn cha x y } after)

theorem WellFormed.enters {server : Server} (wf : server.WellFormed) {conn : ConnRef}
    (isCreated : conn < server.created) :
    { server with m_chaMap := server.entered conn }.WellFormed := by
  apply wf.chaMap_of
  intro key cha found
  rcases ChaMap.lookup_AddChaToWorld found with before | ⟨rfl, rfl⟩
  · exact .inl before
  · exact .inr ⟨⟨conn, isCreated, rfl⟩, rfl, rfl⟩

theorem lookup_moved {server : Server} {conn : ConnRef} {cha : Character} {x y : Double}
    (key : UInt32) : (server.moved conn cha x y).lookup key =
      if key = server.m_sID conn then some { cha with pos := (x, y) }
      else server.m_chaMap.lookup key := by
  split
  next same => rw [same, moved, AList.lookup_insert]
  next different => exact AList.lookup_insert_ne different

theorem WellFormed.moves {server : Server} (wf : server.WellFormed) {conn : ConnRef}
    {cha : Character} (found : server.m_chaMap.lookup (server.m_sID conn) = some cha)
    (x y : Double) : { server with m_chaMap := server.moved conn cha x y }.WellFormed := by
  apply wf.chaMap_of
  intro key other lookup
  rw [lookup_moved] at lookup
  split at lookup
  next same =>
    cases lookup
    rcases wf.chaMap _ cha found with ⟨owner, hasKey, world⟩
    exact .inr ⟨owner, hasKey.trans same.symm, world⟩
  next => exact .inl lookup

section Handlers

variable {server : Server} {conn : ConnRef} {pkt : Packet CMD}

theorem onPing_spec (isCreated : conn < server.created) (fits : pkt.body.length < 2 ^ 32)
    (longEnough : 8 ≤ pkt.body.length) :
    ∃ handled, server.onPing env (some conn) pkt = .ok handled ∧
      Sent env Packet.Consistent server handled.2.2 := by
  rcases Packet.extract_of_le Int64 longEnough with ⟨timeRec, rest, extracted, -, -, length, -⟩
  rw [sizeof_int64] at length
  have consistent : (rest <<< timeRec).Consistent := by
    apply Packet.consistent_insert
    rw [sizeof_int64]
    omega
  let printed := { server with
    pings := server.pings ++ [env.clock.milliseconds (env.now server.tick) - timeRec] }
  have printedCreated : conn < printed.created := isCreated
  rcases sent_SendToClient env printedCreated consistent with ⟨client, after, sends, sent⟩
  refine ⟨(client, rest <<< timeRec, after), ?_, { sent with }⟩
  simp only [onPing, deref, extracted]
  change (printed.SendToClient env (some conn) (rest <<< timeRec) >>= _) = _
  rw [sends]
  rfl

theorem onMessageAll_spec (wf : server.WellFormed) :
    ∃ handled, server.onMessageAll env (some conn) pkt = .ok handled ∧
      Sent env Packet.Consistent server handled.2.2 := by
  have consistent : (emptyPacket .ServerMessage <<< server.m_sID conn).Consistent :=
    Packet.consistent_insert _ _ (by decide)
  rcases sent_SendToAll env consistent (some conn) wf.connections with ⟨after, sends, sent⟩
  refine ⟨(some conn, pkt, after), ?_, sent⟩
  simp only [onMessageAll, deref]
  change (server.SendToAll env _ (some conn) >>= _) = _
  rw [sends]
  rfl

theorem onSelfEnterWorld_of_sends {told after : Server} {client : Option ConnRef} :
    let inside := { server with m_chaMap := server.entered conn }
    let entries := env.iteration inside.tick inside.m_chaMap.entries
    let cha := server.newCharacter conn
    notifyEach env (positionPacket .PlyEnterWorld cha)
        (entries.map fun entry => entry.2.GetTCPConnection) inside.asked = .ok told →
      told.SendToClient env (some conn) (worldPacket entries cha) = .ok (client, after) →
      server.onSelfEnterWorld env (some conn) pkt = .ok (client, pkt, after) := by
  intro inside entries cha notified sends
  simp only [onSelfEnterWorld, deref]
  change (notifyEach env (positionPacket .PlyEnterWorld cha)
    (entries.map fun entry => entry.2.GetTCPConnection) inside.asked >>= _) = _
  rw [notified]
  change (told.SendToClient env (some conn) (worldPacket entries cha) >>= _) = _
  rw [sends]
  rfl

theorem onSelfEnterWorld_spec (wf : server.WellFormed) (isCreated : conn < server.created) :
    ∃ handled, server.onSelfEnterWorld env (some conn) pkt = .ok handled ∧
      Sent env Packet.Consistent { server with m_chaMap := server.entered conn }
        handled.2.2 := by
  let inside := { server with m_chaMap := server.entered conn }
  let entries := env.iteration inside.tick inside.m_chaMap.entries
  let cha := server.newCharacter conn
  have wfInside : inside.WellFormed := wf.enters isCreated
  have asked : Sent env Packet.Consistent inside inside.asked := sent_asked inside
  have areCreated : ∀ client ∈ entries.map fun entry => entry.2.GetTCPConnection,
      ∃ conn < inside.asked.created, client = some conn := by
    intro client member
    rcases List.mem_map.mp member with ⟨entry, inEntries, rfl⟩
    exact wfInside.owned entry inEntries
  rcases sent_notifyEach env (consistent_positionPacket .PlyEnterWorld cha) areCreated with
    ⟨middle, notified, sentAll⟩
  have stillCreated : conn < middle.created := by
    rw [sentAll.created]
    exact isCreated
  have few : entries.length ≤ 2 ^ 16 := by
    rw [length_iteration]
    exact wfInside.length_entries
  rcases sent_SendToClient env stillCreated (consistent_worldPacket entries cha few) with
    ⟨client, after, sends, sentWorld⟩
  exact ⟨(client, pkt, after), onSelfEnterWorld_of_sends notified sends,
    asked.trans (sentAll.trans sentWorld)⟩

def relayed (env : Environment) (server : Server) (conn : ConnRef) (cha : Character)
    (x y : Double) : Server :=
  let inside := { server with m_chaMap := server.moved conn cha x y }
  let cha := { cha with pos := (x, y) }
  { inside.asked with
    sent := inside.sent ++ flagged cha (positionPacket .MovePlayer cha)
      (env.iteration inside.tick inside.m_chaMap.entries) }

theorem sent_relayed (cha : Character) (x y : Double) :
    Sent env Packet.Consistent { server with m_chaMap := server.moved conn cha x y }
      (server.relayed env conn cha x y) where
  __ := (sent_asked _ : Sent env Packet.Consistent
    { server with m_chaMap := server.moved conn cha x y } _)
  sent := by
    refine ⟨_, rfl, ?_⟩
    intro message member
    rw [eq_of_mem_announced member]
    exact consistent_positionPacket _ _

theorem SetPos_eq (wf : server.WellFormed) {cha : Character}
    (found : server.m_chaMap.lookup (server.m_sID conn) = some cha) (x y : Double) :
    server.SetPos env (server.m_sID conn) cha x y = .ok (server.relayed env conn cha x y) := by
  have world := (wf.chaMap _ cha found).world
  let inside := { server with m_chaMap := server.moved conn cha x y }
  have owned : ∀ entry ∈ env.iteration inside.tick inside.m_chaMap.entries,
      ∃ conn < inside.created, entry.2.GetTCPConnection = some conn := (wf.moves found x y).owned
  rw [SetPos, if_pos world]
  exact flagEach_eq _ _ owned

def Extracts (pkt : Packet CMD) (id : UInt16) (x y : Double) (rest : Packet CMD) : Prop :=
  ∃ first second, pkt.extract Double = .ok (y, first) ∧ first.extract Double = .ok (x, second) ∧
    second.extract UInt16 = .ok (id, rest)

theorem exists_extracts (longEnough : 18 ≤ pkt.body.length) :
    ∃ id x y rest, Extracts pkt id x y rest := by
  have longEnoughForY : StandardLayout.sizeof Double ≤ pkt.body.length := by
    rw [sizeof_double]
    omega
  rcases Packet.extract_of_le Double longEnoughForY with ⟨y, first, extractY, -, -, lengthY, -⟩
  rw [sizeof_double] at lengthY
  have longEnoughForX : StandardLayout.sizeof Double ≤ first.body.length := by
    rw [sizeof_double]
    omega
  rcases Packet.extract_of_le Double longEnoughForX with ⟨x, second, extractX, -, -, lengthX, -⟩
  rw [sizeof_double] at lengthX
  have longEnoughForID : StandardLayout.sizeof UInt16 ≤ second.body.length := by
    rw [sizeof_uint16]
    omega
  rcases Packet.extract_of_le UInt16 longEnoughForID with ⟨id, rest, extractID, -⟩
  exact ⟨id, x, y, rest, first, second, extractY, extractX, extractID⟩

theorem onMovePlayer_of_extracts (wf : server.WellFormed) {cha : Character}
    (found : server.m_chaMap.lookup (server.m_sID conn) = some cha)
    {id : UInt16} {x y : Double} {rest : Packet CMD} (extracts : Extracts pkt id x y rest) :
    server.onMovePlayer env (some conn) pkt =
      .ok (some conn, rest, server.relayed env conn cha x y) := by
  rcases extracts with ⟨first, second, extractY, extractX, extractID⟩
  simp only [onMovePlayer, deref, bind, Except.bind, found, extractY, extractX, extractID,
    SetPos_eq wf found]

theorem onMovePlayer_of_short (present : server.m_sID conn ∈ server.m_chaMap)
    (short : pkt.body.length < 18) :
    server.onMovePlayer env (some conn) pkt = .error .outOfRange := by
  rcases Option.isSome_iff_exists.mp (AList.lookup_isSome.mpr present) with ⟨cha, found⟩
  simp only [onMovePlayer, deref, bind, Except.bind, found]
  by_cases shortForY : pkt.body.length < StandardLayout.sizeof Double
  · rw [Packet.extract_of_lt Double shortForY]
  rcases Packet.extract_of_le Double (Nat.not_lt.mp shortForY) with
    ⟨y, first, extractY, -, -, lengthY, -⟩
  simp only [extractY]
  by_cases shortForX : first.body.length < StandardLayout.sizeof Double
  · rw [Packet.extract_of_lt Double shortForX]
  rcases Packet.extract_of_le Double (Nat.not_lt.mp shortForX) with
    ⟨x, second, extractX, -, -, lengthX, -⟩
  rw [sizeof_double] at lengthX lengthY
  have shortForID : second.body.length < StandardLayout.sizeof UInt16 := by
    rw [sizeof_uint16]
    omega
  simp only [extractX, Packet.extract_of_lt UInt16 shortForID]

theorem onPing_of_short (short : pkt.body.length < 8) :
    server.onPing env (some conn) pkt = .error .outOfRange := by
  have shortForTime : pkt.body.length < StandardLayout.sizeof Int64 := short
  simp only [onPing, deref, bind, Except.bind, Packet.extract_of_lt Int64 shortForTime]

theorem OnPacket_of_longEnough (wf : server.WellFormed) (isCreated : conn < server.created)
    (fits : pkt.body.length < 2 ^ 32) (longEnough : server.LongEnough conn pkt) :
    ∃ handled, server.OnPacket env (some conn) pkt = .ok handled ∧
      Handles env server conn pkt handled.2.2 := by
  unfold LongEnough at longEnough
  unfold OnPacket
  split
  case h_1 isPing =>
    rw [isPing] at longEnough
    rcases onPing_spec isCreated fits longEnough with ⟨handled, result, sent⟩
    exact ⟨handled, result, .sends (by simp [isPing]) sent⟩
  case h_2 isMessageAll =>
    rcases onMessageAll_spec wf with ⟨handled, result, sent⟩
    exact ⟨handled, result, .sends (by simp [isMessageAll]) sent⟩
  case h_3 isSelfEnterWorld =>
    rcases onSelfEnterWorld_spec wf isCreated with ⟨handled, result, sent⟩
    exact ⟨handled, result, .enters isSelfEnterWorld sent⟩
  case h_4 isMovePlayer =>
    rw [isMovePlayer] at longEnough
    cases found : server.m_chaMap.lookup (server.m_sID conn) with
    | none =>
        refine ⟨(some conn, pkt, server), ?_, .sends (by simp [isMovePlayer])
          (Sent.refl env _ server)⟩
        simp only [onMovePlayer, deref, bind, Except.bind, found]
    | some cha =>
        rcases exists_extracts (longEnough (ChaMap.mem_of_lookup found)) with
          ⟨id, x, y, rest, extracts⟩
        exact ⟨_, onMovePlayer_of_extracts wf found extracts,
          .moves isMovePlayer cha x y found (sent_relayed cha x y)⟩
  case h_5 _ _ notEnters _ =>
    exact ⟨_, rfl, .sends notEnters (Sent.refl env _ server)⟩

theorem OnPacket_of_short (short : ¬server.LongEnough conn pkt) :
    server.OnPacket env (some conn) pkt = .error .outOfRange := by
  unfold LongEnough at short
  unfold OnPacket
  split at short
  next isPing =>
    rw [isPing]
    exact onPing_of_short (Nat.not_le.mp short)
  next isMovePlayer =>
    rw [isMovePlayer]
    rw [Classical.not_imp] at short
    exact onMovePlayer_of_short short.1 (Nat.not_le.mp short.2)
  next => exact absurd trivial short

end Handlers

def accepted (server : Server) : Server :=
  { server.asked.asked with
    created := server.created + 1
    m_sID := Function.update server.m_sID server.created server.m_IDCnt
    reading := server.reading ++ [server.created]
    m_IDCnt := server.m_IDCnt + 1
    m_TCPConnections := server.m_TCPConnections ++ [some server.created]
    sent := server.sent ++ [(server.created, acceptPacket)] }

theorem onAccept_of_open {server : Server}
    (isOpen : env.isOpen (server.tick + 1) server.created = true) :
    server.onAccept env = .ok server.accepted := by
  have openBefore : env.isOpen server.tick server.created = true :=
    env.closed_stays_closed (Nat.le_succ _) isOpen
  let made := { server with created := server.created + 1 }
  have sends : made.SendToClient env (some server.created) acceptPacket =
      .ok (some server.created, made.asked.SendPacket server.created acceptPacket) :=
    SendToClient_of_open acceptPacket openBefore
  have connects : made.OnClientConnect env (some server.created) =
      .ok (true, some server.created, made.asked.SendPacket server.created acceptPacket) := by
    rw [OnClientConnect, sends]
    rfl
  rw [onAccept]
  change (made.OnClientConnect env (some server.created) >>= _) = _
  rw [connects]
  exact congrArg Except.ok (if_pos isOpen)

theorem WellFormed.accepted {server : Server} (wf : server.WellFormed) :
    server.accepted.WellFormed where
  chaMap key cha found := (wf.chaMap key cha found).mono (Nat.le_succ _)
  connections client member := by
    rcases List.mem_append.mp member with before | isNew
    · rcases wf.connections client before with ⟨conn, isCreated, same⟩
      exact ⟨conn, Nat.lt_succ_of_lt isCreated, same⟩
    · exact ⟨server.created, Nat.lt_succ_self _, List.mem_singleton.mp isNew⟩
  queue owned member := by
    rcases wf.queue owned member with ⟨⟨conn, isCreated, same⟩, fits⟩
    exact ⟨⟨conn, Nat.lt_succ_of_lt isCreated, same⟩, fits⟩
  reading conn member := by
    rcases List.mem_append.mp member with before | isNew
    · exact Nat.lt_succ_of_lt (wf.reading conn before)
    · rw [List.mem_singleton.mp isNew]
      exact Nat.lt_succ_self _

def received (server : Server) (conn : ConnRef) (pkt : Packet CMD) : Server :=
  { server with m_TCP_PktIn := server.m_TCP_PktIn ++ [⟨some conn, pkt⟩] }

def popped (server : Server) : Server :=
  { server with m_TCP_PktIn := server.m_TCP_PktIn.tail }

theorem WellFormed.received {server : Server} (wf : server.WellFormed) {conn : ConnRef}
    {pkt : Packet CMD} (isCreated : conn < server.created) (fits : pkt.body.length < 2 ^ 32) :
    (server.received conn pkt).WellFormed where
  chaMap key cha found := (wf.chaMap key cha found).mono (Nat.le_refl _)
  connections := wf.connections
  queue owned member := by
    rcases List.mem_append.mp member with before | isNew
    · exact wf.queue owned before
    · rw [List.mem_singleton.mp isNew]
      exact ⟨⟨conn, isCreated, rfl⟩, fits⟩
  reading := wf.reading

theorem WellFormed.popped {server : Server} (wf : server.WellFormed) :
    server.popped.WellFormed where
  chaMap key cha found := (wf.chaMap key cha found).mono (Nat.le_refl _)
  connections := wf.connections
  queue owned member := wf.queue owned (List.mem_of_mem_tail member)
  reading := wf.reading

theorem WellFormed.of_head {server : Server} (wf : server.WellFormed) {conn : ConnRef}
    {pkt : Packet CMD} (queue : server.m_TCP_PktIn.head? = some ⟨some conn, pkt⟩) :
    conn < server.created ∧ pkt.body.length < 2 ^ 32 := by
  rcases wf.queue _ (List.mem_of_mem_head? queue) with ⟨⟨_, isCreated, same⟩, fits⟩
  cases same
  exact ⟨isCreated, fits⟩

theorem step_process {server : Server} {owned : OwnedPacket CMD}
    (queue : server.m_TCP_PktIn.head? = some owned) :
    server.step env (.process owned) =
      (server.popped.OnPacket env owned.connectionPtr owned.pkt).toOption.map
        fun handled => handled.2.2 := by
  rcases List.head?_eq_some_iff.mp queue with ⟨rest, isQueue⟩
  have isPopped : { server with m_TCP_PktIn := rest } = server.popped := by
    simp [popped, isQueue]
  simp only [step, isQueue, if_true, isPopped]

theorem exists_process (env : Environment) {server : Server} {conn : ConnRef} {pkt : Packet CMD}
    (wf : server.WellFormed) (queue : server.m_TCP_PktIn.head? = some ⟨some conn, pkt⟩)
    (longEnough : server.popped.LongEnough conn pkt) :
    ∃ next, Step env server (.process ⟨some conn, pkt⟩) next ∧
      Handles env server.popped conn pkt next := by
  rcases wf.of_head queue with ⟨isCreated, fits⟩
  have result : ∃ handled, server.popped.OnPacket env (some conn) pkt = .ok handled ∧
      Handles env server.popped conn pkt handled.2.2 :=
    OnPacket_of_longEnough wf.popped isCreated fits longEnough
  rcases result with ⟨handled, isHandled, handles⟩
  refine ⟨handled.2.2, ?_, handles⟩
  rw [Step, step_process queue, isHandled]
  rfl

theorem step_move (env : Environment) {server : Server} {conn : ConnRef} {pkt rest : Packet CMD}
    {cha : Character} {id : UInt16} {x y : Double} (wf : server.WellFormed)
    (queue : server.m_TCP_PktIn.head? = some ⟨some conn, pkt⟩)
    (isMovePlayer : pkt.header.cmdID = .MovePlayer)
    (found : server.m_chaMap.lookup (server.m_sID conn) = some cha)
    (extracts : Extracts pkt id x y rest) :
    Step env server (.process ⟨some conn, pkt⟩) (server.popped.relayed env conn cha x y) := by
  have moves : server.popped.OnPacket env (some conn) pkt =
      .ok (some conn, rest, server.popped.relayed env conn cha x y) := by
    rw [OnPacket, isMovePlayer]
    exact onMovePlayer_of_extracts wf.popped found extracts
  rw [Step, step_process queue, moves]
  rfl

theorem head_of_step_process {server next : Server} {owned : OwnedPacket CMD}
    (step : Step env server (.process owned) next) : server.m_TCP_PktIn.head? = some owned := by
  rw [Step, Server.step] at step
  split at step
  next => contradiction
  next front rest queue =>
    split at step
    next same => rw [queue, same, List.head?_cons]
    next => contradiction

inductive StepCases (env : Environment) (server : Server) : Action → Server → Prop
  | accept (isOpen : env.isOpen (server.tick + 1) server.created = true) :
      StepCases env server .accept server.accepted
  | receive (conn : ConnRef) (pkt : Packet CMD) (reading : conn ∈ server.reading)
      (fits : pkt.body.length < 2 ^ 32) :
      StepCases env server (.receive conn pkt) (server.received conn pkt)
  | process (conn : ConnRef) (pkt : Packet CMD) (after : Server)
      (isCreated : conn < server.created) (fits : pkt.body.length < 2 ^ 32)
      (queue : server.m_TCP_PktIn.head? = some ⟨some conn, pkt⟩)
      (longEnough : server.popped.LongEnough conn pkt)
      (handles : Handles env server.popped conn pkt after) :
      StepCases env server (.process ⟨some conn, pkt⟩) after
  | sendToClient (conn : ConnRef) (pkt : Packet CMD) (after : Server)
      (sent : Sent env (fun _ => True) server after) :
      StepCases env server (.sendToClient conn pkt) after
  | sendToAll (pkt : Packet CMD) (ignore_client : Option ConnRef) (after : Server)
      (sent : Sent env (fun _ => True) server after) :
      StepCases env server (.sendToAll pkt ignore_client) after

theorem step_cases {server next : Server} {action : Action} (wf : server.WellFormed)
    (step : Step env server action next) : StepCases env server action next := by
  cases action with
  | accept =>
      rw [Step, Server.step] at step
      split at step
      next isOpen =>
        rw [onAccept_of_open isOpen] at step
        cases step
        exact .accept isOpen
      next => contradiction
  | receive conn pkt =>
      rw [Step, Server.step] at step
      split at step
      next ready =>
        cases step
        exact .receive conn pkt ready.1 ready.2
      next => contradiction
  | process owned =>
      have queue := head_of_step_process step
      rcases owned with ⟨owner, pkt⟩
      rcases wf.queue _ (List.mem_of_mem_head? queue) with ⟨⟨conn, isCreated, rfl⟩, fits⟩
      by_cases longEnough : server.popped.LongEnough conn pkt
      · rcases exists_process env wf queue longEnough with ⟨after, isNext, handles⟩
        cases Option.some.inj (isNext.symm.trans step)
        exact .process conn pkt _ isCreated fits queue longEnough handles
      · rw [Step, step_process queue, OnPacket_of_short longEnough] at step
        contradiction
  | sendToClient conn pkt =>
      rw [Step, Server.step] at step
      split at step
      next reading =>
        have handed : ∃ client after, server.SendToClient env (some conn) pkt =
            .ok (client, after) ∧ Sent env (fun _ => True) server after :=
          sent_SendToClient env (wf.reading conn reading) trivial
        rcases handed with ⟨client, after, sends, sent⟩
        rw [sends] at step
        cases step
        exact .sendToClient conn pkt _ sent
      next => contradiction
  | sendToAll pkt ignore_client =>
      have handed : ∃ after, server.SendToAll env pkt ignore_client = .ok after ∧
          Sent env (fun _ => True) server after :=
        sent_SendToAll env trivial ignore_client wf.connections
      rcases handed with ⟨after, sends, sent⟩
      rw [Step, Server.step, sends] at step
      cases step
      exact .sendToAll pkt ignore_client _ sent

theorem WellFormed.step {server next : Server} {action : Action} (wf : server.WellFormed)
    (step : Step env server action next) : next.WellFormed := by
  cases step_cases wf step with
  | accept isOpen => exact wf.accepted
  | receive conn pkt reading fits => exact wf.received (wf.reading conn reading) fits
  | process conn pkt _ isCreated fits queue longEnough handles =>
      cases handles with
      | sends _ sent => exact wf.popped.sent sent
      | enters _ sent => exact (wf.popped.enters isCreated).sent sent
      | moves _ cha x y found sent => exact (wf.popped.moves found x y).sent sent
  | sendToClient conn pkt _ sent => exact wf.sent sent
  | sendToAll pkt ignore_client _ sent => exact wf.sent sent

theorem wellFormed_preserved (env : Environment) : ∀ server action next, WellFormed server →
    Step env server action next → WellFormed next :=
  fun _ _ _ => WellFormed.step

theorem wellFormed_of_trace {m_IDCnt : UInt32} {m_sID : ConnRef → UInt32} {server : Server}
    {actions : List Action} (trace : Trace (Step env) (start m_IDCnt m_sID) actions server) :
    server.WellFormed :=
  trace.invariant (wellFormed_preserved env) (wellFormed_start m_IDCnt m_sID)

end GNL.Server
