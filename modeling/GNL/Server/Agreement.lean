import GNL.Server.Handling
import GNL.Server.Replica

/-! # Replicas of the world

Each client that has a character in the world is told of every change to the
others, so that what it rebuilds agrees with the world. What goes wrong is
entering a second time: the world keeps the character it has, while the others
are told the position of a new one.
-/

namespace GNL

def Environment.AlwaysOpen (env : Environment) : Prop :=
  ∀ tick conn, env.isOpen tick conn = true

namespace Server

variable {env : Environment}

/-- The replica of each client that owns a character agrees with the world on
all IDs but its own. -/
def Agrees (server : Server) : Prop :=
  ∀ key cha conn, server.m_chaMap.lookup key = some cha → cha.m_TCPConnection = some conn →
    ∀ id : UInt16, id.toUInt32 ≠ key →
      Replica.delivered server.sent conn id =
        (server.m_chaMap.lookup id.toUInt32).map Character.pos

/-- Connections are accepted and read, and the packets handled enter and move. -/
def Action.Plays : Action → Prop
  | .accept => True
  | .receive _ _ => True
  | .process owned =>
      owned.pkt.header.cmdID = .SelfEnterWorld ∨ owned.pkt.header.cmdID = .MovePlayer
  | _ => False

instance : DecidablePred Action.Plays
  | .accept => isTrue trivial
  | .receive _ _ => isTrue trivial
  | .process _ => inferInstanceAs (Decidable (_ ∨ _))
  | .sendToClient _ _ => isFalse id
  | .sendToAll _ _ => isFalse id

/-- No client is told a wrong position: a connection that enters the world finds
no character under its 16-bit ID, or one at the position of a new character, or
there is no character of another connection to be told about it. -/
def Harmless (server : Server) : Action → Prop
  | .process owned => owned.pkt.header.cmdID = .SelfEnterWorld →
      ∀ conn ∈ owned.connectionPtr,
        let cha := server.newCharacter conn
        ∀ present ∈ server.m_chaMap.lookup cha.GetID.toUInt32, present.pos = cha.pos ∨
          ∀ entry ∈ server.m_chaMap.entries,
            entry.1 = cha.GetID.toUInt32 ∨ entry.2.m_TCPConnection = some conn
  | _ => True

instance (server : Server) : DecidablePred server.Harmless
  | .process _ => inferInstanceAs (Decidable (_ → _))
  | .accept => isTrue trivial
  | .receive _ _ => isTrue trivial
  | .sendToClient _ _ => isTrue trivial
  | .sendToAll _ _ => isTrue trivial

theorem notifyEach_eq (pkt : Packet CMD) {entries : List ChaEntry} {server : Server}
    {created : Nat}
    (owned : ∀ entry ∈ entries, ∃ conn < created, entry.2.GetTCPConnection = some conn)
    (isOpen : ∀ entry ∈ entries, ∀ conn, entry.2.GetTCPConnection = some conn →
      env.isOpen (server.tick + entries.length) conn = true) :
    notifyEach env pkt (entries.map fun entry => entry.2.GetTCPConnection) server =
      .ok { server with
        tick := server.tick + entries.length
        sent := server.sent ++ announced pkt entries } := by
  induction entries generalizing server with
  | nil => simp [notifyEach, announced]
  | cons entry rest induction =>
      rcases List.forall_mem_cons.mp owned with ⟨⟨conn, -, isOwner⟩, restOwned⟩
      rcases List.forall_mem_cons.mp isOpen with ⟨firstOpen, restOpen⟩
      have openNow : env.isOpen server.tick conn = true :=
        env.closed_stays_closed (Nat.le_add_right _ _) (firstOpen conn isOwner)
      have shifted : server.tick + (entry :: rest).length = server.tick + 1 + rest.length := by
        rw [List.length_cons]
        omega
      rw [shifted] at restOpen
      rw [List.map_cons, isOwner, notifyEach, SendToClient_of_open pkt openNow]
      change notifyEach env pkt (rest.map fun entry => entry.2.GetTCPConnection)
        (server.asked.SendPacket conn pkt) = _
      rw [induction restOwned restOpen]
      simp [announced, isOwner, SendPacket, asked, Nat.add_assoc, Nat.add_comm 1]

def welcomed (env : Environment) (server : Server) (conn : ConnRef) :
    List (ConnRef × Packet CMD) :=
  let cha := server.newCharacter conn
  let entries := env.iteration server.tick (server.entered conn).entries
  announced (positionPacket .PlyEnterWorld cha) entries ++ [(conn, worldPacket entries cha)]

def AllOpen (env : Environment) (server : Server) (conn : ConnRef) : Prop :=
  ∀ client, client = conn ∨
      (∃ entry ∈ (server.entered conn).entries, entry.2.GetTCPConnection = some client) →
    env.isOpen (server.tick + 1 + (server.entered conn).entries.length) client = true

theorem onSelfEnterWorld_of_open {server : Server} (wf : server.WellFormed) {conn : ConnRef}
    (isCreated : conn < server.created) (allOpen : server.AllOpen env conn) (pkt : Packet CMD) :
    ∃ handled, server.onSelfEnterWorld env (some conn) pkt = .ok handled ∧
      handled.2.2.m_chaMap = server.entered conn ∧
      handled.2.2.sent = server.sent ++ server.welcomed env conn := by
  let inside := { server with m_chaMap := server.entered conn }
  let entries := env.iteration inside.tick inside.m_chaMap.entries
  let cha := server.newCharacter conn
  have owned : ∀ entry ∈ entries, ∃ conn < inside.created,
      entry.2.GetTCPConnection = some conn := (wf.enters isCreated).owned
  let told := { inside with
    tick := inside.asked.tick + entries.length
    sent := server.sent ++ announced (positionPacket .PlyEnterWorld cha) entries }
  have length : entries.length = (server.entered conn).entries.length := length_iteration inside
  have ownersOpen : ∀ entry ∈ entries, ∀ client, entry.2.GetTCPConnection = some client →
      env.isOpen (inside.asked.tick + entries.length) client = true := by
    intro entry member client isOwner
    have inMap : entry ∈ (server.entered conn).entries :=
      (env.iteration_perm _ _).mem_iff.mp member
    rw [length]
    exact allOpen client (.inr ⟨entry, inMap, isOwner⟩)
  have notified : notifyEach env (positionPacket .PlyEnterWorld cha)
      (entries.map fun entry => entry.2.GetTCPConnection) inside.asked = .ok told :=
    notifyEach_eq _ owned ownersOpen
  have stillOpen : env.isOpen told.tick conn = true := by
    have isOpen := allOpen conn (.inl rfl)
    rw [← length] at isOpen
    exact isOpen
  have sends : told.SendToClient env (some conn) (worldPacket entries cha) =
      .ok (some conn, told.asked.SendPacket conn (worldPacket entries cha)) :=
    SendToClient_of_open _ stillOpen
  exact ⟨(some conn, pkt, told.asked.SendPacket conn (worldPacket entries cha)),
    onSelfEnterWorld_of_sends notified sends, rfl, List.append_assoc _ _ _⟩

inductive PlayCases (env : Environment) (server : Server) : Action → Server → Prop
  | accept : PlayCases env server .accept server.accepted
  | receive (conn : ConnRef) (pkt : Packet CMD) :
      PlayCases env server (.receive conn pkt) (server.received conn pkt)
  | enters (conn : ConnRef) (pkt : Packet CMD) (next : Server)
      (isCreated : conn < server.created) (cmdID : pkt.header.cmdID = .SelfEnterWorld)
      (m_chaMap : next.m_chaMap = server.entered conn)
      (sent : next.sent = server.sent ++ server.welcomed env conn) :
      PlayCases env server (.process ⟨some conn, pkt⟩) next
  | stays (conn : ConnRef) (pkt : Packet CMD) (cmdID : pkt.header.cmdID = .MovePlayer) :
      PlayCases env server (.process ⟨some conn, pkt⟩) server.popped
  | moves (conn : ConnRef) (pkt : Packet CMD) (cmdID : pkt.header.cmdID = .MovePlayer)
      (cha : Character) (x y : Double)
      (found : server.m_chaMap.lookup (server.m_sID conn) = some cha) :
      PlayCases env server (.process ⟨some conn, pkt⟩) (server.popped.relayed env conn cha x y)

theorem play_cases (alwaysOpen : env.AlwaysOpen) {server next : Server} {action : Action}
    (wf : server.WellFormed) (plays : action.Plays) (step : Step env server action next) :
    PlayCases env server action next := by
  cases step_cases wf step with
  | accept isOpen => exact .accept
  | receive conn pkt reading fits => exact .receive conn pkt
  | process conn pkt _ isCreated fits queue longEnough handles =>
      rcases plays with enters | isMovePlayer
      · have allOpen : server.popped.AllOpen env conn := fun client _ => alwaysOpen _ client
        rcases onSelfEnterWorld_of_open wf.popped isCreated allOpen pkt with
          ⟨handled, result, m_chaMap, sent⟩
        have result : server.popped.OnPacket env (some conn) pkt = .ok handled := by
          rw [OnPacket, enters]
          exact result
        rw [Step, step_process queue, result] at step
        cases step
        exact .enters conn pkt _ isCreated enters m_chaMap sent
      · cases found : server.m_chaMap.lookup (server.m_sID conn) with
        | none =>
            have foundPopped : server.popped.m_chaMap.lookup (server.popped.m_sID conn) = none :=
              found
            rw [Step, step_process queue, OnPacket, isMovePlayer] at step
            simp only [onMovePlayer, deref, bind, Except.bind, foundPopped] at step
            cases step
            exact .stays conn pkt isMovePlayer
        | some cha =>
            rw [LongEnough, isMovePlayer] at longEnough
            rcases exists_extracts (longEnough (ChaMap.mem_of_lookup found)) with
              ⟨id, x, y, rest, extracts⟩
            have moves := step_move env wf queue isMovePlayer found extracts
            cases Option.some.inj (moves.symm.trans step)
            exact .moves conn pkt isMovePlayer cha x y found
  | sendToClient => contradiction
  | sendToAll => contradiction

section Delivered

variable {cmdID : CMD} {cha : Character} {sent : List (ConnRef × Packet CMD)}
  {entries : List ChaEntry} {conn : ConnRef}

theorem delivered_announced_of_mem (places : cmdID = .PlyEnterWorld ∨ cmdID = .MovePlayer)
    (told : ∃ entry ∈ entries, entry.2.GetTCPConnection = some conn) :
    Replica.delivered (sent ++ announced (positionPacket cmdID cha) entries) conn =
      (Replica.delivered sent conn).place cha.placement := by
  apply Replica.delivered_append_of_told
  · intro message member replica
    rw [eq_of_mem_announced member, receive_positionPacket places]
  · exact ⟨(conn, positionPacket cmdID cha), mem_announced.mpr told, rfl⟩

theorem delivered_announced_of_ne (places : cmdID = .PlyEnterWorld ∨ cmdID = .MovePlayer)
    {id : UInt16} (different : id ≠ cha.GetID) :
    Replica.delivered (sent ++ announced (positionPacket cmdID cha) entries) conn id =
      Replica.delivered sent conn id := by
  by_cases told : ∃ entry ∈ entries, entry.2.GetTCPConnection = some conn
  · rw [delivered_announced_of_mem places told]
    exact Function.update_of_ne different _ _
  · rw [Replica.delivered_append_of_untold]
    intro message member same
    have isMessage : message = (conn, positionPacket cmdID cha) :=
      Prod.ext same (eq_of_mem_announced member)
    rw [isMessage] at member
    exact told (mem_announced.mp member)

end Delivered

theorem agrees_start (m_IDCnt : UInt32) (m_sID : ConnRef → UInt32) :
    (start m_IDCnt m_sID).Agrees := by
  intro key cha conn found
  simp [start] at found

section Entering

variable {server next : Server} {conn : ConnRef}

theorem delivered_enters (wf : server.WellFormed) (agrees : server.Agrees)
    (isCreated : conn < server.created) (m_chaMap : next.m_chaMap = server.entered conn)
    (sent : next.sent = server.sent ++ server.welcomed env conn)
    {key : UInt32} {cha : Character} {owner : ConnRef}
    (found : next.m_chaMap.lookup key = some cha) (isOwner : cha.m_TCPConnection = some owner)
    {id : UInt16} (other : id.toUInt32 ≠ key) :
    Replica.delivered next.sent owner id =
      if owner ≠ conn ∧ id = (server.newCharacter conn).GetID then
        some (server.newCharacter conn).pos
      else (next.m_chaMap.lookup id.toUInt32).map Character.pos := by
  let inside := { server with m_chaMap := server.entered conn }
  let entries := env.iteration inside.tick inside.m_chaMap.entries
  let new := server.newCharacter conn
  have isSent : next.sent =
      (server.sent ++ announced (positionPacket .PlyEnterWorld new) entries) ++
        [(conn, worldPacket entries new)] := by
    rw [sent, welcomed, List.append_assoc]
  rw [m_chaMap] at found ⊢
  rw [isSent, Replica.delivered_snoc]
  by_cases isSelf : owner = conn
  · rw [if_pos isSelf.symm, if_neg fun wrong => wrong.1 isSelf]
    exact receive_worldPacket (wf.enters isCreated) _ new id
  rw [if_neg (Ne.symm isSelf)]
  by_cases isNew : id = new.GetID
  · have told : ∃ entry ∈ entries, entry.2.GetTCPConnection = some owner :=
      ⟨⟨key, cha⟩, (mem_iteration inside ⟨key, cha⟩).mpr found, isOwner⟩
    rw [if_pos ⟨isSelf, isNew⟩, delivered_announced_of_mem (.inl rfl) told, isNew]
    exact Function.update_self _ _ _
  · have differentKey : id.toUInt32 ≠ new.GetID.toUInt32 :=
      fun same => isNew (UInt16.toUInt32_inj.mp same)
    have foundBefore : server.m_chaMap.lookup key = some cha := by
      rcases ChaMap.lookup_AddChaToWorld found with before | ⟨-, rfl⟩
      · exact before
      · cases isOwner
        contradiction
    rw [if_neg fun wrong => isNew wrong.2, delivered_announced_of_ne (.inl rfl) isNew,
      agrees key cha owner foundBefore isOwner id other, entered,
      ChaMap.lookup_AddChaToWorld_ne _ _ differentKey]

theorem lookup_entered {m_chaMap : ChaMap} (same : m_chaMap = server.entered conn)
    {key : UInt32} {cha : Character} (found : server.m_chaMap.lookup key = some cha) :
    m_chaMap.lookup key = some cha := by
  rw [same]
  exact ChaMap.lookup_AddChaToWorld_of_some found

/-- A wrong position shows in the replica of every other client that is told it. -/
theorem harmless_of_agrees (wf : server.WellFormed) (agrees : server.Agrees)
    (isCreated : conn < server.created) (m_chaMap : next.m_chaMap = server.entered conn)
    (sent : next.sent = server.sent ++ server.welcomed env conn) (agreesNext : next.Agrees)
    (pkt : Packet CMD) : server.Harmless (.process ⟨some conn, pkt⟩) := by
  intro _ entering isEntering
  cases isEntering
  intro _ present isPresent
  by_contra harms
  rw [not_or] at harms
  rcases harms with ⟨wrongPos, others⟩
  apply others
  intro entry member
  by_contra isOther
  rw [not_or] at isOther
  have found : server.m_chaMap.lookup entry.1 = some entry.2 := AList.mem_lookup_iff.mpr member
  have foundNext := lookup_entered m_chaMap found
  rcases (wf.chaMap _ _ found).owner with ⟨owner, -, isOwner⟩
  have isOtherOwner : owner ≠ conn := fun same => isOther.2 (same ▸ isOwner)
  have told := delivered_enters wf agrees isCreated m_chaMap sent foundNext isOwner
    (Ne.symm isOther.1)
  rw [if_pos ⟨isOtherOwner, rfl⟩, agreesNext _ _ _ foundNext isOwner _ (Ne.symm isOther.1),
    lookup_entered m_chaMap isPresent] at told
  exact wrongPos (Option.some.inj told)

theorem agrees_of_harmless (wf : server.WellFormed) (agrees : server.Agrees)
    (isCreated : conn < server.created) {pkt : Packet CMD}
    (cmdID : pkt.header.cmdID = .SelfEnterWorld) (m_chaMap : next.m_chaMap = server.entered conn)
    (sent : next.sent = server.sent ++ server.welcomed env conn)
    (harmless : server.Harmless (.process ⟨some conn, pkt⟩)) : next.Agrees := by
  intro key cha owner found isOwner id other
  rw [delivered_enters wf agrees isCreated m_chaMap sent found isOwner other]
  split
  next told =>
    rcases told with ⟨isOther, rfl⟩
    rw [m_chaMap] at found
    cases isPresent : server.m_chaMap.lookup (server.newCharacter conn).GetID.toUInt32 with
    | none =>
        have absent := AList.lookup_eq_none.mp isPresent
        rw [m_chaMap, entered, ChaMap.lookup_AddChaToWorld_of_notMem _ absent]
        rfl
    | some present =>
        rw [lookup_entered m_chaMap isPresent, Option.map_some]
        rcases harmless cmdID conn rfl present isPresent with samePos | alone
        · rw [samePos]
        · -- There is another client to tell, so not all other entries are `conn`'s.
          rcases ChaMap.lookup_AddChaToWorld found with before | ⟨isNew, -⟩
          · rcases alone ⟨key, cha⟩ (AList.mem_lookup_iff.mp before) with isNew | isSelf
            · exact absurd isNew.symm other
            · exact absurd (Option.some.inj (isOwner.symm.trans isSelf)) isOther
          · exact absurd isNew.symm other
  next => rfl

end Entering

theorem agrees_moves {server : Server} (wf : server.WellFormed) (agrees : server.Agrees)
    {conn : ConnRef} {cha : Character}
    (found : server.m_chaMap.lookup (server.m_sID conn) = some cha) (x y : Double) :
    (server.relayed env conn cha x y).Agrees := by
  intro key other owner foundOther isOwner id different
  let inside := { server with m_chaMap := server.moved conn cha x y }
  let placed := { cha with pos := (x, y) }
  let entries := (env.iteration inside.tick inside.m_chaMap.entries).filter
    fun entry => entry.2.GetID ≠ placed.GetID
  have isSent : (server.relayed env conn cha x y).sent =
      server.sent ++ announced (positionPacket .MovePlayer placed) entries := rfl
  have holds : (server.relayed env conn cha x y).m_chaMap = inside.m_chaMap := rfl
  have hasKey : placed.GetID.toUInt32 = server.m_sID conn := (wf.chaMap _ _ found).key
  rw [holds, lookup_moved] at foundOther
  rw [isSent, holds, lookup_moved]
  by_cases isMoved : id = placed.GetID
  · have movedKey : id.toUInt32 = server.m_sID conn := by rw [isMoved, hasKey]
    have otherKey : key ≠ server.m_sID conn := fun same => different (movedKey.trans same.symm)
    rw [if_neg otherKey] at foundOther
    have otherID : other.GetID ≠ placed.GetID := by
      intro same
      rw [← hasKey, ← same] at otherKey
      exact otherKey (wf.chaMap _ _ foundOther).key.symm
    have told : ∃ entry ∈ entries, entry.2.GetTCPConnection = some owner := by
      refine ⟨⟨key, other⟩, List.mem_filter.mpr ⟨?_, by simpa using otherID⟩, isOwner⟩
      rw [mem_iteration inside, lookup_moved, if_neg otherKey]
      exact foundOther
    rw [delivered_announced_of_mem (.inr rfl) told, if_pos movedKey, isMoved]
    exact Function.update_self _ _ _
  · have otherKey : id.toUInt32 ≠ server.m_sID conn := by
      rw [← hasKey]
      exact fun same => isMoved (UInt16.toUInt32_inj.mp same)
    rw [delivered_announced_of_ne (.inr rfl) isMoved, if_neg otherKey]
    split at foundOther
    next same =>
      cases foundOther
      exact agrees _ cha owner found isOwner id otherKey
    next => exact agrees key other owner foundOther isOwner id different

theorem agrees_accepted {server : Server} (agrees : server.Agrees) : server.accepted.Agrees := by
  intro key cha conn found isOwner id different
  have before := agrees key cha conn found isOwner id different
  change Replica.delivered (server.sent ++ [(server.created, acceptPacket)]) conn id = _
  rw [Replica.delivered_snoc]
  split
  next => exact before
  next => exact before

theorem agrees_step_iff (alwaysOpen : env.AlwaysOpen) {server next : Server} {action : Action}
    (wf : server.WellFormed) (agrees : server.Agrees) (plays : action.Plays)
    (step : Step env server action next) : next.Agrees ↔ server.Harmless action := by
  cases play_cases alwaysOpen wf plays step with
  | accept => exact ⟨fun _ => trivial, fun _ => agrees_accepted agrees⟩
  | receive conn pkt => exact ⟨fun _ => trivial, fun _ => agrees⟩
  | enters conn pkt _ isCreated cmdID m_chaMap sent =>
      constructor
      · intro agreesNext
        exact harmless_of_agrees wf agrees isCreated m_chaMap sent agreesNext pkt
      · exact agrees_of_harmless wf agrees isCreated cmdID m_chaMap sent
  | stays conn pkt cmdID =>
      refine ⟨fun _ enters => ?_, fun _ => agrees⟩
      rw [cmdID] at enters
      contradiction
  | moves conn pkt cmdID cha x y found =>
      refine ⟨fun _ enters => ?_, fun _ => agrees_moves wf.popped agrees found x y⟩
      rw [cmdID] at enters
      contradiction

def KeepsReplicas (server : Server) (action : Action) : Prop :=
  action.Plays ∧ server.Harmless action

instance (server : Server) (action : Action) : Decidable (server.KeepsReplicas action) :=
  inferInstanceAs (Decidable (_ ∧ _))

/-- In a run in which every action is harmless the replicas agree with the
world; and they do so after one more action if and only if it is harmless too. -/
theorem replicas_agree (alwaysOpen : env.AlwaysOpen) {m_IDCnt : UInt32}
    {m_sID : ConnRef → UInt32} {server : Server} {actions : List Action}
    (trace : Trace (StepWhere (Step env) KeepsReplicas) (start m_IDCnt m_sID) actions server) :
    server.Agrees ∧ ∀ action next, action.Plays → Step env server action next →
      (next.Agrees ↔ server.Harmless action) := by
  have preserved : ∀ current action next, WellFormed current → Agrees current →
      KeepsReplicas current action → Step env current action next → Agrees next := by
    intro current action next wf agrees ⟨plays, harmless⟩ step
    exact (agrees_step_iff alwaysOpen wf agrees plays step).mpr harmless
  rcases trace.invariant_where (wellFormed_preserved env) preserved
    (wellFormed_start m_IDCnt m_sID) (agrees_start m_IDCnt m_sID) with ⟨wf, agrees⟩
  constructor
  · exact agrees
  · intro action next plays step
    exact agrees_step_iff alwaysOpen wf agrees plays step

theorem replicas_agree_two_players :
    let enter := emptyPacket .SelfEnterWorld
    let move := emptyPacket .MovePlayer <<< (5 : UInt16) <<< Double.mk 1 <<< Double.mk 2
    let actions : List Action := [.accept, .accept, .receive 0 enter, .receive 1 enter,
      .receive 0 move, .process ⟨some 0, enter⟩, .process ⟨some 1, enter⟩,
      .process ⟨some 0, move⟩]
    ∃ server, Trace (StepWhere (Step Environment.calm) KeepsReplicas) (start 5 fun _ => 0)
        actions server ∧
      Replica.delivered server.sent 1 5 = (server.m_chaMap.lookup 5).map Character.pos := by
  intro enter move actions
  have runs : ∃ server ∈ runSteps (stepWhere (step Environment.calm) KeepsReplicas)
      (start 5 fun _ => 0) actions, ∃ cha ∈ server.m_chaMap.lookup 6,
        cha.m_TCPConnection = some 1 := by
    decide
  rcases runs with ⟨server, reaches, cha, found, isOwner⟩
  have trace := Trace.of_runStepsWhere reaches
  have alwaysOpen : Environment.calm.AlwaysOpen := fun _ _ => rfl
  exact ⟨server, trace, (replicas_agree alwaysOpen trace).1 6 cha 1 found isOwner 5 (by decide)⟩

/-- A player who moved enters again: the other is told a position at which the
world does not have it. -/
theorem replica_reset_by_entering_again :
    let enter := emptyPacket .SelfEnterWorld
    let move := emptyPacket .MovePlayer <<< (5 : UInt16) <<< Double.mk 1 <<< Double.mk 2
    let actions : List Action := [.accept, .accept, .receive 0 enter, .receive 1 enter,
      .receive 0 move, .receive 0 enter, .process ⟨some 0, enter⟩, .process ⟨some 1, enter⟩,
      .process ⟨some 0, move⟩, .process ⟨some 0, enter⟩]
    (∀ action ∈ actions, action.Plays) ∧
    ∃ server, Trace (Step Environment.calm) (start 5 fun _ => 0) actions server ∧
      (server.m_chaMap.lookup 6).map Character.m_TCPConnection = some (some 1) ∧
      Replica.delivered server.sent 1 5 = some (⟨0⟩, ⟨0⟩) ∧
      (server.m_chaMap.lookup 5).map Character.pos = some (⟨1⟩, ⟨2⟩) ∧ ¬server.Agrees := by
  intro enter move actions
  refine ⟨by decide, ?_⟩
  have runs : ∃ server ∈ runSteps (step Environment.calm) (start 5 fun _ => 0) actions,
      (server.m_chaMap.lookup 6).map Character.m_TCPConnection = some (some 1) ∧
      Replica.delivered server.sent 1 5 = some (⟨0⟩, ⟨0⟩) ∧
      (server.m_chaMap.lookup 5).map Character.pos = some (⟨1⟩, ⟨2⟩) := by
    decide
  rcases runs with ⟨server, reaches, present, told, isAt⟩
  refine ⟨server, Trace.of_run reaches, present, told, isAt, ?_⟩
  intro agrees
  rcases Option.map_eq_some_iff.mp present with ⟨cha, found, isOwner⟩
  have same := agrees 6 cha 1 found isOwner 5 (by decide)
  have isAt' : (server.m_chaMap.lookup (5 : UInt16).toUInt32).map Character.pos =
      some (⟨1⟩, ⟨2⟩) := isAt
  rw [told, isAt'] at same
  simp at same

end Server

end GNL
