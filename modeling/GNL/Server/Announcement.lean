import GNL.Server.Agreement
import GNL.Server.Messages
import GNL.Server.Reporting

/-! # Who is told of a connection that enters

The loop of `SelfEnterWorld` collects whom to notify after the new character was
inserted, so it meets that character too. Only where the world already holds a
character under the same 16-bit ID is the new one left out.
-/

namespace GNL.Server

variable {env : Environment}

def newlySentTo (before after : Server) (client : ConnRef) (cmdID : CMD) : List (Packet CMD) :=
  ((newlySent before after).filter fun message =>
    message.1 = client ∧ message.2.header.cmdID = cmdID).map Prod.snd

/-- The owner of every other character is told once of the character `conn` entered
with, and nobody else is. -/
structure AnnouncedToOthers (server next : Server) (conn : ConnRef) : Prop where
  others : ∀ client ∈ owners next.m_chaMap.entries, client ≠ conn →
    newlySentTo server next client .PlyEnterWorld =
      [positionPacket .PlyEnterWorld (server.newCharacter conn)]
  itself : newlySentTo server next conn .PlyEnterWorld = []
  strangers : ∀ client ∉ owners next.m_chaMap.entries,
    newlySentTo server next client .PlyEnterWorld = []

def TakenByOther (server : Server) (conn : ConnRef) : Prop :=
  ∃ cha ∈ server.m_chaMap.lookup (server.newCharacter conn).GetID.toUInt32,
    cha.m_TCPConnection ≠ some conn

theorem announced_eq (pkt : Packet CMD) (entries : List ChaEntry) :
    announced pkt entries = (owners entries).map (·, pkt) := by
  rw [announced, owners, List.map_filterMap]

theorem filter_announced {entries : List ChaEntry} (distinct : (owners entries).Nodup)
    (pkt : Packet CMD) (client : ConnRef) :
    (announced pkt entries).filter (fun message =>
        message.1 = client ∧ message.2.header.cmdID = pkt.header.cmdID) =
      if client ∈ owners entries then [(client, pkt)] else [] := by
  have isClient : ((fun message : ConnRef × Packet CMD => decide (message.1 = client ∧
      message.2.header.cmdID = pkt.header.cmdID)) ∘ fun conn => (conn, pkt)) = (· == client) := by
    funext conn
    simp [beq_eq_decide]
  rw [announced_eq, List.filter_map, isClient, List.filter_beq, distinct.count]
  split
  · rfl
  · rfl

theorem mem_owners_iteration (server : Server) (client : ConnRef) :
    client ∈ server.notified env ↔ client ∈ owners server.m_chaMap.entries :=
  ((env.iteration_perm _ _).filterMap _).mem_iff

theorem newlySentTo_of_welcomed {server next : Server} {conn : ConnRef} (keyed : server.Keyed)
    (sent : next.sent = server.sent ++ server.welcomed env conn) (client : ConnRef) :
    newlySentTo server next client .PlyEnterWorld =
      if client ∈ owners (server.entered conn).entries then
        [positionPacket .PlyEnterWorld (server.newCharacter conn)]
      else [] := by
  let cha := server.newCharacter conn
  let entries := env.iteration server.tick (server.entered conn).entries
  have distinct : (owners entries).Nodup := (keyed.inside conn).nodup_notified
  have told : (announced (positionPacket .PlyEnterWorld cha) entries).filter
      (fun message => message.1 = client ∧ message.2.header.cmdID = CMD.PlyEnterWorld) =
      if client ∈ owners entries then [(client, positionPacket .PlyEnterWorld cha)] else [] :=
    filter_announced distinct (positionPacket .PlyEnterWorld cha) client
  have notWorld : ([(conn, worldPacket entries cha)] : List (ConnRef × Packet CMD)).filter
      (fun message => message.1 = client ∧ message.2.header.cmdID = CMD.PlyEnterWorld) = [] := by
    simp [cmdID_worldPacket]
  have isTold : client ∈ owners entries ↔ client ∈ owners (server.entered conn).entries :=
    mem_owners_iteration (server.inside conn) client
  rw [newlySentTo, newlySent, sent, List.drop_left, welcomed, List.filter_append, told, notWorld,
    List.append_nil]
  simp only [isTold]
  split
  · rfl
  · rfl

theorem mem_owners_entered {server : Server} {conn : ConnRef} (keyed : server.Keyed) :
    conn ∈ owners (server.entered conn).entries ↔ ¬server.TakenByOther conn := by
  have isListed : conn ∈ owners (server.entered conn).entries ↔
      conn ∈ (server.inside conn).notified Environment.calm :=
    (mem_owners_iteration (server.inside conn) conn).symm
  rw [isListed, mem_notified]
  let key := (server.newCharacter conn).GetID.toUInt32
  constructor
  · rintro ⟨other, cha, found, isOwner⟩ ⟨taker, isTaken, isOther⟩
    have sameKey : other = key := keyed.inside conn other cha conn found isOwner
    have stays : (server.entered conn).lookup key = some taker := lookup_entered rfl isTaken
    rw [sameKey] at found
    cases stays.symm.trans found
    exact isOther isOwner
  · intro notTaken
    cases present : server.m_chaMap.lookup key with
    | none =>
        have absent := AList.lookup_eq_none.mp present
        exact ⟨key, server.newCharacter conn,
          ChaMap.lookup_AddChaToWorld_of_notMem _ absent, rfl⟩
    | some cha =>
        refine ⟨key, cha, lookup_entered rfl present, ?_⟩
        by_contra isOther
        exact notTaken ⟨cha, present, isOther⟩

theorem announcedToOthers_iff {server next : Server} {conn : ConnRef} (keyed : server.Keyed)
    (m_chaMap : next.m_chaMap = server.entered conn)
    (sent : next.sent = server.sent ++ server.welcomed env conn) :
    server.AnnouncedToOthers next conn ↔ server.TakenByOther conn := by
  have told := newlySentTo_of_welcomed keyed sent
  constructor
  · intro announced
    by_contra notTaken
    have isOwner := (mem_owners_entered keyed).mpr notTaken
    have toItself := announced.itself
    rw [told conn, if_pos isOwner] at toItself
    exact List.cons_ne_nil _ _ toItself
  · intro taken
    have notOwner : conn ∉ owners (server.entered conn).entries :=
      fun isOwner => (mem_owners_entered keyed).mp isOwner taken
    refine ⟨?_, ?_, ?_⟩
    · intro client isOwner _
      rw [m_chaMap] at isOwner
      rw [told client, if_pos isOwner]
    · rw [told conn, if_neg notOwner]
    · intro client stranger
      rw [m_chaMap] at stranger
      rw [told client, if_neg stranger]

/-- A connection that enters the world while everybody is open is announced to the
others only exactly if its ID is taken by another's character. -/
theorem enters_announced_to_others_iff {m_IDCnt : UInt32} {m_sID : ConnRef → UInt32}
    {server : Server} {actions : List Action}
    (trace : Trace (Step env) (start m_IDCnt m_sID) actions server) {conn : ConnRef}
    {pkt : Packet CMD} (queue : server.m_TCP_PktIn.head? = some ⟨some conn, pkt⟩)
    (enters : pkt.header.cmdID = .SelfEnterWorld) (allOpen : server.AllOpen env conn) :
    ∃ next, Step env server (.process ⟨some conn, pkt⟩) next ∧
      (server.AnnouncedToOthers next conn ↔ server.TakenByOther conn) := by
  have recorded := recorded_of_trace trace
  rcases recorded.wf.of_head queue with ⟨isCreated, -⟩
  rcases onSelfEnterWorld_of_open recorded.wf.popped isCreated allOpen pkt with
    ⟨handled, result, m_chaMap, sent⟩
  have result : server.popped.OnPacket env (some conn) pkt = .ok handled := by
    rw [OnPacket, enters]
    exact result
  refine ⟨handled.2.2, ?_, announcedToOthers_iff recorded.keyed m_chaMap sent⟩
  rw [Step, step_process queue, result]
  rfl

theorem enters_announced_to_others_iff_two_players :
    let enter := emptyPacket .SelfEnterWorld
    let actions : List Action := [.accept, .accept, .receive 0 enter, .receive 1 enter,
      .process ⟨some 0, enter⟩]
    ∃ server next, Trace (Step Environment.calm) (start 5 fun _ => 0) actions server ∧
      Step Environment.calm server (.process ⟨some 1, enter⟩) next ∧
      (server.AnnouncedToOthers next 1 ↔ server.TakenByOther 1) := by
  intro enter actions
  have runs : ∃ server ∈ runSteps (step Environment.calm) (start 5 fun _ => 0) actions,
      server.m_TCP_PktIn.head? = some ⟨some 1, enter⟩ := by
    decide
  rcases runs with ⟨server, reaches, queue⟩
  have trace := Trace.of_run reaches
  have allOpen : server.AllOpen Environment.calm 1 := fun _ _ => rfl
  rcases enters_announced_to_others_iff trace queue rfl allOpen with ⟨next, step, announced⟩
  exact ⟨server, next, trace, step, announced⟩

/-- The second of two players is told that it entered itself. -/
theorem announced_to_itself :
    let enter := emptyPacket .SelfEnterWorld
    let actions : List Action := [.accept, .accept, .receive 0 enter, .receive 1 enter,
      .process ⟨some 0, enter⟩]
    ∃ server next, Trace (Step Environment.calm) (start 5 fun _ => 0) actions server ∧
      server.AllOpen Environment.calm 1 ∧
      Step Environment.calm server (.process ⟨some 1, enter⟩) next ∧
      newlySentTo server next 1 .PlyEnterWorld =
        [positionPacket .PlyEnterWorld (server.newCharacter 1)] ∧
      ¬server.AnnouncedToOthers next 1 := by
  intro enter actions
  have runs : ∃ server ∈ runSteps (step Environment.calm) (start 5 fun _ => 0) actions,
      ∃ next ∈ server.step Environment.calm (.process ⟨some 1, enter⟩),
        newlySentTo server next 1 .PlyEnterWorld =
          [positionPacket .PlyEnterWorld (server.newCharacter 1)] := by
    decide
  rcases runs with ⟨server, reaches, next, step, told⟩
  have trace := Trace.of_run reaches
  refine ⟨server, next, trace, fun _ _ => rfl, step, told, ?_⟩
  intro announced
  rw [announced.itself] at told
  contradiction

end GNL.Server
