import GNL.Server.Registry
import GNL.Server.Replica

/-! # The list a client is sent when it enters

The reply to `SelfEnterWorld` lists the characters the world holds before the others
are told of the new one. Whoever is found closed while they are told is removed from
the world, and stays in the list.
-/

namespace GNL.Server

variable {env : Environment}

def listedKeys (placements : List Placement) : List UInt32 :=
  placements.map fun placement => placement.1.toUInt32

theorem enters_replies {server next : Server} {conn : ConnRef} {pkt : Packet CMD}
    (wf : server.WellFormed) (step : Step env server (.process ⟨some conn, pkt⟩) next)
    (isSelfEnterWorld : pkt.header.cmdID = .SelfEnterWorld)
    (isOpen : env.isOpen (server.tick + 1 + ((server.popped.inside conn).notified env).length)
      conn = true) :
    ∃ earlier, next.sent = earlier ++ [(conn, worldPacket
        (env.iteration server.tick (server.popped.inside conn).m_chaMap.entries)
        (server.popped.newCharacter conn))] ∧
      Drops env (server.popped.inside conn) next
        (foundClosed env (server.tick + 1) ((server.popped.inside conn).notified env)) := by
  have queue := head_of_step_process step
  rcases wf.of_head queue with ⟨isCreated, -⟩
  rcases drops_notified env wf.popped isCreated with ⟨told, notifies, ticks, drops⟩
  have stillOpen : env.isOpen told.tick conn = true := by
    rw [ticks]
    exact isOpen
  let reply := worldPacket (env.iteration server.tick (server.popped.inside conn).m_chaMap.entries)
    (server.popped.newCharacter conn)
  have handles : server.popped.onSelfEnterWorld env (some conn) pkt =
      .ok (some conn, pkt, told.asked.SendPacket conn reply) :=
    onSelfEnterWorld_of_sends notifies (SendToClient_of_open reply stillOpen)
  have isNext : next = told.asked.SendPacket conn reply := by
    rw [Step, step_process queue, OnPacket, isSelfEnterWorld] at step
    simp only [handles] at step
    exact (Option.some.inj step).symm
  have replied := drops.trans (drops_nothing (Nat.le_succ told.tick) rfl :
    Drops env told (told.asked.SendPacket conn reply) [])
  rw [List.append_nil] at replied
  rw [isNext]
  exact ⟨told.sent, rfl, replied⟩

/-- Whoever is told of a connection that enters, and has an ID under which the world
holds a character, is open when it is told. -/
def ToldOpen (env : Environment) (server : Server) (conn : ConnRef) : Prop :=
  ∀ told ∈ ((server.inside conn).notified env).zipIdx,
    server.m_sID told.1 ∈ server.entered conn →
      env.isOpen (server.tick + 1 + told.2) told.1 = true

theorem Drops.mem_m_chaMap {before after : Server} {lost : List ConnRef}
    (drops : Drops env before after lost) (key : UInt32) :
    key ∈ after.m_chaMap ↔ key ∈ before.m_chaMap ∧ key ∉ lost.map before.m_sID := by
  rw [← AList.lookup_isSome, drops.m_chaMap, ← AList.lookup_isSome]
  split
  next isLost => simp [isLost]
  next kept => simp [kept]

theorem toldOpen_iff {server : Server} {conn : ConnRef} :
    server.ToldOpen env conn ↔ ∀ key ∈ server.entered conn,
      key ∉ (foundClosed env (server.tick + 1) ((server.inside conn).notified env)).map
        server.m_sID := by
  constructor
  · intro toldOpen key present isLost
    rcases List.mem_map.mp isLost with ⟨owner, found, rfl⟩
    rcases mem_foundClosed.mp found with ⟨index, isTold, closed⟩
    rw [toldOpen (owner, index) (List.mem_zipIdx_iff_getElem?.mpr isTold) present] at closed
    contradiction
  · rintro noneLost ⟨owner, index⟩ isTold present
    by_contra notOpen
    apply noneLost _ present
    apply List.mem_map_of_mem
    exact mem_foundClosed.mpr
      ⟨index, List.mem_zipIdx_iff_getElem?.mp isTold, Bool.not_eq_true _ ▸ notOpen⟩

theorem mem_listedKeys {server : Server} (wf : server.WellFormed) (key : UInt32) :
    key ∈ listedKeys (((env.iteration server.tick server.m_chaMap.entries).map Sigma.snd).map
        Character.placement).reverse ↔ key ∈ server.m_chaMap := by
  rw [← AList.lookup_isSome, Option.isSome_iff_exists, listedKeys, List.mem_map]
  constructor
  · rintro ⟨placement, member, rfl⟩
    rcases (mem_listed wf).mp (List.mem_reverse.mp member) with ⟨cha, found, -⟩
    exact ⟨cha, found⟩
  · rintro ⟨cha, found⟩
    have isKey := (wf.chaMap key cha found).key
    refine ⟨cha.placement, List.mem_reverse.mpr ((mem_listed wf).mpr ⟨cha, ?_, rfl⟩), isKey⟩
    rw [← isKey] at found
    exact found

/-- From every reachable state, the list sent to a client that enters is of the
characters the world holds when the handler returns exactly if all that are told
of it, and whose IDs are keys of the world, are open when they are told. -/
theorem snapshot_current_iff {m_IDCnt : UInt32} {m_sID : ConnRef → UInt32}
    {server next : Server} {actions : List Action} {conn : ConnRef} {pkt : Packet CMD}
    (trace : Trace (Step env) (start m_IDCnt m_sID) actions server)
    (step : Step env server (.process ⟨some conn, pkt⟩) next)
    (isSelfEnterWorld : pkt.header.cmdID = .SelfEnterWorld)
    (isOpen : env.isOpen (server.tick + 1 + ((server.popped.inside conn).notified env).length)
      conn = true) :
    ∃ earlier reply placements, next.sent = earlier ++ [(conn, reply)] ∧
      reply.header.cmdID = .SelfEnterWorld ∧ decodeWorld reply = .ok placements ∧
      ((∀ key, key ∈ listedKeys placements ↔ key ∈ next.m_chaMap) ↔
        server.popped.ToldOpen env conn) := by
  have wf := wellFormed_of_trace trace
  have queue := head_of_step_process step
  rcases wf.of_head queue with ⟨isCreated, -⟩
  have wfInside : (server.popped.inside conn).WellFormed := wf.popped.enters isCreated
  rcases enters_replies wf step isSelfEnterWorld isOpen with ⟨earlier, sent, drops⟩
  have few : (env.iteration server.tick (server.popped.inside conn).m_chaMap.entries).length <
      2 ^ 32 := by
    have bound := wfInside.length_entries
    rw [(env.iteration_perm _ _).length_eq]
    omega
  refine ⟨earlier, _, _, sent, cmdID_worldPacket _ _, decodeWorld_worldPacket few _, ?_⟩
  have isListed : ∀ key, key ∈ listedKeys (((env.iteration server.tick
      (server.popped.inside conn).m_chaMap.entries).map Sigma.snd).map
        Character.placement).reverse ↔ key ∈ server.popped.entered conn :=
    mem_listedKeys wfInside
  have isLeft : ∀ key, key ∈ next.m_chaMap ↔ key ∈ server.popped.entered conn ∧
      key ∉ (foundClosed env (server.tick + 1)
        ((server.popped.inside conn).notified env)).map server.m_sID := drops.mem_m_chaMap
  rw [toldOpen_iff]
  constructor
  · intro same key present
    exact ((isLeft key).mp ((same key).mp ((isListed key).mpr present))).2
  · intro noneLost key
    rw [isListed, isLeft]
    exact ⟨fun present => ⟨present, noneLost key present⟩, And.left⟩

/-- The first player has closed when the second enters: it is listed, and removed. -/
theorem snapshot_of_closed_player :
    let enter := emptyPacket .SelfEnterWorld
    let env := Environment.closing 0 7
    let actions : List Action := [.accept, .accept, .receive 0 enter, .process ⟨some 0, enter⟩,
      .receive 1 enter]
    ∃ server next, Trace (Step env) (start 5 fun _ => 0) actions server ∧
      Step env server (.process ⟨some 1, enter⟩) next ∧
      ∃ earlier reply placements, next.sent = earlier ++ [(1, reply)] ∧
        decodeWorld reply = .ok placements ∧
        5 ∈ listedKeys placements ∧ 5 ∉ next.m_chaMap := by
  intro enter env actions
  have runs : ∃ server ∈ runSteps (step env) (start 5 fun _ => 0) actions,
      ∃ next ∈ server.step env (.process ⟨some 1, enter⟩),
        5 ∉ next.m_chaMap ∧ ∃ message ∈ next.sent.getLast?, message.1 = 1 ∧
          ∃ placements ∈ (decodeWorld message.2).toOption, 5 ∈ listedKeys placements := by
    decide
  rcases runs with ⟨server, reaches, next, isNext, removed, ⟨conn, reply⟩, isLast, rfl,
    placements, decodes, listed⟩
  rcases List.getLast?_eq_some_iff.mp isLast with ⟨earlier, sent⟩
  exact ⟨server, next, Trace.of_run reaches, isNext, earlier, reply,
    placements, sent, toOption_eq_some_iff.mp decodes, listed, removed⟩

theorem snapshot_current_iff_two_players :
    let enter := emptyPacket .SelfEnterWorld
    let env := Environment.calm
    let actions : List Action := [.accept, .accept, .receive 0 enter, .process ⟨some 0, enter⟩,
      .receive 1 enter]
    ∃ server next, Trace (Step env) (start 5 fun _ => 0) actions server ∧
      Step env server (.process ⟨some 1, enter⟩) next ∧
      ∃ earlier reply placements, next.sent = earlier ++ [(1, reply)] ∧
        decodeWorld reply = .ok placements ∧
        ∀ key, key ∈ listedKeys placements ↔ key ∈ next.m_chaMap := by
  intro enter env actions
  have runs : ∃ server ∈ runSteps (step env) (start 5 fun _ => 0) actions,
      (server.step env (.process ⟨some 1, enter⟩)).isSome := by
    decide
  rcases runs with ⟨server, reaches, handles⟩
  rcases Option.isSome_iff_exists.mp handles with ⟨next, step⟩
  have trace := Trace.of_run reaches
  rcases snapshot_current_iff trace step rfl rfl with
    ⟨earlier, reply, placements, sent, -, decodes, current⟩
  exact ⟨server, next, trace, step, earlier, reply, placements, sent, decodes,
    current.mpr fun _ _ _ => rfl⟩

end GNL.Server
