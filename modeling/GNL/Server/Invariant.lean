import GNL.Server.Sent
import Mathlib.Data.List.Perm.Subperm

/-! # What holds of every server that runs

Every character the world holds has a connection and the world, and is kept
under its own 16-bit ID. From this follow what a handler can do, and that no
handler fails but on a packet too short for what it extracts.
-/

namespace GNL.Server

variable {env : Environment}

structure Placed (server : Server) (key : UInt32) (cha : Character) : Prop where
  owner : ∃ conn < server.created, cha.m_TCPConnection = some conn
  key : cha.m_ID.toUInt32 = key
  world : cha.m_World = true

theorem Placed.mono {before after : Server} {key : UInt32} {cha : Character}
    (placed : before.Placed key cha) (created : before.created ≤ after.created) :
    after.Placed key cha where
  owner := by
    rcases placed.owner with ⟨conn, isCreated, isOwner⟩
    exact ⟨conn, Nat.lt_of_lt_of_le isCreated created, isOwner⟩
  key := placed.key
  world := placed.world

structure WellFormed (server : Server) : Prop where
  chaMap : ∀ key cha, server.m_chaMap.lookup key = some cha → server.Placed key cha
  connections : ∀ client ∈ server.m_TCPConnections, ∃ conn < server.created, client = some conn
  queue : ∀ owned ∈ server.m_TCP_PktIn,
    (∃ conn < server.created, owned.connectionPtr = some conn) ∧ owned.pkt.body.length < 2 ^ 32
  reading : ∀ conn ∈ server.reading, conn < server.created

theorem wellFormed_start (m_IDCnt : UInt32) (m_sID : ConnRef → UInt32) :
    (start m_IDCnt m_sID).WellFormed where
  chaMap key cha found := by simp [start] at found
  connections client member := by simp [start] at member
  queue owned member := by simp [start] at member
  reading conn member := by simp [start] at member

namespace WellFormed

theorem owner_lt {server : Server} (wf : server.WellFormed) {key : UInt32} {cha : Character}
    {owner : ConnRef} (found : server.m_chaMap.lookup key = some cha)
    (isOwner : cha.m_TCPConnection = some owner) : owner < server.created := by
  rcases (wf.chaMap key cha found).owner with ⟨conn, isCreated, same⟩
  cases isOwner.symm.trans same
  exact isCreated

theorem sent {Sends : Packet CMD → Prop} {before after : Server} (wf : before.WellFormed)
    (sent : Sent env Sends before after) : after.WellFormed where
  chaMap key cha found :=
    (wf.chaMap key cha (sent.lookup_eq_some found)).mono (Nat.le_of_eq sent.created.symm)
  connections client member := by
    rw [sent.created]
    exact wf.connections client (sent.m_TCPConnections client member)
  queue owned member := by
    rw [sent.created]
    exact wf.queue owned (sent.m_TCP_PktIn ▸ member)
  reading conn member := by
    rw [sent.created]
    exact wf.reading conn (sent.reading ▸ member)

theorem chaMap_of {server : Server} (wf : server.WellFormed) {m_chaMap : ChaMap}
    (placed : ∀ key cha, m_chaMap.lookup key = some cha →
      server.m_chaMap.lookup key = some cha ∨ server.Placed key cha) :
    { server with m_chaMap := m_chaMap }.WellFormed where
  chaMap key cha found := by
    have isPlaced : server.Placed key cha := (placed key cha found).elim (wf.chaMap key cha) id
    exact isPlaced.mono (Nat.le_refl _)
  connections := wf.connections
  queue := wf.queue
  reading := wf.reading

end WellFormed

theorem mem_iteration (server : Server) (entry : ChaEntry) :
    entry ∈ env.iteration server.tick server.m_chaMap.entries ↔
      server.m_chaMap.lookup entry.1 = some entry.2 := by
  rw [(env.iteration_perm _ _).mem_iff]
  exact AList.mem_lookup_iff.symm

theorem WellFormed.owned {server : Server} (wf : server.WellFormed) :
    ∀ entry ∈ env.iteration server.tick server.m_chaMap.entries,
      ∃ conn < server.created, entry.2.GetTCPConnection = some conn :=
  fun entry member => (wf.chaMap _ _ ((mem_iteration server entry).mp member)).owner

theorem length_iteration (server : Server) :
    (env.iteration server.tick server.m_chaMap.entries).length = server.m_chaMap.entries.length :=
  (env.iteration_perm _ _).length_eq

theorem WellFormed.length_entries {server : Server} (wf : server.WellFormed) :
    server.m_chaMap.entries.length ≤ 2 ^ 16 := by
  have distinct : (server.m_chaMap.keys.map UInt32.toNat).Nodup :=
    server.m_chaMap.keys_nodup.map fun _ _ => UInt32.toNat_inj.mp
  have bounded : server.m_chaMap.keys.map UInt32.toNat ⊆ List.range (2 ^ 16) := by
    intro number member
    rcases List.mem_map.mp member with ⟨key, inKeys, rfl⟩
    rcases Option.isSome_iff_exists.mp (AList.lookup_isSome.mpr inKeys) with ⟨cha, found⟩
    rw [List.mem_range, ← (wf.chaMap key cha found).key, UInt16.toNat_toUInt32]
    exact cha.m_ID.toNat_lt
  have shorter := (List.subperm_of_subset distinct bounded).length_le
  rw [List.length_map, List.length_range] at shorter
  simpa [AList.keys, List.keys] using shorter

section Messages

theorem consistent_positionPacket (cmdID : CMD) (cha : Character) :
    (positionPacket cmdID cha).Consistent := by
  apply Packet.consistent_insert
  simp [emptyPacket, default]

theorem consistent_acceptPacket : acceptPacket.Consistent := rfl

theorem length_insertCharacters (characters : List Character) (pkt : Packet CMD) :
    (characters.foldl insertCharacter pkt).body.length =
      pkt.body.length + 18 * characters.length := by
  induction characters generalizing pkt with
  | nil => rfl
  | cons cha characters induction =>
      rw [List.foldl_cons, induction]
      simp [insertCharacter]
      omega

theorem consistent_worldPacket (entries : List ChaEntry) (cha : Character)
    (few : entries.length ≤ 2 ^ 16) : (worldPacket entries cha).Consistent := by
  apply Packet.consistent_insert
  simp [length_insertCharacters, emptyPacket, default]
  omega

end Messages

end GNL.Server
