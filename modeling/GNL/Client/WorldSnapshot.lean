import GNL.Client.Codec
import GNL.Server.Handling
import GNL.Server.Replica

/-! # The world as a script reads it

The server writes its characters, then how many they are, then the ID of the one that
entered. A script reads the ID, the number, and as many characters as that, so it takes
apart in reverse what a loop of the server put together.
-/

namespace GNL

namespace NetNode

def readPlacement (node : NetNode) : Except Fault (Placement × NetNode) := do
  let (y, node) ← node.ReadDouble
  let (x, node) ← node.ReadDouble
  let (id, node) ← node.ReadShort
  .ok ((id, x, y), node)

def placementsCodec :
    StackCodec (Packet CMD) NetNode (List UInt8) Placement Unit Fault where
  sent := Packet.body
  received node := node.m_pktIn.body
  kind _ := ()
  write := placementCodec.write
  read _ := readPlacement

/-- What a script reads of the reply to `SelfEnterWorld`: its own ID, how many
characters there are, and the characters. -/
def readWorld (node : NetNode) :
    Except Fault ((UInt16 × UInt32 × List Placement) × NetNode) := do
  let (id, node) ← node.ReadShort
  let (size, node) ← node.ReadLong
  let (placements, node) ← placementsCodec.readAll (List.replicate size.toNat ()) node
  .ok ((id, size, placements), node)

theorem placementsCodec_recovers (placement : Placement) :
    placementsCodec.Recovers placement := by
  intro before after agrees
  rcases placement with ⟨id, x, y⟩
  have ends : after.m_pktIn.body =
      (before <<< id <<< x).body ++ StandardLayout.toBytes y := agrees
  rcases read_append ends with ⟨first, readY, leftY, -⟩
  have ends : first.m_pktIn.body = (before <<< id).body ++ StandardLayout.toBytes x := leftY
  rcases read_append ends with ⟨second, readX, leftX, -⟩
  rcases read_append leftX with ⟨rest, readID, leftID, -⟩
  refine ⟨rest, ?_, leftID⟩
  simp only [placementsCodec, readPlacement, ReadDouble, ReadShort, bind, Except.bind, readY,
    readX, readID]

theorem writeAll_placementsCodec (placements : List Placement) (pkt : Packet CMD) :
    placementsCodec.writeAll pkt placements = placementCodec.writeAll pkt placements := by
  induction placements generalizing pkt with
  | nil => rfl
  | cons placement placements induction => exact induction (placementCodec.write pkt placement)

theorem readWorld_worldPacket {entries : List ChaEntry} (few : entries.length < 2 ^ 32)
    (cha : Character) {node : NetNode}
    (received : node.m_pktIn.body = (Server.worldPacket entries cha).body) :
    ∃ rest, node.readWorld = .ok ((cha.GetID, UInt32.ofNat entries.length,
        ((entries.map Sigma.snd).map Character.placement).reverse), rest) ∧
      rest.m_pktIn.body = [] := by
  let empty : Packet CMD := Server.emptyPacket .SelfEnterWorld
  let placements := (entries.map Sigma.snd).map Character.placement
  let listed := (entries.map Sigma.snd).foldl Server.insertCharacter empty
  have ends : node.m_pktIn.body = (listed <<< UInt32.ofNat entries.length).body ++
      StandardLayout.toBytes cha.GetID := received
  rcases read_append ends with ⟨first, readID, leftID, -⟩
  have ends : first.m_pktIn.body =
      listed.body ++ StandardLayout.toBytes (UInt32.ofNat entries.length) := leftID
  rcases read_append ends with ⟨second, readSize, leftSize, -⟩
  have written : second.m_pktIn.body = (placementsCodec.writeAll empty placements).body := by
    rw [leftSize, writeAll_placementsCodec, Server.writeAll_placements]
  rcases placementsCodec.readAll_writeAll placements
    (fun placement _ => placementsCodec_recovers placement) empty second written with
    ⟨rest, readsAll, nothingLeft⟩
  have kinds : List.replicate (UInt32.ofNat entries.length).toNat () =
      placements.reverse.map placementsCodec.kind := by
    rw [UInt32.toNat_ofNat_of_lt' few]
    have length : (placements.reverse.map placementsCodec.kind).length = entries.length := by
      simp [placements]
    exact (List.eq_replicate_iff.mpr ⟨length, fun _ _ => rfl⟩).symm
  refine ⟨rest, ?_, nothingLeft⟩
  simp only [readWorld, ReadShort, ReadLong, bind, Except.bind, readID, readSize, kinds, readsAll,
    placements]

/-- Whatever the world holds and in whatever order it is listed, the script reads its
own ID, how many characters there are and each of them once, and nothing is left; and
the worlds that a running server lists are not too large for that. -/
theorem readWorld_decodes :
    (∀ (m_chaMap : ChaMap) (entries : List ChaEntry), entries.Perm m_chaMap.entries →
      m_chaMap.entries.length < 2 ^ 32 → ∀ (cha : Character) (node : NetNode),
      node.m_pktIn.body = (Server.worldPacket entries cha).body →
      ∃ size placements rest, node.readWorld = .ok ((cha.GetID, size, placements), rest) ∧
        size.toNat = m_chaMap.entries.length ∧
        placements.Perm (m_chaMap.entries.map fun entry => entry.2.placement) ∧
        rest.m_pktIn.body = []) ∧
    ∀ (env : Environment) (m_IDCnt : UInt32) (m_sID : ConnRef → UInt32) (server : Server)
      (actions : List Server.Action),
      Trace (Server.Step env) (Server.start m_IDCnt m_sID) actions server →
      ∀ conn < server.created, (server.entered conn).entries.length ≤ 2 ^ 16 := by
  constructor
  · intro m_chaMap entries order few cha node received
    rw [← order.length_eq] at few
    rcases readWorld_worldPacket few cha received with ⟨rest, reads, nothingLeft⟩
    refine ⟨_, _, rest, reads, ?_, ?_, nothingLeft⟩
    · rw [UInt32.toNat_ofNat_of_lt' few, order.length_eq]
    · rw [List.map_map]
      exact (List.reverse_perm _).trans (order.map _)
  · intro env m_IDCnt m_sID server actions trace conn isCreated
    have wfInside := (Server.wellFormed_of_trace trace).enters isCreated
    exact wfInside.length_entries

theorem readWorld_decodes_two :
    let first : Character := { (default : Character) with m_ID := 5, pos := (⟨1⟩, ⟨2⟩) }
    let second : Character := { (default : Character) with m_ID := 6, pos := (⟨3⟩, ⟨4⟩) }
    let m_chaMap : ChaMap := (AList.insert 6 second ∅).insert 5 first
    let node : NetNode := ⟨⟨true, []⟩,
      Server.worldPacket m_chaMap.entries.reverse second, default⟩
    ∃ size placements rest, node.readWorld = .ok ((6, size, placements), rest) ∧
      size.toNat = 2 ∧ placements.Perm [(5, ⟨1⟩, ⟨2⟩), (6, ⟨3⟩, ⟨4⟩)] ∧
      rest.m_pktIn.body = [] := by
  intro first second m_chaMap node
  have few : m_chaMap.entries.length < 2 ^ 32 := by decide
  exact readWorld_decodes.1 m_chaMap m_chaMap.entries.reverse (List.reverse_perm _) few second
    node rfl

end NetNode

end GNL
