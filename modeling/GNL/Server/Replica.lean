import GNL.Foundation.StackCodec
import GNL.Server.Invariant

/-! # What a client rebuilds of the world

A client keeps a map from IDs to positions. It replaces the map by the list of
characters it is sent when it enters, and changes one entry of it for each
character that enters or moves later.
-/

namespace GNL

abbrev Placement := UInt16 × Double × Double

def Character.placement (cha : Character) : Placement := (cha.GetID, cha.GetPosX, cha.GetPosY)

def placementCodec :
    StackCodec (Packet CMD) (Packet CMD) (List UInt8) Placement Unit Fault where
  sent := Packet.body
  received := Packet.body
  kind _ := ()
  write pkt placement := pkt <<< placement.1 <<< placement.2.1 <<< placement.2.2
  read _ pkt := do
    let (y, pkt) ← pkt.extract Double
    let (x, pkt) ← pkt.extract Double
    let (id, pkt) ← pkt.extract UInt16
    .ok ((id, x, y), pkt)

theorem placementCodec_recovers (placement : Placement) :
    placementCodec.Recovers placement := by
  intro before after agrees
  rcases placement with ⟨id, x, y⟩
  have ends : after.body = (before <<< id <<< x).body ++ StandardLayout.toBytes y := agrees
  rcases Packet.extract_append ends with ⟨first, extractY, leftY, -, -⟩
  have ends : first.body = (before <<< id).body ++ StandardLayout.toBytes x := leftY
  rcases Packet.extract_append ends with ⟨second, extractX, leftX, -, -⟩
  rcases Packet.extract_append leftX with ⟨rest, extractID, leftID, -, -⟩
  refine ⟨rest, ?_, leftID⟩
  simp only [placementCodec, bind, Except.bind, extractY, extractX, extractID]

def decodeWorld (pkt : Packet CMD) : Except Fault (List Placement) := do
  let (_, pkt) ← pkt.extract UInt16
  let (size, pkt) ← pkt.extract UInt32
  let (placements, _) ← placementCodec.readAll (List.replicate size.toNat ()) pkt
  .ok placements

def decodePosition (pkt : Packet CMD) : Except Fault Placement := do
  let (placement, _) ← placementCodec.read () pkt
  .ok placement

/-- The positions a client knows, by ID. -/
abbrev Replica := UInt16 → Option (Double × Double)

namespace Replica

def empty : Replica := fun _ => none

def place (replica : Replica) (placement : Placement) : Replica :=
  Function.update replica placement.1 (some placement.2)

def receive (replica : Replica) (pkt : Packet CMD) : Replica :=
  match pkt.header.cmdID with
  | .SelfEnterWorld =>
      match decodeWorld pkt with
      | .ok placements => placements.foldl place empty
      | .error _ => replica
  | .PlyEnterWorld | .MovePlayer =>
      match decodePosition pkt with
      | .ok placement => replica.place placement
      | .error _ => replica
  | _ => replica

def delivered (sent : List (ConnRef × Packet CMD)) (conn : ConnRef) : Replica :=
  (sent.filter fun message => message.1 = conn).foldl
    (fun replica message => replica.receive message.2) empty

theorem delivered_snoc (sent : List (ConnRef × Packet CMD)) (message : ConnRef × Packet CMD)
    (conn : ConnRef) : delivered (sent ++ [message]) conn =
      if message.1 = conn then (delivered sent conn).receive message.2
      else delivered sent conn := by
  split
  next same => simp [delivered, List.filter_append, same]
  next different => simp [delivered, List.filter_append, different]

theorem delivered_append_of_untold {sent messages : List (ConnRef × Packet CMD)} {conn : ConnRef}
    (untold : ∀ message ∈ messages, message.1 ≠ conn) :
    delivered (sent ++ messages) conn = delivered sent conn := by
  have noMessage : (messages.filter fun message => message.1 = conn) = [] := by
    rw [List.filter_eq_nil_iff]
    intro message member
    simpa using untold message member
  rw [delivered, List.filter_append, noMessage, List.append_nil, delivered]

theorem place_place (replica : Replica) (placement : Placement) :
    (replica.place placement).place placement = replica.place placement :=
  Function.update_idem _ _ _

theorem delivered_append_of_told {sent messages : List (ConnRef × Packet CMD)} {conn : ConnRef}
    {placement : Placement}
    (places : ∀ message ∈ messages, ∀ replica : Replica,
      replica.receive message.2 = replica.place placement)
    (told : ∃ message ∈ messages, message.1 = conn) :
    delivered (sent ++ messages) conn = (delivered sent conn).place placement := by
  induction messages generalizing sent with
  | nil => simp at told
  | cons message rest induction =>
      rcases List.forall_mem_cons.mp places with ⟨placesFirst, placesRest⟩
      rw [List.append_cons]
      by_cases again : ∃ later ∈ rest, later.1 = conn
      · rw [induction placesRest again, delivered_snoc]
        split
        next => rw [placesFirst, place_place]
        next => rfl
      · have untold : ∀ later ∈ rest, later.1 ≠ conn :=
          fun later member same => again ⟨later, member, same⟩
        have first : message.1 = conn := by
          rcases told with ⟨other, member, same⟩
          rcases List.mem_cons.mp member with rfl | inRest
          · exact same
          · exact absurd same (untold other inRest)
        rw [delivered_append_of_untold untold, delivered_snoc, if_pos first, placesFirst]

theorem foldl_place_of_notMem {placements : List Placement} {replica : Replica} {id : UInt16}
    (absent : ∀ placement ∈ placements, placement.1 ≠ id) :
    placements.foldl place replica id = replica id := by
  induction placements generalizing replica with
  | nil => rfl
  | cons placement placements induction =>
      rcases List.forall_mem_cons.mp absent with ⟨different, restAbsent⟩
      rw [List.foldl_cons, induction restAbsent]
      exact Function.update_of_ne different.symm _ _

theorem foldl_place_of_mem {placements : List Placement} {replica : Replica}
    {placement : Placement} (member : placement ∈ placements)
    (unique : ∀ other ∈ placements, other.1 = placement.1 → other.2 = placement.2) :
    placements.foldl place replica placement.1 = some placement.2 := by
  induction placements generalizing replica with
  | nil => contradiction
  | cons first placements induction =>
      rcases List.forall_mem_cons.mp unique with ⟨-, restUnique⟩
      by_cases later : placement ∈ placements
      · exact induction later restUnique
      · have isFirst : placement = first := (List.mem_cons.mp member).resolve_right later
        subst isFirst
        have absent : ∀ other ∈ placements, other.1 ≠ placement.1 := by
          intro other inRest sameID
          have same : other = placement := Prod.ext sameID (restUnique other inRest sameID)
          exact later (same ▸ inRest)
        rw [List.foldl_cons, foldl_place_of_notMem absent]
        exact Function.update_self _ _ _

end Replica

namespace Server

variable {env : Environment}

theorem decodePosition_positionPacket (cmdID : CMD) (cha : Character) :
    decodePosition (positionPacket cmdID cha) = .ok cha.placement := by
  rcases placementCodec_recovers cha.placement (emptyPacket cmdID) (positionPacket cmdID cha) rfl
    with ⟨rest, reads, -⟩
  have reads : placementCodec.read () (positionPacket cmdID cha) = .ok (cha.placement, rest) :=
    reads
  simp only [decodePosition, bind, Except.bind, reads]

theorem receive_positionPacket {cmdID : CMD} (places : cmdID = .PlyEnterWorld ∨ cmdID = .MovePlayer)
    (replica : Replica) (cha : Character) :
    replica.receive (positionPacket cmdID cha) = replica.place cha.placement := by
  have decodes := decodePosition_positionPacket cmdID cha
  have hasCmdID : (positionPacket cmdID cha).header.cmdID = cmdID := rfl
  rw [Replica.receive, hasCmdID]
  rcases places with rfl | rfl
  · simp only [decodes]
  · simp only [decodes]

theorem writeAll_placements (characters : List Character) (pkt : Packet CMD) :
    placementCodec.writeAll pkt (characters.map Character.placement) =
      characters.foldl insertCharacter pkt := by
  induction characters generalizing pkt with
  | nil => rfl
  | cons cha characters induction => exact induction (insertCharacter pkt cha)

theorem decodeWorld_worldPacket {entries : List ChaEntry} (few : entries.length < 2 ^ 32)
    (cha : Character) :
    decodeWorld (worldPacket entries cha) =
      .ok ((entries.map Sigma.snd).map Character.placement).reverse := by
  let listed := (entries.map Sigma.snd).foldl insertCharacter (emptyPacket .SelfEnterWorld)
  have ends : (worldPacket entries cha).body =
      (listed <<< UInt32.ofNat entries.length).body ++ StandardLayout.toBytes cha.GetID := rfl
  rcases Packet.extract_append ends with ⟨first, extractID, leftID, -, -⟩
  rcases Packet.extract_append leftID with ⟨second, extractSize, leftSize, -, -⟩
  have written : second.body = (placementCodec.writeAll (emptyPacket .SelfEnterWorld)
      ((entries.map Sigma.snd).map Character.placement)).body := by
    rw [leftSize, writeAll_placements]
  rcases placementCodec.readAll_writeAll _ (fun placement _ => placementCodec_recovers placement)
    _ _ written with ⟨rest, readsAll, -⟩
  have kinds : List.replicate (UInt32.ofNat entries.length).toNat () =
      ((entries.map Sigma.snd).map Character.placement).reverse.map placementCodec.kind := by
    rw [UInt32.toNat_ofNat_of_lt' few]
    have length : (((entries.map Sigma.snd).map Character.placement).reverse.map
        placementCodec.kind).length = entries.length := by simp
    exact (List.eq_replicate_iff.mpr ⟨length, fun _ _ => rfl⟩).symm
  simp only [decodeWorld, bind, Except.bind, extractID, extractSize, kinds, readsAll]

theorem mem_listed {server : Server} (wf : server.WellFormed) {placement : Placement} :
    placement ∈ ((env.iteration server.tick server.m_chaMap.entries).map Sigma.snd).map
        Character.placement ↔
      ∃ cha, server.m_chaMap.lookup placement.1.toUInt32 = some cha ∧
        cha.placement = placement := by
  simp only [List.mem_map]
  constructor
  · rintro ⟨cha, ⟨entry, inEntries, rfl⟩, rfl⟩
    have found := (mem_iteration server entry).mp inEntries
    refine ⟨entry.2, ?_, rfl⟩
    rw [← (wf.chaMap _ _ found).key] at found
    exact found
  · rintro ⟨cha, found, isPlacement⟩
    exact ⟨cha, ⟨⟨_, cha⟩, (mem_iteration server ⟨_, cha⟩).mpr found, rfl⟩, isPlacement⟩

theorem receive_worldPacket {server : Server} (wf : server.WellFormed) (replica : Replica)
    (cha : Character) (id : UInt16) :
    replica.receive (worldPacket (env.iteration server.tick server.m_chaMap.entries) cha) id =
      (server.m_chaMap.lookup id.toUInt32).map Character.pos := by
  let entries := env.iteration server.tick server.m_chaMap.entries
  let placements := (entries.map Sigma.snd).map Character.placement
  have few : entries.length < 2 ^ 32 := by
    have bound := wf.length_entries
    rw [length_iteration]
    omega
  have received : replica.receive (worldPacket entries cha) =
      placements.reverse.foldl Replica.place Replica.empty := by
    rw [Replica.receive, cmdID_worldPacket]
    simp only [decodeWorld_worldPacket few cha, placements]
  have listed : ∀ placement ∈ placements.reverse, ∃ cha,
      server.m_chaMap.lookup placement.1.toUInt32 = some cha ∧ cha.placement = placement :=
    fun placement member => (mem_listed wf).mp (List.mem_reverse.mp member)
  rw [received]
  cases found : server.m_chaMap.lookup id.toUInt32 with
  | none =>
      apply Replica.foldl_place_of_notMem
      intro placement member sameID
      rcases listed placement member with ⟨cha, isListed, -⟩
      rw [sameID, found] at isListed
      contradiction
  | some cha =>
      have hasID : cha.m_ID = id := UInt16.toUInt32_inj.mp (wf.chaMap _ _ found).key
      subst hasID
      have member : cha.placement ∈ placements.reverse :=
        List.mem_reverse.mpr ((mem_listed wf).mpr ⟨cha, found, rfl⟩)
      apply Replica.foldl_place_of_mem member
      intro other inPlacements sameID
      rcases listed other inPlacements with ⟨cha', isListed, rfl⟩
      rw [sameID] at isListed
      rw [Option.some.inj (isListed.symm.trans found)]

end Server

end GNL
