import GNL.Server.Announcement

/-! # What becomes of a move

A move changes the entry under the ID of the connection it comes from, whatever ID
its packet carries, and is told to the owners of all other entries.
-/

namespace GNL.Server

variable {env : Environment}

/-- The entry of `conn` is at a new position, and the owners of the other entries are
told so. -/
structure MoveRelayed (server after : Server) (conn : ConnRef) (x y : Double) : Prop where
  moved : after.m_chaMap.lookup (server.m_sID conn) =
    (server.m_chaMap.lookup (server.m_sID conn)).map fun cha => { cha with pos := (x, y) }
  otherEntries : ∀ key ≠ server.m_sID conn,
    after.m_chaMap.lookup key = server.m_chaMap.lookup key
  keys : ∀ key, key ∈ after.m_chaMap ↔ key ∈ server.m_chaMap
  others : ∀ entry ∈ server.m_chaMap.entries, entry.1 ≠ server.m_sID conn →
    ∃ owner message, entry.2.m_TCPConnection = some owner ∧
      newlySentTo server after owner .MovePlayer = [message]
  itself : ∀ cha ∈ server.m_chaMap.lookup (server.m_sID conn),
    ∀ message ∈ newlySent server after, cha.m_TCPConnection ≠ some message.1
  strangers : ∀ message ∈ newlySent server after, ∃ entry ∈ server.m_chaMap.entries,
    entry.1 ≠ server.m_sID conn ∧ entry.2.m_TCPConnection = some message.1
  readBack : ∀ message ∈ newlySent server after, message.2.header.cmdID = .MovePlayer ∧
    ∃ id rest, Extracts message.2 id x y rest ∧ id.toUInt32 = server.m_sID conn ∧ rest.body = []

theorem extracts_of_body {pkt : Packet CMD} {front : List UInt8} {id : UInt16} {x y : Double}
    (ends : pkt.body = front ++ StandardLayout.toBytes id ++ StandardLayout.toBytes x ++
      StandardLayout.toBytes y) :
    ∃ rest, Extracts pkt id x y rest ∧ rest.body = front := by
  rcases Packet.extract_append ends with ⟨first, extractY, leftY, -, -⟩
  rcases Packet.extract_append leftY with ⟨second, extractX, leftX, -, -⟩
  rcases Packet.extract_append leftX with ⟨rest, extractID, leftID, -, -⟩
  exact ⟨rest, ⟨first, second, extractY, extractX, extractID⟩, leftID⟩

section Relayed

variable {server : Server} {conn : ConnRef} {cha : Character} {x y : Double}

theorem mem_moved_iff (found : server.m_chaMap.lookup (server.m_sID conn) = some cha)
    (key : UInt32) : key ∈ server.moved conn cha x y ↔ key ∈ server.m_chaMap := by
  rw [moved, AList.mem_insert]
  constructor
  · rintro (rfl | before)
    · exact ChaMap.mem_of_lookup found
    · exact before
  · exact .inr

theorem mem_told_iff (wf : server.WellFormed)
    (found : server.m_chaMap.lookup (server.m_sID conn) = some cha) (entry : ChaEntry) :
    let inside := { server with m_chaMap := server.moved conn cha x y }
    let placed := { cha with pos := (x, y) }
    entry ∈ (env.iteration inside.tick inside.m_chaMap.entries).filter
        (fun entry => entry.2.GetID ≠ placed.GetID) ↔
      entry ∈ server.m_chaMap.entries ∧ entry.1 ≠ server.m_sID conn := by
  intro inside placed
  rw [List.mem_filter, mem_iteration inside, ← AList.mem_lookup_iff, lookup_moved]
  have sameKey : placed.GetID.toUInt32 = server.m_sID conn := (wf.chaMap _ _ found).key
  by_cases isMoved : entry.1 = server.m_sID conn
  · rw [if_pos isMoved]
    constructor
    · rintro ⟨isEntry, different⟩
      rw [← Option.some.inj isEntry] at different
      exact absurd rfl (of_decide_eq_true different)
    · rintro ⟨-, different⟩
      exact absurd isMoved different
  · rw [if_neg isMoved]
    refine and_congr_right fun isEntry => iff_of_true ?_ isMoved
    have otherKey : entry.2.GetID.toUInt32 = entry.1 := (wf.chaMap _ _ isEntry).key
    simp only [decide_eq_true_eq]
    intro sameID
    rw [sameID, sameKey] at otherKey
    exact isMoved otherKey.symm

end Relayed

theorem Keyed.eq_key {server : Server} (keyed : server.Keyed) {first second : UInt32}
    {cha other : Character} {owner : ConnRef}
    (foundFirst : server.m_chaMap.lookup first = some cha)
    (ownsFirst : cha.m_TCPConnection = some owner)
    (foundSecond : server.m_chaMap.lookup second = some other)
    (ownsSecond : other.m_TCPConnection = some owner) : first = second := by
  rw [keyed first cha owner foundFirst ownsFirst, keyed second other owner foundSecond ownsSecond]

theorem Keyed.moves {server : Server} (keyed : server.Keyed)
    {conn : ConnRef} {cha : Character}
    (found : server.m_chaMap.lookup (server.m_sID conn) = some cha) (x y : Double) :
    { server with m_chaMap := server.moved conn cha x y }.Keyed := by
  intro key other owner foundOther isOwner
  rw [lookup_moved] at foundOther
  split at foundOther
  next same =>
    cases foundOther
    rw [same]
    exact keyed _ cha owner found isOwner
  next => exact keyed key other owner foundOther isOwner

theorem relayed_relays {server : Server} (wf : server.WellFormed) (keyed : server.Keyed)
    {conn : ConnRef} {cha : Character}
    (found : server.m_chaMap.lookup (server.m_sID conn) = some cha) (x y : Double) :
    server.MoveRelayed (server.relayed env conn cha x y) conn x y := by
  let inside := { server with m_chaMap := server.moved conn cha x y }
  let placed := { cha with pos := (x, y) }
  let entries := (env.iteration inside.tick inside.m_chaMap.entries).filter
    fun entry => entry.2.GetID ≠ placed.GetID
  have m_chaMap : (server.relayed env conn cha x y).m_chaMap = server.moved conn cha x y := rfl
  have sent : newlySent server (server.relayed env conn cha x y) =
      announced (positionPacket .MovePlayer placed) entries := List.drop_left
  have told : ∀ entry, entry ∈ entries ↔
      entry ∈ server.m_chaMap.entries ∧ entry.1 ≠ server.m_sID conn := mem_told_iff wf found
  have distinct : (owners entries).Nodup :=
    ((List.filter_sublist.filterMap _).nodup (keyed.moves found x y).nodup_notified)
  have toldOf : ∀ message ∈ announced (positionPacket .MovePlayer placed) entries,
      ∃ entry ∈ server.m_chaMap.entries, entry.1 ≠ server.m_sID conn ∧
        entry.2.m_TCPConnection = some message.1 := by
    rintro ⟨owner, pkt⟩ member
    cases eq_of_mem_announced member
    rcases mem_announced.mp member with ⟨entry, isTold, isOwner⟩
    rcases (told entry).mp isTold with ⟨isEntry, otherKey⟩
    exact ⟨entry, isEntry, otherKey, isOwner⟩
  refine ⟨?_, ?_, ?_, ?_, ?_, ?_, ?_⟩
  · rw [m_chaMap, lookup_moved, if_pos rfl, found]
    rfl
  · intro key otherKey
    rw [m_chaMap, lookup_moved, if_neg otherKey]
  · intro key
    rw [m_chaMap, mem_moved_iff found]
  · intro entry isEntry otherKey
    rcases (wf.chaMap _ _ (AList.mem_lookup_iff.mpr isEntry)).owner with ⟨owner, -, isOwner⟩
    have isTold : owner ∈ owners entries :=
      List.mem_filterMap.mpr ⟨entry, (told entry).mpr ⟨isEntry, otherKey⟩, isOwner⟩
    refine ⟨owner, positionPacket .MovePlayer placed, isOwner, ?_⟩
    have once := filter_announced distinct (positionPacket .MovePlayer placed) owner
    rw [if_pos isTold] at once
    rw [newlySentTo, sent]
    exact congrArg (List.map Prod.snd) once
  · intro present isPresent message member isOwner
    rw [sent] at member
    rcases toldOf message member with ⟨entry, isEntry, otherKey, ownsOther⟩
    exact otherKey (keyed.eq_key (AList.mem_lookup_iff.mpr isEntry) ownsOther isPresent isOwner)
  · rw [sent]
    exact toldOf
  · intro message member
    rw [sent] at member
    rw [eq_of_mem_announced member]
    have ends : (positionPacket .MovePlayer placed).body =
        [] ++ StandardLayout.toBytes placed.GetID ++ StandardLayout.toBytes x ++
          StandardLayout.toBytes y := rfl
    rcases extracts_of_body ends with ⟨rest, extracts, nothingLeft⟩
    exact ⟨rfl, placed.GetID, rest, extracts, (wf.chaMap _ _ found).key, nothingLeft⟩

theorem MoveRelayed.of_popped {server after : Server} {conn : ConnRef} {x y : Double}
    (relayed : server.popped.MoveRelayed after conn x y) : server.MoveRelayed after conn x y where
  __ := relayed

/-- A move from a connection whose ID is a key of the world is handled, and told to the
others. -/
theorem OnPacket_relays_move {m_IDCnt : UInt32} {m_sID : ConnRef → UInt32} {server : Server}
    {actions : List Action} (trace : Trace (Step env) (start m_IDCnt m_sID) actions server)
    {conn : ConnRef} (present : server.m_sID conn ∈ server.m_chaMap) {pkt : Packet CMD}
    (isMovePlayer : pkt.header.cmdID = .MovePlayer) {front : List UInt8} {id : UInt16}
    {x y : Double} (ends : pkt.body = front ++ StandardLayout.toBytes id ++
      StandardLayout.toBytes x ++ StandardLayout.toBytes y) :
    (∃ handled, server.OnPacket env (some conn) pkt = .ok handled ∧
      server.MoveRelayed handled.2.2 conn x y) ∧
    (server.m_TCP_PktIn.head? = some ⟨some conn, pkt⟩ →
      ∃ next, Step env server (.process ⟨some conn, pkt⟩) next ∧
        server.MoveRelayed next conn x y) := by
  have recorded := recorded_of_trace trace
  rcases Option.isSome_iff_exists.mp (AList.lookup_isSome.mpr present) with ⟨cha, found⟩
  rcases extracts_of_body ends with ⟨rest, extracts, -⟩
  constructor
  · refine ⟨(some conn, rest, server.relayed env conn cha x y), ?_,
      relayed_relays recorded.wf recorded.keyed found x y⟩
    rw [OnPacket, isMovePlayer]
    exact onMovePlayer_of_extracts recorded.wf found extracts
  · intro queue
    exact ⟨server.popped.relayed env conn cha x y,
      step_move env recorded.wf queue isMovePlayer found extracts,
      (relayed_relays recorded.wf.popped recorded.keyed found x y).of_popped⟩

/-- The first of two players moves, and writes the ID of the other into its packet. -/
theorem OnPacket_relays_move_of_two_players :
    let enter := emptyPacket .SelfEnterWorld
    let move := emptyPacket .MovePlayer <<< (6 : UInt16) <<< Double.mk 1 <<< Double.mk 2
    let actions : List Action := [.accept, .accept, .receive 0 enter, .receive 1 enter,
      .receive 0 move, .process ⟨some 0, enter⟩, .process ⟨some 1, enter⟩]
    ∃ server next, Trace (Step Environment.calm) (start 5 fun _ => 0) actions server ∧
      Step Environment.calm server (.process ⟨some 0, move⟩) next ∧
      server.MoveRelayed next 0 ⟨1⟩ ⟨2⟩ := by
  intro enter move actions
  have runs : ∃ server ∈ runSteps (step Environment.calm) (start 5 fun _ => 0) actions,
      server.m_TCP_PktIn.head? = some ⟨some 0, move⟩ ∧ server.m_sID 0 ∈ server.m_chaMap := by
    decide
  rcases runs with ⟨server, reaches, queue, present⟩
  have trace := Trace.of_run reaches
  have ends : move.body = [] ++ StandardLayout.toBytes (6 : UInt16) ++
      StandardLayout.toBytes (Double.mk 1) ++ StandardLayout.toBytes (Double.mk 2) := rfl
  rcases (OnPacket_relays_move trace present rfl ends).2 queue with ⟨next, step, relayed⟩
  exact ⟨server, next, trace, step, relayed⟩

end GNL.Server
