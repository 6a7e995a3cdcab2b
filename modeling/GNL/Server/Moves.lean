import GNL.Foundation.Pointers
import GNL.Server.Losses
import GNL.Server.Running

/-! # What a step of the main thread does

To the pointers that own connections, in its variables and in what the threads
share; and which of them it gives up. The main thread makes only ordinary calls,
those that leave the first packet of a connection to the handler of the accept.
-/

namespace GNL

def Thread.held (thread : Thread) : List ConnRef := thread.pointers.reduceOption

def Doing.drops : Doing → Option Place
  | .removing client => some client
  | .erasing client => some (.held client)
  | .resetting client => some client
  | .calling | .sending _ _ | .reading _ => none

def Call.Ordinary : Call → Prop
  | .OnPacket _ | .destroy => True
  | .SendToClient _ pkt | .SendToAll pkt _ | .sendToEach _ _ _ pkt _ | .flagEach _ pkt _ =>
      pkt.header.cmdID ≠ .AcceptTCPConnection
  | .push_back _ | .ConnectToClient => False

def Doing.Ordinary : Doing → Prop
  | .sending _ pkt => pkt.header.cmdID ≠ .AcceptTCPConnection
  | .reading _ => False
  | .calling | .removing _ | .erasing _ | .resetting _ => True

structure Thread.Ordinary (thread : Thread) : Prop where
  doing : thread.doing.Ordinary
  todo : ∀ call ∈ thread.todo, call.Ordinary

theorem Thread.ordinary_idle : Thread.idle.Ordinary where
  doing := trivial
  todo _ member := absurd member List.not_mem_nil

namespace RunningServer

/-- The owners of connections in `m_TCPConnections`, `m_chaMap` and `m_TCP_PktIn`. -/
def kept (server : RunningServer) : List ConnRef :=
  server.m_TCPConnections.reduceOption ++ Server.owners server.m_chaMap.entries ++
    server.m_TCP_PktIn.filterMap (·.connectionPtr)

/-- The owners that the next step of a thread gives up. -/
def released (server : RunningServer) (thread : Thread) : List ConnRef :=
  match thread.doing with
  | .removing client =>
      match server.pointer thread client with
      | some (some conn) =>
          ((server.m_chaMap.lookup (server.connection conn).m_sID).bind
            Character.GetTCPConnection).toList
      | _ => []
  | .erasing index =>
      match thread.pointers[index]? with
      | some client => (server.m_TCPConnections.filter (· = client)).reduceOption
      | none => []
  | .resetting client => (server.pointer thread client).join.toList
  | .calling =>
      match thread.todo with
      | .destroy :: _ => thread.pointers.getLast?.join.toList
      | _ => []
  | .sending _ _ | .reading _ => []

section OnPacket

variable {order : Iteration} {server : RunningServer}

theorem cmdID_extract {DataType : Type} [StandardLayout DataType] {pkt rest : Packet CMD}
    {data : DataType} (extracted : (pkt.extract DataType).toOption = some (data, rest)) :
    rest.header.cmdID = pkt.header.cmdID := by
  unfold Packet.extract at extracted
  split at extracted
  · cases extracted
    rfl
  · contradiction

structure Handles (server : RunningServer) (client : Option ConnRef) (handled : Handled) :
    Prop where
  ordinary : ∀ call ∈ handled.calls, call.Ordinary
  keeps : ∀ conn, (Server.owners server.m_chaMap.entries).count conn ≤
    (Server.owners handled.m_chaMap.entries).count conn
  known : ∀ conn, conn ∈ Server.owners handled.m_chaMap.entries ∨ some conn ∈ handled.pointers →
    conn ∈ Server.owners server.m_chaMap.entries ∨ client = some conn

theorem handles_only {client : Option ConnRef} {calls : List Call}
    (ordinary : ∀ call ∈ calls, call.Ordinary) :
    server.Handles client ⟨server.m_chaMap, [], calls⟩ where
  ordinary := ordinary
  keeps _ := Nat.le_refl _
  known conn := by
    rintro (inMap | inPointers)
    · exact .inl inMap
    · exact absurd inPointers List.not_mem_nil

theorem owners_AddChaToWorld (m_chaMap : ChaMap) (key : UInt32) (cha : Character) :
    Server.owners (m_chaMap.AddChaToWorld key cha).entries = Server.owners m_chaMap.entries ∨
      Server.owners (m_chaMap.AddChaToWorld key cha).entries =
        cha.GetTCPConnection.toList ++ Server.owners m_chaMap.entries := by
  by_cases present : key ∈ m_chaMap
  · rw [ChaMap.AddChaToWorld, if_pos present]
    exact .inl rfl
  · rw [ChaMap.AddChaToWorld, if_neg present, AList.entries_insert_of_notMem present,
      Server.owners, List.filterMap_cons]
    cases pointer : cha.GetTCPConnection with
    | none => exact .inl rfl
    | some conn => exact .inr rfl

theorem handles_SelfEnterWorld {conn : ConnRef} {handled : Handled} {pkt : Packet CMD}
    (enters : pkt.header.cmdID = .SelfEnterWorld)
    (isHandled : server.OnPacket order (some conn) pkt = some handled) :
    server.Handles (some conn) handled := by
  simp only [OnPacket, enters, Option.bind_eq_bind, Option.bind_some, Option.some.injEq]
    at isHandled
  subst isHandled
  let cha := server.newCharacter conn
  have owner : cha.GetTCPConnection = some conn := rfl
  have inside := owners_AddChaToWorld server.m_chaMap cha.GetID.toUInt32 cha
  rw [owner, Option.toList_some] at inside
  have known : ∀ other,
      other ∈ Server.owners (server.m_chaMap.AddChaToWorld cha.GetID.toUInt32 cha).entries →
      other ∈ Server.owners server.m_chaMap.entries ∨ some conn = some other := by
    intro other member
    rcases inside with same | added
    · exact .inl (same ▸ member)
    · rw [added] at member
      rcases List.mem_append.mp member with isConn | isOld
      · exact .inr (congrArg some (List.mem_singleton.mp isConn).symm)
      · exact .inl isOld
  constructor
  · intro call member
    rcases List.mem_append.mp member with notifies | others
    · rcases List.mem_mapIdx.mp notifies with ⟨index, _, rfl⟩
      exact nofun
    · rcases List.mem_cons.mp others with rfl | destroys
      · rw [Call.Ordinary, Server.cmdID_worldPacket]
        exact nofun
      · rw [List.eq_of_mem_replicate destroys]
        exact trivial
  · intro other
    rcases inside with same | added
    · rw [same]
    · rw [added, List.count_append]
      exact Nat.le_add_left _ _
  · rintro other (inMap | inPointers)
    · exact known other inMap
    · rcases List.mem_cons.mp inPointers with isConn | notified
      · exact .inr (owner.symm.trans isConn.symm)
      · rcases List.mem_map.mp notified with ⟨entry, inOrder, points⟩
        apply known
        exact List.mem_filterMap.mpr ⟨entry, (order.perm _).mem_iff.mp inOrder, points⟩

theorem handles_MovePlayer {conn : ConnRef} {handled : Handled} {pkt : Packet CMD}
    (moves : pkt.header.cmdID = .MovePlayer)
    (isHandled : server.OnPacket order (some conn) pkt = some handled) :
    server.Handles (some conn) handled := by
  simp only [OnPacket, moves, Option.bind_eq_bind, Option.bind_some] at isHandled
  split at isHandled
  · cases isHandled
    exact handles_only (by simp)
  next cha found =>
    rcases Option.bind_eq_some_iff.mp isHandled with ⟨⟨y, afterY⟩, -, isHandled⟩
    rcases Option.bind_eq_some_iff.mp isHandled with ⟨⟨x, afterX⟩, -, isHandled⟩
    rcases Option.bind_eq_some_iff.mp isHandled with ⟨-, -, isHandled⟩
    rcases Option.ite_none_right_eq_some.mp isHandled with ⟨-, isHandled⟩
    cases isHandled
    have samePointer : ({ cha with pos := (x, y) } : Character).GetTCPConnection =
        cha.GetTCPConnection := rfl
    have same := count_insert found Character.GetTCPConnection samePointer
    constructor
    · intro call member
      rw [List.mem_singleton.mp member]
      exact nofun
    · exact fun other => (same other).ge
    · rintro other (inMap | inPointers)
      · refine .inl (List.count_pos_iff.mp ?_)
        rw [Server.owners, ← same other]
        exact List.count_pos_iff.mpr inMap
      · exact absurd inPointers List.not_mem_nil

theorem handles_OnPacket {client : Option ConnRef} {pkt : Packet CMD} {handled : Handled}
    (isHandled : server.OnPacket order client pkt = some handled) :
    server.Handles client handled := by
  unfold OnPacket at isHandled
  split at isHandled
  next ping =>
    rcases Option.bind_eq_some_iff.mp isHandled with ⟨conn, -, isHandled⟩
    rcases Option.bind_eq_some_iff.mp isHandled with ⟨⟨timeRec, rest⟩, extracted, isHandled⟩
    cases isHandled
    apply handles_only
    intro call member
    rw [List.mem_singleton.mp member, Call.Ordinary, Packet.cmdID_insert,
      cmdID_extract extracted, ping]
    exact nofun
  next =>
    rcases Option.bind_eq_some_iff.mp isHandled with ⟨conn, -, isHandled⟩
    cases isHandled
    apply handles_only
    intro call member
    rw [List.mem_singleton.mp member]
    exact nofun
  next enters =>
    rcases Option.bind_eq_some_iff.mp isHandled with ⟨conn, rfl, -⟩
    have ofOrder : server.OnPacket order (some conn) pkt = some handled := by
      rw [OnPacket, enters]
      exact isHandled
    exact handles_SelfEnterWorld enters ofOrder
  next moves =>
    rcases Option.bind_eq_some_iff.mp isHandled with ⟨conn, rfl, -⟩
    have ofOrder : server.OnPacket order (some conn) pkt = some handled := by
      rw [OnPacket, moves]
      exact isHandled
    exact handles_MovePlayer moves ofOrder
  next =>
    cases isHandled
    exact handles_only (by simp)

end OnPacket

/-- What a step of the main thread does to what the threads share, and to the pointers
in its variables. -/
inductive Moves (server : RunningServer) (thread : Thread) :
    RunningServer → Thread → Prop
  | control {doing : Doing} {todo : List Call} (gives : server.released thread = [])
      (drops : ∀ place ∈ doing.drops, ∃ client, server.pointer thread place = some client ∧
        server.connected client = false) :
      Moves server thread server { thread with doing, todo }
  | send {conn : ConnRef} {pkt : Packet CMD} {todo : List Call}
      (gives : server.released thread = []) (owned : conn ∈ server.kept ∨ conn ∈ thread.held)
      (other : pkt.header.cmdID ≠ .AcceptTCPConnection) :
      Moves server thread (server.SendPacket conn pkt) ⟨thread.pointers, .calling, todo⟩
  | remove {client : Place} {conn : ConnRef} {doing : Doing}
      (isDoing : thread.doing = .removing client)
      (points : server.pointer thread client = some (some conn))
      (goesOn : doing.drops = some client) :
      Moves server thread
        { server with m_chaMap :=
            server.m_chaMap.RemoveChaFromWorld (server.connection conn).m_sID }
        { thread with doing }
  | erase {index : Nat} {client : Option ConnRef} (isDoing : thread.doing = .erasing index)
      (points : thread.pointers[index]? = some client) :
      Moves server thread
        { server with m_TCPConnections := server.m_TCPConnections.filter (· ≠ client) }
        { thread with doing := .resetting (.held index) }
  | resetHeld {index : Nat} (isDoing : thread.doing = .resetting (.held index)) :
      Moves server thread server
        { thread with pointers := thread.pointers.set index none, doing := .calling }
  | resetListed {index : Nat} (isDoing : thread.doing = .resetting (.listed index)) :
      Moves server thread
        { server with m_TCPConnections := server.m_TCPConnections.set index none }
        { thread with doing := .calling }
  | handle {client : Option ConnRef} {handled : Handled} {todo : List Call}
      (gives : server.released thread = []) (points : thread.pointers[0]? = some client)
      (handles : server.Handles client handled) :
      Moves server thread { server with m_chaMap := handled.m_chaMap }
        ⟨thread.pointers ++ handled.pointers, .calling, todo⟩
  | eraseNull {todo : List Call} (gives : server.released thread = []) :
      Moves server thread
        { server with m_TCPConnections := server.m_TCPConnections.filter (· ≠ none) }
        ⟨thread.pointers, .calling, todo⟩
  | destroy {todo : List Call} (isDoing : thread.doing = .calling)
      (calls : thread.todo = .destroy :: todo) :
      Moves server thread server ⟨thread.pointers.dropLast, .calling, todo⟩

section Moves

variable {order : Iteration} {server next : RunningServer} {thread after : Thread}

theorem io_of_moves (moves : Moves server thread next after) : next.io = server.io := by
  cases moves <;> rfl

theorem mem_held_of_getElem? {index : Nat} {conn : ConnRef}
    (points : thread.pointers[index]? = some (some conn)) : conn ∈ thread.held :=
  List.reduceOption_mem_iff.mpr (List.mem_of_getElem? points)

theorem mem_kept_of_mem {conn : ConnRef} (listed : some conn ∈ server.m_TCPConnections) :
    conn ∈ server.kept := by
  apply List.mem_append_left
  apply List.mem_append_left
  exact List.reduceOption_mem_iff.mpr listed

theorem mem_held_singleton {pointer : Option ConnRef} {doing : Doing} {todo : List Call}
    {conn : ConnRef} : conn ∈ Thread.held ⟨[pointer], doing, todo⟩ ↔ pointer = some conn := by
  simp [Thread.held, List.reduceOption_mem_iff, eq_comm]

theorem mem_kept_iff_of_pop {owned : OwnedPacket CMD} {others : List (OwnedPacket CMD)}
    (queue : server.m_TCP_PktIn = owned :: others) (conn : ConnRef) : conn ∈ server.kept ↔
      conn ∈ kept { server with m_TCP_PktIn := others } ∨ owned.connectionPtr = some conn := by
  simp only [kept, queue, List.mem_append, List.mem_filterMap, List.mem_cons, exists_eq_or_imp]
  exact (or_congr_right or_comm).trans or_assoc.symm

theorem owned_of_pointer {place : Place} {conn : ConnRef}
    (points : server.pointer thread place = some (some conn)) :
    conn ∈ server.kept ∨ conn ∈ thread.held := by
  cases place with
  | held index => exact .inr (mem_held_of_getElem? points)
  | listed index => exact .inl (mem_kept_of_mem (List.mem_of_getElem? points))

theorem mem_kept_of_lookup {key : UInt32} {cha : Character} {conn : ConnRef}
    (found : server.m_chaMap.lookup key = some cha)
    (points : cha.GetTCPConnection = some conn) : conn ∈ server.kept := by
  apply List.mem_append_left
  apply List.mem_append_right
  exact List.mem_filterMap.mpr ⟨⟨key, cha⟩, AList.mem_lookup_iff.mp found, points⟩

theorem moves_of_call {call : Call} {todo : List Call} (ordinary : call.Ordinary)
    (rest : ∀ call ∈ todo, call.Ordinary) (isDoing : thread.doing = .calling)
    (calls : thread.todo = call :: todo)
    (isNext : server.call order { thread with todo } call = some (next, after)) :
    Moves server thread next after ∧ after.Ordinary := by
  have givesNothing : call ≠ .destroy → server.released thread = [] := by
    intro notDestroy
    cases call <;> simp_all [released]
  rcases thread with ⟨pointers, doing, allTodo⟩
  cases isDoing
  cases call with
  | OnPacket pkt =>
      rcases Option.bind_eq_some_iff.mp isNext with ⟨client, points, isNext⟩
      rcases Option.bind_eq_some_iff.mp isNext with ⟨handled, isHandled, isNext⟩
      cases isNext
      have handles := handles_OnPacket isHandled
      exact ⟨.handle (givesNothing nofun) points handles,
        trivial, List.forall_mem_append.mpr ⟨handles.ordinary, rest⟩⟩
  | SendToClient index pkt =>
      rcases Option.bind_eq_some_iff.mp isNext with ⟨client, points, isNext⟩
      cases isNext
      cases isConnected : server.connected client with
      | true => exact ⟨.control (givesNothing nofun) (by simp [Doing.drops]), ordinary, rest⟩
      | false =>
          refine ⟨.control (givesNothing nofun) ?_, trivial, rest⟩
          intro place isPlace
          cases isPlace
          exact ⟨client, points, isConnected⟩
  | SendToAll pkt ignore_client =>
      cases isNext
      exact ⟨.control (givesNothing nofun) (by simp [Doing.drops]), trivial,
        List.forall_mem_cons.mpr ⟨ordinary, rest⟩⟩
  | sendToEach index stop bInvalidClientExists pkt ignore_client =>
      simp only [RunningServer.call] at isNext
      split at isNext
      · cases isNext
        cases bInvalidClientExists with
        | true => exact ⟨.eraseNull (givesNothing nofun), trivial, rest⟩
        | false => exact ⟨.control (givesNothing nofun) (by simp [Doing.drops]), trivial, rest⟩
      · rcases Option.bind_eq_some_iff.mp isNext with ⟨client, points, isNext⟩
        rcases Option.bind_eq_some_iff.mp isNext with ⟨ignored, -, isNext⟩
        split at isNext
        · cases isNext
          refine ⟨.control (givesNothing nofun) ?_, ?_,
            List.forall_mem_cons.mpr ⟨ordinary, rest⟩⟩
          · split <;> simp [Doing.drops]
          · split
            · exact ordinary
            · exact trivial
        next notConnected =>
          cases isNext
          refine ⟨.control (givesNothing nofun) ?_, trivial,
            List.forall_mem_cons.mpr ⟨ordinary, rest⟩⟩
          intro place isPlace
          cases isPlace
          exact ⟨client, points, Bool.not_eq_true _ ▸ notConnected⟩
  | flagEach keys pkt id =>
      cases keys with
      | nil =>
          cases isNext
          exact ⟨.control (givesNothing nofun) (by simp [Doing.drops]), trivial, rest⟩
      | cons key keys =>
          rcases Option.bind_eq_some_iff.mp isNext with ⟨other, found, isNext⟩
          split at isNext
          · cases isNext
            exact ⟨.control (givesNothing nofun) (by simp [Doing.drops]), trivial,
              List.forall_mem_cons.mpr ⟨ordinary, rest⟩⟩
          · rcases Option.bind_eq_some_iff.mp isNext with ⟨conn, points, isNext⟩
            cases isNext
            exact ⟨.send (givesNothing nofun) (.inl (mem_kept_of_lookup found points)) ordinary,
              trivial, List.forall_mem_cons.mpr ⟨ordinary, rest⟩⟩
  | push_back index => exact absurd ordinary id
  | ConnectToClient => exact absurd ordinary id
  | destroy =>
      cases isNext
      exact ⟨.destroy rfl calls, trivial, rest⟩

theorem moves_of_proceed (ordinary : thread.Ordinary)
    (isNext : server.proceed order thread = some (next, after)) :
    Moves server thread next after ∧ after.Ordinary := by
  rcases thread with ⟨pointers, doing, todo⟩
  cases doing with
  | calling =>
      simp only [proceed] at isNext
      cases todo with
      | nil => contradiction
      | cons call todo =>
          rcases List.forall_mem_cons.mp ordinary.todo with ⟨first, rest⟩
          exact moves_of_call first rest rfl rfl isNext
  | sending client pkt =>
      rcases Option.bind_eq_some_iff.mp isNext with ⟨conn, points, isNext⟩
      cases isNext
      have owned := owned_of_pointer (Option.join_eq_some_iff.mp points)
      exact ⟨.send rfl owned ordinary.doing, trivial, ordinary.todo⟩
  | removing client =>
      rcases Option.bind_eq_some_iff.mp isNext with ⟨conn, points, isNext⟩
      cases isNext
      have isPointer := Option.join_eq_some_iff.mp points
      cases client with
      | held index => exact ⟨.remove rfl isPointer rfl, trivial, ordinary.todo⟩
      | listed index => exact ⟨.remove rfl isPointer rfl, trivial, ordinary.todo⟩
  | erasing index =>
      rcases Option.bind_eq_some_iff.mp isNext with ⟨client, points, isNext⟩
      cases isNext
      exact ⟨.erase rfl points, trivial, ordinary.todo⟩
  | resetting client =>
      cases client with
      | held index =>
          cases isNext
          exact ⟨.resetHeld rfl, trivial, ordinary.todo⟩
      | listed index =>
          cases isNext
          exact ⟨.resetListed rfl, trivial, ordinary.todo⟩
  | reading conn => exact absurd ordinary.doing id

end Moves

end RunningServer

end GNL
