import GNL.Server.Losses
import GNL.Server.Running

/-! # What is left of a call

A thread in the middle of its calls, on a server that nobody else touches: what the rest of
them does all at once. The statements of the functions are those of the running server, and
what they do to a `Server` is what its own functions do.
-/

namespace GNL

namespace Server

def pointer (server : Server) (pointers : List (Option ConnRef)) : Place → Option (Option ConnRef)
  | .held index => pointers[index]?
  | .listed index => server.m_TCPConnections[index]?

def finishStatement (pointers : List (Option ConnRef)) (server : Server) :
    Doing → Option (List (Option ConnRef) × Server)
  | .calling => some (pointers, server)
  | .sending client pkt => do
      let conn ← (server.pointer pointers client).join
      some (pointers, server.SendPacket conn pkt)
  | .removing (.held index) => do
      let client ← pointers[index]?
      let server ← (server.OnClientDisconnect client).toOption
      some (pointers.set index none,
        { server with m_TCPConnections := server.m_TCPConnections.filter (· ≠ client) })
  | .removing (.listed index) => do
      let client ← server.m_TCPConnections[index]?
      let server ← (server.OnClientDisconnect client).toOption
      some (pointers, { server with m_TCPConnections := server.m_TCPConnections.set index none })
  | .erasing index => do
      let client ← pointers[index]?
      some (pointers.set index none,
        { server with m_TCPConnections := server.m_TCPConnections.filter (· ≠ client) })
  | .resetting (.held index) => some (pointers.set index none, server)
  | .resetting (.listed index) =>
      some (pointers, { server with m_TCPConnections := server.m_TCPConnections.set index none })
  | .reading _ => none

def entriesAt (server : Server) (keys : List UInt32) : List ChaEntry :=
  keys.filterMap fun key => (server.m_chaMap.lookup key).map fun cha => ⟨key, cha⟩

def performCall (env : Environment) (pointers : List (Option ConnRef)) (server : Server) :
    Call → Option (List (Option ConnRef) × Server)
  | .OnPacket pkt => do
      let client ← pointers[0]?
      let handled ← (server.OnPacket env client pkt).toOption
      some (pointers, handled.2.2)
  | .SendToClient index pkt => do
      let client ← pointers[index]?
      let told ← (server.SendToClient env client pkt).toOption
      some (pointers.set index told.1, told.2)
  | .SendToAll pkt ignore_client => do
      let ignored ← pointers[ignore_client]?
      let server ← (server.SendToAll env pkt ignored).toOption
      some (pointers, server)
  | .sendToEach index _ bInvalidClientExists pkt ignore_client => do
      let ignored ← pointers[ignore_client]?
      let left ← (sendToEach env pkt ignored (server.m_TCPConnections.drop index) server).toOption
      let clients := server.m_TCPConnections.take index ++ left.1
      some (pointers, { left.2.2 with
        m_TCPConnections := if bInvalidClientExists || left.2.1 then clients.filter (· ≠ none)
          else clients })
  | .flagEach keys pkt id => do
      let server ← (flagEach ((default : Character).SetID id) pkt (server.entriesAt keys)
        server).toOption
      some (pointers, server)
  | .destroy => some (pointers.dropLast, server)
  | .push_back _ | .ConnectToClient => none

def performCalls (env : Environment) : List Call → List (Option ConnRef) → Server → Option Server
  | [], _, server => some server
  | call :: todo, pointers, server => do
      let performed ← server.performCall env pointers call
      performCalls env todo performed.1 performed.2

def finish (env : Environment) (thread : Thread) (server : Server) : Option Server := do
  let finished ← server.finishStatement thread.pointers thread.doing
  performCalls env thread.todo finished.1 finished.2

/-- One step of a thread on a server that nobody else touches. -/
inductive Proceeds (env : Environment) (server : Server) : Thread → Server → Thread → Prop
  | send {pointers : List (Option ConnRef)} {todo : List Call} {client : Place}
      {pkt : Packet CMD} {conn : ConnRef}
      (points : server.pointer pointers client = some (some conn)) :
      Proceeds env server ⟨pointers, .sending client pkt, todo⟩
        (server.SendPacket conn pkt) ⟨pointers, .calling, todo⟩
  | removeHeld {pointers : List (Option ConnRef)} {todo : List Call} {index : Nat}
      {conn : ConnRef} (points : pointers[index]? = some (some conn)) :
      Proceeds env server ⟨pointers, .removing (.held index), todo⟩
        (server.disconnected conn) ⟨pointers, .erasing index, todo⟩
  | removeListed {pointers : List (Option ConnRef)} {todo : List Call} {index : Nat}
      {conn : ConnRef} (points : server.m_TCPConnections[index]? = some (some conn)) :
      Proceeds env server ⟨pointers, .removing (.listed index), todo⟩
        (server.disconnected conn) ⟨pointers, .resetting (.listed index), todo⟩
  | erase {pointers : List (Option ConnRef)} {todo : List Call} {index : Nat}
      {client : Option ConnRef} (points : pointers[index]? = some client) :
      Proceeds env server ⟨pointers, .erasing index, todo⟩
        { server with m_TCPConnections := server.m_TCPConnections.filter (· ≠ client) }
        ⟨pointers, .resetting (.held index), todo⟩
  | resetHeld {pointers : List (Option ConnRef)} {todo : List Call} {index : Nat} :
      Proceeds env server ⟨pointers, .resetting (.held index), todo⟩
        server ⟨pointers.set index none, .calling, todo⟩
  | resetListed {pointers : List (Option ConnRef)} {todo : List Call} {index : Nat} :
      Proceeds env server ⟨pointers, .resetting (.listed index), todo⟩
        { server with m_TCPConnections := server.m_TCPConnections.set index none }
        ⟨pointers, .calling, todo⟩
  | findsOpen {pointers : List (Option ConnRef)} {todo : List Call} {index : Nat}
      {pkt : Packet CMD} {conn : ConnRef} (points : pointers[index]? = some (some conn))
      (isOpen : env.isOpen server.tick conn = true) :
      Proceeds env server ⟨pointers, .calling, .SendToClient index pkt :: todo⟩
        server.asked ⟨pointers, .sending (.held index) pkt, todo⟩
  | findsClosed {pointers : List (Option ConnRef)} {todo : List Call} {index : Nat}
      {pkt : Packet CMD} {conn : ConnRef} (points : pointers[index]? = some (some conn))
      (closed : env.isOpen server.tick conn = false) :
      Proceeds env server ⟨pointers, .calling, .SendToClient index pkt :: todo⟩
        server.asked ⟨pointers, .removing (.held index), todo⟩
  | findsNull {pointers : List (Option ConnRef)} {todo : List Call} {index : Nat}
      {pkt : Packet CMD} (points : pointers[index]? = some none) :
      Proceeds env server ⟨pointers, .calling, .SendToClient index pkt :: todo⟩
        server ⟨pointers, .removing (.held index), todo⟩
  | starts {pointers : List (Option ConnRef)} {todo : List Call} {pkt : Packet CMD}
      {ignore_client : Nat} :
      Proceeds env server ⟨pointers, .calling, .SendToAll pkt ignore_client :: todo⟩
        server ⟨pointers, .calling,
          .sendToEach 0 server.m_TCPConnections.length false pkt ignore_client :: todo⟩
  | ends {pointers : List (Option ConnRef)} {todo : List Call} {index stop : Nat}
      {bInvalidClientExists : Bool} {pkt : Packet CMD} {ignore_client : Nat}
      {ignored : Option ConnRef} (points : pointers[ignore_client]? = some ignored)
      (isLast : index = server.m_TCPConnections.length) :
      Proceeds env server
        ⟨pointers, .calling, .sendToEach index stop bInvalidClientExists pkt ignore_client :: todo⟩
        { server with m_TCPConnections := if bInvalidClientExists then
            server.m_TCPConnections.filter (· ≠ none) else server.m_TCPConnections }
        ⟨pointers, .calling, todo⟩
  | tells {pointers : List (Option ConnRef)} {todo : List Call} {index stop : Nat}
      {bInvalidClientExists : Bool} {pkt : Packet CMD} {ignore_client : Nat}
      {ignored : Option ConnRef} {conn : ConnRef}
      (points : pointers[ignore_client]? = some ignored)
      (listed : server.m_TCPConnections[index]? = some (some conn))
      (isOpen : env.isOpen server.tick conn = true) :
      Proceeds env server
        ⟨pointers, .calling, .sendToEach index stop bInvalidClientExists pkt ignore_client :: todo⟩
        server.asked ⟨pointers,
          if some conn ≠ ignored then .sending (.listed index) pkt else .calling,
          .sendToEach (index + 1) stop bInvalidClientExists pkt ignore_client :: todo⟩
  | misses {pointers : List (Option ConnRef)} {todo : List Call} {index stop : Nat}
      {bInvalidClientExists : Bool} {pkt : Packet CMD} {ignore_client : Nat}
      {ignored : Option ConnRef} {conn : ConnRef}
      (points : pointers[ignore_client]? = some ignored)
      (listed : server.m_TCPConnections[index]? = some (some conn))
      (closed : env.isOpen server.tick conn = false) :
      Proceeds env server
        ⟨pointers, .calling, .sendToEach index stop bInvalidClientExists pkt ignore_client :: todo⟩
        server.asked ⟨pointers, .removing (.listed index),
          .sendToEach (index + 1) stop true pkt ignore_client :: todo⟩
  | missesNull {pointers : List (Option ConnRef)} {todo : List Call} {index stop : Nat}
      {bInvalidClientExists : Bool} {pkt : Packet CMD} {ignore_client : Nat}
      {ignored : Option ConnRef} (points : pointers[ignore_client]? = some ignored)
      (listed : server.m_TCPConnections[index]? = some none) :
      Proceeds env server
        ⟨pointers, .calling, .sendToEach index stop bInvalidClientExists pkt ignore_client :: todo⟩
        server ⟨pointers, .removing (.listed index),
          .sendToEach (index + 1) stop true pkt ignore_client :: todo⟩
  | flagsAll {pointers : List (Option ConnRef)} {todo : List Call} {pkt : Packet CMD}
      {id : UInt16} :
      Proceeds env server ⟨pointers, .calling, .flagEach [] pkt id :: todo⟩
        server ⟨pointers, .calling, todo⟩
  | skips {pointers : List (Option ConnRef)} {todo : List Call} {pkt : Packet CMD}
      {id : UInt16} {key : UInt32} {keys : List UInt32} {other : Character}
      (found : server.m_chaMap.lookup key = some other) (isSame : other.GetID = id) :
      Proceeds env server ⟨pointers, .calling, .flagEach (key :: keys) pkt id :: todo⟩
        server ⟨pointers, .calling, .flagEach keys pkt id :: todo⟩
  | flags {pointers : List (Option ConnRef)} {todo : List Call} {pkt : Packet CMD}
      {id : UInt16} {key : UInt32} {keys : List UInt32} {other : Character} {conn : ConnRef}
      (found : server.m_chaMap.lookup key = some other) (isOther : other.GetID ≠ id)
      (points : other.GetTCPConnection = some conn) :
      Proceeds env server ⟨pointers, .calling, .flagEach (key :: keys) pkt id :: todo⟩
        (server.SendPacket conn pkt) ⟨pointers, .calling, .flagEach keys pkt id :: todo⟩
  | destroy {pointers : List (Option ConnRef)} {todo : List Call} :
      Proceeds env server ⟨pointers, .calling, .destroy :: todo⟩
        server ⟨pointers.dropLast, .calling, todo⟩

section Loop

variable {env : Environment} {server : Server} {pointers : List (Option ConnRef)}
  {index stop : Nat} {bInvalidClientExists : Bool} {pkt : Packet CMD} {ignore_client : Nat}
  {ignored : Option ConnRef} {conn : ConnRef}

theorem sendToEach_connections (env : Environment) (pkt : Packet CMD) (ignored : Option ConnRef)
    (clients : List (Option ConnRef)) (rest : List (Option ConnRef)) (server : Server) :
    sendToEach env pkt ignored rest { server with m_TCPConnections := clients } =
      (sendToEach env pkt ignored rest server).map fun left =>
        (left.1, left.2.1, { left.2.2 with m_TCPConnections := clients }) := by
  induction rest generalizing server with
  | nil => rfl
  | cons client rest induction =>
      cases client with
      | none => rfl
      | some conn =>
          cases isOpen : env.isOpen server.tick conn with
          | true =>
              have isOpenToo : env.isOpen
                  { server with m_TCPConnections := clients }.tick conn = true := isOpen
              rw [sendToEach_of_open isOpen, sendToEach_of_open isOpenToo]
              have same : { server with m_TCPConnections := clients }.passed pkt ignored conn =
                  { server.passed pkt ignored conn with m_TCPConnections := clients } := by
                unfold passed
                split <;> rfl
              rw [same, induction]
              cases sendToEach env pkt ignored rest (server.passed pkt ignored conn) <;> rfl
          | false =>
              have closedToo : env.isOpen
                  { server with m_TCPConnections := clients }.tick conn = false := isOpen
              rw [sendToEach_of_closed isOpen, sendToEach_of_closed closedToo]
              have same : { server with m_TCPConnections := clients }.asked.disconnected conn =
                  { server.asked.disconnected conn with m_TCPConnections := clients } := rfl
              rw [same, induction]
              cases sendToEach env pkt ignored rest (server.asked.disconnected conn) <;> rfl

theorem performCall_SendToAll (stop : Nat) :
    server.performCall env pointers (.SendToAll pkt ignore_client) =
      server.performCall env pointers (.sendToEach 0 stop false pkt ignore_client) := by
  simp only [performCall, SendToAll, List.drop_zero, List.take_zero, List.nil_append,
    Bool.false_or]
  cases pointers[ignore_client]? with
  | none => rfl
  | some ignored =>
      cases looped : sendToEach env pkt ignored server.m_TCPConnections server with
      | error fault => simp [looped, bind, Except.bind, Except.toOption]
      | ok left =>
          cases invalid : left.2.1 with
          | true => simp [looped, invalid, bind, Except.bind, Except.toOption]
          | false => simp [looped, invalid, bind, Except.bind, Except.toOption]

theorem listed_split {list : List (Option ConnRef)} {client : Option ConnRef}
    (listed : list[index]? = some client) :
    list.drop index = client :: list.drop (index + 1) ∧
      list.take (index + 1) = list.take index ++ [client] := by
  rcases List.getElem?_eq_some_iff.mp listed with ⟨inside, rfl⟩
  exact ⟨List.drop_eq_getElem_cons inside, List.take_succ_eq_append_getElem inside⟩

theorem performCall_of_open (points : pointers[ignore_client]? = some ignored)
    (listed : server.m_TCPConnections[index]? = some (some conn))
    (isOpen : env.isOpen server.tick conn = true) :
    server.performCall env pointers
        (.sendToEach index stop bInvalidClientExists pkt ignore_client) =
      (server.passed pkt ignored conn).performCall env pointers
        (.sendToEach (index + 1) stop bInvalidClientExists pkt ignore_client) := by
  rcases listed_split listed with ⟨rest, taken⟩
  simp only [performCall, points, rest, taken, sendToEach_of_open isOpen, m_TCPConnections_passed,
    Option.bind_eq_bind, Option.bind_some]
  cases sendToEach env pkt ignored (server.m_TCPConnections.drop (index + 1))
      (server.passed pkt ignored conn) with
  | error fault => rfl
  | ok left => simp [Except.map, Except.toOption]

theorem performCall_of_closed (points : pointers[ignore_client]? = some ignored)
    (listed : server.m_TCPConnections[index]? = some (some conn))
    (closed : env.isOpen server.tick conn = false) :
    server.performCall env pointers
        (.sendToEach index stop bInvalidClientExists pkt ignore_client) =
      { server.asked.disconnected conn with
          m_TCPConnections := server.m_TCPConnections.set index none }.performCall env pointers
        (.sendToEach (index + 1) stop true pkt ignore_client) := by
  rcases listed_split listed with ⟨rest, taken⟩
  have inside := (List.getElem?_eq_some_iff.mp listed).1
  have takenNull : (server.m_TCPConnections.set index none).take (index + 1) =
      server.m_TCPConnections.take index ++ [none] := by
    rw [List.take_set, taken, List.set_append_right _ _ (by simp [Nat.le_of_lt inside])]
    simp [Nat.min_eq_left (Nat.le_of_lt inside)]
  have restNull : (server.m_TCPConnections.set index none).drop (index + 1) =
      server.m_TCPConnections.drop (index + 1) := by
    rw [List.drop_set, if_pos (Nat.lt_succ_self index)]
  simp only [performCall, points, rest, takenNull, restNull, sendToEach_of_closed closed,
    sendToEach_connections, Option.bind_eq_bind, Option.bind_some]
  cases sendToEach env pkt ignored (server.m_TCPConnections.drop (index + 1))
      (server.asked.disconnected conn) with
  | error fault => rfl
  | ok left => simp [Except.map, Except.toOption]

end Loop

section Proceeds

variable {env : Environment} {server next : Server} {thread after : Thread}

theorem finish_calling (env : Environment) (server : Server) (pointers : List (Option ConnRef))
    (call : Call) (todo : List Call) :
    finish env ⟨pointers, .calling, call :: todo⟩ server =
      (server.performCall env pointers call).bind fun performed =>
        performCalls env todo performed.1 performed.2 := rfl

theorem performCall_flagEach {pointers : List (Option ConnRef)} {pkt : Packet CMD} {id : UInt16}
    {key : UInt32} {keys : List UInt32} {other : Character}
    (found : server.m_chaMap.lookup key = some other) :
    server.performCall env pointers (.flagEach (key :: keys) pkt id) =
      if other.GetID = id then server.performCall env pointers (.flagEach keys pkt id)
      else other.GetTCPConnection.bind fun conn =>
        (server.SendPacket conn pkt).performCall env pointers (.flagEach keys pkt id) := by
  have sameID : ((default : Character).SetID id).GetID = id := rfl
  have entries : server.entriesAt (key :: keys) = ⟨key, other⟩ :: server.entriesAt keys := by
    rw [entriesAt, List.filterMap_cons, found]
    rfl
  simp only [performCall, entries, flagEach, sameID]
  split
  · rfl
  · cases other.GetTCPConnection <;> rfl

/-- A step leaves what the thread makes of the server as it is. -/
theorem Proceeds.finish (proceeds : Proceeds env server thread next after) :
    finish env thread server = finish env after next := by
  cases proceeds with
  | send points => simp [Server.finish, finishStatement, points]
  | removeHeld points =>
      simp [Server.finish, finishStatement, points, OnClientDisconnect, deref, Except.toOption,
        bind, Except.bind, disconnected]
  | removeListed points =>
      simp [Server.finish, finishStatement, points, OnClientDisconnect, deref, Except.toOption,
        bind, Except.bind, disconnected]
  | erase points => simp [Server.finish, finishStatement, points]
  | resetHeld => rfl
  | resetListed => rfl
  | @findsOpen pointers _ index _ conn points isOpen =>
      have same : pointers.set index (some conn) = pointers := by
        rcases List.getElem?_eq_some_iff.mp points with ⟨inside, isConn⟩
        rw [← isConn, List.set_getElem_self]
      simp [Server.finish, finishStatement, performCalls, performCall, points, pointer,
        SendToClient_of_open _ isOpen, Except.toOption, same]
  | findsClosed points closed =>
      simp [Server.finish, finishStatement, performCalls, performCall, points,
        SendToClient_of_closed _ closed, Except.toOption, OnClientDisconnect, deref, bind,
        Except.bind, disconnected, asked]
  | findsNull points =>
      simp [Server.finish, finishStatement, performCalls, performCall, points, SendToClient,
        connected, Except.toOption, OnClientDisconnect, deref, bind, Except.bind]
  | starts => rw [finish_calling, finish_calling, performCall_SendToAll]
  | ends points isLast =>
      simp [Server.finish, finishStatement, performCalls, performCall, points, isLast, sendToEach,
        Except.toOption]
  | @tells pointers todo index _ _ pkt _ ignored conn points listed isOpen =>
      rw [finish_calling, performCall_of_open points listed isOpen, passed]
      have stillListed : server.asked.m_TCPConnections[index]? = some (some conn) := listed
      split
      · simp [Server.finish, finishStatement, performCalls, pointer, stillListed]
      · rfl
  | @misses pointers todo index _ _ _ _ ignored conn points listed closed =>
      rw [finish_calling, performCall_of_closed points listed closed]
      have stillListed : server.asked.m_TCPConnections[index]? = some (some conn) := listed
      simp [Server.finish, finishStatement, performCalls, stillListed, OnClientDisconnect, deref,
        Except.toOption, bind, Except.bind, disconnected]
      rfl
  | missesNull points listed =>
      rcases listed_split listed with ⟨rest, -⟩
      simp [Server.finish, finishStatement, performCalls, performCall, points, listed, rest,
        sendToEach, connected, Except.toOption, OnClientDisconnect, deref, bind, Except.bind]
  | flagsAll => rfl
  | skips found isSame =>
      rw [finish_calling, performCall_flagEach found, if_pos isSame]
      rfl
  | flags found isOther points =>
      rw [finish_calling, performCall_flagEach found, if_neg isOther, points]
      rfl
  | destroy => rfl

end Proceeds

section Starts

variable {env : Environment} {server : Server} {pkt : Packet CMD}

theorem finish_single (env : Environment) (server : Server) (client : Option ConnRef)
    (call : Call) :
    finish env ⟨[client], .calling, [call, .destroy]⟩ server =
      (server.performCall env [client] call).map Prod.snd := by
  rw [finish_calling]
  cases server.performCall env [client] call <;> rfl

theorem finish_OnPacket (env : Environment) (server : Server) (client : Option ConnRef)
    (pkt : Packet CMD) :
    finish env ⟨[client], .calling, [.OnPacket pkt, .destroy]⟩ server =
      (server.OnPacket env client pkt).toOption.map fun handled => handled.2.2 := by
  rw [finish_single]
  change ((server.OnPacket env client pkt).toOption.bind fun handled =>
    some ([client], handled.2.2)).map Prod.snd = _
  cases (server.OnPacket env client pkt).toOption <;> rfl

theorem step_process_eq_finish {owned : OwnedPacket CMD}
    (queue : server.m_TCP_PktIn.head? = some owned) :
    server.step env (.process owned) =
      finish env ⟨[owned.connectionPtr], .calling, [.OnPacket owned.pkt, .destroy]⟩
        server.popped := by
  rw [step_process queue, finish_OnPacket]

theorem step_sendToClient_eq_finish {conn : ConnRef} (reading : conn ∈ server.reading) :
    server.step env (.sendToClient conn pkt) =
      finish env ⟨[some conn], .calling, [.SendToClient 0 pkt, .destroy]⟩ server := by
  rw [step, if_pos reading, finish_single]
  change _ = ((server.SendToClient env (some conn) pkt).toOption.bind fun told =>
    some ([some conn].set 0 told.1, told.2)).map Prod.snd
  cases (server.SendToClient env (some conn) pkt).toOption <;> rfl

theorem step_sendToAll_eq_finish {ignore_client : Option ConnRef} :
    server.step env (.sendToAll pkt ignore_client) =
      finish env ⟨[ignore_client], .calling, [.SendToAll pkt 0, .destroy]⟩ server := by
  rw [step, finish_single]
  change _ = ((server.SendToAll env pkt ignore_client).toOption.bind fun server =>
    some ([ignore_client], server)).map Prod.snd
  cases (server.SendToAll env pkt ignore_client).toOption <;> rfl

theorem finish_messageAll {conn : ConnRef} (isMessageAll : pkt.header.cmdID = .MessageAll) :
    finish env ⟨[some conn], .calling, [.OnPacket pkt, .destroy]⟩ server =
      finish env ⟨[some conn], .calling,
        [.SendToAll (emptyPacket .ServerMessage <<< server.m_sID conn) 0, .destroy]⟩ server := by
  rw [finish_OnPacket, OnPacket, isMessageAll, finish_single]
  change (server.onMessageAll env (some conn) pkt).toOption.map _ =
    ((server.SendToAll env (emptyPacket .ServerMessage <<< server.m_sID conn)
      (some conn)).toOption.bind fun server => some ([some conn], server)).map Prod.snd
  simp only [onMessageAll, deref, bind, Except.bind]
  cases server.SendToAll env (emptyPacket .ServerMessage <<< server.m_sID conn) (some conn) <;>
    rfl

def FirstOnly (env : Environment) (todo : List Call) : Prop :=
  ∀ pointers others server, pointers[0]? = others[0]? →
    performCalls env todo pointers server = performCalls env todo others server

theorem performCalls_destroys (env : Environment) (count : Nat)
    (pointers : List (Option ConnRef)) (server : Server) :
    performCalls env (List.replicate count .destroy) pointers server = some server := by
  induction count generalizing pointers with
  | zero => rfl
  | succ count induction => exact induction pointers.dropLast

theorem firstOnly_replies (env : Environment) (pkt : Packet CMD) (count : Nat) :
    FirstOnly env (.SendToClient 0 pkt :: List.replicate count .destroy) := by
  intro pointers others server same
  simp only [performCalls, performCall, same, performCalls_destroys]
  cases others[0]? with
  | none => rfl
  | some client =>
      simp only [Option.bind_eq_bind, Option.bind_some]
      cases (server.SendToClient env client pkt).toOption <;> rfl

/-- The calls of `SendToClient` for a list of pointers, kept in the variables from
`offset` on, are `notifyEach`. -/
theorem performCalls_notify {todo : List Call} (firstOnly : FirstOnly env todo)
    (clients : List (Option ConnRef)) {pointers : List (Option ConnRef)} {offset : Nat}
    (isLater : 0 < offset)
    (points : ∀ index client, clients[index]? = some client →
      pointers[offset + index]? = some client) (server : Server) :
    performCalls env (clients.mapIdx (fun index _ => .SendToClient (offset + index) pkt) ++ todo)
        pointers server =
      (notifyEach env pkt clients server).toOption.bind (performCalls env todo pointers) := by
  induction clients generalizing pointers offset server with
  | nil => rfl
  | cons client rest induction =>
      have isHere : pointers[offset]? = some client := points 0 client rfl
      rw [List.mapIdx_cons, List.cons_append, performCalls, notifyEach]
      simp only [Nat.add_zero, performCall, isHere, Option.bind_eq_bind, Option.bind_some]
      cases server.SendToClient env client pkt with
      | error fault => rfl
      | ok told =>
          have pointsRest : ∀ index client, rest[index]? = some client →
              (pointers.set offset told.1)[offset + 1 + index]? = some client := by
            intro index client isNext
            rw [List.getElem?_set_ne (by omega), Nat.add_assoc, Nat.add_comm 1]
            exact points (index + 1) client isNext
          have sameCalls : (fun index (_ : Option ConnRef) =>
              Call.SendToClient (offset + (index + 1)) pkt) =
              fun index _ => .SendToClient (offset + 1 + index) pkt := by
            funext index _
            rw [Nat.add_assoc, Nat.add_comm 1]
          have told := induction (by omega) pointsRest told.2
          rw [← sameCalls] at told
          refine told.trans ?_
          simp only [bind, Except.bind]
          cases notifyEach env pkt rest _ with
          | error fault => rfl
          | ok after =>
              apply firstOnly
              exact List.getElem?_set_ne (Nat.ne_of_gt isLater)

end Starts

end Server

end GNL
