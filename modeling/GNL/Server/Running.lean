import GNL.Common.TCPConnection.Reader
import GNL.Common.TCPConnection.Writer
import GNL.Server.OnPacket

/-! # The two threads of a running server

The main thread handles packets and sends. The thread of the `io_context` runs one
handler at a time: the one `AwaitTCPConnection` waits with, which sends and lists the
new connection, or one of a connection. A step of either thread reads or writes
what they share once, so that each may go on anywhere in the functions of the other.
The variables of the running functions that hold a `shared_ptr` are kept explicitly.
-/

namespace GNL

/-- A `TCPConnection<CMD>` of type `Server`. `identified` says whether
`ConnectToClient` has assigned `m_sID`; `sent` records what `SendPacket` was called
with. -/
structure ServerConnection where
  writer : Writer CMD
  reader : Reader CMD
  m_sID : UInt32
  identified : Bool
  sent : List (Packet CMD)

namespace ServerConnection

/-- A connection that was just made. Nothing initialises `m_sID`. -/
def make (self : ConnRef) (m_sID : UInt32) : ServerConnection where
  writer := .idle
  reader := {
    self
    m_Type := .Server
    socketOpen := true
    unread := []
    reading := []
    m_tmpPktIn := default
    m_PktIn := [] }
  m_sID := m_sID
  identified := false
  sent := []

/-- Either half closes the one socket when an operation of it fails. -/
def IsConnected (conn : ServerConnection) : Bool :=
  conn.writer.socketOpen && conn.reader.socketOpen

def SendPacket (conn : ServerConnection) (pkt : Packet CMD) : ServerConnection :=
  { conn with
    writer.posted := conn.writer.posted ++ [pkt]
    sent := conn.sent ++ [pkt] }

def ReadHeader (conn : ServerConnection) : ServerConnection :=
  { conn with reader := conn.reader.ReadHeader }

def Outstanding (conn : ServerConnection) : Prop :=
  conn.writer.posted ≠ [] ∨ conn.writer.writing ≠ [] ∨ conn.reader.reading ≠ []

instance (conn : ServerConnection) : Decidable conn.Outstanding :=
  inferInstanceAs (Decidable (_ ∨ _ ∨ _))

end ServerConnection

/-- Where a `shared_ptr` that was passed by reference is: among the variables of the
running functions, or an element of `m_TCPConnections`. -/
inductive Place
  | held (index : Nat)
  | listed (index : Nat)
  deriving DecidableEq

/-- What a thread is in the middle of: `sending` to a connection it found open, or one
of the three statements about one it found closed, or `ReadHeader` in
`ConnectToClient`. -/
inductive Doing
  | calling
  | sending (client : Place) (pkt : Packet CMD)
  | removing (client : Place)
  | erasing (client : Nat)
  | resetting (client : Place)
  | reading (conn : ConnRef)
  deriving DecidableEq

/-- What a thread still has to call. Variables are given by their index;
`sendToEach` and `flagEach` are the loops of `SendToAll` and `FlagMoveUpdate`, and
`destroy` is a variable that goes out of scope. -/
inductive Call
  | OnPacket (pkt : Packet CMD)
  | SendToClient (client : Nat) (pkt : Packet CMD)
  | SendToAll (pkt : Packet CMD) (ignore_client : Nat)
  | sendToEach (index stop : Nat) (bInvalidClientExists : Bool) (pkt : Packet CMD)
      (ignore_client : Nat)
  | flagEach (keys : List UInt32) (pkt : Packet CMD) (id : UInt16)
  | push_back (newconn : Nat)
  | ConnectToClient
  | destroy
  deriving DecidableEq

structure Thread where
  pointers : List (Option ConnRef)
  doing : Doing
  todo : List Call
  deriving DecidableEq

def Thread.idle : Thread := ⟨[], .calling, []⟩

/-- The handler `AwaitTCPConnection` waits with, on an accept without error;
`OnClientConnect` is its first call. -/
def Thread.acceptHandler (newconn : ConnRef) : Thread where
  pointers := [some newconn]
  doing := .calling
  todo := [.SendToClient 0 Server.acceptPacket, .push_back 0, .ConnectToClient, .destroy]

/-- The order in which an `unordered_map` is iterated. -/
structure Iteration where
  entries : ChaMap → List ChaEntry
  perm : ∀ m_chaMap, (entries m_chaMap).Perm m_chaMap.entries

def Iteration.asKept : Iteration := ⟨fun m_chaMap => m_chaMap.entries, fun _ => .refl _⟩

structure RunningServer where
  created : Nat
  connection : ConnRef → ServerConnection
  m_IDCnt : UInt32
  m_TCPConnections : List (Option ConnRef)
  m_TCP_PktIn : List (OwnedPacket CMD)
  m_chaMap : ChaMap
  main : Thread
  io : Thread

namespace RunningServer

def start (m_IDCnt : UInt32) (m_sID : ConnRef → UInt32) : RunningServer where
  created := 0
  connection conn := .make conn (m_sID conn)
  m_IDCnt := m_IDCnt
  m_TCPConnections := []
  m_TCP_PktIn := []
  m_chaMap := ∅
  main := .idle
  io := .idle

def pointer (server : RunningServer) (thread : Thread) : Place → Option (Option ConnRef)
  | .held index => thread.pointers[index]?
  | .listed index => server.m_TCPConnections[index]?

def connected (server : RunningServer) : Option ConnRef → Bool
  | none => false
  | some conn => (server.connection conn).IsConnected

def modify (server : RunningServer) (conn : ConnRef)
    (change : ServerConnection → ServerConnection) : RunningServer :=
  { server with
    connection := Function.update server.connection conn (change (server.connection conn)) }

def SendPacket (server : RunningServer) (conn : ConnRef) (pkt : Packet CMD) : RunningServer :=
  server.modify conn (·.SendPacket pkt)

def newCharacter (server : RunningServer) (conn : ConnRef) : Character :=
  (((default : Character).SetID (server.connection conn).m_sID.toUInt16).SetTCPConnection
    (some conn)).SetWorld

/-- What a case of `OnPacket` does before its first call: to `m_chaMap`, and to its
variables that hold pointers. -/
structure Handled where
  m_chaMap : ChaMap
  pointers : List (Option ConnRef)
  calls : List Call

section Steps

variable (order : Iteration) (server : RunningServer)

/-- `Server::OnPacket`; `client` is variable 0. The cases use the world and their own
variables only, until they send. -/
def OnPacket (client : Option ConnRef) (pkt : Packet CMD) : Option Handled := do
  match pkt.header.cmdID with
  | .Ping =>
      let _ ← client
      let (timeRec, pkt) ← (pkt.extract Int64).toOption
      some ⟨server.m_chaMap, [], [.SendToClient 0 (pkt <<< timeRec)]⟩
  | .MessageAll =>
      let conn ← client
      let pkt := Server.emptyPacket .ServerMessage <<< (server.connection conn).m_sID
      some ⟨server.m_chaMap, [], [.SendToAll pkt 0]⟩
  | .SelfEnterWorld =>
      let conn ← client
      let cha := server.newCharacter conn
      let m_chaMap := server.m_chaMap.AddChaToWorld cha.GetID.toUInt32 cha
      let entries := order.entries m_chaMap
      let notifylist := entries.map fun entry => entry.2.GetTCPConnection
      let pkt2 := Server.positionPacket .PlyEnterWorld cha
      -- Variable 1 is the pointer in `cha`, and those from 2 on are `notifylist`.
      some {
        m_chaMap
        pointers := cha.GetTCPConnection :: notifylist
        calls := notifylist.mapIdx (fun index _ => .SendToClient (2 + index) pkt2) ++
          .SendToClient 0 (Server.worldPacket entries cha) ::
            List.replicate (1 + notifylist.length) .destroy }
  | .MovePlayer =>
      let conn ← client
      let key := (server.connection conn).m_sID
      match server.m_chaMap.lookup key with
      | none => some ⟨server.m_chaMap, [], []⟩
      | some cha =>
          let (y, pkt) ← (pkt.extract Double).toOption
          let (x, pkt) ← (pkt.extract Double).toOption
          let _ ← (pkt.extract UInt16).toOption
          let cha := { cha with pos := (x, y) }
          let m_chaMap := server.m_chaMap.insert key cha
          let keys := (order.entries m_chaMap).map Sigma.fst
          if cha.m_World then
            some ⟨m_chaMap, [],
              [.flagEach keys (Server.positionPacket .MovePlayer cha) cha.GetID]⟩
          else none
  | _ => some ⟨server.m_chaMap, [], []⟩

/-- A thread calls the next function, or turns a loop once more; `thread` has the rest
still to do. -/
def call (thread : Thread) : Call → Option (RunningServer × Thread)
  | .OnPacket pkt => do
      let client ← thread.pointers[0]?
      let handled ← server.OnPacket order client pkt
      some ({ server with m_chaMap := handled.m_chaMap }, { thread with
        pointers := thread.pointers ++ handled.pointers
        todo := handled.calls ++ thread.todo })
  | .SendToClient index pkt => do
      let client ← thread.pointers[index]?
      let doing := if server.connected client then .sending (.held index) pkt
        else .removing (.held index)
      some (server, { thread with doing })
  | .SendToAll pkt ignore_client =>
      let stop := server.m_TCPConnections.length
      some (server, { thread with
        todo := .sendToEach 0 stop false pkt ignore_client :: thread.todo })
  | .sendToEach index stop bInvalidClientExists pkt ignore_client =>
      if index = stop then
        let m_TCPConnections := if bInvalidClientExists then
          server.m_TCPConnections.filter (· ≠ none) else server.m_TCPConnections
        some ({ server with m_TCPConnections }, thread)
      else do
        let client ← server.m_TCPConnections[index]?
        let ignored ← thread.pointers[ignore_client]?
        if server.connected client then
          some (server, { thread with
            doing := if client ≠ ignored then .sending (.listed index) pkt else .calling
            todo := .sendToEach (index + 1) stop bInvalidClientExists pkt ignore_client ::
              thread.todo })
        else
          some (server, { thread with
            doing := .removing (.listed index)
            todo := .sendToEach (index + 1) stop true pkt ignore_client :: thread.todo })
  | .flagEach [] _ _ => some (server, thread)
  | .flagEach (key :: keys) pkt id => do
      let other ← server.m_chaMap.lookup key
      let thread := { thread with todo := .flagEach keys pkt id :: thread.todo }
      if other.GetID = id then
        some (server, thread)
      else do
        let conn ← other.GetTCPConnection
        some (server.SendPacket conn pkt, thread)
  | .push_back index => do
      let newconn ← thread.pointers[index]?
      some ({ server with m_TCPConnections := server.m_TCPConnections ++ [newconn] },
        { thread with pointers := thread.pointers.set index none })
  | .ConnectToClient => do
      let back ← server.m_TCPConnections.getLast?
      let conn ← back
      let clientID := server.m_IDCnt
      let server := { server with m_IDCnt := server.m_IDCnt + 1 }
      if (server.connection conn).IsConnected then
        some (server.modify conn ({ · with m_sID := clientID, identified := true }),
          { thread with doing := .reading conn })
      else
        some (server, thread)
  | .destroy => some (server, { thread with pointers := thread.pointers.dropLast })

/-- A thread takes one step; `none` where it has nothing to do, or the code has no
meaning. -/
def proceed (thread : Thread) : Option (RunningServer × Thread) :=
  match thread.doing with
  | .sending client pkt => do
      let conn ← (server.pointer thread client).join
      some (server.SendPacket conn pkt, { thread with doing := .calling })
  | .removing client => do
      let conn ← (server.pointer thread client).join
      let key := (server.connection conn).m_sID
      let doing := match client with
        | .held index => .erasing index
        | .listed index => .resetting (.listed index)
      some ({ server with m_chaMap := server.m_chaMap.RemoveChaFromWorld key },
        { thread with doing })
  | .erasing index => do
      let client ← thread.pointers[index]?
      some ({ server with m_TCPConnections := server.m_TCPConnections.filter (· ≠ client) },
        { thread with doing := .resetting (.held index) })
  | .resetting (.held index) =>
      some (server, { thread with
        pointers := thread.pointers.set index none
        doing := .calling })
  | .resetting (.listed index) =>
      some ({ server with m_TCPConnections := server.m_TCPConnections.set index none },
        { thread with doing := .calling })
  | .reading conn =>
      some (server.modify conn (·.ReadHeader), { thread with doing := .calling })
  | .calling =>
      match thread.todo with
      | [] => none
      | call :: todo => server.call order { thread with todo } call

end Steps

inductive Action
  | accept
  /-- One turn of the loop of `Process`. -/
  | Process
  /-- A call outside a handler, with a pointer copied from the list. `OnClientConnect`
  alone sends the command it sends. -/
  | SendToClient (client : ConnRef) (pkt : Packet CMD)
  | SendToAll (pkt : Packet CMD) (ignore_client : Option ConnRef)
  | main
  | io
  | write (conn : ConnRef) (action : Writer.Action CMD)
  | read (conn : ConnRef) (action : Reader.Action)

/-- The connection of which an action runs a handler, or a lambda posted by
`SendPacket`. -/
def Action.handlerOf : Action → Option ConnRef
  | .write conn .runPosted => some conn
  | .write conn (.complete _) => some conn
  | .write conn (.fail _) => some conn
  | .read conn .complete => some conn
  | .read conn .fail => some conn
  | _ => none

section Run

variable (order : Iteration) (padding : ConnRef → Nat → UInt16)
  (server : RunningServer)

/-- `m_PktIn` of a connection refers to `m_TCP_PktIn`. -/
def read (conn : ConnRef) (action : Reader.Action) : Option RunningServer :=
  let reader := { (server.connection conn).reader with m_PktIn := server.m_TCP_PktIn }
  (reader.step action).map fun reader =>
    { server.modify conn ({ · with reader := { reader with m_PktIn := [] } }) with
      m_TCP_PktIn := reader.m_PktIn }

def write (conn : ConnRef) (action : Writer.Action CMD) : Option RunningServer :=
  let result := (server.connection conn).writer.step (padding conn) action
  (result.bind Except.toOption).map fun writer => server.modify conn ({ · with writer })

/-- Whether an action of a connection is possible: its handlers run while the
`io_context` runs no other, and a closed socket transfers nothing. -/
def Ready : Action → Prop
  | .write conn (.transfer _ _) =>
      conn < server.created ∧ (server.connection conn).IsConnected = true
  | .write _ (.SendPacket _) => False
  | .write conn _ => conn < server.created ∧ server.io = .idle
  | .read conn (.arrive _) => conn < server.created
  | .read conn _ => conn < server.created ∧ server.io = .idle
  | _ => True

instance (action : Action) : Decidable (server.Ready action) :=
  match action with
  | .write _ (.transfer _ _) => inferInstanceAs (Decidable (_ ∧ _))
  | .write _ (.SendPacket _) => isFalse id
  | .write _ .runPosted => inferInstanceAs (Decidable (_ ∧ _))
  | .write _ (.complete _) => inferInstanceAs (Decidable (_ ∧ _))
  | .write _ (.fail _) => inferInstanceAs (Decidable (_ ∧ _))
  | .read _ (.arrive _) => inferInstanceAs (Decidable (_ < _))
  | .read _ .complete => inferInstanceAs (Decidable (_ ∧ _))
  | .read _ .fail => inferInstanceAs (Decidable (_ ∧ _))
  | .accept | .Process | .SendToClient _ _ | .SendToAll _ _ | .main | .io => isTrue trivial

def step : Action → Option RunningServer
  | .accept =>
      if server.io = .idle then
        some { server with
          created := server.created + 1
          io := .acceptHandler server.created }
      else none
  | .Process =>
      match server.m_TCP_PktIn with
      | [] => none
      | owned :: rest =>
          if server.main = .idle then
            some { server with
              m_TCP_PktIn := rest
              main := ⟨[owned.connectionPtr], .calling, [.OnPacket owned.pkt, .destroy]⟩ }
          else none
  | .SendToClient client pkt =>
      if server.main = .idle ∧ some client ∈ server.m_TCPConnections ∧
          pkt.header.cmdID ≠ .AcceptTCPConnection then
        some { server with main := ⟨[some client], .calling, [.SendToClient 0 pkt, .destroy]⟩ }
      else none
  | .SendToAll pkt ignore_client =>
      if server.main = .idle ∧
          (ignore_client = none ∨ ignore_client ∈ server.m_TCPConnections) ∧
          pkt.header.cmdID ≠ .AcceptTCPConnection then
        some { server with main := ⟨[ignore_client], .calling, [.SendToAll pkt 0, .destroy]⟩ }
      else none
  | .main => (server.proceed order server.main).map fun next => { next.1 with main := next.2 }
  | .io => (server.proceed order server.io).map fun next => { next.1 with io := next.2 }
  | .write conn action =>
      if server.Ready (.write conn action) then server.write padding conn action else none
  | .read conn action =>
      if server.Ready (.read conn action) then server.read conn action else none

def Step (action : Action) (next : RunningServer) : Prop :=
  server.step order padding action = some next

end Run

end RunningServer

end GNL
