import GNL.Server.World

/-! # The server and its connections (`NetServerApp.h`)

The state of a server, and how it sends to its connections and drops those that
it finds closed. Sockets close on another thread, at any moment; what a function
sees of that, and of everything else outside the code, is read from an
environment at the current tick.
-/

namespace GNL

/-- What the code asks of the world around it, by the number of questions asked
before. -/
structure Environment where
  /-- `m_Socket.is_open()`. -/
  isOpen : Nat → ConnRef → Bool
  closed_stays_closed : ∀ {earlier later : Nat} {conn : ConnRef}, earlier ≤ later →
    isOpen later conn → isOpen earlier conn
  /-- The order in which an `unordered_map` is iterated. -/
  iteration : Nat → List ChaEntry → List ChaEntry
  iteration_perm : ∀ tick entries, (iteration tick entries).Perm entries
  /-- `system_clock::now()`. -/
  now : Nat → Int64
  clock : SystemClock

/-- No socket closes, and a map is iterated in the order it is kept in. -/
def Environment.calm : Environment where
  isOpen _ _ := true
  closed_stays_closed _ isOpen := isOpen
  iteration _ entries := entries
  iteration_perm _ entries := List.Perm.refl entries
  now _ := 0
  clock := ⟨10000, by decide⟩

/-- `Server` with its base `ServerApp<CMD>` and its `World`, and the state of the
`TCPConnection` objects it has made. `sent`, `removed` and `pings` record what it
has handed to `SendPacket`, the calls of `OnClientDisconnect` and the pings it
has printed. -/
structure Server where
  tick : Nat
  created : Nat
  m_sID : ConnRef → UInt32
  reading : List ConnRef
  m_IDCnt : UInt32
  m_TCPConnections : List (Option ConnRef)
  m_TCP_PktIn : List (OwnedPacket CMD)
  m_chaMap : ChaMap
  sent : List (ConnRef × Packet CMD)
  removed : List ConnRef
  pings : List Int64

/-- A dereferenced `shared_ptr`. -/
def deref : Option α → Except Fault α
  | none => .error .nullPointer
  | some object => .ok object

namespace Server

/-- A new server. Nothing initialises `m_IDCnt`, nor the `m_sID` of a connection
before its `ConnectToClient`. -/
def start (m_IDCnt : UInt32) (m_sID : ConnRef → UInt32) : Server where
  tick := 0
  created := 0
  m_sID := m_sID
  reading := []
  m_IDCnt := m_IDCnt
  m_TCPConnections := []
  m_TCP_PktIn := []
  m_chaMap := ∅
  sent := []
  removed := []
  pings := []

def asked (server : Server) : Server := { server with tick := server.tick + 1 }

def IsConnected (env : Environment) (server : Server) (conn : ConnRef) : Bool × Server :=
  (env.isOpen server.tick conn, server.asked)

/-- `client && client->IsConnected()`. -/
def connected (env : Environment) (server : Server) : Option ConnRef → Bool × Server
  | none => (false, server)
  | some conn => server.IsConnected env conn

def SendPacket (server : Server) (conn : ConnRef) (pkt : Packet CMD) : Server :=
  { server with sent := server.sent ++ [(conn, pkt)] }

def ConnectToClient (env : Environment) (server : Server) (conn : ConnRef) (clientID : UInt32) :
    Server :=
  let (isOpen, server) := server.IsConnected env conn
  if isOpen then
    { server with
      m_sID := Function.update server.m_sID conn clientID
      reading := server.reading ++ [conn] }
  else
    server

def OnClientDisconnect (server : Server) (client : Option ConnRef) : Except Fault Server := do
  let conn ← deref client
  .ok { server with
    m_chaMap := server.m_chaMap.RemoveChaFromWorld (server.m_sID conn)
    removed := server.removed ++ [conn] }

/-- `ServerApp::SendToClient`; the pointer is passed by reference and comes back
null when the connection is closed. -/
def SendToClient (env : Environment) (server : Server) (client : Option ConnRef)
    (pkt : Packet CMD) : Except Fault (Option ConnRef × Server) :=
  let (isConnected, server) := server.connected env client
  if isConnected then do
    let conn ← deref client
    .ok (client, server.SendPacket conn pkt)
  else do
    let server ← server.OnClientDisconnect client
    .ok (none, { server with
      m_TCPConnections := server.m_TCPConnections.filter (· ≠ client) })

/-- The loop of `SendToAll`: the pointers as it leaves them, and
`bInvalidClientExists`. -/
def sendToEach (env : Environment) (pkt : Packet CMD) (ignore_client : Option ConnRef) :
    List (Option ConnRef) → Server → Except Fault (List (Option ConnRef) × Bool × Server)
  | [], server => .ok ([], false, server)
  | client :: rest, server =>
      let (isConnected, server) := server.connected env client
      if isConnected then do
        let conn ← deref client
        let server := if client ≠ ignore_client then server.SendPacket conn pkt else server
        let (rest, invalid, server) ← sendToEach env pkt ignore_client rest server
        .ok (client :: rest, invalid, server)
      else do
        let server ← server.OnClientDisconnect client
        let (rest, _, server) ← sendToEach env pkt ignore_client rest server
        .ok (none :: rest, true, server)

def SendToAll (env : Environment) (server : Server) (pkt : Packet CMD)
    (ignore_client : Option ConnRef) : Except Fault Server := do
  let (clients, bInvalidClientExists, server) ←
    sendToEach env pkt ignore_client server.m_TCPConnections server
  if bInvalidClientExists then
    .ok { server with m_TCPConnections := clients.filter (· ≠ none) }
  else
    .ok { server with m_TCPConnections := clients }

def acceptPacket : Packet CMD :=
  { (default : Packet CMD) with header.cmdID := .AcceptTCPConnection }

def OnClientConnect (env : Environment) (server : Server) (client : Option ConnRef) :
    Except Fault (Bool × Option ConnRef × Server) := do
  let (client, server) ← server.SendToClient env client acceptPacket
  .ok (true, client, server)

/-- The handler `AwaitTCPConnection` waits with, on an accept without error. -/
def onAccept (env : Environment) (server : Server) : Except Fault Server := do
  let newconn : Option ConnRef := some server.created
  let server := { server with created := server.created + 1 }
  let (approved, newconn, server) ← server.OnClientConnect env newconn
  if approved then
    let server := { server with m_TCPConnections := server.m_TCPConnections ++ [newconn] }
    let conn ← deref newconn
    let clientID := server.m_IDCnt
    let server := { server with m_IDCnt := server.m_IDCnt + 1 }
    .ok (server.ConnectToClient env conn clientID)
  else
    .ok server

end Server

end GNL
