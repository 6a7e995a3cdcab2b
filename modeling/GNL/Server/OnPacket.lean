import GNL.Semantics.Trace
import GNL.Server.ServerApp

/-! # Handling packets (`Server.cpp`)

`OnPacket`, the messages it sends, and the steps of a running server: a
connection accepted, a packet read on one, a packet taken from the incoming
queue and handled, and a packet sent by the application.
-/

namespace GNL.Server

def emptyPacket (cmdID : CMD) : Packet CMD := { (default : Packet CMD) with header.cmdID := cmdID }

/-- An ID and a position, as `MovePlayer` and `PlyEnterWorld` carry them. -/
def positionPacket (cmdID : CMD) (cha : Character) : Packet CMD :=
  emptyPacket cmdID <<< cha.GetID <<< cha.GetPosX <<< cha.GetPosY

def insertCharacter (pkt : Packet CMD) (cha : Character) : Packet CMD :=
  pkt <<< cha.GetID <<< cha.GetPosX <<< cha.GetPosY

/-- The characters of the world, how many they are, and the ID of the one that
entered. -/
def worldPacket (entries : List ChaEntry) (cha : Character) : Packet CMD :=
  (entries.map Sigma.snd).foldl insertCharacter (emptyPacket .SelfEnterWorld) <<<
    UInt32.ofNat entries.length <<< cha.GetID

theorem cmdID_worldPacket (entries : List ChaEntry) (cha : Character) :
    (worldPacket entries cha).header.cmdID = .SelfEnterWorld := by
  have kept : ∀ (characters : List Character) (pkt : Packet CMD),
      (characters.foldl insertCharacter pkt).header.cmdID = pkt.header.cmdID := by
    intro characters
    induction characters with
    | nil => exact fun _ => rfl
    | cons cha characters induction => exact fun pkt => induction (insertCharacter pkt cha)
  rw [worldPacket, Packet.cmdID_insert, Packet.cmdID_insert, kept]
  rfl

def iterate (env : Environment) (server : Server) : List ChaEntry × Server :=
  (env.iteration server.tick server.m_chaMap.entries, server.asked)

def flagEach (cha : Character) (pkt : Packet CMD) :
    List ChaEntry → Server → Except Fault Server
  | [], server => .ok server
  | ⟨_, other⟩ :: rest, server =>
      if other.GetID = cha.GetID then
        flagEach cha pkt rest server
      else do
        let conn ← deref other.GetTCPConnection
        flagEach cha pkt rest (server.SendPacket conn pkt)

def FlagMoveUpdate (env : Environment) (server : Server) (cha : Character) :
    Except Fault Server :=
  let (entries, server) := server.iterate env
  flagEach cha (positionPacket .MovePlayer cha) entries server

def SetPos (env : Environment) (server : Server) (key : UInt32) (cha : Character)
    (x y : Double) : Except Fault Server :=
  let cha := { cha with pos := (x, y) }
  let server := { server with m_chaMap := server.m_chaMap.insert key cha }
  if cha.m_World then server.FlagMoveUpdate env cha else .error .nullPointer

/-- The loop that sends one packet to each connection of a list. -/
def notifyEach (env : Environment) (pkt : Packet CMD) :
    List (Option ConnRef) → Server → Except Fault Server
  | [], server => .ok server
  | client :: rest, server => do
      let (_, server) ← server.SendToClient env client pkt
      notifyEach env pkt rest server

/-- What a handler leaves: the pointer and the packet it was given, and the server. -/
abbrev Handled := Option ConnRef × Packet CMD × Server

def onPing (env : Environment) (server : Server) (client : Option ConnRef) (pkt : Packet CMD) :
    Except Fault Handled := do
  let _ ← deref client
  let millisec_since_epoch := env.clock.milliseconds (env.now server.tick)
  let (timeRec, pkt) ← pkt.extract Int64
  let server := { server with pings := server.pings ++ [millisec_since_epoch - timeRec] }
  let pkt := pkt <<< timeRec
  let (client, server) ← server.SendToClient env client pkt
  .ok (client, pkt, server)

def onMessageAll (env : Environment) (server : Server) (client : Option ConnRef)
    (pkt : Packet CMD) : Except Fault Handled := do
  let conn ← deref client
  let server ← server.SendToAll env (emptyPacket .ServerMessage <<< server.m_sID conn) client
  .ok (client, pkt, server)

/-- The character a connection enters with; its ID is cut to 16 bits. -/
def newCharacter (server : Server) (conn : ConnRef) : Character :=
  (((default : Character).SetID (server.m_sID conn).toUInt16).SetTCPConnection
    (some conn)).SetWorld

def onSelfEnterWorld (env : Environment) (server : Server) (client : Option ConnRef)
    (pkt : Packet CMD) : Except Fault Handled := do
  let conn ← deref client
  let cha := server.newCharacter conn
  let server := { server with
    m_chaMap := server.m_chaMap.AddChaToWorld cha.GetID.toUInt32 cha }
  let (entries, server) := server.iterate env
  let notifylist := entries.map fun entry => entry.2.GetTCPConnection
  let server ← notifyEach env (positionPacket .PlyEnterWorld cha) notifylist server
  let (client, server) ← server.SendToClient env client (worldPacket entries cha)
  .ok (client, pkt, server)

/-- The case `CMD::MovePlayer`. The ID in the packet is compared with that of the
character only to report a mismatch. -/
def onMovePlayer (env : Environment) (server : Server) (client : Option ConnRef)
    (pkt : Packet CMD) : Except Fault Handled := do
  let conn ← deref client
  match server.m_chaMap.lookup (server.m_sID conn) with
  | none => .ok (client, pkt, server)
  | some cha => do
      let (y, pkt) ← pkt.extract Double
      let (x, pkt) ← pkt.extract Double
      let (_, pkt) ← pkt.extract UInt16
      let server ← server.SetPos env (server.m_sID conn) cha x y
      .ok (client, pkt, server)

def OnPacket (env : Environment) (server : Server) (client : Option ConnRef)
    (pkt : Packet CMD) : Except Fault Handled :=
  match pkt.header.cmdID with
  | .Ping => server.onPing env client pkt
  | .MessageAll => server.onMessageAll env client pkt
  | .SelfEnterWorld => server.onSelfEnterWorld env client pkt
  | .MovePlayer => server.onMovePlayer env client pkt
  | _ => .ok (client, pkt, server)

inductive Action
  /-- A socket is accepted; one that was just accepted is open. -/
  | accept
  /-- `PushToIncomingQueue` on a connection that reads; the body of a packet that
  was read is as long as a 32-bit size says. -/
  | receive (conn : ConnRef) (pkt : Packet CMD)
  /-- One turn of the loop of `Process`. -/
  | process (owned : OwnedPacket CMD)
  | sendToClient (conn : ConnRef) (pkt : Packet CMD)
  | sendToAll (pkt : Packet CMD) (ignore_client : Option ConnRef)
  deriving DecidableEq

def step (env : Environment) (server : Server) : Action → Option Server
  | .accept =>
      if env.isOpen (server.tick + 1) server.created then (server.onAccept env).toOption
      else none
  | .receive conn pkt =>
      if conn ∈ server.reading ∧ pkt.body.length < 2 ^ 32 then
        some { server with m_TCP_PktIn := server.m_TCP_PktIn ++ [⟨some conn, pkt⟩] }
      else none
  | .process owned =>
      match server.m_TCP_PktIn with
      | [] => none
      | front :: rest =>
          if front = owned then
            let popped := { server with m_TCP_PktIn := rest }
            let handled := popped.OnPacket env owned.connectionPtr owned.pkt
            handled.toOption.map fun left => left.2.2
          else none
  | .sendToClient conn pkt =>
      if conn ∈ server.reading then
        (server.SendToClient env (some conn) pkt).toOption.map Prod.snd
      else none
  | .sendToAll pkt ignore_client => (server.SendToAll env pkt ignore_client).toOption

def Step (env : Environment) (server : Server) (action : Action) (next : Server) : Prop :=
  server.step env action = some next

end GNL.Server
