import GNL.Client.GodotString
import GNL.Common.NetPacket
import GNL.Foundation.StackCodec

/-! # The script node (`GDNative.cpp`, `NetClient.h`)

What a script can do with a `NetNode`: fill in and send its outgoing packet, and
take its incoming packet apart.
-/

namespace GNL

def MAX_LEN : Nat := 1024 * 5

/-- `memcpy(target.data() + offset, source, source.size())`. -/
def overwrite (target : List UInt8) (offset : Nat) (source : List UInt8) : List UInt8 :=
  target.take offset ++ source ++ target.drop (offset + source.length)

@[simp] theorem length_overwrite {target source : List UInt8} {offset : Nat}
    (fits : offset + source.length ≤ target.length) :
    (overwrite target offset source).length = target.length := by
  simp only [overwrite, List.length_append, List.length_take, List.length_drop]
  omega

inductive Field (S : Type)
  | Short (data : UInt16)
  | Long (data : UInt32)
  | LongLong (data : UInt64)
  | Double (data : Double)
  | String (data : S)

inductive FieldKind
  | Short
  | Long
  | LongLong
  | Double
  | String
  deriving DecidableEq

def Field.kind : Field S → FieldKind
  | Short _ => .Short
  | Long _ => .Long
  | LongLong _ => .LongLong
  | Double _ => .Double
  | String _ => .String

namespace Packet

/-- The body of `WriteString`: a zero byte, then the string without a terminator. -/
def insertString [GodotString S] (pkt : Packet T) (data : S) : Packet T :=
  let oldBody := pkt.body.length
  let body := resize pkt.body (oldBody + GodotString.length data + 1)
  let body := overwrite body oldBody [0]
  let body := overwrite body (oldBody + 1)
    ((GodotString.alloc_c_string data).take (GodotString.length data))
  let pkt := { pkt with body := body }
  { pkt with header.size := pkt.get_packet_len }

/-- The body of `ReadString`. The backward scan has no bound but the zero byte
it looks for, and `data` has room for `MAX_LEN` bytes with the terminator. The
size field stays as it is. -/
def extractString [GodotString S] (pkt : Packet T) : Except Fault (S × Packet T) :=
  let oldBody := pkt.body.length
  let strlen := (pkt.body.reverse.takeWhile (· ≠ 0)).length
  if strlen = oldBody then
    .error .scanOutOfRange
  else if MAX_LEN ≤ strlen then
    .error .stringTooLong
  else
    let data := pkt.body.drop (oldBody - strlen) ++ List.replicate (MAX_LEN - strlen) 0
    .ok (GodotString.ofCString data, { pkt with body := resize pkt.body (oldBody - strlen - 1) })

end Packet

/-- `ClientApp`: whether `m_TCPConnection` is set and its socket open, and what
it has been given to send so far. -/
structure ClientApp where
  connected : Bool
  sent : List (Packet CMD)
  deriving DecidableEq

namespace ClientApp

def IsConnected (client : ClientApp) : Bool := client.connected

def SendToServer (client : ClientApp) (pkt : Packet CMD) : ClientApp :=
  if client.IsConnected then { client with sent := client.sent ++ [pkt] } else client

@[simp] theorem IsConnected_SendToServer (client : ClientApp) (pkt : Packet CMD) :
    (client.SendToServer pkt).IsConnected = client.IsConnected := by
  unfold SendToServer
  split <;> rfl

theorem SendToServer_of_connected {client : ClientApp} (connected : client.IsConnected)
    (pkt : Packet CMD) :
    client.SendToServer pkt = { client with sent := client.sent ++ [pkt] } :=
  if_pos connected

end ClientApp

structure NetNode where
  m_Client : ClientApp
  m_pktIn : Packet CMD
  m_pktOut : Packet CMD
  deriving DecidableEq

namespace NetNode

def PreparePacket (node : NetNode) : Bool × NetNode :=
  if !node.m_Client.IsConnected then (false, node)
  else (true, { node with m_pktOut.body := [] })

def WriteCmd (node : NetNode) (cmdid : UInt16) : NetNode :=
  { node with m_pktOut.header.cmdID := CMD.ofUInt16 cmdid }

def SendPacket (node : NetNode) : NetNode :=
  { node with m_Client := node.m_Client.SendToServer node.m_pktOut }

def WriteShort (node : NetNode) (data : UInt16) : NetNode :=
  { node with m_pktOut := node.m_pktOut <<< data }

def WriteLong (node : NetNode) (data : UInt32) : NetNode :=
  { node with m_pktOut := node.m_pktOut <<< data }

def WriteLongLong (node : NetNode) (data : UInt64) : NetNode :=
  { node with m_pktOut := node.m_pktOut <<< data }

def WriteString [GodotString S] (node : NetNode) (data : S) : NetNode :=
  { node with m_pktOut := node.m_pktOut.insertString data }

def WriteDouble (node : NetNode) (data : Double) : NetNode :=
  { node with m_pktOut := node.m_pktOut <<< data }

def pingPacket (clock : SystemClock) (ticks : Int64) : Packet CMD :=
  let pkt : Packet CMD := { (default : Packet CMD) with header.cmdID := .Ping }
  pkt <<< clock.wholeMilliseconds ticks

def PingServer (clock : SystemClock) (node : NetNode) (ticks : Int64) : NetNode :=
  { node with m_Client := node.m_Client.SendToServer (pingPacket clock ticks) }

/-- `m_pktIn >> data`, the body of every `Read` but `ReadString`. -/
def read (DataType : Type) [StandardLayout DataType] (node : NetNode) :
    Except Fault (DataType × NetNode) :=
  (node.m_pktIn.extract DataType).map fun result =>
    (result.1, { node with m_pktIn := result.2 })

def ReadShort : NetNode → Except Fault (UInt16 × NetNode) := read UInt16

def ReadLong : NetNode → Except Fault (UInt32 × NetNode) := read UInt32

def ReadLongLong : NetNode → Except Fault (UInt64 × NetNode) := read UInt64

def ReadDouble : NetNode → Except Fault (Double × NetNode) := read Double

def ReadString (S : Type) [GodotString S] (node : NetNode) : Except Fault (S × NetNode) :=
  (node.m_pktIn.extractString : Except Fault (S × Packet CMD)).map fun result =>
    (result.1, { node with m_pktIn := result.2 })

def write [GodotString S] (node : NetNode) : Field S → NetNode
  | .Short data => node.WriteShort data
  | .Long data => node.WriteLong data
  | .LongLong data => node.WriteLongLong data
  | .Double data => node.WriteDouble data
  | .String data => node.WriteString data

def readField [GodotString S] (kind : FieldKind) (node : NetNode) :
    Except Fault (Field S × NetNode) :=
  match kind with
  | .Short => node.ReadShort.map fun result => (.Short result.1, result.2)
  | .Long => node.ReadLong.map fun result => (.Long result.1, result.2)
  | .LongLong => node.ReadLongLong.map fun result => (.LongLong result.1, result.2)
  | .Double => node.ReadDouble.map fun result => (.Double result.1, result.2)
  | .String => (node.ReadString S).map fun result => (.String result.1, result.2)

def codec (S : Type) [GodotString S] :
    StackCodec NetNode NetNode (List UInt8) (Field S) FieldKind Fault where
  sent node := node.m_pktOut.body
  received node := node.m_pktIn.body
  kind := Field.kind
  write := write
  read := readField

end NetNode

end GNL
