import GNL.Common.NetCommon
import GNL.Foundation.ObjectBytes
import Mathlib.Tactic.IntervalCases

/-! # Packets (`NetPacket.h`)

Command codes, packet headers, and packets whose body is written and read at
its end.
-/

namespace GNL

/-- `enum class CMD : uint16_t`. An object of the type may hold any 16-bit
value, whether or not it has a name. -/
inductive CMD
  | Invalid
  | AcceptTCPConnection
  | SelfEnterWorld
  | PlyEnterWorld
  | ServerMessage
  | MovePlayer
  | Ping
  | MessageAll
  | unnamed (value : UInt16) (notNamed : 8 ≤ value)
  deriving DecidableEq

namespace CMD

def toUInt16 : CMD → UInt16
  | Invalid => 0
  | AcceptTCPConnection => 1
  | SelfEnterWorld => 2
  | PlyEnterWorld => 3
  | ServerMessage => 4
  | MovePlayer => 5
  | Ping => 6
  | MessageAll => 7
  | unnamed value _ => value

def ofUInt16 (value : UInt16) : CMD :=
  if notNamed : 8 ≤ value then unnamed value notNamed
  else match value.toNat with
    | 1 => AcceptTCPConnection
    | 2 => SelfEnterWorld
    | 3 => PlyEnterWorld
    | 4 => ServerMessage
    | 5 => MovePlayer
    | 6 => Ping
    | 7 => MessageAll
    | _ => Invalid

@[simp] theorem ofUInt16_toUInt16 (cmd : CMD) : ofUInt16 cmd.toUInt16 = cmd := by
  cases cmd with
  | unnamed value notNamed => simp [toUInt16, ofUInt16, notNamed]
  | _ => rfl

@[simp] theorem toUInt16_ofUInt16 (value : UInt16) : (ofUInt16 value).toUInt16 = value := by
  by_cases notNamed : 8 ≤ value
  · simp [ofUInt16, notNamed, toUInt16]
  · have small : value.toNat < 8 := by
      simpa [UInt16.le_iff_toNat_le] using notNamed
    have recovered : UInt16.ofNat value.toNat = value := UInt16.ofNat_toNat
    rw [← recovered]
    interval_cases value.toNat <;> rfl

instance : StandardLayout CMD :=
  StandardLayout.embedded toUInt16 ofUInt16 ofUInt16_toUInt16 toUInt16_ofUInt16

end CMD

structure PacketHeader (T : Type) where
  cmdID : T
  size : UInt32
  deriving DecidableEq

@[ext] structure Packet (T : Type) where
  header : PacketHeader T
  body : List UInt8
  deriving DecidableEq

/-- A `T cmdID` that is value-initialised. -/
instance : Inhabited CMD := ⟨CMD.Invalid⟩

/-- `PacketHeader<T> header{}` and an empty body. -/
instance [Inhabited T] : Inhabited (Packet T) := ⟨⟨⟨default, 0⟩, []⟩⟩

/-- Which `TCPConnection` object a pointer points to. -/
abbrev ConnRef := Nat

/-- `OwnedPacket<T>`; no connection is a null pointer. -/
structure OwnedPacket (T : Type) where
  connectionPtr : Option ConnRef
  pkt : Packet T
  deriving DecidableEq

theorem OwnedPacket.map_pkt (connectionPtr : Option ConnRef) (pkts : List (Packet T)) :
    (pkts.map fun pkt => (⟨connectionPtr, pkt⟩ : OwnedPacket T)).map OwnedPacket.pkt = pkts := by
  rw [List.map_map]
  exact List.map_id pkts

/-- How a `PacketHeader<T>` lies in memory, and so on the wire. The bytes the
compiler leaves between the fields are sent with them and never read. -/
class HeaderLayout (T : Type) where
  Padding : Type
  sizeof : Nat
  sizeof_pos : 0 < sizeof
  toBytes : Padding → PacketHeader T → List UInt8
  ofBytes : List UInt8 → PacketHeader T
  length_toBytes : ∀ padding header, (toBytes padding header).length = sizeof
  ofBytes_toBytes : ∀ padding header, ofBytes (toBytes padding header) = header

attribute [simp] HeaderLayout.length_toBytes HeaderLayout.ofBytes_toBytes

/-- `PacketHeader<CMD>`: two bytes of command, two that keep `size` aligned,
four of size. -/
instance : HeaderLayout CMD where
  Padding := UInt16
  sizeof := 8
  sizeof_pos := by decide
  toBytes padding header :=
    StandardLayout.toBytes header.cmdID ++ StandardLayout.toBytes padding ++
      StandardLayout.toBytes header.size
  ofBytes bytes :=
    ⟨StandardLayout.ofBytes (bytes.take 2), StandardLayout.ofBytes (bytes.drop 4)⟩
  length_toBytes padding header := by
    simp only [List.length_append, StandardLayout.length_toBytes]
    rfl
  ofBytes_toBytes padding header := by
    have cmdLength : (StandardLayout.toBytes header.cmdID).length = 2 :=
      StandardLayout.length_toBytes _
    have paddingLength : (StandardLayout.toBytes padding).length = 2 :=
      StandardLayout.length_toBytes _
    have frontLength :
        (StandardLayout.toBytes header.cmdID ++ StandardLayout.toBytes padding).length = 4 := by
      rw [List.length_append, cmdLength, paddingLength]
    rw [List.drop_left' frontLength, List.append_assoc, List.take_left' cmdLength,
      StandardLayout.ofBytes_toBytes, StandardLayout.ofBytes_toBytes]

namespace Packet

def frame [HeaderLayout T] (pkt : Packet T) (padding : HeaderLayout.Padding T) : List UInt8 :=
  HeaderLayout.toBytes padding pkt.header ++ pkt.body

/-- `std::vector::resize`: truncate, or extend with zeros. -/
def resize (body : List UInt8) (count : Nat) : List UInt8 :=
  body.take count ++ List.replicate (count - body.length) 0

@[simp] theorem length_resize (body : List UInt8) (count : Nat) :
    (resize body count).length = count := by
  simp only [resize, List.length_append, List.length_take, List.length_replicate]
  omega

def get_packet_len (pkt : Packet T) : UInt32 := UInt32.ofNat pkt.body.length

def insert [StandardLayout α] (pkt : Packet T) (data : α) : Packet T :=
  let pkt := { pkt with body := pkt.body ++ StandardLayout.toBytes data }
  { pkt with header.size := pkt.get_packet_len }

instance [StandardLayout α] : HShiftLeft (Packet T) α (Packet T) := ⟨insert⟩

/-- `operator >>`: copy a `DataType` out of the last bytes of the body, drop
them, and recalculate the size. The source computes
`body.size() - sizeof(DataType)` without looking whether it wraps; where it
does, the copy starts outside the body. -/
def extract (DataType : Type) [StandardLayout DataType] (pkt : Packet T) :
    Except Fault (DataType × Packet T) :=
  if StandardLayout.sizeof DataType ≤ pkt.body.length then
    let i := pkt.body.length - StandardLayout.sizeof DataType
    let data := StandardLayout.ofBytes (pkt.body.drop i)
    let pkt := { pkt with body := pkt.body.take i }
    .ok (data, { pkt with header.size := pkt.get_packet_len })
  else
    .error .outOfRange

def Consistent (pkt : Packet T) : Prop := pkt.header.size.toNat = pkt.body.length

instance (pkt : Packet T) : Decidable pkt.Consistent :=
  inferInstanceAs (Decidable (_ = _))

@[simp] theorem body_insert [StandardLayout α] (pkt : Packet T) (data : α) :
    (pkt <<< data).body = pkt.body ++ StandardLayout.toBytes data := rfl

@[simp] theorem cmdID_insert [StandardLayout α] (pkt : Packet T) (data : α) :
    (pkt <<< data).header.cmdID = pkt.header.cmdID := rfl

theorem toNat_get_packet_len (pkt : Packet T) (fits : pkt.body.length < 2 ^ 32) :
    pkt.get_packet_len.toNat = pkt.body.length :=
  UInt32.toNat_ofNat_of_lt' fits

theorem consistent_insert [StandardLayout α] (pkt : Packet T) (data : α)
    (fits : pkt.body.length + StandardLayout.sizeof α < 2 ^ 32) :
    (pkt <<< data).Consistent := by
  apply toNat_get_packet_len
  rw [List.length_append, StandardLayout.length_toBytes]
  exact fits

theorem extract_of_le (DataType : Type) [StandardLayout DataType] {pkt : Packet T}
    (longEnough : StandardLayout.sizeof DataType ≤ pkt.body.length) :
    ∃ data rest, pkt.extract DataType = .ok (data, rest) ∧
      rest.header.cmdID = pkt.header.cmdID ∧
      rest.header.size = rest.get_packet_len ∧
      rest.body.length + StandardLayout.sizeof DataType = pkt.body.length ∧
      pkt.body = rest.body ++ StandardLayout.toBytes data := by
  let i := pkt.body.length - StandardLayout.sizeof DataType
  have dropLength : (pkt.body.drop i).length = StandardLayout.sizeof DataType := by
    rw [List.length_drop]
    omega
  refine ⟨_, _, if_pos longEnough, rfl, rfl, ?_, ?_⟩
  · rw [List.length_take]
    omega
  · rw [StandardLayout.toBytes_ofBytes _ dropLength, List.take_append_drop]

theorem extract_of_lt (DataType : Type) [StandardLayout DataType] {pkt : Packet T}
    (short : pkt.body.length < StandardLayout.sizeof DataType) :
    pkt.extract DataType = .error .outOfRange :=
  if_neg (Nat.not_le.mpr short)

theorem extract_append [StandardLayout α] {pkt : Packet T} {front : List UInt8} {data : α}
    (ends : pkt.body = front ++ StandardLayout.toBytes data) :
    ∃ rest, pkt.extract α = .ok (data, rest) ∧ rest.body = front ∧
      rest.header.cmdID = pkt.header.cmdID ∧ rest.header.size = rest.get_packet_len := by
  have longEnough : StandardLayout.sizeof α ≤ pkt.body.length := by
    rw [ends, List.length_append, StandardLayout.length_toBytes]
    omega
  rcases extract_of_le α longEnough with ⟨taken, rest, extracted, sameCmd, size, _, split⟩
  have parts := List.append_inj' (ends.symm.trans split) (by simp)
  refine ⟨rest, ?_, parts.1.symm, sameCmd, size⟩
  rw [extracted, StandardLayout.toBytes_injective parts.2]

end Packet

end GNL
