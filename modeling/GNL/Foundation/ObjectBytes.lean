import Mathlib.Algebra.Group.Nat.Defs
import Mathlib.Logic.Function.Basic

/-! # Object representations

Fixed-size values and the bytes they occupy in memory, as `memcpy` sees them.
Integers are stored least-significant byte first.
-/

namespace GNL

def littleEndian : (width value : Nat) → List UInt8
  | 0, _ => []
  | width + 1, value => UInt8.ofNat value :: littleEndian width (value / 256)

def ofLittleEndian : List UInt8 → Nat
  | [] => 0
  | byte :: rest => byte.toNat + 256 * ofLittleEndian rest

@[simp] theorem length_littleEndian (width value : Nat) :
    (littleEndian width value).length = width := by
  induction width generalizing value with
  | zero => rfl
  | succ width induction => simp [littleEndian, induction]

theorem ofLittleEndian_littleEndian (width value : Nat) (bound : value < 256 ^ width) :
    ofLittleEndian (littleEndian width value) = value := by
  induction width generalizing value with
  | zero =>
      have isZero : value = 0 := by simpa using bound
      simp [littleEndian, ofLittleEndian, isZero]
  | succ width induction =>
      have quotientBound : value / 256 < 256 ^ width := by
        rw [Nat.div_lt_iff_lt_mul (by decide)]
        simpa [Nat.pow_succ] using bound
      rw [littleEndian, ofLittleEndian, induction _ quotientBound, UInt8.toNat_ofNat']
      omega

theorem ofLittleEndian_lt : ∀ bytes : List UInt8,
    ofLittleEndian bytes < 256 ^ bytes.length
  | [] => by simp [ofLittleEndian]
  | byte :: rest => by
      have lower := ofLittleEndian_lt rest
      have byteBound := byte.toNat_lt
      simp only [ofLittleEndian, List.length_cons, Nat.pow_succ]
      omega

theorem littleEndian_ofLittleEndian : ∀ bytes : List UInt8,
    littleEndian bytes.length (ofLittleEndian bytes) = bytes
  | [] => rfl
  | byte :: rest => by
      have byteBound := byte.toNat_lt
      have quotient : (byte.toNat + 256 * ofLittleEndian rest) / 256 = ofLittleEndian rest := by
        omega
      simp only [ofLittleEndian, List.length_cons, littleEndian, quotient,
        littleEndian_ofLittleEndian rest]
      congr 1
      apply UInt8.toNat_inj.mp
      rw [UInt8.toNat_ofNat']
      omega

/-- A type whose values are copied to and from memory as a fixed number of
bytes. Every bit pattern of that size is a value, and a copy loses nothing. -/
class StandardLayout (α : Type) where
  sizeof : Nat
  toBytes : α → List UInt8
  ofBytes : List UInt8 → α
  length_toBytes : ∀ value, (toBytes value).length = sizeof
  ofBytes_toBytes : ∀ value, ofBytes (toBytes value) = value
  toBytes_ofBytes : ∀ bytes, bytes.length = sizeof → toBytes (ofBytes bytes) = bytes

namespace StandardLayout

attribute [simp] length_toBytes ofBytes_toBytes

theorem toBytes_injective [StandardLayout α] :
    Function.Injective (toBytes : α → List UInt8) := by
  intro left right equal
  rw [← ofBytes_toBytes left, ← ofBytes_toBytes right, equal]

@[reducible] def unsigned (width : Nat) (toNat : α → Nat) (ofNat : Nat → α)
    (bounded : ∀ value, toNat value < 256 ^ width)
    (recovered : ∀ value, ofNat (toNat value) = value)
    (faithful : ∀ number, number < 256 ^ width → toNat (ofNat number) = number) :
    StandardLayout α where
  sizeof := width
  toBytes value := littleEndian width (toNat value)
  ofBytes bytes := ofNat (ofLittleEndian bytes)
  length_toBytes value := length_littleEndian width (toNat value)
  ofBytes_toBytes value := by
    rw [ofLittleEndian_littleEndian width _ (bounded value), recovered]
  toBytes_ofBytes bytes length := by
    subst length
    rw [faithful _ (ofLittleEndian_lt bytes), littleEndian_ofLittleEndian]

@[reducible] def embedded [StandardLayout β] (forward : α → β) (backward : β → α)
    (leftInverse : Function.LeftInverse backward forward)
    (rightInverse : Function.RightInverse backward forward) : StandardLayout α where
  sizeof := sizeof β
  toBytes value := toBytes (forward value)
  ofBytes bytes := backward (ofBytes bytes)
  length_toBytes value := length_toBytes (forward value)
  ofBytes_toBytes value := by rw [ofBytes_toBytes, leftInverse]
  toBytes_ofBytes bytes length := by rw [rightInverse, toBytes_ofBytes bytes length]

instance : StandardLayout UInt16 :=
  unsigned 2 UInt16.toNat UInt16.ofNat (fun value => value.toNat_lt)
    (fun _ => UInt16.ofNat_toNat) fun _ bound => UInt16.toNat_ofNat_of_lt' bound

instance : StandardLayout UInt32 :=
  unsigned 4 UInt32.toNat UInt32.ofNat (fun value => value.toNat_lt)
    (fun _ => UInt32.ofNat_toNat) fun _ bound => UInt32.toNat_ofNat_of_lt' bound

instance : StandardLayout UInt64 :=
  unsigned 8 UInt64.toNat UInt64.ofNat (fun value => value.toNat_lt)
    (fun _ => UInt64.ofNat_toNat) fun _ bound => UInt64.toNat_ofNat_of_lt' bound

instance : StandardLayout Int64 :=
  embedded Int64.toUInt64 UInt64.toInt64 Int64.toInt64_toUInt64 UInt64.toUInt64_toInt64

example : toBytes (0x01020304 : UInt32) = [4, 3, 2, 1] := by decide

end StandardLayout

/-- A C++ `double`, of which this development only ever copies the eight bytes. -/
structure Double where
  bits : UInt64
  deriving DecidableEq, Repr

instance : StandardLayout Double :=
  StandardLayout.embedded Double.bits Double.mk (fun _ => rfl) fun _ => rfl

def Double.zero : Double := ⟨0⟩

@[simp] theorem sizeof_uint16 : StandardLayout.sizeof UInt16 = 2 := rfl
@[simp] theorem sizeof_uint32 : StandardLayout.sizeof UInt32 = 4 := rfl
@[simp] theorem sizeof_uint64 : StandardLayout.sizeof UInt64 = 8 := rfl
@[simp] theorem sizeof_int64 : StandardLayout.sizeof Int64 = 8 := rfl
@[simp] theorem sizeof_double : StandardLayout.sizeof Double = 8 := rfl

end GNL
