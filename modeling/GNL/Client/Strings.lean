import GNL.Client.Codec
import Mathlib.Data.List.TakeWhile

/-! # Strings of any bytes and in any language

`ReadString` looks for a zero byte and for nothing else: not for the first byte
of the body, nor for the end of the array it copies to. `WriteString` takes the
number of characters for the number of bytes. The first is safe on the bodies,
and the second right on the strings, for which neither makes a difference.
-/

namespace GNL

namespace Packet

/-- The loop of `ReadString` over the bytes in memory from the last one of the
body downwards: how many it counts before it meets a zero, if it meets one. -/
def scan : List UInt8 → Option Nat
  | [] => none
  | byte :: earlier => if byte = 0 then some 0 else (scan earlier).map (· + 1)

/-- The array `data` after `memcpy(data, ..., strlen)`; the copy takes the bytes
that were counted, and what does not fit lands past its end. -/
def copied (bytes : List UInt8) (strlen : Nat) : List UInt8 :=
  overwrite (List.replicate MAX_LEN 0) 0 (bytes.take strlen).reverse

/-- `ReadString` keeps inside `body` and inside its array. `below` holds what lies
in memory under the first byte of the body, the nearest first. -/
structure ReadsInBounds (below body : List UInt8) (strlen : Nat) : Prop where
  stops : scan (body.reverse ++ below) = some strlen
  scanInside : strlen < body.length
  copyFits : strlen ≤ MAX_LEN - 1
  arrayKept : (copied (body.reverse ++ below) strlen).length = MAX_LEN
  terminated : 0 ∈ copied (body.reverse ++ below) strlen
  noWrap : 0 ≤ (body.length : Int) - strlen - 1

theorem scan_eq (bytes : List UInt8) :
    scan bytes =
      if 0 ∈ bytes then some (bytes.takeWhile (· ≠ 0)).length else none := by
  induction bytes with
  | nil => rfl
  | cons byte earlier induction =>
      by_cases zero : byte = 0
      · simp [scan, zero]
      · have differs : (0 : UInt8) ≠ byte := fun same => zero same.symm
        by_cases member : (0 : UInt8) ∈ earlier <;>
          simp [scan, induction, zero, differs, member]

theorem scan_append_iff (bytes below : List UInt8) (strlen : Nat) :
    scan (bytes ++ below) = some strlen ∧ strlen < bytes.length ↔ scan bytes = some strlen := by
  induction bytes generalizing strlen with
  | nil => simp [scan]
  | cons byte earlier induction =>
      rw [List.cons_append, scan, scan, List.length_cons]
      split
      next => grind
      next =>
        cases strlen with
        | zero => simp
        | succ strlen => simpa using induction strlen

theorem exists_scan_lt_iff (bytes : List UInt8) (count : Nat) :
    (∃ strlen, scan bytes = some strlen ∧ strlen < count) ↔ 0 ∈ bytes.take count := by
  induction bytes generalizing count with
  | nil => simp [scan]
  | cons byte earlier induction =>
      cases count with
      | zero => simp
      | succ count =>
          rw [scan, List.take_succ_cons, List.mem_cons, ← induction count]
          split
          next zero => simp [zero]
          next nonzero =>
            have differs : (0 : UInt8) ≠ byte := fun same => nonzero same.symm
            simp [differs]

theorem copied_of_le {bytes : List UInt8} {strlen : Nat} (counted : strlen ≤ bytes.length) :
    copied bytes strlen = (bytes.take strlen).reverse ++ List.replicate (MAX_LEN - strlen) 0 := by
  have length : (bytes.take strlen).reverse.length = strlen := by
    rw [List.length_reverse, List.length_take]
    omega
  rw [copied, overwrite, List.take_zero, List.nil_append, Nat.zero_add, length,
    List.drop_replicate]

theorem readsInBounds_iff_scan (below body : List UInt8) (strlen : Nat) :
    ReadsInBounds below body strlen ↔
      scan (body.reverse ++ below) = some strlen ∧ strlen < body.length ∧ strlen < MAX_LEN := by
  have room : 0 < MAX_LEN := by decide
  constructor
  · intro inBounds
    have fits := inBounds.copyFits
    exact ⟨inBounds.stops, inBounds.scanInside, by omega⟩
  · rintro ⟨stops, inside, fits⟩
    have counted : strlen ≤ (body.reverse ++ below).length := by
      rw [List.length_append, List.length_reverse]
      omega
    have array := copied_of_le counted
    constructor
    case stops => exact stops
    case scanInside => exact inside
    case copyFits => omega
    case arrayKept =>
      rw [array, List.length_append, List.length_reverse, List.length_take,
        List.length_replicate]
      omega
    case terminated =>
      rw [array]
      exact List.mem_append_right _ (List.mem_replicate.mpr ⟨by omega, rfl⟩)
    case noWrap => omega

theorem scan_inside_iff (below body : List UInt8) (strlen : Nat) :
    scan (body.reverse ++ below) = some strlen ∧ strlen < body.length ↔
      scan body.reverse = some strlen := by
  rw [← body.length_reverse]
  exact scan_append_iff body.reverse below strlen

theorem exists_readsInBounds_iff (below body : List UInt8) :
    (∃ strlen, ReadsInBounds below body strlen) ↔ 0 ∈ body.reverse.take MAX_LEN := by
  simp only [readsInBounds_iff_scan, ← and_assoc, scan_inside_iff]
  exact exists_scan_lt_iff body.reverse MAX_LEN

variable {S : Type} [GodotString S]

theorem extractString_of_readsInBounds {below : List UInt8} {pkt : Packet T} {strlen : Nat}
    (inBounds : ReadsInBounds below pkt.body strlen) :
    pkt.extractString =
      .ok ((GodotString.ofCString (copied (pkt.body.reverse ++ below) strlen) : S),
        { pkt with body := resize pkt.body (pkt.body.length - strlen - 1) }) := by
  rcases (readsInBounds_iff_scan below pkt.body strlen).mp inBounds with ⟨stops, inside, fits⟩
  have counted : (pkt.body.reverse.takeWhile (· ≠ 0)).length = strlen := by
    have stopsInside := (scan_inside_iff below pkt.body strlen).mp ⟨stops, inside⟩
    rw [scan_eq] at stopsInside
    split at stopsInside
    · exact Option.some.inj stopsInside
    · cases stopsInside
  have inMemory : strlen ≤ (pkt.body.reverse ++ below).length := by
    rw [List.length_append, List.length_reverse]
    omega
  have source : ((pkt.body.reverse ++ below).take strlen).reverse =
      pkt.body.drop (pkt.body.length - strlen) := by
    rw [List.take_append_of_le_length (by rw [List.length_reverse]; omega), List.take_reverse,
      List.reverse_reverse]
  have notAll : ¬strlen = pkt.body.length := by
    omega
  simp only [extractString, counted, notAll, Nat.not_le.mpr fits, if_false,
    copied_of_le inMemory, source]

theorem zero_mem_of_length_takeWhile {bytes : List UInt8}
    (stops : (bytes.takeWhile (· ≠ 0)).length ≠ bytes.length) : 0 ∈ bytes := by
  by_contra absent
  have all : bytes.takeWhile (· ≠ 0) = bytes := by
    rw [List.takeWhile_eq_self_iff]
    intro byte member
    rw [decide_eq_true_eq]
    rintro rfl
    exact absent member
  exact stops (congrArg List.length all)

theorem exists_extractString_iff (below : List UInt8) (pkt : Packet T) :
    (∃ result : S × Packet T, pkt.extractString = .ok result) ↔
      ∃ strlen, ReadsInBounds below pkt.body strlen := by
  constructor
  · rintro ⟨result, extracted⟩
    simp only [extractString] at extracted
    split at extracted
    next => contradiction
    next notAll =>
      split at extracted
      next => contradiction
      next short =>
        have member : 0 ∈ pkt.body.reverse := by
          apply zero_mem_of_length_takeWhile
          rwa [List.length_reverse]
        have stops := scan_eq pkt.body.reverse
        rw [if_pos member, ← scan_inside_iff below] at stops
        exact ⟨_, (readsInBounds_iff_scan below pkt.body _).mpr
          ⟨stops.1, stops.2, Nat.not_le.mp short⟩⟩
  · rintro ⟨strlen, inBounds⟩
    exact ⟨_, extractString_of_readsInBounds inBounds⟩

end Packet

namespace NetNode

open Packet

variable {S : Type} [GodotString S]

/-- `ReadString` has a result where it keeps in bounds and nowhere else. -/
theorem exists_ReadString_iff (below : List UInt8) (node : NetNode) :
    (∃ result, node.ReadString S = .ok result) ↔
      ∃ strlen, ReadsInBounds below node.m_pktIn.body strlen := by
  rw [← exists_extractString_iff (S := S) below node.m_pktIn]
  constructor
  · rintro ⟨result, read⟩
    rcases exists_of_map_eq_ok read with ⟨source, extracted, -⟩
    exact ⟨source, extracted⟩
  · rintro ⟨source, extracted⟩
    exact ⟨_, by rw [ReadString, extracted]; rfl⟩

/-- `ReadString` keeps in bounds exactly on the bodies that have a zero among their
last `MAX_LEN` bytes, whatever lies in memory below. -/
theorem ReadString_in_bounds_iff (below : List UInt8) (node : NetNode) :
    (∃ strlen, ReadsInBounds below node.m_pktIn.body strlen) ↔
      0 ∈ node.m_pktIn.body.drop (node.m_pktIn.body.length - MAX_LEN) := by
  rw [exists_readsInBounds_iff, List.take_reverse, List.mem_reverse]

/-- An empty body, one without a zero, and one that ends in more bytes than the
array holds. -/
theorem ReadString_out_of_bounds :
    (¬∃ strlen, ReadsInBounds [7, 0] [] strlen) ∧ (¬∃ strlen, ReadsInBounds [0] [1, 2] strlen) ∧
      ¬∃ strlen, ReadsInBounds [] (0 :: List.replicate MAX_LEN 1) strlen := by
  simp only [exists_readsInBounds_iff]
  refine ⟨by decide, by decide, ?_⟩
  rw [List.reverse_cons, List.reverse_replicate, List.take_left' List.length_replicate]
  intro member
  exact absurd (List.eq_of_mem_replicate member) (by decide)

/-- What `WriteString` appends to a packet is the separator and the encoding of
`data`, and `ReadString` on the packet that is received gives `data` back and the
body that was there before. -/
structure StringSurvives (sender receiver : NetNode) (data : S) : Prop where
  appended : (sender.WriteString data).m_pktOut.body =
    sender.m_pktOut.body ++ 0 :: GodotString.utf8 data
  returned : ∃ rest : NetNode, receiver.ReadString S = .ok (data, rest) ∧
    rest.m_pktIn.body = sender.m_pktOut.body

/-- A string arrives exactly when all of its characters are ASCII. -/
theorem string_survives_iff (documented : GodotString.Documented S)
    (sender receiver : NetNode) (data : S)
    (noTerminator : '\x00' ∉ GodotString.characters data)
    (short : (GodotString.utf8 data).length < MAX_LEN)
    (delivered : receiver.m_pktIn = (sender.WriteString data).m_pktOut) :
    StringSurvives sender receiver data ↔
      ∀ character ∈ GodotString.characters data, character.toNat < 128 := by
  rw [← body_insertString_iff documented sender.m_pktOut data]
  constructor
  · exact StringSurvives.appended
  · intro appended
    have ends : receiver.m_pktIn.body = sender.m_pktOut.body ++ 0 :: GodotString.utf8 data := by
      rw [delivered]
      exact appended
    have taken := extractString_append documented noTerminator short ends
    exact ⟨appended, { receiver with m_pktIn.body := sender.m_pktOut.body },
      by simp only [ReadString, taken, Except.map], rfl⟩

theorem string_survives_iff_two_letters :
    let sender : NetNode := ⟨⟨true, []⟩, default, ⟨⟨.Invalid, 1⟩, [5]⟩⟩
    let data : List Char := ['h', 'i']
    let receiver : NetNode := { sender with m_pktIn := (sender.WriteString data).m_pktOut }
    StringSurvives sender receiver data ↔ ∀ character ∈ data, character.toNat < 128 := by
  intro sender data receiver
  exact string_survives_iff GodotString.documented_listChar sender receiver data (by decide)
    (by decide) rfl

/-- Of a letter that takes two bytes only the first is written. -/
theorem accented_letter_is_cut :
    let sender : NetNode := ⟨⟨true, []⟩, default, default⟩
    let data : List Char := ['é']
    let receiver : NetNode := { sender with m_pktIn := (sender.WriteString data).m_pktOut }
    '\x00' ∉ data ∧ (GodotString.utf8 data).length < MAX_LEN ∧
      (sender.WriteString data).m_pktOut.body = [0, 0xC3] ∧
      ¬StringSurvives sender receiver data := by
  intro sender data receiver
  refine ⟨by decide, by decide, by decide, ?_⟩
  intro survives
  exact absurd survives.appended (by decide)

end NetNode

end GNL
