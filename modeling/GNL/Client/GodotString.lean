import Mathlib.Data.List.Basic

/-! # Strings of the engine

`godot-cpp` supplies the strings scripts pass to a `NetNode`. What the code
relies on is stated of any type of strings, and lists of characters are one.
-/

namespace GNL

/-- `godot::String`, as far as the code calls it. `alloc_c_string` includes the
terminator it ends in, and `ofCString` is `String(const char*)`. -/
class GodotString (S : Type) where
  characters : S → List Char
  length : S → Nat
  alloc_c_string : S → List UInt8
  ofCString : List UInt8 → S

namespace GodotString

def utf8 [GodotString S] (string : S) : List UInt8 :=
  (characters string).flatMap String.utf8EncodeChar

/-- What `godot-cpp` documents of its strings. -/
structure Documented (S : Type) [GodotString S] : Prop where
  length_eq : ∀ string : S, length string = (characters string).length
  alloc_c_string_eq : ∀ string : S, alloc_c_string string = utf8 string ++ [0]
  ofCString_eq : ∀ (string : S) (rest : List UInt8), '\x00' ∉ characters string →
    ofCString (utf8 string ++ 0 :: rest) = string

theorem zero_notMem_utf8EncodeChar {character : Char} (notZero : character ≠ '\x00') :
    (0 : UInt8) ∉ String.utf8EncodeChar character := by
  have positive : character.val.toNat ≠ 0 := by
    intro zero
    exact notZero (Char.ext (UInt32.toNat_inj.mp zero))
  fun_cases String.utf8EncodeChar character <;>
    simp only [List.mem_cons, List.not_mem_nil, or_false, ← UInt8.toNat_inj, UInt8.toNat_ofNat',
      UInt8.toNat_ofNat] <;>
    omega

theorem utf8EncodeChar_of_ascii {character : Char} (ascii : character.toNat < 128) :
    String.utf8EncodeChar character = [UInt8.ofNat character.toNat] := by
  have oneByte : character.toNat ≤ 127 := by
    omega
  simp [String.utf8EncodeChar, oneByte]

theorem zero_notMem_utf8 [GodotString S] {string : S}
    (noTerminator : '\x00' ∉ characters string) : (0 : UInt8) ∉ utf8 string := by
  intro member
  rcases List.mem_flatMap.mp member with ⟨character, inString, inCharacter⟩
  exact zero_notMem_utf8EncodeChar (fun same => noTerminator (same ▸ inString)) inCharacter

theorem length_utf8_of_ascii [GodotString S] {string : S}
    (ascii : ∀ character ∈ characters string, character.toNat < 128) :
    (utf8 string).length = (characters string).length := by
  have oneByte : ∀ character ∈ characters string,
      (String.utf8EncodeChar character).length = 1 := by
    intro character member
    rw [utf8EncodeChar_of_ascii (ascii character member)]
    rfl
  rw [utf8, List.length_flatMap, List.map_congr_left oneByte, List.map_const']
  simp

theorem toNat_lt_of_utf8Size {character : Char} (oneByte : character.utf8Size = 1) :
    character.toNat < 128 := by
  simp only [Char.utf8Size] at oneByte
  split at oneByte
  next small =>
    have bound : character.val.toNat ≤ 127 := small
    exact Nat.lt_succ_of_le bound
  next =>
    split at oneByte
    · contradiction
    · split at oneByte <;> contradiction

theorem length_le_length_flatMap : ∀ text : List Char,
    text.length ≤ (text.flatMap String.utf8EncodeChar).length
  | [] => Nat.le_refl 0
  | character :: rest => by
      have positive := character.utf8Size_pos
      have induction := length_le_length_flatMap rest
      rw [List.flatMap_cons, List.length_append, List.length_cons, String.length_utf8EncodeChar]
      omega

theorem length_le_length_utf8 [GodotString S] (string : S) :
    (characters string).length ≤ (utf8 string).length :=
  length_le_length_flatMap (characters string)

theorem ascii_of_length_flatMap : ∀ text : List Char,
    (text.flatMap String.utf8EncodeChar).length = text.length →
      ∀ character ∈ text, character.toNat < 128
  | [], _ => fun _ member => absurd member List.not_mem_nil
  | character :: rest, sameLength => by
      have positive := character.utf8Size_pos
      have enough := length_le_length_flatMap rest
      rw [List.flatMap_cons, List.length_append, List.length_cons,
        String.length_utf8EncodeChar] at sameLength
      have oneByte : character.utf8Size = 1 := by
        omega
      have restLength : (rest.flatMap String.utf8EncodeChar).length = rest.length := by
        omega
      exact List.forall_mem_cons.mpr
        ⟨toNat_lt_of_utf8Size oneByte, ascii_of_length_flatMap rest restLength⟩

theorem length_utf8_eq_iff [GodotString S] (string : S) :
    (utf8 string).length = (characters string).length ↔
      ∀ character ∈ characters string, character.toNat < 128 :=
  ⟨ascii_of_length_flatMap (characters string), length_utf8_of_ascii⟩

theorem takeWhile_append_zero {text rest : List UInt8} (noZero : (0 : UInt8) ∉ text) :
    (text ++ 0 :: rest).takeWhile (· ≠ 0) = text := by
  have nonzero : ∀ byte ∈ text, decide (byte ≠ 0) = true := by
    intro byte member
    rw [decide_eq_true_eq]
    rintro rfl
    exact noZero member
  rw [List.takeWhile_append_of_pos nonzero]
  simp

/-- Lists of characters, decoded as UTF-8 up to the first terminator. -/
instance : GodotString (List Char) where
  characters string := string
  length := List.length
  alloc_c_string string := string.flatMap String.utf8EncodeChar ++ [0]
  ofCString bytes :=
    match (bytes.takeWhile (· ≠ 0)).toByteArray.utf8Decode? with
    | none => []
    | some characters => characters.toList

theorem documented_listChar : Documented (List Char) where
  length_eq _ := rfl
  alloc_c_string_eq _ := rfl
  ofCString_eq string rest noTerminator := by
    have decoded : (utf8 string).toByteArray.utf8Decode? = some string.toArray :=
      List.utf8Decode?_utf8Encode
    simp only [ofCString, takeWhile_append_zero (zero_notMem_utf8 noTerminator), decoded]

end GodotString

end GNL
