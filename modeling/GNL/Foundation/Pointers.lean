import Mathlib.Data.List.AList
import Mathlib.Data.List.ReduceOption

/-! # Counting references

How many of the references kept in a list, or in the entries of a map, point to an
object before and after some of them are given up.
-/

namespace GNL

variable {Object : Type u} [DecidableEq Object]

theorem count_set_none (pointers : List (Option Object)) (index : Nat) (object : Object) :
    (pointers.set index none).reduceOption.count object +
        pointers[index]?.join.toList.count object =
      pointers.reduceOption.count object := by
  induction pointers generalizing index with
  | nil => rfl
  | cons pointer pointers induction =>
      cases index with
      | zero =>
          cases pointer with
          | none => rfl
          | some other =>
              rw [List.reduceOption_cons_of_some, List.count_cons]
              simp [List.count_cons]
      | succ index =>
          have rest := induction index
          cases pointer with
          | none => exact rest
          | some other =>
              simp only [List.set_cons_succ, List.reduceOption_cons_of_some, List.count_cons,
                List.getElem?_cons_succ]
              omega

theorem count_filter_ne (pointers : List (Option Object)) (pointer : Option Object)
    (object : Object) :
    (pointers.filter (· ≠ pointer)).reduceOption.count object +
        (pointers.filter (· = pointer)).reduceOption.count object =
      pointers.reduceOption.count object := by
  induction pointers with
  | nil => rfl
  | cons first pointers induction =>
      by_cases same : first = pointer
      · rw [List.filter_cons_of_neg (by simpa using same),
          List.filter_cons_of_pos (by simpa using same)]
        cases first with
        | none => exact induction
        | some other =>
            simp only [List.reduceOption_cons_of_some, List.count_cons]
            omega
      · rw [List.filter_cons_of_pos (by simpa using same),
          List.filter_cons_of_neg (by simpa using same)]
        cases first with
        | none => exact induction
        | some other =>
            simp only [List.reduceOption_cons_of_some, List.count_cons]
            omega

theorem count_dropLast (pointers : List (Option Object)) (object : Object) :
    pointers.dropLast.reduceOption.count object + pointers.getLast?.join.toList.count object =
      pointers.reduceOption.count object := by
  rcases List.eq_nil_or_concat pointers with rfl | ⟨front, last, rfl⟩
  · rfl
  · rw [List.concat_eq_append, List.dropLast_concat, List.getLast?_concat,
      List.reduceOption_append, List.count_append]
    cases last <;> rfl

omit [DecidableEq Object] in
theorem reduceOption_filter_ne_none (pointers : List (Option Object)) :
    (pointers.filter (· ≠ none)).reduceOption = pointers.reduceOption := by
  induction pointers with
  | nil => rfl
  | cons first pointers induction =>
      cases first with
      | none => exact induction
      | some object => simpa [List.reduceOption_cons_of_some] using induction

section Maps

variable {Key : Type v} [DecidableEq Key] {Value : Type w}

omit [DecidableEq Key] in
theorem count_filterMap_cons (entry : Sigma fun _ : Key => Value)
    (entries : List (Sigma fun _ : Key => Value)) (reference : Value → Option Object)
    (object : Object) :
    ((entry :: entries).filterMap fun entry => reference entry.2).count object =
      (entries.filterMap fun entry => reference entry.2).count object +
        (reference entry.2).toList.count object := by
  rw [List.filterMap_cons]
  cases reference entry.2 with
  | none => rfl
  | some other => rw [List.count_cons, Option.toList_some, List.count_singleton]

theorem count_erase (map : AList fun _ : Key => Value) (key : Key)
    (reference : Value → Option Object) (object : Object) :
    ((map.erase key).entries.filterMap fun entry => reference entry.2).count object +
        ((map.lookup key).bind reference).toList.count object =
      (map.entries.filterMap fun entry => reference entry.2).count object := by
  by_cases present : key ∈ map
  · rcases List.exists_of_kerase present with ⟨value, before, after, notBefore, split, erased⟩
    have found : map.lookup key = some value := by
      apply AList.mem_lookup_iff.mpr
      rw [split]
      exact List.mem_append_right before List.mem_cons_self
    have erasedEntries : (map.erase key).entries = before ++ after := erased
    rw [erasedEntries, found, split, Option.bind_some, List.filterMap_append, List.filterMap_append,
      List.count_append, List.count_append, count_filterMap_cons, Nat.add_assoc]
  · have absent : map.lookup key = none := AList.lookup_eq_none.mpr present
    have erasedEntries : (map.erase key).entries = map.entries :=
      List.kerase_of_notMem_keys present
    rw [absent, erasedEntries]
    rfl

theorem count_insert {map : AList fun _ : Key => Value} {key : Key} {old value : Value}
    (found : map.lookup key = some old) (reference : Value → Option Object)
    (same : reference value = reference old) (object : Object) :
    ((map.insert key value).entries.filterMap fun entry => reference entry.2).count object =
      (map.entries.filterMap fun entry => reference entry.2).count object := by
  have erased := count_erase map key reference object
  have inserted : (map.insert key value).entries = ⟨key, value⟩ :: (map.erase key).entries :=
    AList.entries_insert
  rw [inserted, count_filterMap_cons, ← erased, found, Option.bind_some, same]

end Maps

end GNL
