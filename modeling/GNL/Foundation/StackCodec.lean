/-! # Values written at one end of a store and read back from it

A reader that takes values off the end of a store undoes a writer that put them
there, in the reverse order. The writer and the reader may be different objects
and may carry data besides what is written; `sent` and `received` are the part
that travels from one to the other.
-/

namespace GNL

/-- Writing values, and reading a value of a given kind back. The reader knows
the kind of each value, not the value. -/
structure StackCodec (Sink Source View Value Kind Fault : Type) where
  sent : Sink → View
  received : Source → View
  kind : Value → Kind
  write : Sink → Value → Sink
  read : Kind → Source → Except Fault (Value × Source)

namespace StackCodec

variable {Sink Source View Value Kind Fault : Type}

/-- A reader that received a store `value` was just written to takes that value
off, and is left with what the store was before. -/
def Recovers (codec : StackCodec Sink Source View Value Kind Fault) (value : Value) : Prop :=
  ∀ before after, codec.received after = codec.sent (codec.write before value) →
    ∃ rest, codec.read (codec.kind value) after = .ok (value, rest) ∧
      codec.received rest = codec.sent before

def writeAll (codec : StackCodec Sink Source View Value Kind Fault) :
    Sink → List Value → Sink
  | sink, [] => sink
  | sink, value :: values => codec.writeAll (codec.write sink value) values

def readAll (codec : StackCodec Sink Source View Value Kind Fault) :
    List Kind → Source → Except Fault (List Value × Source)
  | [], source => .ok ([], source)
  | kind :: kinds, source =>
      match codec.read kind source with
      | .error fault => .error fault
      | .ok (value, rest) =>
          match codec.readAll kinds rest with
          | .error fault => .error fault
          | .ok (values, final) => .ok (value :: values, final)

theorem writeAll_append (codec : StackCodec Sink Source View Value Kind Fault)
    (sink : Sink) (first second : List Value) :
    codec.writeAll sink (first ++ second) =
      codec.writeAll (codec.writeAll sink first) second := by
  induction first generalizing sink with
  | nil => rfl
  | cons value first induction => exact induction (codec.write sink value)

theorem readAll_cons (codec : StackCodec Sink Source View Value Kind Fault)
    {kind : Kind} {kinds : List Kind} {source rest : Source} {value : Value}
    (head : codec.read kind source = .ok (value, rest)) :
    codec.readAll (kind :: kinds) source =
      (codec.readAll kinds rest).map fun result => (value :: result.1, result.2) := by
  simp only [readAll, head]
  cases codec.readAll kinds rest <;> rfl

theorem readAll_cons_error (codec : StackCodec Sink Source View Value Kind Fault)
    {kind : Kind} {kinds : List Kind} {source : Source} {fault : Fault}
    (head : codec.read kind source = .error fault) :
    codec.readAll (kind :: kinds) source = .error fault := by
  simp only [readAll, head]

theorem exists_of_readAll_cons (codec : StackCodec Sink Source View Value Kind Fault)
    {kind : Kind} {kinds : List Kind} {source final : Source} {values : List Value}
    (run : codec.readAll (kind :: kinds) source = .ok (values, final)) :
    ∃ value rest later, codec.read kind source = .ok (value, rest) ∧
      codec.readAll kinds rest = .ok (later, final) ∧ values = value :: later := by
  simp only [readAll] at run
  cases head : codec.read kind source with
  | error fault => simp [head] at run
  | ok result =>
      rcases result with ⟨value, rest⟩
      simp only [head] at run
      cases tail : codec.readAll kinds rest with
      | error fault => simp [tail] at run
      | ok result =>
          rcases result with ⟨later, last⟩
          simp only [tail, Except.ok.injEq, Prod.mk.injEq] at run
          rcases run with ⟨rfl, rfl⟩
          exact ⟨value, rest, later, rfl, tail, rfl⟩

theorem readAll_append (codec : StackCodec Sink Source View Value Kind Fault)
    (first second : List Kind) {source middle : Source} {values : List Value}
    (front : codec.readAll first source = .ok (values, middle)) :
    codec.readAll (first ++ second) source =
      (codec.readAll second middle).map fun result => (values ++ result.1, result.2) := by
  induction first generalizing source values with
  | nil =>
      simp only [readAll, Except.ok.injEq, Prod.mk.injEq] at front
      rcases front with ⟨rfl, rfl⟩
      rw [List.nil_append]
      cases codec.readAll second source <;> rfl
  | cons kind first induction =>
      rcases codec.exists_of_readAll_cons front with ⟨value, rest, later, head, tail, rfl⟩
      rw [List.cons_append, codec.readAll_cons head, induction tail]
      cases codec.readAll second middle <;> rfl

theorem readAll_invariant (codec : StackCodec Sink Source View Value Kind Fault)
    {Invariant : Source → Prop}
    (preserves : ∀ kind source value rest, Invariant source →
      codec.read kind source = .ok (value, rest) → Invariant rest)
    (kinds : List Kind) {source final : Source} {values : List Value}
    (holds : Invariant source) (run : codec.readAll kinds source = .ok (values, final)) :
    Invariant final := by
  induction kinds generalizing source values with
  | nil =>
      simp only [readAll, Except.ok.injEq, Prod.mk.injEq] at run
      exact run.2 ▸ holds
  | cons kind kinds induction =>
      rcases codec.exists_of_readAll_cons run with ⟨value, rest, later, head, tail, -⟩
      exact induction (preserves kind source value rest holds head) tail

/-- Last in, first out: reading the kinds of what was written in the reverse
order returns the values and leaves what was there before. -/
theorem readAll_writeAll (codec : StackCodec Sink Source View Value Kind Fault)
    (values : List Value) (recovers : ∀ value ∈ values, codec.Recovers value)
    (before : Sink) (after : Source)
    (agrees : codec.received after = codec.sent (codec.writeAll before values)) :
    ∃ rest, codec.readAll (values.reverse.map codec.kind) after =
        .ok (values.reverse, rest) ∧ codec.received rest = codec.sent before := by
  induction values generalizing before with
  | nil => exact ⟨after, rfl, agrees⟩
  | cons value values induction =>
      have later : ∀ other ∈ values, codec.Recovers other := fun other member =>
        recovers other (List.mem_cons_of_mem value member)
      rcases induction later (codec.write before value) agrees with
        ⟨middle, readLater, sameMiddle⟩
      rcases recovers value List.mem_cons_self before middle sameMiddle with
        ⟨rest, readValue, sameRest⟩
      refine ⟨rest, ?_, sameRest⟩
      rw [List.reverse_cons, List.map_append,
        codec.readAll_append _ _ readLater, List.map_singleton,
        codec.readAll_cons readValue]
      rfl

end StackCodec

end GNL
