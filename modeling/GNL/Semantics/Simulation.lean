import GNL.Semantics.Trace
import Mathlib.Logic.Function.Basic

/-! # Runs of one system as runs of another

A system simulates another where each of its steps is matched by a run of the other
that shows the same; then so is each of its runs. And a system made of parts that move
one at a time makes a run of each part. Nothing here depends on the systems.
-/

namespace GNL

/-- Where each step is matched by a run of the specification that shows the same, each
run is. -/
theorem Trace.simulate {State : Type u} {Action : Type v} {Spec : Type w} {SpecAction : Type x}
    {Observation : Type y} {Step : State → Action → State → Prop}
    {SpecStep : Spec → SpecAction → Spec → Prop} {Relates : State → Spec → Prop}
    (shows : Action → List Observation) (specShows : SpecAction → List Observation)
    (simulates : ∀ current action next spec, Relates current spec → Step current action next →
      ∃ performed specNext, Trace SpecStep spec performed specNext ∧ Relates next specNext ∧
        performed.flatMap specShows = shows action)
    {first last : State} {actions : List Action} (trace : Trace Step first actions last)
    {spec : Spec} (related : Relates first spec) :
    ∃ performed specLast, Trace SpecStep spec performed specLast ∧ Relates last specLast ∧
      performed.flatMap specShows = actions.flatMap shows := by
  induction trace generalizing spec with
  | nil => exact ⟨[], spec, .nil spec, related, rfl⟩
  | cons step _ induction =>
      rcases simulates _ _ _ _ related step with ⟨first, middle, front, relates, showsFirst⟩
      rcases induction relates with ⟨rest, specLast, back, relatesLast, showsRest⟩
      refine ⟨first ++ rest, specLast, front.append back, relatesLast, ?_⟩
      rw [List.flatMap_append, showsFirst, showsRest, List.flatMap_cons]

theorem Trace.forall_of_where {State : Type u} {Action : Type v}
    {Step : State → Action → State → Prop} {Allowed : Action → Prop} {first last : State}
    {actions : List Action}
    (trace : Trace (StepWhere Step fun _ action => Allowed action) first actions last) :
    ∀ action ∈ actions, Allowed action := by
  induction trace with
  | nil => simp
  | cons step _ induction => exact List.forall_mem_cons.mpr ⟨step.2, induction⟩

section Family

variable {Index : Type u} {Part : Type v} {Action : Type w}
  {Step : Index → Part → Action → Part → Prop}

def AllReached (Step : Index → Part → Action → Part → Prop) (first current : Index → Part) :
    Prop :=
  ∀ index, ∃ actions, Trace (Step index) (first index) actions (current index)

theorem AllReached.refl (first : Index → Part) : AllReached Step first first :=
  fun index => ⟨[], .nil (first index)⟩

theorem AllReached.update [DecidableEq Index] {first current : Index → Part} {index : Index}
    {action : Action} {next : Part} (reached : AllReached Step first current)
    (step : Step index (current index) action next) :
    AllReached Step first (Function.update current index next) := by
  intro other
  rcases reached other with ⟨actions, trace⟩
  by_cases same : other = index
  · subst same
    rw [Function.update_self]
    exact ⟨_, trace.snoc step⟩
  · rw [Function.update_of_ne same]
    exact ⟨actions, trace⟩

end Family

end GNL
