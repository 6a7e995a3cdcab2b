import Mathlib.Data.List.Induction

/-! # Finite traces of labelled transition systems

Shared run-level reasoning: splitting and extending runs, invariants, and runs
whose every step meets a condition on the state it starts from. Nothing here
depends on the system being run.
-/

namespace GNL

variable {State : Type u} {Action : Type v}

/-- A finite run of `Step`, together with the actions it performs in order. -/
inductive Trace (Step : State → Action → State → Prop) :
    State → List Action → State → Prop
  | nil (state : State) : Trace Step state [] state
  | cons {current middle final : State} {action : Action} {actions : List Action} :
      Step current action middle →
      Trace Step middle actions final →
      Trace Step current (action :: actions) final

namespace Trace

variable {Step : State → Action → State → Prop}

theorem append {first middle last : State} {before after : List Action}
    (front : Trace Step first before middle) (back : Trace Step middle after last) :
    Trace Step first (before ++ after) last := by
  induction front with
  | nil => exact back
  | cons step _ induction => exact .cons step (induction back)

theorem snoc {first middle last : State} {before : List Action} {action : Action}
    (front : Trace Step first before middle) (step : Step middle action last) :
    Trace Step first (before ++ [action]) last :=
  front.append (.cons step (.nil last))

theorem split {first last : State} {before after : List Action}
    (trace : Trace Step first (before ++ after) last) :
    ∃ middle, Trace Step first before middle ∧ Trace Step middle after last := by
  induction before generalizing first with
  | nil => exact ⟨first, .nil first, trace⟩
  | cons action before induction =>
      cases trace with
      | cons step rest =>
          rcases induction rest with ⟨middle, front, back⟩
          exact ⟨middle, .cons step front, back⟩

/-- Induction on the last step of a run, the order in which the states of a
run are reached. -/
theorem snoc_induction {first last : State} {actions : List Action}
    {motive : List Action → State → Prop} (start : motive [] first)
    (extend : ∀ before middle action next, Trace Step first before middle →
      motive before middle → Step middle action next → motive (before ++ [action]) next)
    (trace : Trace Step first actions last) : motive actions last := by
  induction actions using List.reverseRecOn generalizing last with
  | nil =>
      cases trace
      exact start
  | append_singleton before action induction =>
      rcases trace.split with ⟨middle, front, back⟩
      cases back with
      | cons step rest =>
          cases rest
          exact extend before middle action _ front (induction front) step

/-- What holds at the start and is kept by every step holds at the end of
every run. -/
theorem invariant {Invariant : State → Prop}
    (preserved : ∀ current action next, Invariant current →
      Step current action next → Invariant next)
    {first last : State} {actions : List Action}
    (trace : Trace Step first actions last) (start : Invariant first) :
    Invariant last := by
  induction trace with
  | nil => exact start
  | cons step _ induction => exact induction (preserved _ _ _ start step)

theorem invariant_of_forall {Invariant : State → Prop} {Allowed : Action → Prop}
    (preserved : ∀ current action next, Invariant current → Allowed action →
      Step current action next → Invariant next)
    {first last : State} {actions : List Action} (trace : Trace Step first actions last)
    (allowed : ∀ action ∈ actions, Allowed action) (start : Invariant first) :
    Invariant last := by
  induction trace with
  | nil => exact start
  | cons step _ induction =>
      rcases List.forall_mem_cons.mp allowed with ⟨first, rest⟩
      exact induction rest (preserved _ _ _ start first step)

theorem mono {Other : State → Action → State → Prop}
    (allowed : ∀ current action next, Step current action next → Other current action next)
    {first last : State} {actions : List Action} (trace : Trace Step first actions last) :
    Trace Other first actions last := by
  induction trace with
  | nil => exact .nil _
  | cons step _ induction => exact .cons (allowed _ _ _ step) induction

end Trace

def runSteps (step : State → Action → Option State) : State → List Action → Option State
  | state, [] => some state
  | state, action :: actions =>
      match step state action with
      | none => none
      | some next => runSteps step next actions

theorem Trace.of_runSteps {Step : State → Action → State → Prop}
    {step : State → Action → Option State}
    (allowed : ∀ current action next, step current action = some next →
      Step current action next)
    {first last : State} {actions : List Action}
    (run : runSteps step first actions = some last) : Trace Step first actions last := by
  induction actions generalizing first with
  | nil =>
      cases run
      exact .nil _
  | cons action actions induction =>
      simp only [runSteps] at run
      split at run
      · cases run
      · exact .cons (allowed _ _ _ ‹_›) (induction run)

theorem Trace.of_run {step : State → Action → Option State} {first last : State}
    {actions : List Action} (run : runSteps step first actions = some last) :
    Trace (fun current action next => step current action = some next) first actions last :=
  Trace.of_runSteps (fun _ _ _ performed => performed) run

/-- What is noted of each step of a run, from the state before it and the action. -/
def noted (step : State → Action → Option State) (note : State → Action → List Note) :
    State → List Action → List Note
  | _, [] => []
  | state, action :: actions => note state action ++
      match step state action with
      | none => []
      | some next => noted step note next actions

theorem noted_snoc {step : State → Action → Option State} (note : State → Action → List Note)
    {first last : State} {actions : List Action}
    (trace : Trace (fun current action next => step current action = some next) first actions last)
    (action : Action) :
    noted step note first (actions ++ [action]) =
      noted step note first actions ++ note last action := by
  induction trace with
  | nil state =>
      simp only [List.nil_append, noted]
      split
      · exact List.append_nil _
      · exact List.append_nil _
  | cons performed _ induction =>
      simp only [List.cons_append, noted, performed]
      rw [induction, List.append_assoc]

/-- The steps of a system that are taken only where `Condition` holds of the
state before the step and of the action. -/
def StepWhere (Step : State → Action → State → Prop) (Condition : State → Action → Prop) :
    State → Action → State → Prop :=
  fun current action next => Step current action next ∧ Condition current action

theorem Trace.unconditional {Step : State → Action → State → Prop}
    {Condition : State → Action → Prop} {first last : State} {actions : List Action}
    (trace : Trace (StepWhere Step Condition) first actions last) :
    Trace Step first actions last :=
  trace.mono fun _ _ _ => And.left

theorem Trace.invariant_where {Step : State → Action → State → Prop}
    {Condition : State → Action → Prop} {Always Invariant : State → Prop}
    (always : ∀ current action next, Always current → Step current action next → Always next)
    (preserved : ∀ current action next, Always current → Invariant current →
      Condition current action → Step current action next → Invariant next)
    {first last : State} {actions : List Action}
    (trace : Trace (StepWhere Step Condition) first actions last)
    (startAlways : Always first) (start : Invariant first) : Always last ∧ Invariant last := by
  have both : ∀ current action next, Always current ∧ Invariant current →
      StepWhere Step Condition current action next → Always next ∧ Invariant next := by
    intro current action next ⟨holds, invariant⟩ ⟨step, condition⟩
    exact ⟨always current action next holds step,
      preserved current action next holds invariant condition step⟩
  exact trace.invariant both ⟨startAlways, start⟩

/-- Where a step keeps a property exactly if it meets `Condition`, a run keeps it
exactly if all of its steps do. -/
theorem Trace.stepWhere_iff {Step : State → Action → State → Prop}
    {Condition : State → Action → Prop} {Always Property : State → Prop}
    (always : ∀ current action next, Always current → Step current action next → Always next)
    (exact : ∀ current action next, Always current → Step current action next →
      (Property next ↔ Property current ∧ Condition current action))
    {first last : State} {actions : List Action} (trace : Trace Step first actions last)
    (startAlways : Always first) (start : Property first) :
    Property last ↔ Trace (StepWhere Step Condition) first actions last := by
  constructor
  · apply trace.snoc_induction (motive := fun actions last =>
      Property last → Trace (StepWhere Step Condition) first actions last)
    · exact fun _ => .nil first
    · intro before middle action next front induction step holds
      have alwaysMiddle := front.invariant always startAlways
      rcases (exact middle action next alwaysMiddle step).mp holds with ⟨held, condition⟩
      exact (induction held).snoc ⟨step, condition⟩
  · intro where_
    have preserved : ∀ current action next, Always current → Property current →
        Condition current action → Step current action next → Property next :=
      fun current action next holds property condition step =>
        (exact current action next holds step).mpr ⟨property, condition⟩
    exact (where_.invariant_where always preserved startAlways start).2

def stepWhere (step : State → Action → Option State) (Condition : State → Action → Prop)
    [∀ state action, Decidable (Condition state action)] : State → Action → Option State :=
  fun state action => if Condition state action then step state action else none

theorem Trace.of_runStepsWhere {step : State → Action → Option State}
    {Condition : State → Action → Prop} [∀ state action, Decidable (Condition state action)]
    {first last : State} {actions : List Action}
    (run : runSteps (stepWhere step Condition) first actions = some last) :
    Trace (StepWhere (fun current action next => step current action = some next) Condition)
      first actions last := by
  apply Trace.of_runSteps _ run
  intro current action next performed
  unfold stepWhere at performed
  split at performed
  next holds => exact ⟨performed, holds⟩
  next => contradiction

end GNL
