import GNL.Semantics.Trace
import Mathlib.Algebra.BigOperators.Finprod
import Mathlib.Algebra.Order.BigOperators.Group.Finset

/-! # Systems that come to rest

Where every step lowers a rank in a well-founded order no run goes on for ever, and some
run reaches a state with no step left; where the rank is a number it also says how long
runs can be. The work of a family of parts is that of all of them, as long as few enough
have any. Nothing here depends on the system being run.
-/

namespace GNL

variable {State : Type u} {Action : Type v} {Step : State → Action → State → Prop}

def AtRest (Step : State → Action → State → Prop) (state : State) : Prop :=
  ∀ action next, ¬Step state action next

def Settles (Step : State → Action → State → Prop) (state : State) : Prop :=
  Acc (fun next current => ∃ action, Step current action next) state

section Rank

variable {Invariant : State → Prop}

theorem settles_of_decreases {Rank : Type w} {rank : State → Rank} {Lower : Rank → Rank → Prop}
    (wellFounded : WellFounded Lower)
    (preserved : ∀ current action next, Invariant current →
      Step current action next → Invariant next)
    (decreases : ∀ current action next, Invariant current →
      Step current action next → Lower (rank next) (rank current))
    {first : State} (start : Invariant first) : Settles Step first := by
  induction (InvImage.wf rank wellFounded).apply first with
  | intro current _ induction =>
      apply Acc.intro
      rintro next ⟨action, step⟩
      exact induction next (decreases current action next start step)
        (preserved current action next start step)

/-- In every order of steps, what a run has done and what it has left are together no
more than what there was to do. -/
theorem Trace.length_add_work_le {work : State → Nat}
    (preserved : ∀ current action next, Invariant current →
      Step current action next → Invariant next)
    (decreases : ∀ current action next, Invariant current →
      Step current action next → work next < work current)
    {first last : State} {actions : List Action} (trace : Trace Step first actions last)
    (start : Invariant first) : actions.length + work last ≤ work first := by
  induction trace with
  | nil => simp
  | cons step _ induction =>
      have less := decreases _ _ _ start step
      have later := induction (preserved _ _ _ start step)
      rw [List.length_cons]
      omega

end Rank

theorem Settles.exists_trace_atRest {first : State} (settles : Settles Step first) :
    ∃ actions last, Trace Step first actions last ∧ AtRest Step last := by
  induction settles with
  | intro current _ induction =>
      by_cases atRest : AtRest Step current
      · exact ⟨[], current, .nil current, atRest⟩
      · unfold AtRest at atRest
        push Not at atRest
        rcases atRest with ⟨action, next, step⟩
        rcases induction next ⟨action, step⟩ with ⟨actions, last, trace, lastAtRest⟩
        exact ⟨action :: actions, last, .cons step trace, lastAtRest⟩

section Family

variable {Index : Type u} {Part : Type v} {work : Index → Part → Nat} {parts : Index → Part}
  {index : Index} {next : Part}

def FewBusy (work : Index → Part → Nat) (parts : Index → Part) : Prop :=
  (Function.support fun index => work index (parts index)).Finite

noncomputable def totalWork (work : Index → Part → Nat) (parts : Index → Part) : Nat :=
  ∑ᶠ index, work index (parts index)

variable [DecidableEq Index]

theorem FewBusy.update (few : FewBusy work parts) (index : Index) (next : Part) :
    FewBusy work (Function.update parts index next) := by
  apply (few.insert index).subset
  intro other busy
  by_cases same : other = index
  · exact .inl same
  · rw [Function.mem_support, Function.update_of_ne same] at busy
    exact .inr busy

theorem totalWork_update_lt (few : FewBusy work parts)
    (less : work index next < work index (parts index)) :
    totalWork work (Function.update parts index next) < totalWork work parts := by
  have positive : work index (parts index) ≠ 0 := by omega
  have wasBusy : index ∈ few.toFinset := few.mem_toFinset.mpr positive
  have inside : (Function.support fun other =>
      work other (Function.update parts index next other)) ⊆ few.toFinset := by
    intro other busy
    by_cases same : other = index
    · subst same
      exact wasBusy
    · rw [Function.mem_support, Function.update_of_ne same] at busy
      exact few.mem_toFinset.mpr busy
  rw [totalWork, totalWork, finsum_eq_sum_of_support_subset _ inside,
    finsum_eq_sum_of_support_subset _ few.coe_toFinset.superset]
  apply Finset.sum_lt_sum
  · intro other _
    by_cases same : other = index
    · subst same
      rw [Function.update_self]
      exact Nat.le_of_lt less
    · rw [Function.update_of_ne same]
  · refine ⟨index, wasBusy, ?_⟩
    rwa [Function.update_self]

end Family

end GNL
