import GNL.Semantics.Trace
import Mathlib.Logic.Function.Basic
import Mathlib.Logic.Relation
import Mathlib.Order.RelClasses

/-! # Threads that take mutexes

Code takes mutexes for scopes, nested as its scopes are, and gives one up while
it waits on a condition variable. Where every nesting goes up in one rank of the
mutexes, no run reaches threads that wait for each other in a cycle. Nothing here
depends on what the mutexes are for.
-/

namespace GNL

variable {Thread Mutex : Type u} {Rank : Type v}

/-- What code does to mutexes; what it computes, and so which way it branches and
when it leaves a loop, is left open. -/
inductive LockCode (Mutex : Type u)
  | skip
  | seq (first second : LockCode Mutex)
  | either (left right : LockCode Mutex)
  | loop (body : LockCode Mutex)
  | locked (mutex : Mutex) (body : LockCode Mutex)
  /-- A wait on a condition variable with a mutex that is held. -/
  | wait (mutex : Mutex)

/-- What a thread has left to do. A thread that waits gives up its mutex and is
asleep until it is woken, and then takes the mutex again. -/
inductive Task (Mutex : Type u)
  | run (code : LockCode Mutex)
  | unlock (mutex : Mutex)
  | asleep (mutex : Mutex)
  | relock (mutex : Mutex)

namespace Task

/-- A step of one thread that leaves the mutexes alone. A thread that is asleep may
wake at any time, notified or not. -/
inductive Advances : List (Task Mutex) → List (Task Mutex) → Prop
  | skip : Advances (.run .skip :: rest) rest
  | seq {first second : LockCode Mutex} :
      Advances (.run (.seq first second) :: rest) (.run first :: .run second :: rest)
  | left {left right : LockCode Mutex} :
      Advances (.run (.either left right) :: rest) (.run left :: rest)
  | right {left right : LockCode Mutex} :
      Advances (.run (.either left right) :: rest) (.run right :: rest)
  | turn {body : LockCode Mutex} :
      Advances (.run (.loop body) :: rest) (.run body :: .run (.loop body) :: rest)
  | leave {body : LockCode Mutex} : Advances (.run (.loop body) :: rest) rest
  | wake : Advances (.asleep mutex :: rest) (.relock mutex :: rest)

inductive Takes (mutex : Mutex) : List (Task Mutex) → List (Task Mutex) → Prop
  | locked {body : LockCode Mutex} :
      Takes mutex (.run (.locked mutex body) :: rest) (.run body :: .unlock mutex :: rest)
  | relock : Takes mutex (.relock mutex :: rest) rest

inductive Gives (mutex : Mutex) : List (Task Mutex) → List (Task Mutex) → Prop
  | unlock : Gives mutex (.unlock mutex :: rest) rest
  | wait : Gives mutex (.run (.wait mutex) :: rest) (.asleep mutex :: rest)

def requested : List (Task Mutex) → Option Mutex
  | .run (.locked mutex _) :: _ => some mutex
  | .relock mutex :: _ => some mutex
  | _ => none

theorem exists_takes_iff (mutex : Mutex) (tasks : List (Task Mutex)) :
    (∃ next, Takes mutex tasks next) ↔ requested tasks = some mutex := by
  constructor
  · rintro ⟨next, takes⟩
    cases takes <;> rfl
  · intro requests
    unfold requested at requests
    split at requests
    · cases requests
      exact ⟨_, .locked⟩
    · cases requests
      exact ⟨_, .relock⟩
    · cases requests

theorem goes_on_or_requests {tasks : List (Task Mutex)} (busy : tasks ≠ []) :
    (∃ next, Advances tasks next) ∨ (∃ mutex next, Gives mutex tasks next) ∨
      ∃ mutex, requested tasks = some mutex := by
  rcases List.exists_cons_of_ne_nil busy with ⟨task, rest, rfl⟩
  cases task with
  | unlock mutex => exact .inr (.inl ⟨mutex, _, .unlock⟩)
  | asleep mutex => exact .inl ⟨_, .wake⟩
  | relock mutex => exact .inr (.inr ⟨mutex, rfl⟩)
  | run code =>
      cases code with
      | skip => exact .inl ⟨_, .skip⟩
      | seq first second => exact .inl ⟨_, .seq⟩
      | either left right => exact .inl ⟨_, .left⟩
      | loop body => exact .inl ⟨_, .leave⟩
      | locked mutex body => exact .inr (.inr ⟨mutex, rfl⟩)
      | wait mutex => exact .inr (.inl ⟨mutex, _, .wait⟩)

end Task

structure Locks (Thread Mutex : Type u) where
  owner : Mutex → Option Thread
  tasks : Thread → List (Task Mutex)

namespace Locks

def start : Locks Thread Mutex where
  owner _ := none
  tasks _ := []

def request (locks : Locks Thread Mutex) (thread : Thread) : Option Mutex :=
  Task.requested (locks.tasks thread)

def WaitsFor (locks : Locks Thread Mutex) (thread other : Thread) : Prop :=
  ∃ mutex, locks.request thread = some mutex ∧ locks.owner mutex = some other

/-- Some threads each wait for a mutex that the next of them holds. -/
def Deadlocked (locks : Locks Thread Mutex) : Prop :=
  ∃ thread, Relation.TransGen locks.WaitsFor thread thread

inductive Action (Thread : Type u) (Operation : Type w)
  | call (thread : Thread) (operation : Operation)
  | move (thread : Thread)

section Steps

variable [DecidableEq Thread]

def doing (locks : Locks Thread Mutex) (thread : Thread) (tasks : List (Task Mutex)) :
    Locks Thread Mutex :=
  { locks with tasks := Function.update locks.tasks thread tasks }

@[simp] theorem tasks_doing (locks : Locks Thread Mutex) (thread : Thread)
    (tasks : List (Task Mutex)) : (locks.doing thread tasks).tasks thread = tasks :=
  Function.update_self _ _ _

variable [DecidableEq Mutex]

def owned (locks : Locks Thread Mutex) (mutex : Mutex) (owner : Option Thread) :
    Locks Thread Mutex :=
  { locks with owner := Function.update locks.owner mutex owner }

omit [DecidableEq Thread] in
@[simp] theorem tasks_owned (locks : Locks Thread Mutex) (mutex : Mutex)
    (owner : Option Thread) : (locks.owned mutex owner).tasks = locks.tasks := rfl

omit [DecidableEq Thread] in
@[simp] theorem owner_owned (locks : Locks Thread Mutex) (mutex : Mutex)
    (owner : Option Thread) : (locks.owned mutex owner).owner mutex = owner :=
  Function.update_self _ _ _

inductive Step {Operation : Type w} (code : Operation → LockCode Mutex)
    (locks : Locks Thread Mutex) :
    Action Thread Operation → Locks Thread Mutex → Prop
  | call {thread : Thread} {operation : Operation} (idle : locks.tasks thread = []) :
      Step code locks (.call thread operation) (locks.doing thread [.run (code operation)])
  | advance {thread : Thread} {tasks : List (Task Mutex)}
      (advances : Task.Advances (locks.tasks thread) tasks) :
      Step code locks (.move thread) (locks.doing thread tasks)
  | take {thread : Thread} {mutex : Mutex} {tasks : List (Task Mutex)}
      (takes : Task.Takes mutex (locks.tasks thread) tasks) (free : locks.owner mutex = none) :
      Step code locks (.move thread) ((locks.doing thread tasks).owned mutex (some thread))
  | give {thread : Thread} {mutex : Mutex} {tasks : List (Task Mutex)}
      (gives : Task.Gives mutex (locks.tasks thread) tasks) :
      Step code locks (.move thread) ((locks.doing thread tasks).owned mutex none)

end Steps

end Locks

section Ranks

variable [Preorder Rank] (rank : Mutex → Rank)

def Above (mutex : Mutex) (others : List Mutex) : Prop :=
  ∀ other ∈ others, rank other < rank mutex

/-- Code whose scopes, entered with the mutexes of `held`, go up in rank, and which
waits only with the mutex of the innermost scope. -/
def LockCode.Ascends : List Mutex → LockCode Mutex → Prop
  | _, skip => True
  | held, seq first second => first.Ascends held ∧ second.Ascends held
  | held, either left right => left.Ascends held ∧ right.Ascends held
  | held, loop body => body.Ascends held
  | held, locked mutex body => Above rank mutex held ∧ body.Ascends (mutex :: held)
  | held, wait mutex => ∃ others, held = mutex :: others ∧ Above rank mutex others

namespace Task

def held : List (Task Mutex) → List Mutex
  | [] => []
  | .run _ :: rest => held rest
  | .unlock mutex :: rest => mutex :: held rest
  | .asleep _ :: rest => (held rest).tail
  | .relock _ :: rest => (held rest).tail

def Ascend : List (Task Mutex) → Prop
  | [] => True
  | .run code :: rest => code.Ascends rank (held rest) ∧ Ascend rest
  | .unlock mutex :: rest => Above rank mutex (held rest) ∧ Ascend rest
  | .asleep mutex :: rest =>
      (∃ others, held rest = mutex :: others ∧ Above rank mutex others) ∧ Ascend rest
  | .relock mutex :: rest =>
      (∃ others, held rest = mutex :: others ∧ Above rank mutex others) ∧ Ascend rest

variable {rank} {mutex : Mutex} {tasks next : List (Task Mutex)}

theorem Advances.held_eq (advances : Advances tasks next) : held next = held tasks := by
  cases advances <;> rfl

theorem Advances.ascend (advances : Advances tasks next) (ascend : Ascend rank tasks) :
    Ascend rank next := by
  cases advances with
  | skip => exact ascend.2
  | seq => exact ⟨ascend.1.1, ascend.1.2, ascend.2⟩
  | left => exact ⟨ascend.1.1, ascend.2⟩
  | right => exact ⟨ascend.1.2, ascend.2⟩
  | turn => exact ⟨ascend.1, ascend.1, ascend.2⟩
  | leave => exact ascend.2
  | wake => exact ascend

theorem Takes.spec (takes : Takes mutex tasks next) (ascend : Ascend rank tasks) :
    Above rank mutex (held tasks) ∧ held next = mutex :: held tasks ∧ Ascend rank next := by
  cases takes with
  | locked => exact ⟨ascend.1.1, rfl, ascend.1.2, ascend.1.1, ascend.2⟩
  | relock =>
      rcases ascend with ⟨⟨others, holds, above⟩, ascend⟩
      rw [held, holds]
      exact ⟨above, rfl, ascend⟩

theorem Gives.spec (gives : Gives mutex tasks next) (ascend : Ascend rank tasks) :
    Above rank mutex (held next) ∧ held tasks = mutex :: held next ∧ Ascend rank next := by
  cases gives with
  | unlock => exact ⟨ascend.1, rfl, ascend.2⟩
  | wait =>
      rcases ascend with ⟨⟨others, holds, above⟩, ascend⟩
      rw [held, held, holds]
      exact ⟨above, rfl, ⟨others, holds, above⟩, ascend⟩

end Task

namespace Locks

/-- Every thread goes up in rank with what it has left to do, and holds what that
says it holds. -/
structure Orderly (locks : Locks Thread Mutex) : Prop where
  ascend : ∀ thread, Task.Ascend rank (locks.tasks thread)
  owner_iff : ∀ thread mutex,
    locks.owner mutex = some thread ↔ mutex ∈ Task.held (locks.tasks thread)

theorem orderly_start : Orderly rank (start : Locks Thread Mutex) where
  ascend _ := trivial
  owner_iff _ _ := by simp [start, Task.held]

variable {rank} {locks next : Locks Thread Mutex}

theorem Orderly.above (orderly : Orderly rank locks) {thread : Thread} {wanted held : Mutex}
    (request : locks.request thread = some wanted) (owner : locks.owner held = some thread) :
    rank held < rank wanted := by
  rcases (Task.exists_takes_iff wanted _).mpr request with ⟨tasks, takes⟩
  have above := (takes.spec (orderly.ascend thread)).1
  exact above held ((orderly.owner_iff thread held).mp owner)

theorem Orderly.not_own (orderly : Orderly rank locks) {thread : Thread} {mutex : Mutex}
    (request : locks.request thread = some mutex) : locks.owner mutex ≠ some thread :=
  fun owner => lt_irrefl _ (orderly.above request owner)

theorem Orderly.lt_of_transGen (orderly : Orderly rank locks) {thread other : Thread}
    (chain : Relation.TransGen locks.WaitsFor thread other) {last : Mutex}
    (request : locks.request other = some last) :
    ∃ first, locks.request thread = some first ∧ rank first < rank last := by
  induction chain generalizing last with
  | single waits =>
      rcases waits with ⟨first, requests, owner⟩
      exact ⟨first, requests, orderly.above request owner⟩
  | tail _ waits induction =>
      rcases waits with ⟨middle, requests, owner⟩
      rcases induction requests with ⟨first, requestsFirst, lower⟩
      exact ⟨first, requestsFirst, lower.trans (orderly.above request owner)⟩

theorem Orderly.not_deadlocked (orderly : Orderly rank locks) : ¬locks.Deadlocked := by
  rintro ⟨thread, cycle⟩
  rcases Relation.TransGen.head'_iff.mp cycle with ⟨_, ⟨mutex, request, _⟩, _⟩
  rcases orderly.lt_of_transGen cycle request with ⟨first, requestFirst, lower⟩
  cases requestFirst.symm.trans request
  exact lt_irrefl _ lower

section Steps

variable [DecidableEq Thread]

theorem Orderly.of_thread (orderly : Orderly rank locks) {thread : Thread}
    {tasks : List (Task Mutex)} (ascend : Task.Ascend rank tasks)
    (moved : next.tasks = Function.update locks.tasks thread tasks)
    (own : ∀ mutex, next.owner mutex = some thread ↔ mutex ∈ Task.held tasks)
    (others : ∀ mutex other, other ≠ thread →
      (next.owner mutex = some other ↔ locks.owner mutex = some other)) :
    Orderly rank next where
  ascend other := by
    rw [moved]
    by_cases same : other = thread
    · subst same
      rw [Function.update_self]
      exact ascend
    · rw [Function.update_of_ne same]
      exact orderly.ascend other
  owner_iff other mutex := by
    rw [moved]
    by_cases same : other = thread
    · subst same
      rw [Function.update_self]
      exact own mutex
    · rw [Function.update_of_ne same, others mutex other same]
      exact orderly.owner_iff other mutex

variable [DecidableEq Mutex] {thread : Thread} {mutex : Mutex} {tasks : List (Task Mutex)}

theorem Orderly.take (orderly : Orderly rank locks)
    (takes : Task.Takes mutex (locks.tasks thread) tasks) (free : locks.owner mutex = none) :
    Orderly rank ((locks.doing thread tasks).owned mutex (some thread)) := by
  rcases takes.spec (orderly.ascend thread) with ⟨_, holds, ascend⟩
  refine orderly.of_thread ascend rfl ?_ ?_
  · intro other
    rw [holds, List.mem_cons, ← orderly.owner_iff thread other, owned]
    by_cases same : other = mutex
    · simp [same]
    · simp [same, doing]
  · intro other holder different
    by_cases same : other = mutex
    · simp [owned, same, free, different.symm]
    · simp [owned, doing, same]

theorem Orderly.give (orderly : Orderly rank locks)
    (gives : Task.Gives mutex (locks.tasks thread) tasks) :
    Orderly rank ((locks.doing thread tasks).owned mutex none) := by
  rcases gives.spec (orderly.ascend thread) with ⟨above, holds, ascend⟩
  have once : mutex ∉ Task.held tasks := fun member => lt_irrefl _ (above mutex member)
  have owner : locks.owner mutex = some thread := by
    rw [orderly.owner_iff, holds]
    exact List.mem_cons_self
  refine orderly.of_thread ascend rfl ?_ ?_
  · intro other
    by_cases same : other = mutex
    · simp [owned, same, once]
    · have held := orderly.owner_iff thread other
      rw [holds, List.mem_cons, or_iff_right same] at held
      simpa [owned, doing, same] using held
  · intro other holder different
    by_cases same : other = mutex
    · simp [owned, same, owner, different.symm]
    · simp [owned, doing, same]

/-- Whoever waits, some thread goes on: at the end of each chain of waiting threads
is one that requests nothing that is held. -/
theorem Orderly.exists_move {Operation : Type w} (code : Operation → LockCode Mutex)
    [WellFoundedGT Rank] (orderly : Orderly rank locks) (busy : locks.tasks thread ≠ []) :
    ∃ other next, Step code locks (.move other) next := by
  rcases Task.goes_on_or_requests busy with
    ⟨tasks, advances⟩ | ⟨mutex, tasks, gives⟩ | ⟨wanted, request⟩
  · exact ⟨thread, _, .advance advances⟩
  · exact ⟨thread, _, .give gives⟩
  -- Upwards in the rank of what is requested, which a holder only exceeds.
  · induction wantedRank : rank wanted using WellFoundedGT.induction generalizing thread wanted with
    | ind bound induction =>
        cases owner : locks.owner wanted with
        | none =>
            rcases (Task.exists_takes_iff wanted _).mpr request with ⟨tasks, takes⟩
            exact ⟨thread, _, .take takes owner⟩
        | some holder =>
            have holds := (orderly.owner_iff holder wanted).mp owner
            have holderBusy : locks.tasks holder ≠ [] := by
              intro idle
              rw [idle] at holds
              exact List.not_mem_nil holds
            rcases Task.goes_on_or_requests holderBusy with
              ⟨tasks, advances⟩ | ⟨mutex, tasks, gives⟩ | ⟨higher, requestsHigher⟩
            · exact ⟨holder, _, .advance advances⟩
            · exact ⟨holder, _, .give gives⟩
            · have upwards := orderly.above requestsHigher owner
              rw [wantedRank] at upwards
              exact induction _ upwards holderBusy higher requestsHigher rfl

theorem Orderly.step {Operation : Type w} {code : Operation → LockCode Mutex}
    {action : Action Thread Operation}
    (ascends : ∀ operation, (code operation).Ascends rank []) (orderly : Orderly rank locks)
    (step : Step code locks action next) : Orderly rank next := by
  cases step with
  | @call thread operation idle =>
      have ascend : Task.Ascend rank [.run (code operation)] := ⟨ascends operation, trivial⟩
      refine orderly.of_thread ascend rfl ?_ fun _ _ _ => Iff.rfl
      intro mutex
      rw [doing, orderly.owner_iff, idle]
      rfl
  | @advance thread tasks advances =>
      refine orderly.of_thread (advances.ascend (orderly.ascend thread)) rfl ?_
        fun _ _ _ => Iff.rfl
      intro mutex
      rw [doing, orderly.owner_iff, advances.held_eq]
  | take takes free => exact orderly.take takes free
  | give gives => exact orderly.give gives

theorem orderly_of_trace {Operation : Type w} {code : Operation → LockCode Mutex}
    (ascends : ∀ operation, (code operation).Ascends rank [])
    {actions : List (Action Thread Operation)} (trace : Trace (Step code) start actions locks) :
    Orderly rank locks :=
  trace.invariant (fun _ _ _ orderly step => orderly.step ascends step) (orderly_start rank)

end Steps

end Locks

end Ranks

end GNL
