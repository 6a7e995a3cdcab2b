import GNL.Semantics.Trace
import Mathlib.Logic.Function.Basic

/-! # Waiting on a queue (`NetQueue.h`)

`push_back`, `push_front` and `wait`, one lock operation at a time: any number
of threads push, and one consumer waits and pops. A push nests `m_muxBlock`
inside `m_muxQueue` and notifies while it holds both; the consumer's test takes
only `m_muxQueue` and its sleep only `m_muxBlock`.
-/

namespace GNL

namespace NetQueueWait

inductive PushAt (T : Type)
  | outside
  | holdsQueue (front : Bool) (item : T)
  | holdsBoth (front : Bool) (item : T)
  | inserted
  | notified
  deriving DecidableEq

def PushAt.hasBlock : PushAt T → Bool
  | .outside => false
  | .holdsQueue _ _ => false
  | .holdsBoth _ _ => true
  | .inserted => true
  | .notified => true

inductive WaitAt
  | outside
  | testing
  /-- `is_empty` has returned true; `m_muxBlock` is not taken yet. -/
  | emptySeen
  | holdsBlock
  | asleep
  | woken
  /-- `m_cvBlock.wait` has returned with `m_muxBlock` held again. -/
  | returned
  deriving DecidableEq

def WaitAt.hasBlock (place : WaitAt) : Bool :=
  place = .holdsBlock ∨ place = .returned

inductive Thread (Producer : Type)
  | producer (producer : Producer)
  | consumer
  deriving DecidableEq

structure State (Producer T : Type) where
  m_deqQueue : List T
  m_muxQueue : Option (Thread Producer)
  m_muxBlock : Option (Thread Producer)
  push : Producer → PushAt T
  wait : WaitAt

inductive Action (Producer T : Type)
  | lockQueue (producer : Producer) (front : Bool) (item : T)
  | lockBlock (producer : Producer)
  | insert (producer : Producer)
  | notify_one (producer : Producer)
  | unlock (producer : Producer)
  | callWait
  | testEmpty
  | blockConsumer
  | sleep
  | wakeSpuriously
  | relock
  | releaseBlock
  | pop_front
  deriving DecidableEq

section System

variable {Producer T : Type} [DecidableEq Producer]

def State.at (state : State Producer T) (producer : Producer) (place : PushAt T) :
    State Producer T :=
  { state with push := Function.update state.push producer place }

inductive Step (state : State Producer T) :
    Action Producer T → State Producer T → Prop
  | lockQueue {producer : Producer} {front : Bool} {item : T}
      (at_ : state.push producer = .outside) (free : state.m_muxQueue = none) :
      Step state (.lockQueue producer front item)
        { state.at producer (.holdsQueue front item) with
          m_muxQueue := some (.producer producer) }
  | lockBlock {producer : Producer} {front : Bool} {item : T}
      (at_ : state.push producer = .holdsQueue front item) (free : state.m_muxBlock = none) :
      Step state (.lockBlock producer)
        { state.at producer (.holdsBoth front item) with
          m_muxBlock := some (.producer producer) }
  | insert {producer : Producer} {front : Bool} {item : T}
      (at_ : state.push producer = .holdsBoth front item) :
      Step state (.insert producer)
        { state.at producer .inserted with
          m_deqQueue :=
            if front then item :: state.m_deqQueue else state.m_deqQueue ++ [item] }
  | notify_one {producer : Producer} (at_ : state.push producer = .inserted) :
      Step state (.notify_one producer)
        { state.at producer .notified with
          wait := if state.wait = .asleep then .woken else state.wait }
  | unlock {producer : Producer} (at_ : state.push producer = .notified) :
      Step state (.unlock producer)
        { state.at producer .outside with m_muxQueue := none, m_muxBlock := none }
  | callWait (at_ : state.wait = .outside) :
      Step state .callWait { state with wait := .testing }
  | testEmpty (at_ : state.wait = .testing) (free : state.m_muxQueue = none) :
      Step state .testEmpty
        { state with wait := if state.m_deqQueue.isEmpty then .emptySeen else .outside }
  | blockConsumer (at_ : state.wait = .emptySeen) (free : state.m_muxBlock = none) :
      Step state .blockConsumer
        { state with wait := .holdsBlock, m_muxBlock := some .consumer }
  | sleep (at_ : state.wait = .holdsBlock) :
      Step state .sleep { state with wait := .asleep, m_muxBlock := none }
  | wakeSpuriously (at_ : state.wait = .asleep) :
      Step state .wakeSpuriously { state with wait := .woken }
  | relock (at_ : state.wait = .woken) (free : state.m_muxBlock = none) :
      Step state .relock { state with wait := .returned, m_muxBlock := some .consumer }
  | releaseBlock (at_ : state.wait = .returned) :
      Step state .releaseBlock { state with wait := .testing, m_muxBlock := none }
  | pop_front {first : T} {rest : List T} (at_ : state.wait = .outside)
      (free : state.m_muxQueue = none) (queue : state.m_deqQueue = first :: rest) :
      Step state .pop_front { state with m_deqQueue := rest }

def start : State Producer T where
  m_deqQueue := []
  m_muxQueue := none
  m_muxBlock := none
  push _ := .outside
  wait := .outside

/-- The consumer sleeps with no notification on its way, every push has
finished, and yet the queue holds something. -/
def LostWakeup (state : State Producer T) : Prop :=
  state.m_deqQueue ≠ [] ∧ state.wait = .asleep ∧
    ∀ producer, state.push producer = .outside

/-- No item is inserted between the consumer's test, when it found the queue
empty, and its taking `m_muxBlock`. -/
def OutsideWindow (state : State Producer T) : Action Producer T → Prop
  | .insert _ => state.wait ≠ .emptySeen
  | _ => True

structure Exclusive (state : State Producer T) : Prop where
  queue : ∀ producer, state.push producer ≠ .outside →
    state.m_muxQueue = some (.producer producer)
  block : ∀ producer, (state.push producer).hasBlock = true →
    state.m_muxBlock = some (.producer producer)
  consumer : state.wait.hasBlock = true → state.m_muxBlock = some .consumer

/-- A consumer that is going to sleep has nothing to wait for, and one that is
asleep has nothing or is about to be notified. -/
structure Watched (state : State Producer T) : Prop where
  window : state.wait = .emptySeen ∨ state.wait = .holdsBlock → state.m_deqQueue = []
  asleep : state.wait = .asleep → state.m_deqQueue = [] ∨
    ∃ producer, state.push producer = .inserted

end System

section Invariants

variable {Producer T : Type}

theorem Watched.not_lost {state : State Producer T} (watched : Watched state) :
    ¬LostWakeup state := by
  rintro ⟨nonempty, asleep, finished⟩
  rcases watched.asleep asleep with isEmpty | ⟨producer, inserted⟩
  · exact nonempty isEmpty
  · rw [finished producer] at inserted
    cases inserted

theorem exclusive_start : Exclusive (start : State Producer T) where
  queue _ inside := absurd rfl inside
  block _ holds := by cases holds
  consumer holds := by cases holds

theorem watched_start : Watched (start : State Producer T) where
  window _ := rfl
  asleep asleep := by cases asleep

theorem Exclusive.others {state : State Producer T} (exclusive : Exclusive state)
    {producer : Producer}
    (owner : state.m_muxQueue = none ∨ state.m_muxQueue = some (.producer producer))
    (other : Producer) (different : other ≠ producer) : state.push other = .outside := by
  by_contra inside
  have owned := exclusive.queue other inside
  rcases owner with free | owner
  · rw [free] at owned
    cases owned
  · rw [owner] at owned
    cases owned
    exact different rfl

theorem Exclusive.own {state : State Producer T} (exclusive : Exclusive state)
    {producer : Producer} (inside : state.push producer ≠ .outside) (other : Producer)
    (different : other ≠ producer) : state.push other = .outside :=
  exclusive.others (.inr (exclusive.queue producer inside)) other different

variable [DecidableEq Producer]

@[simp] theorem at_push_self (state : State Producer T) (producer : Producer)
    (place : PushAt T) : (state.at producer place).push producer = place :=
  Function.update_self _ _ _

theorem at_push_of_ne (state : State Producer T) {producer other : Producer}
    (place : PushAt T) (different : other ≠ producer) :
    (state.at producer place).push other = state.push other :=
  Function.update_of_ne different _ _

theorem Exclusive.move {state next : State Producer T} {producer : Producer}
    {place : PushAt T} (others : ∀ other, other ≠ producer → state.push other = .outside)
    (moved : next.push = (state.at producer place).push)
    (queue : place ≠ .outside → next.m_muxQueue = some (.producer producer))
    (block : place.hasBlock = true → next.m_muxBlock = some (.producer producer))
    (consumer : next.wait.hasBlock = true → next.m_muxBlock = some .consumer) :
    Exclusive next where
  queue other := by
    rw [moved]
    by_cases same : other = producer
    · subst same
      rw [at_push_self]
      exact queue
    · rw [at_push_of_ne _ _ same, others other same]
      exact fun inside => absurd rfl inside
  block other := by
    rw [moved]
    by_cases same : other = producer
    · subst same
      rw [at_push_self]
      exact block
    · rw [at_push_of_ne _ _ same, others other same]
      exact fun holds => by cases holds
  consumer := consumer

omit [DecidableEq Producer] in
theorem Exclusive.consume {state next : State Producer T} (exclusive : Exclusive state)
    (samePush : next.push = state.push) (sameQueue : next.m_muxQueue = state.m_muxQueue)
    (block : next.m_muxBlock = state.m_muxBlock ∨ state.m_muxBlock = none ∨
      state.m_muxBlock = some .consumer)
    (consumer : next.wait.hasBlock = true → next.m_muxBlock = some .consumer) :
    Exclusive next where
  queue producer := by
    rw [samePush, sameQueue]
    exact exclusive.queue producer
  block producer := by
    rw [samePush]
    intro holds
    have held := exclusive.block producer holds
    rcases block with same | free | own
    · rw [same, held]
    · rw [free] at held
      cases held
    · rw [own] at held
      cases held
  consumer := consumer

theorem Exclusive.step {state next : State Producer T} {action : Action Producer T}
    (exclusive : Exclusive state) (step : Step state action next) : Exclusive next := by
  cases step with
  | lockQueue at_ free =>
      refine .move (exclusive.others (.inl free)) rfl ?_ ?_ ?_
      · exact fun _ => rfl
      · exact fun holds => by cases holds
      · exact exclusive.consumer
  | @lockBlock producer front item at_ free =>
      have inside : state.push producer ≠ .outside := by simp [at_]
      refine .move (exclusive.own inside) rfl ?_ ?_ ?_
      · exact fun _ => exclusive.queue producer inside
      · exact fun _ => rfl
      · intro holds
        have held := exclusive.consumer holds
        rw [free] at held
        cases held
  | @insert producer front item at_ =>
      have inside : state.push producer ≠ .outside := by simp [at_]
      refine .move (exclusive.own inside) rfl ?_ ?_ ?_
      · exact fun _ => exclusive.queue producer inside
      · exact fun _ => exclusive.block producer (by simp [PushAt.hasBlock, at_])
      · exact exclusive.consumer
  | @notify_one producer at_ =>
      have inside : state.push producer ≠ .outside := by simp [at_]
      refine .move (exclusive.own inside) rfl ?_ ?_ ?_
      · exact fun _ => exclusive.queue producer inside
      · exact fun _ => exclusive.block producer (by simp [PushAt.hasBlock, at_])
      · intro holds
        apply exclusive.consumer
        by_cases asleep : state.wait = .asleep
        · simp [asleep, WaitAt.hasBlock] at holds
        · simpa [asleep] using holds
  | @unlock producer at_ =>
      have inside : state.push producer ≠ .outside := by simp [at_]
      refine .move (exclusive.own inside) rfl ?_ ?_ ?_
      · exact fun inside => absurd rfl inside
      · exact fun holds => by cases holds
      · intro holds
        have held := exclusive.consumer holds
        rw [exclusive.block producer (by simp [PushAt.hasBlock, at_])] at held
        cases held
  | callWait at_ => exact exclusive.consume rfl rfl (.inl rfl) fun holds => by cases holds
  | testEmpty at_ free =>
      refine exclusive.consume rfl rfl (.inl rfl) fun holds => ?_
      cases isEmpty : state.m_deqQueue.isEmpty <;> simp [isEmpty, WaitAt.hasBlock] at holds
  | blockConsumer at_ free => exact exclusive.consume rfl rfl (.inr (.inl free)) fun _ => rfl
  | sleep at_ =>
      have own := exclusive.consumer (by simp [WaitAt.hasBlock, at_])
      exact exclusive.consume rfl rfl (.inr (.inr own)) fun holds => by cases holds
  | wakeSpuriously at_ =>
      exact exclusive.consume rfl rfl (.inl rfl) fun holds => by cases holds
  | relock at_ free => exact exclusive.consume rfl rfl (.inr (.inl free)) fun _ => rfl
  | releaseBlock at_ =>
      have own := exclusive.consumer (by simp [WaitAt.hasBlock, at_])
      exact exclusive.consume rfl rfl (.inr (.inr own)) fun holds => by cases holds
  | pop_front at_ free queue => exact exclusive.consume rfl rfl (.inl rfl) exclusive.consumer

theorem exclusive_of_trace {state : State Producer T} {actions : List (Action Producer T)}
    (trace : Trace Step start actions state) : Exclusive state :=
  trace.invariant (fun _ _ _ exclusive step => exclusive.step step) exclusive_start

theorem Watched.move {state next : State Producer T} (watched : Watched state)
    {producer : Producer} {place : PushAt T} (notInserted : state.push producer ≠ .inserted)
    (moved : next.push = (state.at producer place).push)
    (sameQueue : next.m_deqQueue = state.m_deqQueue) (sameWait : next.wait = state.wait) :
    Watched next where
  window := by
    rw [sameQueue, sameWait]
    exact watched.window
  asleep := by
    rw [sameQueue, sameWait, moved]
    intro asleep
    rcases watched.asleep asleep with isEmpty | ⟨other, inserted⟩
    · exact .inl isEmpty
    · refine .inr ⟨other, ?_⟩
      rw [at_push_of_ne]
      · exact inserted
      · intro same
        exact notInserted (same ▸ inserted)

theorem Watched.step {state next : State Producer T} {action : Action Producer T}
    (exclusive : Exclusive state) (watched : Watched state) (step : Step state action next)
    (outside : OutsideWindow state action) : Watched next := by
  cases step with
  | lockQueue at_ free => exact watched.move (by simp [at_]) rfl rfl rfl
  | lockBlock at_ free => exact watched.move (by simp [at_]) rfl rfl rfl
  | unlock at_ => exact watched.move (by simp [at_]) rfl rfl rfl
  | @insert producer front item at_ =>
      -- The consumer is not past its test: `m_muxBlock` keeps it out of the sleep.
      refine ⟨?_, fun _ => .inr ⟨producer, at_push_self _ _ _⟩⟩
      rintro (seen | holds)
      · exact absurd seen outside
      · have own := exclusive.block producer (by simp [PushAt.hasBlock, at_])
        have other := exclusive.consumer (by
          change state.wait = .holdsBlock at holds
          simp [WaitAt.hasBlock, holds])
        rw [own] at other
        cases other
  | notify_one at_ =>
      by_cases asleep : state.wait = .asleep
      · constructor <;> simp [asleep]
      · constructor
        · simp only [asleep, if_false]
          exact watched.window
        · simp [asleep]
  | callWait at_ => constructor <;> simp
  | testEmpty at_ free =>
      cases isEmpty : state.m_deqQueue.isEmpty with
      | false => constructor <;> simp
      | true => constructor <;> simp [List.isEmpty_iff.mp isEmpty]
  | blockConsumer at_ free =>
      refine ⟨fun _ => watched.window (.inl at_), fun asleep => by cases asleep⟩
  | sleep at_ =>
      refine ⟨fun seen => ?_, fun _ => .inl (watched.window (.inr at_))⟩
      rcases seen with impossible | impossible <;> cases impossible
  | wakeSpuriously at_ => constructor <;> simp
  | relock at_ free => constructor <;> simp
  | releaseBlock at_ => constructor <;> simp
  | pop_front at_ free queue => constructor <;> simp [at_]

/-- In every run in which nothing is inserted between the consumer's test and
its taking `m_muxBlock`, no wakeup is lost. -/
theorem no_lost_wakeup {state : State Producer T} {actions : List (Action Producer T)}
    (trace : Trace (StepWhere Step OutsideWindow) start actions state) :
    ¬LostWakeup state := by
  have preserved : ∀ (current : State Producer T) action next, Exclusive current →
      Watched current → OutsideWindow current action → Step current action next → Watched next :=
    fun _ _ _ exclusive watched outside step => watched.step exclusive step outside
  have always : ∀ (current : State Producer T) action next, Exclusive current →
      Step current action next → Exclusive next := fun _ _ _ => Exclusive.step
  rcases trace.invariant_where always preserved exclusive_start watched_start with ⟨-, watched⟩
  exact watched.not_lost

theorem no_lost_wakeup_push_while_asleep :
    ∃ state : State Unit Nat,
      Trace (StepWhere Step OutsideWindow) start
        [.callWait, .testEmpty, .blockConsumer, .sleep, .lockQueue () false 7,
          .lockBlock (), .insert ()] state ∧
      state.m_deqQueue = [7] ∧ state.wait = .asleep ∧ ¬LostWakeup state := by
  have trace : Trace (StepWhere Step OutsideWindow) (start : State Unit Nat)
      [.callWait, .testEmpty, .blockConsumer, .sleep, .lockQueue () false 7,
        .lockBlock (), .insert ()] _ :=
    .cons ⟨.callWait rfl, trivial⟩ (.cons ⟨.testEmpty rfl rfl, trivial⟩
      (.cons ⟨.blockConsumer rfl rfl, trivial⟩ (.cons ⟨.sleep rfl, trivial⟩
      (.cons ⟨.lockQueue rfl rfl, trivial⟩ (.cons ⟨.lockBlock rfl rfl, trivial⟩
      (.cons ⟨.insert rfl, fun seen => by cases seen⟩ (.nil _)))))))
  exact ⟨_, trace, rfl, rfl, no_lost_wakeup trace⟩

/-- The consumer finds the queue empty, a push runs from beginning to end, and
the consumer goes to sleep. -/
theorem push_before_sleep_is_lost :
    ∃ state : State Unit Nat,
      Trace Step start
        [.callWait, .testEmpty, .lockQueue () false 7, .lockBlock (), .insert (),
          .notify_one (), .unlock (), .blockConsumer, .sleep] state ∧
      LostWakeup state :=
  ⟨_, .cons (.callWait rfl) (.cons (.testEmpty rfl rfl) (.cons (.lockQueue rfl rfl)
    (.cons (.lockBlock rfl rfl) (.cons (.insert rfl) (.cons (.notify_one rfl)
    (.cons (.unlock rfl) (.cons (.blockConsumer rfl rfl) (.cons (.sleep rfl) (.nil _))))))))),
    by simp [start, State.at], rfl, fun _ => rfl⟩

/-- An insertion in that window, wherever it happens, can be followed by a lost
wakeup: nothing else needs to be pushed for the consumer to sleep through it. -/
theorem insert_in_window_loses {state next : State Producer T} {producer : Producer}
    {actions : List (Action Producer T)} (trace : Trace Step start actions state)
    (step : Step state (.insert producer) next) (seen : state.wait = .emptySeen) :
    ∃ last, Trace Step next
      [.notify_one producer, .unlock producer, .blockConsumer, .sleep] last ∧
        LostWakeup last := by
  have exclusive := exclusive_of_trace trace
  cases step with
  | @insert _ front item at_ =>
      have inside : state.push producer ≠ .outside := by simp [at_]
      refine ⟨_, .cons (.notify_one ?_) (.cons (.unlock ?_) (.cons (.blockConsumer ?_ ?_)
        (.cons (.sleep ?_) (.nil _)))), ?_, rfl, ?_⟩
      · simp
      · simp
      · simp [State.at, seen]
      · rfl
      · rfl
      · cases front <;> simp [State.at]
      · intro other
        by_cases same : other = producer
        · simp [State.at, same]
        · simp [State.at, same, exclusive.own inside other same]

end Invariants

end NetQueueWait

end GNL
