import GNL.Semantics.Trace

/-! # The loop that waits for datagrams (`ServerApp::AwaitUDPConnection`)

The socket of a receive is a local variable of the function that starts it, so it is
destroyed when the function returns. What has not completed by then completes as
aborted, and its handler starts over.
-/

namespace GNL

inductive Received
  | datagram
  | failed
  | aborted
  deriving DecidableEq

/-- Where the receive stands that the last call of `AwaitUDPConnection` started. -/
inductive Receive
  | idle
  | waiting
  | completed (how : Received)
  deriving DecidableEq

inductive AwaitAt
  | outside
  /-- Before the constructor of `socketTmp`. -/
  | entering
  /-- Before `async_receive_from`. -/
  | opened
  /-- Before the return. -/
  | receiving
  deriving DecidableEq

/-- A server that was started. `buffered` counts the datagrams that the socket holds
and `handlerRuns` how often a handler was called; `terminated` says whether the
constructor of the socket has thrown, and `dangling` whether a handler has used the
socket of a function that has returned. -/
structure UDPAcceptLoop where
  place : AwaitAt
  receive : Receive
  buffered : Nat
  handlerRuns : Nat
  datagrams : Nat
  failures : Nat
  terminated : Bool
  dangling : Bool
  deriving DecidableEq

namespace UDPAcceptLoop

def start : UDPAcceptLoop where
  place := .entering
  receive := .idle
  buffered := 0
  handlerRuns := 0
  datagrams := 0
  failures := 0
  terminated := false
  dangling := false

inductive Action
  | datagram
  | fail
  | socket (ok : Bool)
  | async_receive_from
  | return_
  | handle
  deriving DecidableEq

def Running (loop : UDPAcceptLoop) : Prop := loop.terminated = false ∧ loop.dangling = false

/-- A datagram completes the receive that is waiting, or is kept by the socket, or is
lost where there is none. -/
def arrive (loop : UDPAcceptLoop) : UDPAcceptLoop :=
  if loop.receive = .waiting then
    { loop with datagrams := loop.datagrams + 1, receive := .completed .datagram }
  else if loop.place = .opened ∨ loop.place = .receiving then
    { loop with datagrams := loop.datagrams + 1, buffered := loop.buffered + 1 }
  else
    { loop with datagrams := loop.datagrams + 1 }

def async_receive_from (loop : UDPAcceptLoop) : UDPAcceptLoop :=
  match loop.buffered with
  | 0 => { loop with place := .receiving, receive := .waiting }
  | buffered + 1 =>
      { loop with place := .receiving, receive := .completed .datagram, buffered := buffered }

def return_ (loop : UDPAcceptLoop) : UDPAcceptLoop :=
  { loop with
    place := .outside
    receive := if loop.receive = .waiting then .completed .aborted else loop.receive
    buffered := 0 }

/-- The handler. After a datagram it uses the socket, and after an error it starts
over. -/
def handle (loop : UDPAcceptLoop) : Received → UDPAcceptLoop
  | .datagram =>
      { loop with receive := .idle, handlerRuns := loop.handlerRuns + 1, dangling := true }
  | .failed | .aborted =>
      { loop with receive := .idle, handlerRuns := loop.handlerRuns + 1, place := .entering }

inductive Step (loop : UDPAcceptLoop) : Action → UDPAcceptLoop → Prop
  | datagram (running : loop.Running) : Step loop .datagram loop.arrive
  | fail (running : loop.Running) (waiting : loop.receive = .waiting) :
      Step loop .fail
        { loop with failures := loop.failures + 1, receive := .completed .failed }
  | socket (running : loop.Running) (at_ : loop.place = .entering) :
      Step loop (.socket true) { loop with place := .opened }
  | throw (running : loop.Running) (at_ : loop.place = .entering) :
      Step loop (.socket false) { loop with terminated := true }
  | async_receive_from (running : loop.Running) (at_ : loop.place = .opened) :
      Step loop .async_receive_from loop.async_receive_from
  | return_ (running : loop.Running) (at_ : loop.place = .receiving) :
      Step loop .return_ loop.return_
  | handle {received : Received} (running : loop.Running) (at_ : loop.place = .outside)
      (completed : loop.receive = .completed received) :
      Step loop .handle (loop.handle received)

def Waits (loop : UDPAcceptLoop) : Prop := loop.handlerRuns ≤ loop.datagrams + loop.failures

def ReturnsCompleted (loop : UDPAcceptLoop) : Action → Prop
  | .return_ => loop.receive ≠ .waiting
  | _ => True

def completed (loop : UDPAcceptLoop) : Nat :=
  match loop.receive with
  | .completed _ => 1
  | _ => 0

def Accounted (loop : UDPAcceptLoop) : Prop :=
  loop.handlerRuns + loop.completed + loop.buffered ≤ loop.datagrams + loop.failures

section Steps

variable {loop next : UDPAcceptLoop} {action : Action}

theorem Accounted.step (accounted : loop.Accounted) (returns : loop.ReturnsCompleted action)
    (step : Step loop action next) : next.Accounted := by
  cases step with
  | datagram running =>
      unfold arrive
      split
      next waiting =>
        simp only [Accounted, completed, waiting] at accounted ⊢
        omega
      next =>
        split
        · simp only [Accounted, completed] at accounted ⊢
          omega
        · simp only [Accounted, completed] at accounted ⊢
          omega
  | fail running waiting =>
      simp only [Accounted, completed, waiting] at accounted ⊢
      omega
  | socket running at_ => exact accounted
  | throw running at_ => exact accounted
  | async_receive_from running at_ =>
      unfold UDPAcceptLoop.async_receive_from
      split
      next empty =>
        simp only [Accounted, completed] at accounted ⊢
        omega
      next held =>
        simp only [Accounted, completed] at accounted ⊢
        omega
  | return_ running at_ =>
      have notWaiting : loop.receive ≠ .waiting := returns
      simp only [Accounted, completed, UDPAcceptLoop.return_, if_neg notWaiting] at accounted ⊢
      omega
  | @handle received running at_ completed_ =>
      simp only [Accounted, completed, completed_] at accounted
      cases received with
      | datagram =>
          simp only [Accounted, completed, UDPAcceptLoop.handle]
          omega
      | failed =>
          simp only [Accounted, completed, UDPAcceptLoop.handle]
          omega
      | aborted =>
          simp only [Accounted, completed, UDPAcceptLoop.handle]
          omega

theorem not_aborted_step (notAborted : loop.receive ≠ .completed .aborted)
    (returns : loop.ReturnsCompleted action) (step : Step loop action next) :
    next.receive ≠ .completed .aborted := by
  cases step with
  | datagram running =>
      unfold arrive
      split
      · simp
      · split
        · exact notAborted
        · exact notAborted
  | fail running waiting => simp
  | socket running at_ => exact notAborted
  | throw running at_ => exact notAborted
  | async_receive_from running at_ =>
      unfold UDPAcceptLoop.async_receive_from
      split
      · simp
      · simp
  | return_ running at_ =>
      have notWaiting : loop.receive ≠ .waiting := returns
      simp only [UDPAcceptLoop.return_, if_neg notWaiting]
      exact notAborted
  | @handle received running at_ completed_ =>
      cases received with
      | datagram => simp [UDPAcceptLoop.handle]
      | failed => simp [UDPAcceptLoop.handle]
      | aborted => simp [UDPAcceptLoop.handle]

end Steps

structure Aborted (loop : UDPAcceptLoop) : Prop where
  running : loop.Running
  place : loop.place = .outside
  receive : loop.receive = .completed .aborted
  buffered : loop.buffered = 0

/-- The handler of an aborted receive, which starts one that is aborted again. -/
def cycle : List Action := [.handle, .socket true, .async_receive_from, .return_]

theorem aborted_return {loop : UDPAcceptLoop} (running : loop.Running)
    (waiting : loop.receive = .waiting) : loop.return_.Aborted where
  running := running
  place := rfl
  receive := if_pos waiting
  buffered := rfl

theorem running_async_receive_from {loop : UDPAcceptLoop} (running : loop.Running) :
    loop.async_receive_from.Running := by
  unfold UDPAcceptLoop.async_receive_from
  split
  · exact running
  · exact running

theorem Aborted.cycle {loop : UDPAcceptLoop} (aborted : loop.Aborted) :
    Trace Step loop cycle { loop with handlerRuns := loop.handlerRuns + 1 } := by
  have ends : (({ loop.handle .aborted with place := .opened }).async_receive_from).return_ =
      { loop with handlerRuns := loop.handlerRuns + 1 } := by
    simp [UDPAcceptLoop.handle, UDPAcceptLoop.async_receive_from, UDPAcceptLoop.return_,
      aborted.buffered, aborted.place, aborted.receive]
  have receives : ({ loop.handle .aborted with place := .opened }).async_receive_from.place =
      .receiving := by
    simp [UDPAcceptLoop.handle, UDPAcceptLoop.async_receive_from, aborted.buffered]
  have runs : ({ loop.handle .aborted with place := .opened }).async_receive_from.Running :=
    running_async_receive_from aborted.running
  rw [← ends]
  exact .cons (.handle aborted.running aborted.place aborted.receive)
    (.cons (.socket aborted.running rfl) (.cons (.async_receive_from aborted.running rfl)
    (.cons (.return_ runs receives) (.nil _))))

theorem Aborted.cycles {loop : UDPAcceptLoop} (aborted : loop.Aborted) (count : Nat) :
    Trace Step loop (List.replicate count UDPAcceptLoop.cycle).flatten
      { loop with handlerRuns := loop.handlerRuns + count } := by
  induction count generalizing loop with
  | zero => exact .nil loop
  | succ count induction =>
      have again : { loop with handlerRuns := loop.handlerRuns + 1 }.Aborted :=
        ⟨aborted.running, aborted.place, aborted.receive, aborted.buffered⟩
      have later := induction again
      rw [List.replicate_succ, List.flatten_cons]
      simp only [Nat.add_assoc, Nat.add_comm 1] at later
      exact aborted.cycle.append later

/-- In every run in which `AwaitUDPConnection` returns only when its receive has
completed, the handler waits for datagrams; and after any other return it need not wait
for any. -/
theorem waits_for_datagrams (loop : UDPAcceptLoop) :
    (∀ actions, Trace (StepWhere Step ReturnsCompleted) start actions loop →
      loop.Waits ∧ loop.receive ≠ .completed .aborted) ∧
    ∀ next, Step loop .return_ next → ¬loop.ReturnsCompleted .return_ →
      ∃ later last, (∀ action ∈ later, action ≠ .datagram ∧ action ≠ .fail) ∧
        Trace Step next later last ∧ ¬last.Waits := by
  constructor
  · intro actions meets
    have preserved : ∀ current action next,
        current.Accounted ∧ current.receive ≠ .completed .aborted →
        StepWhere Step ReturnsCompleted current action next →
        next.Accounted ∧ next.receive ≠ .completed .aborted :=
      fun _ _ _ ⟨accounted, notAborted⟩ ⟨step, returns⟩ =>
        ⟨accounted.step returns step, not_aborted_step notAborted returns step⟩
    have begins : start.Accounted ∧ start.receive ≠ .completed .aborted :=
      ⟨Nat.le_refl 0, by simp [start]⟩
    rcases meets.invariant preserved begins with ⟨accounted, notAborted⟩
    refine ⟨?_, notAborted⟩
    simp only [Accounted] at accounted
    simp only [Waits]
    omega
  · intro next step early
    cases step with
    | return_ running at_ =>
        have waiting : loop.receive = .waiting := not_not.mp early
        let count := loop.datagrams + loop.failures + 1
        refine ⟨_, _, ?_, (aborted_return running waiting).cycles count, ?_⟩
        · intro action member
          rcases List.mem_flatten.mp member with ⟨actions, isCycle, inCycle⟩
          rw [List.eq_of_mem_replicate isCycle] at inCycle
          simp only [cycle, List.mem_cons, List.not_mem_nil, or_false] at inCycle
          rcases inCycle with rfl | rfl | rfl | rfl <;> simp
        · simp only [Waits, UDPAcceptLoop.return_, count]
          omega

theorem waits_for_datagrams_one_early :
    let lucky : List Action := [.socket true, .datagram, .async_receive_from, .return_, .handle]
    let unlucky : List Action := [.socket true, .async_receive_from]
    (∃ loop, Trace Step start lucky loop ∧ loop.handlerRuns = 1 ∧ loop.Waits) ∧
    ∃ loop next, Trace Step start unlucky loop ∧ Step loop .return_ next ∧
      ∃ later last, (∀ action ∈ later, action ≠ .datagram ∧ action ≠ .fail) ∧
        Trace Step next later last ∧ ¬last.Waits := by
  intro lucky unlucky
  constructor
  · have trace : ∃ loop, Trace (StepWhere Step ReturnsCompleted) start lucky loop ∧
        loop.handlerRuns = 1 :=
      ⟨_, .cons ⟨.socket ⟨rfl, rfl⟩ rfl, trivial⟩ (.cons ⟨.datagram ⟨rfl, rfl⟩, trivial⟩
        (.cons ⟨.async_receive_from ⟨rfl, rfl⟩ rfl, trivial⟩
        (.cons ⟨.return_ ⟨rfl, rfl⟩ rfl, fun waiting => by cases waiting⟩
        (.cons ⟨.handle ⟨rfl, rfl⟩ rfl rfl, trivial⟩ (.nil _))))), rfl⟩
    rcases trace with ⟨loop, meets, once⟩
    exact ⟨loop, meets.unconditional, once, ((waits_for_datagrams loop).1 lucky meets).1⟩
  · have trace : Trace Step start unlucky
        { start with place := .receiving, receive := .waiting } :=
      .cons (.socket ⟨rfl, rfl⟩ rfl) (.cons (.async_receive_from ⟨rfl, rfl⟩ rfl) (.nil _))
    have returns : Step { start with place := .receiving, receive := .waiting } .return_ _ :=
      .return_ ⟨rfl, rfl⟩ rfl
    exact ⟨_, _, trace, returns,
      (waits_for_datagrams _).2 _ returns fun completed => completed rfl⟩

/-- The first call returns, and the handler of its receive runs before anything has
arrived. -/
theorem handler_without_datagram :
    ∃ loop, Trace Step start [.socket true, .async_receive_from, .return_, .handle] loop ∧
      loop.handlerRuns = 1 ∧ loop.datagrams = 0 ∧ loop.failures = 0 ∧ ¬loop.Waits := by
  refine ⟨_, .cons (.socket ⟨rfl, rfl⟩ rfl) (.cons (.async_receive_from ⟨rfl, rfl⟩ rfl)
    (.cons (.return_ ⟨rfl, rfl⟩ rfl) (.cons (.handle ⟨rfl, rfl⟩ rfl rfl) (.nil _)))),
    rfl, rfl, rfl, ?_⟩
  exact Nat.not_succ_le_zero 0

end UDPAcceptLoop

end GNL
