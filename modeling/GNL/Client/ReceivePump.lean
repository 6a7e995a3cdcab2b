import GNL.Client.NetNode
import GNL.Semantics.Trace

/-! # The receive pump of the node (`NetNode::_process`, `PrepareNextPkt`)

A frame copies the packet at the front of `m_PktIn` and signals it; removing it is left
to the script. Packets arrive on another thread between any two steps, and the socket
may close there, which `_process` asks about once.
-/

namespace GNL

namespace ReceivePump

inductive FrameAt
  /-- In the script, between two frames. -/
  | outside
  /-- In `_process`, after `IsConnected`. -/
  | connected
  /-- After `is_empty`. -/
  | nonEmpty
  /-- After `get_front`. -/
  | fronted
  /-- In the script, which handles the signal. -/
  | signalling
  deriving DecidableEq

/-- The node with its incoming queue. `arrived` records what was pushed, `signalled`
what was signalled and how many packets had been removed before it, `popped` how many
were removed, `calls` how often `PrepareNextPkt` was called since the last signal, and
`poppedEmpty` whether it was applied to an empty queue. -/
structure Pump where
  node : NetNode
  m_PktIn : List (OwnedPacket CMD)
  place : FrameAt
  arrived : List (Packet CMD)
  signalled : List (Nat × Packet CMD)
  popped : Nat
  calls : Nat
  poppedEmpty : Bool
  deriving DecidableEq

namespace Pump

def start (node : NetNode) : Pump where
  node := node
  m_PktIn := []
  place := .outside
  arrived := []
  signalled := []
  popped := 0
  calls := 0
  poppedEmpty := false

def PushToIncomingQueue (pump : Pump) (pkt : Packet CMD) : Pump :=
  { pump with
    m_PktIn := pump.m_PktIn ++ [⟨none, pkt⟩]
    arrived := pump.arrived ++ [pkt] }

def pop_front (pump : Pump) : Pump :=
  match pump.m_PktIn with
  | [] => { pump with poppedEmpty := true }
  | _ :: rest => { pump with m_PktIn := rest, popped := pump.popped + 1 }

def PrepareNextPkt (pump : Pump) : Pump :=
  { pump.pop_front with
    node.m_pktIn.body := []
    node.m_pktIn.header.cmdID := .Invalid
    calls := pump.calls + 1 }

theorem PrepareNextPkt_nil {pump : Pump} (queue : pump.m_PktIn = []) :
    pump.PrepareNextPkt = { pump with
      node.m_pktIn.body := []
      node.m_pktIn.header.cmdID := .Invalid
      calls := pump.calls + 1
      poppedEmpty := true } := by
  simp only [PrepareNextPkt, pop_front, queue]

theorem PrepareNextPkt_cons {pump : Pump} {front : OwnedPacket CMD}
    {rest : List (OwnedPacket CMD)} (queue : pump.m_PktIn = front :: rest) :
    pump.PrepareNextPkt = { pump with
      m_PktIn := rest
      node.m_pktIn.body := []
      node.m_pktIn.header.cmdID := .Invalid
      popped := pump.popped + 1
      calls := pump.calls + 1 } := by
  simp only [PrepareNextPkt, pop_front, queue]

def InScript (pump : Pump) : Prop := pump.place = .outside ∨ pump.place = .signalling

end Pump

inductive Action
  | arrive (pkt : Packet CMD)
  | socket (isOpen : Bool)
  | process
  | is_empty
  | get_front
  | emit_signal
  | PrepareNextPkt
  | read (rest : Packet CMD)
  | handled
  deriving DecidableEq

inductive Step (pump : Pump) : Action → Pump → Prop
  | arrive (pkt : Packet CMD) : Step pump (.arrive pkt) (pump.PushToIncomingQueue pkt)
  | socket (isOpen : Bool) :
      Step pump (.socket isOpen) { pump with node.m_Client.connected := isOpen }
  | process (at_ : pump.place = .outside) :
      Step pump .process
        { pump with place := if pump.node.m_Client.IsConnected then .connected else .outside }
  | is_empty (at_ : pump.place = .connected) :
      Step pump .is_empty
        { pump with place := if pump.m_PktIn.isEmpty then .outside else .nonEmpty }
  | get_front {front : OwnedPacket CMD} {rest : List (OwnedPacket CMD)}
      (at_ : pump.place = .nonEmpty) (queue : pump.m_PktIn = front :: rest) :
      Step pump .get_front { pump with node.m_pktIn := front.pkt, place := .fronted }
  | emit_signal (at_ : pump.place = .fronted) :
      Step pump .emit_signal
        { pump with
          place := .signalling
          signalled := pump.signalled ++ [(pump.popped, pump.node.m_pktIn)]
          calls := 0 }
  | PrepareNextPkt (at_ : pump.InScript) : Step pump .PrepareNextPkt pump.PrepareNextPkt
  | read (rest : Packet CMD) (at_ : pump.InScript) :
      Step pump (.read rest) { pump with node.m_pktIn := rest }
  | handled (at_ : pump.place = .signalling) :
      Step pump .handled { pump with place := .outside }

/-- The script calls `PrepareNextPkt` once in each handler of the signal, and nowhere
else. -/
def OncePerSignal (pump : Pump) : Action → Prop
  | .PrepareNextPkt => pump.place = .signalling ∧ pump.calls = 0
  | .handled => pump.calls = 1
  | _ => True

def SignalledSince (pump : Pump) : Action → Prop
  | .PrepareNextPkt => pump.signalled ≠ [] ∧ pump.calls = 0
  | _ => True

section InOrder

def Pump.unprepared (pump : Pump) : Nat :=
  if pump.place = .signalling ∧ pump.calls = 0 then 1 else 0

structure InOrder (pump : Pump) : Prop where
  arrived : pump.arrived =
    pump.signalled.map Prod.snd ++ (pump.m_PktIn.drop pump.unprepared).map (·.pkt)
  indices : pump.signalled.map Prod.fst = List.range (pump.popped + pump.unprepared)
  unprepared : pump.unprepared ≤ pump.m_PktIn.length
  fronted : pump.place = .fronted →
    pump.m_PktIn.head?.map (·.pkt) = some pump.node.m_pktIn

theorem inOrder_start (node : NetNode) : InOrder (Pump.start node) where
  arrived := rfl
  indices := rfl
  unprepared := Nat.le_refl 0
  fronted at_ := by cases at_

variable {pump next : Pump} {action : Action}

theorem unprepared_of_ne (pump : Pump) (other : pump.place ≠ .signalling) : pump.unprepared = 0 :=
  if_neg fun both => other both.1

theorem InOrder.move (inOrder : InOrder pump) (arrived : next.arrived = pump.arrived)
    (m_PktIn : next.m_PktIn = pump.m_PktIn) (signalled : next.signalled = pump.signalled)
    (popped : next.popped = pump.popped) (unprepared : next.unprepared = pump.unprepared)
    (fronted : next.place = .fronted →
      next.m_PktIn.head?.map (·.pkt) = some next.node.m_pktIn) : InOrder next where
  arrived := by rw [arrived, m_PktIn, signalled, unprepared, inOrder.arrived]
  indices := by rw [popped, signalled, unprepared, inOrder.indices]
  unprepared := by
    rw [m_PktIn, unprepared]
    exact inOrder.unprepared
  fronted := fronted

theorem InOrder.arrive (inOrder : InOrder pump) (pkt : Packet CMD) :
    InOrder (pump.PushToIncomingQueue pkt) := by
  let owned : OwnedPacket CMD := ⟨none, pkt⟩
  have m_PktIn : (pump.PushToIncomingQueue pkt).m_PktIn = pump.m_PktIn ++ [owned] := rfl
  have unprepared : (pump.PushToIncomingQueue pkt).unprepared = pump.unprepared := rfl
  refine ⟨?_, inOrder.indices, ?_, ?_⟩
  · rw [m_PktIn, unprepared, List.drop_append_of_le_length inOrder.unprepared, List.map_append,
      ← List.append_assoc]
    exact congrArg (· ++ [pkt]) inOrder.arrived
  · rw [m_PktIn, unprepared, List.length_append]
    exact Nat.le_add_right_of_le inOrder.unprepared
  · intro at_
    have before := inOrder.fronted at_
    rw [m_PktIn]
    cases queue : pump.m_PktIn with
    | nil =>
        rw [queue] at before
        contradiction
    | cons front rest =>
        rw [queue] at before
        exact before

theorem InOrder.emit_signal (inOrder : InOrder pump) (at_ : pump.place = .fronted) :
    InOrder { pump with
      place := .signalling
      signalled := pump.signalled ++ [(pump.popped, pump.node.m_pktIn)]
      calls := 0 } := by
  have noneBefore : pump.unprepared = 0 := unprepared_of_ne pump (by simp [at_])
  have arrived := inOrder.arrived
  have indices := inOrder.indices
  rw [noneBefore] at arrived indices
  rcases Option.map_eq_some_iff.mp (inOrder.fronted at_) with ⟨front, isFront, samePkt⟩
  rcases List.head?_eq_some_iff.mp isFront with ⟨rest, queue⟩
  refine ⟨?_, ?_, ?_, nofun⟩
  · simp only [Pump.unprepared, and_self, if_true]
    rw [arrived, queue]
    simp [samePkt]
  · simp only [Pump.unprepared, and_self, if_true]
    rw [List.map_append, indices, List.range_succ]
    rfl
  · simp [Pump.unprepared, queue]

theorem InOrder.PrepareNextPkt (inOrder : InOrder pump) (at_ : pump.place = .signalling)
    (first : pump.calls = 0) : InOrder pump.PrepareNextPkt := by
  have oneBefore : pump.unprepared = 1 := if_pos ⟨at_, first⟩
  have arrived := inOrder.arrived
  have indices := inOrder.indices
  have nonempty := inOrder.unprepared
  rw [oneBefore] at arrived indices nonempty
  rcases List.exists_cons_of_length_pos nonempty with ⟨front, rest, queue⟩
  rw [Pump.PrepareNextPkt_cons queue]
  refine ⟨?_, ?_, ?_, ?_⟩
  · simpa [Pump.unprepared, queue] using arrived
  · simpa [Pump.unprepared] using indices
  · simp [Pump.unprepared]
  · simp [at_]

theorem InOrder.step (inOrder : InOrder pump) (once : OncePerSignal pump action)
    (step : Step pump action next) : InOrder next := by
  cases step with
  | arrive pkt => exact inOrder.arrive pkt
  | socket isOpen => exact inOrder.move rfl rfl rfl rfl rfl inOrder.fronted
  | process at_ =>
      refine inOrder.move rfl rfl rfl rfl ?_ ?_
      · rw [unprepared_of_ne pump (by simp [at_])]
        exact unprepared_of_ne _ (by dsimp only; split <;> simp)
      · dsimp only
        split <;> simp
  | is_empty at_ =>
      refine inOrder.move rfl rfl rfl rfl ?_ ?_
      · rw [unprepared_of_ne pump (by simp [at_])]
        exact unprepared_of_ne _ (by dsimp only; split <;> simp)
      · dsimp only
        split <;> simp
  | get_front at_ queue =>
      refine inOrder.move rfl rfl rfl rfl ?_ ?_
      · rw [unprepared_of_ne pump (by simp [at_])]
        exact unprepared_of_ne _ (by simp)
      · simp [queue]
  | emit_signal at_ => exact inOrder.emit_signal at_
  | PrepareNextPkt at_ => exact inOrder.PrepareNextPkt once.1 once.2
  | read rest at_ =>
      refine inOrder.move rfl rfl rfl rfl rfl ?_
      intro fronted
      rcases at_ with isOutside | isSignalling
      · exact absurd (isOutside.symm.trans fronted) (by simp)
      · exact absurd (isSignalling.symm.trans fronted) (by simp)
  | handled at_ =>
      have once : pump.calls = 1 := once
      refine inOrder.move rfl rfl rfl rfl ?_ nofun
      simp [Pump.unprepared, once]

end InOrder

section Frame

variable {pump next : Pump} {action : Action} {signals : Nat}

def InFrame (signals : Nat) (pump : Pump) : Prop :=
  match pump.place with
  | .connected | .nonEmpty => pump.signalled.length = signals ∧ pump.m_PktIn ≠ []
  | .fronted => pump.signalled.length = signals
  | .signalling | .outside => pump.signalled.length = signals + 1

theorem InFrame.step (inFrame : InFrame signals pump) (sameFrame : action ≠ .process)
    (step : StepWhere Step OncePerSignal pump action next) : InFrame signals next := by
  rcases step with ⟨step, once⟩
  cases step with
  | arrive pkt =>
      have grows : (pump.PushToIncomingQueue pkt).m_PktIn ≠ [] :=
        List.append_ne_nil_of_right_ne_nil _ (List.cons_ne_nil _ _)
      have samePlace : (pump.PushToIncomingQueue pkt).place = pump.place := rfl
      unfold InFrame at inFrame ⊢
      rw [samePlace]
      cases place : pump.place with
      | connected =>
          simp only [place] at inFrame
          exact ⟨inFrame.1, grows⟩
      | nonEmpty =>
          simp only [place] at inFrame
          exact ⟨inFrame.1, grows⟩
      | _ =>
          simp only [place] at inFrame
          exact inFrame
  | socket isOpen => exact inFrame
  | process at_ => exact absurd rfl sameFrame
  | is_empty at_ =>
      simp only [InFrame, at_] at inFrame
      simp [InFrame, inFrame]
  | get_front at_ queue =>
      simp only [InFrame, at_] at inFrame
      exact inFrame.1
  | emit_signal at_ =>
      simp only [InFrame, at_] at inFrame
      simp [InFrame, inFrame]
  | PrepareNextPkt at_ =>
      have signalling : pump.place = .signalling := once.1
      simp only [InFrame, signalling] at inFrame
      cases queue : pump.m_PktIn with
      | nil => simp [Pump.PrepareNextPkt_nil queue, InFrame, signalling, inFrame]
      | cons => simp [Pump.PrepareNextPkt_cons queue, InFrame, signalling, inFrame]
  | read rest at_ => exact inFrame
  | handled at_ =>
      simp only [InFrame, at_] at inFrame
      exact inFrame

def Skipped (signals : Nat) (pump : Pump) : Prop :=
  pump.place = .outside ∧ pump.signalled.length = signals

theorem Skipped.step (skipped : Skipped signals pump) (sameFrame : action ≠ .process)
    (step : StepWhere Step OncePerSignal pump action next) : Skipped signals next := by
  rcases step with ⟨step, once⟩
  rcases skipped with ⟨isOutside, same⟩
  cases step with
  | arrive pkt => exact ⟨isOutside, same⟩
  | socket isOpen => exact ⟨isOutside, same⟩
  | process at_ => exact absurd rfl sameFrame
  | PrepareNextPkt at_ => exact absurd (isOutside.symm.trans once.1) (by simp)
  | read rest at_ => exact ⟨isOutside, same⟩
  | is_empty at_ => exact absurd (isOutside.symm.trans at_) (by simp)
  | get_front at_ queue => exact absurd (isOutside.symm.trans at_) (by simp)
  | emit_signal at_ => exact absurd (isOutside.symm.trans at_) (by simp)
  | handled at_ => exact absurd (isOutside.symm.trans at_) (by simp)

theorem signalled_of_frame {after : Pump} {actions : List Action}
    (frame : Trace (StepWhere Step OncePerSignal) pump (.process :: actions) after)
    (oneFrame : .process ∉ actions) (ended : after.place = .outside)
    (nonempty : pump.m_PktIn ≠ []) :
    after.signalled.length =
      pump.signalled.length + if pump.node.m_Client.IsConnected then 1 else 0 := by
  have sameFrame : ∀ action ∈ actions, action ≠ .process :=
    fun action member same => oneFrame (same ▸ member)
  cases frame with
  | cons first rest =>
      rcases first with ⟨step, -⟩
      cases step with
      | process at_ =>
          by_cases isOpen : pump.node.m_Client.IsConnected = true
          · simp only [isOpen, if_true] at rest ⊢
            have begins : InFrame pump.signalled.length { pump with place := .connected } :=
              ⟨rfl, nonempty⟩
            have ends := rest.invariant_of_forall
              (fun _ _ _ inFrame sameFrame step => InFrame.step inFrame sameFrame step)
              sameFrame begins
            simpa only [InFrame, ended] using ends
          · simp only [isOpen, Bool.false_eq_true, if_false] at rest ⊢
            have begins : Skipped pump.signalled.length { pump with place := .outside } :=
              ⟨rfl, rfl⟩
            have ends := rest.invariant_of_forall
              (fun _ _ _ skipped sameFrame step => Skipped.step skipped sameFrame step)
              sameFrame begins
            exact ends.2

end Frame

/-- With a script that calls `PrepareNextPkt` once for each signal, what is signalled
are the first arrivals in their order, one for each frame that finds a packet and the
socket open. -/
theorem signalled_in_order {node : NetNode} {pump : Pump} {actions : List Action}
    (trace : Trace (StepWhere Step OncePerSignal) (Pump.start node) actions pump) :
    (∃ k ≤ pump.arrived.length, pump.signalled.map Prod.fst = List.range k ∧
      pump.signalled.map Prod.snd = pump.arrived.take k) ∧
    ∀ frame after, .process ∉ frame →
      Trace (StepWhere Step OncePerSignal) pump (.process :: frame) after →
      after.place = .outside → pump.m_PktIn ≠ [] →
      after.signalled.length =
        pump.signalled.length + if pump.node.m_Client.IsConnected then 1 else 0 := by
  constructor
  · have inOrder : InOrder pump := trace.invariant
      (fun _ _ _ inOrder step => inOrder.step step.2 step.1) (inOrder_start node)
    have indices := inOrder.indices
    have length : pump.signalled.length = pump.popped + pump.unprepared := by
      simpa using congrArg List.length indices
    refine ⟨pump.signalled.length, ?_, ?_, ?_⟩
    · rw [inOrder.arrived, List.length_append, List.length_map]
      exact Nat.le_add_right _ _
    · rw [indices, length]
    · rw [inOrder.arrived, List.take_left' (List.length_map _)]
  · exact fun frame after oneFrame trace ended nonempty =>
      signalled_of_frame trace oneFrame ended nonempty

theorem signalled_in_order_two_frames :
    let node : NetNode := ⟨⟨true, []⟩, default, default⟩
    let arrivals : List Action := [.arrive ⟨⟨.Ping, 1⟩, [1]⟩, .arrive ⟨⟨.Ping, 1⟩, [2]⟩]
    let frame : List Action := [.is_empty, .get_front, .emit_signal, .PrepareNextPkt, .handled]
    ∃ pump after,
      Trace (StepWhere Step OncePerSignal) (Pump.start node)
        (arrivals ++ .process :: frame) pump ∧
      Trace (StepWhere Step OncePerSignal) pump (.process :: frame) after ∧
      (∃ k ≤ pump.arrived.length, pump.signalled.map Prod.fst = List.range k ∧
        pump.signalled.map Prod.snd = pump.arrived.take k) ∧
      after.signalled.length = pump.signalled.length + 1 := by
  intro node arrivals frame
  have first : ∃ pump, Trace (StepWhere Step OncePerSignal) (Pump.start node)
      (arrivals ++ .process :: frame) pump ∧ pump.place = .outside ∧
      pump.m_PktIn = [⟨none, ⟨⟨.Ping, 1⟩, [2]⟩⟩] ∧ pump.node.m_Client.connected = true := by
    refine ⟨_, .cons ⟨.arrive _, trivial⟩ (.cons ⟨.arrive _, trivial⟩
      (.cons ⟨.process rfl, trivial⟩ (.cons ⟨.is_empty rfl, trivial⟩
      (.cons ⟨.get_front rfl rfl, trivial⟩ (.cons ⟨.emit_signal rfl, trivial⟩
      (.cons ⟨.PrepareNextPkt (.inr rfl), ⟨rfl, rfl⟩⟩
      (.cons ⟨.handled rfl, rfl⟩ (.nil _)))))))), rfl, rfl, rfl⟩
  rcases first with ⟨pump, trace, isOutside, queue, isOpen⟩
  have nonempty : pump.m_PktIn ≠ [] := by simp [queue]
  have second : ∃ after, Trace (StepWhere Step OncePerSignal) pump (.process :: frame) after ∧
      after.place = .outside := by
    rcases pump with ⟨⟨⟨_, _⟩, _, _⟩, _, _, _, _, _, _, _⟩
    subst queue isOutside isOpen
    exact ⟨_, .cons ⟨.process rfl, trivial⟩ (.cons ⟨.is_empty rfl, trivial⟩
      (.cons ⟨.get_front rfl rfl, trivial⟩ (.cons ⟨.emit_signal rfl, trivial⟩
      (.cons ⟨.PrepareNextPkt (.inr rfl), ⟨rfl, rfl⟩⟩ (.cons ⟨.handled rfl, rfl⟩ (.nil _)))))),
      rfl⟩
  rcases second with ⟨after, frameTrace, ended⟩
  rcases signalled_in_order trace with ⟨inOrder, frames⟩
  have signals := frames frame after (by decide) frameTrace ended nonempty
  have isConnected : pump.node.m_Client.IsConnected = true := isOpen
  rw [if_pos isConnected] at signals
  exact ⟨pump, after, trace, frameTrace, inOrder, signals⟩

/-- A packet has arrived when the server closes the connection, and is never
signalled. -/
theorem closed_before_frame :
    let node : NetNode := ⟨⟨true, []⟩, default, default⟩
    ∃ pump after,
      Trace (StepWhere Step OncePerSignal) (Pump.start node)
        [.arrive default, .socket false] pump ∧
      pump.m_PktIn ≠ [] ∧ Trace (StepWhere Step OncePerSignal) pump [.process] after ∧
      after.place = .outside ∧ after.signalled.length ≠ pump.signalled.length + 1 := by
  intro node
  refine ⟨_, _, .cons ⟨.arrive _, trivial⟩ (.cons ⟨.socket false, trivial⟩ (.nil _)), ?_,
    .cons ⟨.process rfl, trivial⟩ (.nil _), rfl, ?_⟩
  · exact List.cons_ne_nil _ _
  · exact Nat.zero_ne_one

section Discarding

def DiscardsSignalled (pump : Pump) : Prop :=
  pump.poppedEmpty = false ∧
    ∀ index < pump.popped, index ∈ pump.signalled.map Prod.fst

structure Tracked (pump : Pump) : Prop where
  bounded : ∀ index ∈ pump.signalled.map Prod.fst, index ≤ pump.popped
  current : pump.signalled ≠ [] ∧ pump.calls = 0 ↔ pump.popped ∈ pump.signalled.map Prod.fst
  held : pump.signalled ≠ [] ∧ pump.calls = 0 → pump.m_PktIn ≠ []
  fronted : pump.place = .fronted → pump.m_PktIn ≠ []

theorem tracked_start (node : NetNode) : Tracked (Pump.start node) where
  bounded _ member := absurd member List.not_mem_nil
  current := by simp [Pump.start]
  held since := absurd rfl since.1
  fronted at_ := by cases at_

variable {pump next : Pump} {action : Action}

theorem Tracked.move (tracked : Tracked pump) (signalled : next.signalled = pump.signalled)
    (popped : next.popped = pump.popped) (calls : next.calls = pump.calls)
    (m_PktIn : next.m_PktIn = pump.m_PktIn)
    (fronted : next.place = .fronted → next.m_PktIn ≠ []) : Tracked next where
  bounded := by
    rw [signalled, popped]
    exact tracked.bounded
  current := by
    rw [signalled, popped, calls]
    exact tracked.current
  held := by
    rw [signalled, calls, m_PktIn]
    exact tracked.held
  fronted := fronted

theorem Tracked.PrepareNextPkt (tracked : Tracked pump) (at_ : pump.InScript) :
    Tracked pump.PrepareNextPkt := by
  have notFronted : pump.place ≠ .fronted := by
    rcases at_ with isOutside | isSignalling
    · simp [isOutside]
    · simp [isSignalling]
  cases queue : pump.m_PktIn with
  | nil =>
      have notSignalled : pump.popped ∉ pump.signalled.map Prod.fst :=
        fun member => tracked.held (tracked.current.mpr member) queue
      rw [Pump.PrepareNextPkt_nil queue]
      refine ⟨tracked.bounded, ?_, ?_, fun fronted => absurd fronted notFronted⟩
      · simpa using notSignalled
      · simp
  | cons first rest =>
      have notSignalled : pump.popped + 1 ∉ pump.signalled.map Prod.fst :=
        fun member => Nat.not_succ_le_self _ (tracked.bounded _ member)
      rw [Pump.PrepareNextPkt_cons queue]
      refine ⟨?_, ?_, ?_, fun fronted => absurd fronted notFronted⟩
      · exact fun index member => Nat.le_succ_of_le (tracked.bounded index member)
      · simpa using notSignalled
      · simp

theorem Tracked.step (tracked : Tracked pump) (step : Step pump action next) :
    Tracked next := by
  cases step with
  | arrive pkt =>
      have grows : (pump.PushToIncomingQueue pkt).m_PktIn ≠ [] :=
        List.append_ne_nil_of_right_ne_nil _ (List.cons_ne_nil _ _)
      exact ⟨tracked.bounded, tracked.current, fun _ => grows, fun _ => grows⟩
  | socket isOpen => exact tracked.move rfl rfl rfl rfl tracked.fronted
  | process at_ =>
      refine tracked.move rfl rfl rfl rfl ?_
      dsimp only
      split <;> simp
  | is_empty at_ =>
      refine tracked.move rfl rfl rfl rfl ?_
      dsimp only
      split <;> simp
  | get_front at_ queue => exact tracked.move rfl rfl rfl rfl fun _ => by simp [queue]
  | emit_signal at_ =>
      refine ⟨?_, ?_, fun _ => tracked.fronted at_, nofun⟩
      · intro index member
        rw [List.map_append, List.mem_append] at member
        rcases member with before | isNew
        · exact tracked.bounded index before
        · exact (List.mem_singleton.mp isNew).le
      · simp
  | PrepareNextPkt at_ => exact tracked.PrepareNextPkt at_
  | read rest at_ => exact tracked.move rfl rfl rfl rfl tracked.fronted
  | handled at_ => exact tracked.move rfl rfl rfl rfl nofun

theorem discardsSignalled_PrepareNextPkt (tracked : Tracked pump) :
    DiscardsSignalled pump.PrepareNextPkt ↔
      DiscardsSignalled pump ∧ SignalledSince pump .PrepareNextPkt := by
  have current : SignalledSince pump .PrepareNextPkt ↔
      pump.popped ∈ pump.signalled.map Prod.fst := tracked.current
  cases queue : pump.m_PktIn with
  | nil =>
      have notSince : ¬SignalledSince pump .PrepareNextPkt :=
        fun since => tracked.held since queue
      simp [Pump.PrepareNextPkt_nil queue, DiscardsSignalled, notSince]
  | cons first rest =>
      rw [current, Pump.PrepareNextPkt_cons queue, DiscardsSignalled, DiscardsSignalled,
        Nat.forall_lt_succ_right, and_assoc]

theorem discardsSignalled_step_iff (tracked : Tracked pump) (step : Step pump action next) :
    DiscardsSignalled next ↔ DiscardsSignalled pump ∧ SignalledSince pump action := by
  cases step with
  | PrepareNextPkt at_ => exact discardsSignalled_PrepareNextPkt tracked
  | emit_signal at_ =>
      have others : (∀ index < pump.popped,
          index ∈ (pump.signalled ++ [(pump.popped, pump.node.m_pktIn)]).map Prod.fst) ↔
          ∀ index < pump.popped, index ∈ pump.signalled.map Prod.fst := by
        refine forall₂_congr fun index before => ?_
        rw [List.map_append, List.mem_append]
        exact or_iff_left fun isNew => before.ne (List.mem_singleton.mp isNew)
      exact (and_congr_right fun _ => others).trans (and_iff_left trivial).symm
  | _ => exact (and_iff_left trivial).symm

end Discarding

/-- `PrepareNextPkt` discards signalled packets only exactly in the runs in which a
packet was signalled between any two calls of it, and before the first. -/
theorem discards_signalled_iff {node : NetNode} {pump : Pump} {actions : List Action}
    (trace : Trace Step (Pump.start node) actions pump) :
    DiscardsSignalled pump ↔
      Trace (StepWhere Step SignalledSince) (Pump.start node) actions pump :=
  trace.stepWhere_iff (fun _ _ _ tracked step => tracked.step step)
    (fun _ _ _ tracked step => discardsSignalled_step_iff tracked step)
    (tracked_start node) ⟨rfl, fun _ before => absurd before (Nat.not_lt_zero _)⟩

theorem discards_signalled_iff_called_twice :
    let node : NetNode := ⟨⟨true, []⟩, default, default⟩
    let actions : List Action := [.arrive default, .process, .is_empty, .get_front,
      .emit_signal, .PrepareNextPkt, .PrepareNextPkt]
    ∃ pump, Trace Step (Pump.start node) actions pump ∧
      (DiscardsSignalled pump ↔
        Trace (StepWhere Step SignalledSince) (Pump.start node) actions pump) := by
  intro node actions
  have trace : ∃ pump, Trace Step (Pump.start node) actions pump :=
    ⟨_, .cons (.arrive _) (.cons (.process rfl) (.cons (.is_empty rfl)
      (.cons (.get_front rfl rfl) (.cons (.emit_signal rfl)
      (.cons (.PrepareNextPkt (.inr rfl)) (.cons (.PrepareNextPkt (.inr rfl)) (.nil _)))))))⟩
  rcases trace with ⟨pump, trace⟩
  exact ⟨pump, trace, discards_signalled_iff trace⟩

/-- Called twice in one handler, `PrepareNextPkt` pops an empty queue, or discards the
packet that has arrived meanwhile. -/
theorem prepared_twice :
    let node : NetNode := ⟨⟨true, []⟩, default, default⟩
    let signalsOne : List Action := [.arrive default, .process, .is_empty, .get_front,
      .emit_signal, .PrepareNextPkt]
    (∃ pump, Trace Step (Pump.start node) (signalsOne ++ [.PrepareNextPkt]) pump ∧
      pump.poppedEmpty = true ∧ ¬DiscardsSignalled pump) ∧
    ∃ pump, Trace Step (Pump.start node)
        (signalsOne ++ [.arrive default, .PrepareNextPkt]) pump ∧
      pump.popped = 2 ∧ pump.signalled = [(0, default)] ∧ ¬DiscardsSignalled pump := by
  intro node signalsOne
  constructor
  · refine ⟨_, .cons (.arrive _) (.cons (.process rfl) (.cons (.is_empty rfl)
      (.cons (.get_front rfl rfl) (.cons (.emit_signal rfl)
      (.cons (.PrepareNextPkt (.inr rfl)) (.cons (.PrepareNextPkt (.inr rfl)) (.nil _))))))),
      rfl, ?_⟩
    exact fun discards => Bool.noConfusion discards.1
  · refine ⟨_, .cons (.arrive _) (.cons (.process rfl) (.cons (.is_empty rfl)
      (.cons (.get_front rfl rfl) (.cons (.emit_signal rfl)
      (.cons (.PrepareNextPkt (.inr rfl)) (.cons (.arrive _)
      (.cons (.PrepareNextPkt (.inr rfl)) (.nil _)))))))), rfl, rfl, ?_⟩
    exact fun discards => absurd (discards.2 1 (Nat.lt_succ_self 1)) (by decide)

end ReceivePump

end GNL
