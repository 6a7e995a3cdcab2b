import GNL.Common.TCPConnection.LinkRest
import GNL.Network.Views

/-! # What a network comes to by itself

While nobody connects and no client writes more, the links bring what is on the way and
the server handles what it has. Handling a packet sends more of them, but to clients only;
so this comes to an end in whatever order it happens, and leaves nothing on the way.
-/

namespace GNL.Network

variable {env : Environment} {paddings : Paddings} {network next : Network} {action : Action}
  {Condition : Server → OwnedPacket CMD → Prop}

def Progresses (Condition : Server → OwnedPacket CMD → Prop) (network : Network) :
    Action → Prop
  | .accept => False
  | .process owned => Condition network.server owned
  | .up conn action => (network.up conn).Progresses action
  | .down conn action => (network.down conn).Progresses action

theorem serves_of_progresses (progresses : network.Progresses Condition action) :
    network.Serves Condition action := by
  cases action with
  | process owned => exact progresses
  | accept => trivial
  | up => trivial
  | down => trivial

def upWork (paddings : Paddings) (conn : ConnRef) (link : Link CMD) : Nat :=
  link.work (paddings.up conn)

def downWork (paddings : Paddings) (conn : ConnRef) (link : Link CMD) : Nat :=
  link.work (paddings.down conn)

structure Settling (paddings : Paddings) (network : Network) : Prop where
  wf : network.server.WellFormed
  linked : Linked paddings network
  up : FewBusy (upWork paddings) network.up
  down : FewBusy (downWork paddings) network.down

theorem fewBusy_post {down : ConnRef → Link CMD} (few : FewBusy (downWork paddings) down)
    (messages : List (ConnRef × Packet CMD)) :
    FewBusy (downWork paddings) (post down messages) := by
  induction messages generalizing down with
  | nil => exact few
  | cons message rest induction => exact induction (few.update message.1 _)

namespace Settling

theorem start (paddings : Paddings) (m_IDCnt : UInt32) (m_sID : ConnRef → UInt32) :
    Settling paddings (start m_IDCnt m_sID) where
  wf := Server.wellFormed_start m_IDCnt m_sID
  linked := linked_start paddings m_IDCnt m_sID
  up := by
    have noWork : (Function.support fun conn =>
        upWork paddings conn ((Network.start m_IDCnt m_sID).up conn)) = ∅ :=
      Function.support_eq_empty_iff.mpr rfl
    rw [FewBusy, noWork]
    exact Set.finite_empty
  down := by
    have noWork : (Function.support fun conn =>
        downWork paddings conn ((Network.start m_IDCnt m_sID).down conn)) = ∅ :=
      Function.support_eq_empty_iff.mpr rfl
    rw [FewBusy, noWork]
    exact Set.finite_empty

theorem step (settling : Settling paddings network)
    (step : Step env paddings network action next) : Settling paddings next := by
  have wf := settling.linked.wellFormed_of_step settling.wf step
  have linked := settling.linked.step settling.wf step
  cases step_cases step with
  | accept => exact ⟨wf, linked, settling.up, fewBusy_post settling.down _⟩
  | process => exact ⟨wf, linked, settling.up, fewBusy_post settling.down _⟩
  | up conn _ link => exact ⟨wf, linked, settling.up.update conn link, settling.down⟩
  | down conn _ link => exact ⟨wf, linked, settling.up, settling.down.update conn link⟩

end Settling

theorem settling_of_trace {m_IDCnt : UInt32} {m_sID : ConnRef → UInt32} {actions : List Action}
    (trace : Trace (Step env paddings) (start m_IDCnt m_sID) actions network) :
    Settling paddings network :=
  trace.invariant (fun _ _ _ settling step => settling.step step)
    (Settling.start paddings m_IDCnt m_sID)

section Rank

noncomputable def rank (paddings : Paddings) (network : Network) : Nat × Nat × Nat :=
  (totalWork (upWork paddings) network.up, network.server.m_TCP_PktIn.length,
    totalWork (downWork paddings) network.down)

def Lower : Nat × Nat × Nat → Nat × Nat × Nat → Prop :=
  Prod.Lex (· < ·) (Prod.Lex (· < ·) (· < ·))

theorem wellFounded_lower : WellFounded Lower :=
  wellFounded_lt.prod_lex (wellFounded_lt.prod_lex wellFounded_lt)

theorem Settling.lower (settling : Settling paddings network)
    (step : StepWhere (Step env paddings) (Progresses Condition) network action next) :
    Lower (next.rank paddings) (network.rank paddings) := by
  rcases step with ⟨step, progresses⟩
  cases step_cases step with
  | accept => exact progresses.elim
  | process owned server handles =>
      apply Prod.Lex.right
      apply Prod.Lex.left
      rw [← queue_of_process settling.wf handles]
      exact Nat.lt_succ_self _
  | up conn action link _ moves =>
      apply Prod.Lex.left
      rcases settling.linked.up conn with ⟨steps, run⟩
      rcases Link.carries_of_trace run with ⟨frames, carries⟩
      exact totalWork_update_lt settling.up (carries.work_lt moves progresses)
  | down conn action link _ moves =>
      apply Prod.Lex.right
      apply Prod.Lex.right
      rcases settling.linked.down conn with ⟨steps, run⟩
      rcases Link.carries_of_trace run with ⟨frames, carries⟩
      exact totalWork_update_lt settling.down (carries.work_lt moves progresses)

theorem Settling.settles (settling : Settling paddings network) :
    Settles (StepWhere (Step env paddings) (Progresses Condition)) network :=
  settles_of_decreases wellFounded_lower
    (fun _ _ _ settling step => settling.step step.1)
    (fun _ _ _ settling step => settling.lower step) settling

end Rank

structure Undisturbed (before after : Network) : Prop where
  reading : after.server.reading = before.server.reading
  sent : ∀ conn, (after.up conn).sent = (before.up conn).sent
  up : ∀ conn, (before.up conn).Running → (after.up conn).Running
  down : ∀ conn, (before.down conn).Running → (after.down conn).Running

theorem running_post {down : ConnRef → Link CMD} (conn : ConnRef) (running : (down conn).Running)
    (messages : List (ConnRef × Packet CMD)) : (post down messages conn).Running := by
  induction messages generalizing down with
  | nil => exact running
  | cons message rest induction =>
      apply induction
      dsimp only
      by_cases same : conn = message.1
      · subst same
        rw [Function.update_self]
        exact ⟨running.writer, running.reader⟩
      · rwa [Function.update_of_ne same]

theorem reading_of_process {server after : Server} {owned : OwnedPacket CMD}
    (wf : server.WellFormed) (step : Server.Step env server (.process owned) after) :
    after.reading = server.reading := by
  cases Server.step_cases wf step with
  | process _ _ _ _ _ _ _ handles =>
      cases handles with
      | sends _ sent => exact sent.reading
      | enters _ sent => exact sent.reading
      | moves _ _ _ _ _ sent => exact sent.reading

theorem undisturbed_of_step (settling : Settling paddings network)
    (step : StepWhere (Step env paddings) (Progresses Condition) network action next) :
    Undisturbed network next := by
  rcases step with ⟨step, progresses⟩
  cases step_cases step with
  | accept => exact progresses.elim
  | process owned server handles =>
      exact ⟨reading_of_process settling.wf handles, fun _ => rfl, fun _ => id,
        fun conn running => running_post conn running _⟩
  | up conn action link _ moves =>
      refine ⟨rfl, ?_, ?_, fun _ => id⟩
      · intro other
        change (Function.update network.up conn link other).sent = (network.up other).sent
        by_cases same : other = conn
        · subst same
          rw [Function.update_self]
          exact Link.sent_of_progresses moves progresses
        · rw [Function.update_of_ne same]
      · intro other running
        change (Function.update network.up conn link other).Running
        by_cases same : other = conn
        · subst same
          rw [Function.update_self]
          exact running.step moves (Link.succeeds_of_progresses progresses)
        · rwa [Function.update_of_ne same]
  | down conn action link _ moves =>
      refine ⟨rfl, fun _ => rfl, fun _ => id, ?_⟩
      intro other running
      change (Function.update network.down conn link other).Running
      by_cases same : other = conn
      · subst same
        rw [Function.update_self]
        exact running.step moves (Link.succeeds_of_progresses progresses)
      · rwa [Function.update_of_ne same]

theorem undisturbed_of_trace (settling : Settling paddings network) {later : List Action}
    {after : Network}
    (trace : Trace (StepWhere (Step env paddings) (Progresses Condition)) network later after) :
    Undisturbed network after := by
  have keeps : ∀ current action next, Settling paddings current ∧ Undisturbed network current →
      StepWhere (Step env paddings) (Progresses Condition) current action next →
      Settling paddings next ∧ Undisturbed network next := by
    intro current action next ⟨settling, earlier⟩ step
    have now := undisturbed_of_step settling step
    exact ⟨settling.step step.1, now.reading.trans earlier.reading,
      fun conn => (now.sent conn).trans (earlier.sent conn),
      fun conn running => now.up conn (earlier.up conn running),
      fun conn running => now.down conn (earlier.down conn running)⟩
  exact (trace.invariant keeps ⟨settling, rfl, fun _ => rfl, fun _ => id, fun _ => id⟩).2

section AtRest

variable (atRest : AtRest (StepWhere (Step env paddings) (Progresses Condition)) network)
include atRest

theorem up_atRest {conn : ConnRef} (isReading : conn ∈ network.server.reading) :
    AtRest (StepWhere (Link.Step (paddings.up conn)) Link.Progresses) (network.up conn) := by
  intro action link step
  have moves : Step env paddings network (.up conn action) (network.advanced conn link) := by
    rw [Step, Network.step, if_pos fun _ => isReading, step.1]
    rfl
  exact atRest _ _ ⟨moves, step.2⟩

theorem down_atRest (conn : ConnRef) :
    AtRest (StepWhere (Link.Step (paddings.down conn)) Link.Progresses) (network.down conn) := by
  intro action link step
  have moves : Step env paddings network (.down conn action)
      { network with down := Function.update network.down conn link } := by
    rw [Step, Network.step, if_neg (Link.not_sends_of_progresses step.2), step.1]
    rfl
  exact atRest _ _ ⟨moves, step.2⟩

theorem received_atRest (linked : Linked paddings network) (addressed : network.server.Addressed)
    {conn : ConnRef} (running : (network.down conn).Running) :
    (network.down conn).reader.m_PktIn =
      (network.server.sentTo conn).map fun pkt => ⟨none, pkt⟩ := by
  rcases linked.down conn with ⟨steps, run⟩
  rcases Link.carries_of_trace run with ⟨frames, carries⟩
  have consistent := addressed.consistent conn
  rw [← linked.sent conn] at consistent
  have pushed := carries.pushed_of_rest running (down_atRest atRest conn) consistent
  rwa [linked.sent conn, addressed.redelivered conn, Link.connectionPtr_of_trace run] at pushed

theorem pushed_atRest (linked : Linked paddings network) {conn : ConnRef}
    (isReading : conn ∈ network.server.reading) (running : (network.up conn).Running)
    (consistent : ∀ pkt ∈ (network.up conn).sent, pkt.Consistent) :
    (network.up conn).reader.m_PktIn.map OwnedPacket.pkt =
      Reader.redelivered [] (network.up conn).sent := by
  rcases linked.up conn with ⟨steps, run⟩
  rcases Link.carries_of_trace run with ⟨frames, carries⟩
  rw [carries.pushed_of_rest running (up_atRest atRest isReading) consistent, List.map_map]
  exact List.map_id _

theorem queue_atRest (wf : network.server.WellFormed) :
    network.server.m_TCP_PktIn = [] ∨ ∃ conn pkt,
      network.server.m_TCP_PktIn.head? = some ⟨some conn, pkt⟩ ∧
      (Condition network.server ⟨some conn, pkt⟩ →
        ¬network.server.popped.LongEnough conn pkt) := by
  rcases queue : network.server.m_TCP_PktIn with _ | ⟨⟨client, pkt⟩, rest⟩
  · exact .inl rfl
  · have isQueued : (⟨client, pkt⟩ : OwnedPacket CMD) ∈ network.server.m_TCP_PktIn := by
      rw [queue]
      exact List.mem_cons_self
    rcases (wf.queue _ isQueued).1 with ⟨conn, -, isOwner⟩
    cases isOwner
    refine .inr ⟨conn, pkt, rfl, ?_⟩
    intro allowed longEnough
    have isFirst : network.server.m_TCP_PktIn.head? = some ⟨some conn, pkt⟩ := by
      rw [queue]
      rfl
    rcases Server.exists_process env wf isFirst longEnough with ⟨server, handles, -⟩
    have handled : Step env paddings network (.process ⟨some conn, pkt⟩)
        (network.served server) := by
      rw [Step, Network.step, handles]
      rfl
    exact atRest _ _ ⟨handled, allowed⟩

end AtRest

section Runs

variable {m_IDCnt : UInt32} {m_sID : ConnRef → UInt32} {actions : List Action}

/-- The packets that were sent are all delivered and handled: from any reachable network
the steps it takes by itself come to an end, in whatever order they are taken, and then
each client has received all it was sent, and the server has handled or queued all that a
client sent on a connection it reads, if each packet has the size of its body (one without
a body carries that of the packet before it). Left out are directions that failed, and
what is queued behind a packet that is too short for its handler. -/
theorem delivers_everything
    (trace : Trace (Step env paddings) (start m_IDCnt m_sID) actions network) :
    Settles (StepWhere (Step env paddings) (Progresses fun _ _ => True)) network ∧
    (∃ later after,
      Trace (StepWhere (Step env paddings) (Progresses fun _ _ => True)) network later after ∧
      AtRest (StepWhere (Step env paddings) (Progresses fun _ _ => True)) after) ∧
    ∀ later after,
      Trace (StepWhere (Step env paddings) (Progresses fun _ _ => True)) network later after →
      AtRest (StepWhere (Step env paddings) (Progresses fun _ _ => True)) after →
      (∀ conn, (network.down conn).Running →
        (after.down conn).reader.m_PktIn =
          (after.server.sentTo conn).map fun pkt => ⟨none, pkt⟩) ∧
      (∀ conn ∈ network.server.reading, (network.up conn).Running →
        (∀ pkt ∈ (network.up conn).sent, pkt.Consistent) →
        packetsFrom conn ((actions ++ later).flatMap Action.handled ++
          after.server.m_TCP_PktIn) = Reader.redelivered [] (network.up conn).sent) ∧
      (after.server.m_TCP_PktIn = [] ∨ ∃ conn pkt,
        after.server.m_TCP_PktIn.head? = some ⟨some conn, pkt⟩ ∧
          ¬after.server.popped.LongEnough conn pkt) := by
  have settling := settling_of_trace trace
  have settles : Settles (StepWhere (Step env paddings) (Progresses fun _ _ => True)) network :=
    settling.settles
  refine ⟨settles, settles.exists_trace_atRest, ?_⟩
  intro later after laterTrace atRest
  have whole := trace.append laterTrace.unconditional
  rcases linked_of_trace whole with ⟨wf, linked⟩
  have undisturbed := undisturbed_of_trace settling laterTrace
  refine ⟨?_, ?_, ?_⟩
  · intro conn running
    exact received_atRest atRest linked (addressed_of_trace whole) (undisturbed.down conn running)
  · intro conn isReading running consistent
    rw [← undisturbed.sent conn] at consistent ⊢
    rw [← undisturbed.reading] at isReading
    rw [handled_and_queued whole conn]
    exact pushed_atRest atRest linked isReading (undisturbed.up conn running) consistent
  · rcases queue_atRest atRest wf with isEmpty | ⟨conn, pkt, isFirst, short⟩
    · exact .inl isEmpty
    · exact .inr ⟨conn, pkt, isFirst, short trivial⟩

theorem delivers_everything_entering :
    ∃ network, Trace (Step .calm Paddings.zero) (start 5 fun _ => 0) entering network ∧
      ∃ later after,
        Trace (StepWhere (Step .calm Paddings.zero) (Progresses fun _ _ => True)) network later
          after ∧
        (after.down 0).reader.m_PktIn =
          (after.server.sentTo 0).map fun pkt => ⟨none, pkt⟩ := by
  have runs : ∃ network ∈ runSteps (step .calm Paddings.zero) (start 5 fun _ => 0) entering,
      (network.down 0).Running := by
    decide +kernel
  rcases runs with ⟨network, reaches, running⟩
  have trace : Trace (Step .calm Paddings.zero) (start 5 fun _ => 0) entering network :=
    Trace.of_run reaches
  rcases delivers_everything trace with ⟨-, ⟨later, after, laterTrace, atRest⟩, delivers⟩
  exact ⟨network, trace, later, after, laterTrace,
    (delivers later after laterTrace atRest).1 0 running⟩

/-- Where nobody disconnects and no packet tells a wrong position, the clients come to show
the same world: however the packets were delayed, once the network has come to rest each
client whose character is in the world shows the world the server holds, all but that
character. -/
theorem clients_come_to_agree (alwaysOpen : env.AlwaysOpen)
    (trace : Trace (StepWhere (Step env paddings) (Serves HarmlessToHandle))
      (start m_IDCnt m_sID) actions network) :
    Settles (StepWhere (Step env paddings) (Progresses HarmlessToHandle)) network ∧
    ∀ later after,
      Trace (StepWhere (Step env paddings) (Progresses HarmlessToHandle)) network later after →
      AtRest (StepWhere (Step env paddings) (Progresses HarmlessToHandle)) after →
      ∀ conn, (∃ key cha, after.server.m_chaMap.lookup key = some cha ∧
          cha.m_TCPConnection = some conn) →
        (network.down conn).Running →
        after.server.ShowsWorld conn ((after.down conn).reader.m_PktIn.map OwnedPacket.pkt) := by
  have settling := settling_of_trace trace.unconditional
  refine ⟨settling.settles, ?_⟩
  rintro later after laterTrace atRest conn ⟨key, cha, found, isOwner⟩ running
  have whole : Trace (StepWhere (Step env paddings) (Serves HarmlessToHandle))
      (start m_IDCnt m_sID) (actions ++ later) after :=
    trace.append (laterTrace.mono fun _ _ _ step => ⟨step.1, serves_of_progresses step.2⟩)
  rcases exists_server_trace_of_start whole with ⟨performed, runs, -⟩
  have told : after.server.Told env m_IDCnt := Server.told_of_trace alwaysOpen
    (runs.mono fun _ _ _ step => ⟨step.1, keepsViews_of_served step.2⟩)
  have received : (after.down conn).reader.m_PktIn.map OwnedPacket.pkt =
      after.server.sentTo conn := by
    rw [received_atRest atRest (linked_of_trace whole.unconditional).2 told.addressed
      ((undisturbed_of_trace settling laterTrace).down conn running), List.map_map]
    exact List.map_id _
  rw [received]
  exact told.agrees.showsWorld told.recorded.keyed found isOwner

theorem clients_come_to_agree_two_players :
    let enter := Server.emptyPacket .SelfEnterWorld
    let sends (conn : ConnRef) : List Action := [.up conn (.write (.SendPacket enter)),
      .up conn (.write .runPosted), .up conn (.write (.transfer 0 8)), .up conn (.deliver 8),
      .up conn .complete, .process ⟨some conn, enter⟩]
    ∃ network later after, Trace (StepWhere (Step .calm Paddings.zero) (Serves HarmlessToHandle))
        (start 5 fun _ => 0) ([.accept, .accept] ++ sends 0 ++ sends 1) network ∧
      (network.down 0).reader.m_PktIn = [] ∧
      Trace (StepWhere (Step .calm Paddings.zero) (Progresses HarmlessToHandle)) network later
        after ∧
      after.server.ShowsWorld 0 ((after.down 0).reader.m_PktIn.map OwnedPacket.pkt) := by
  intro enter sends
  have runs : ∃ network ∈ runSteps (stepWhere (step .calm Paddings.zero)
      (Serves HarmlessToHandle)) (start 5 fun _ => 0)
        ([.accept, .accept] ++ sends 0 ++ sends 1),
      (network.down 0).reader.m_PktIn = [] ∧ (network.down 0).Running ∧
      ∃ cha ∈ network.server.m_chaMap.lookup 5, cha.m_TCPConnection = some 0 := by
    decide +kernel
  rcases runs with ⟨network, reaches, nothing, running, owns⟩
  have trace := Trace.of_runStepsWhere reaches
  have alwaysOpen : Environment.calm.AlwaysOpen := fun _ _ => rfl
  rcases clients_come_to_agree alwaysOpen trace with ⟨settles, shows⟩
  rcases settles.exists_trace_atRest with ⟨later, after, laterTrace, atRest⟩
  rcases linked_of_trace trace.unconditional with ⟨wf, linked⟩
  rcases exists_server_trace wf linked (laterTrace.mono fun _ _ _ step =>
    ⟨step.1, serves_of_progresses step.2⟩) with ⟨performed, performs, -⟩
  rcases Server.owner_of_trace alwaysOpen performs.unconditional (fromPeers_of_trace performs) wf
    owns with ⟨cha, found, isOwner⟩
  exact ⟨network, later, after, trace, nothing, laterTrace,
    shows later after laterTrace atRest 0 ⟨5, cha, found, isOwner⟩ running⟩

end Runs

end GNL.Network
