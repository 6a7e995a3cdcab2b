import GNL.Common.TCPConnection.Link
import GNL.Semantics.Simulation
import GNL.Server.Outbox

/-! # A server and its clients

The server, and for each connection both directions of it, down to the bytes on the
stream. What a connection reads it pushes into the queue of the server; what the server
sends is posted on the connection. The server may find a socket closed whenever the
environment says so, and each direction may fail by itself, which is more than can
happen: the two share a socket.
-/

namespace GNL

structure Paddings where
  up : ConnRef → Nat → HeaderLayout.Padding CMD
  down : ConnRef → Nat → HeaderLayout.Padding CMD

structure Network where
  server : Server
  /-- From each client to the server. -/
  up : ConnRef → Link CMD
  /-- From the server to each client. -/
  down : ConnRef → Link CMD

namespace Network

def start (m_IDCnt : UInt32) (m_sID : ConnRef → UInt32) : Network where
  server := Server.start m_IDCnt m_sID
  up conn := Link.start conn .Server
  down conn := Link.start conn .Client

inductive Action
  | accept
  | process (owned : OwnedPacket CMD)
  /-- A step of the direction to the server; the client sends what it likes. -/
  | up (conn : ConnRef) (action : Link.Action CMD)
  | down (conn : ConnRef) (action : Link.Action CMD)

def post (down : ConnRef → Link CMD) (messages : List (ConnRef × Packet CMD)) :
    ConnRef → Link CMD :=
  messages.foldl (fun down message =>
    Function.update down message.1 ((down message.1).SendPacket message.2)) down

def served (network : Network) (server : Server) : Network :=
  { network with
    server
    down := post network.down (Server.newlySent network.server server) }

def newlyPushed (before after : Link CMD) : List (OwnedPacket CMD) :=
  after.reader.m_PktIn.drop before.reader.m_PktIn.length

/-- The network after a step of the direction to the server; `m_PktIn` of a connection is
the queue of the server. -/
def advanced (network : Network) (conn : ConnRef) (link : Link CMD) : Network :=
  { network with
    server.m_TCP_PktIn := network.server.m_TCP_PktIn ++ newlyPushed (network.up conn) link
    up := Function.update network.up conn link }

/-- The state after an action, where it is possible. A connection is read once
`ConnectToClient` was called on it. -/
def step (env : Environment) (paddings : Paddings) (network : Network) : Action → Option Network
  | .accept => (network.server.step env .accept).map network.served
  | .process owned => (network.server.step env (.process owned)).map network.served
  | .up conn action =>
      if action.Reads → conn ∈ network.server.reading then
        ((network.up conn).step (paddings.up conn) action).map (network.advanced conn)
      else none
  | .down conn action =>
      if action.Sends then none
      else
        ((network.down conn).step (paddings.down conn) action).map fun link =>
          { network with down := Function.update network.down conn link }

def Step (env : Environment) (paddings : Paddings) (network : Network) (action : Action)
    (next : Network) : Prop :=
  network.step env paddings action = some next

inductive StepCases (env : Environment) (paddings : Paddings) (network : Network) :
    Action → Network → Prop
  | accept (server : Server) (step : Server.Step env network.server .accept server) :
      StepCases env paddings network .accept (network.served server)
  | process (owned : OwnedPacket CMD) (server : Server)
      (step : Server.Step env network.server (.process owned) server) :
      StepCases env paddings network (.process owned) (network.served server)
  | up (conn : ConnRef) (action : Link.Action CMD) (link : Link CMD)
      (reading : action.Reads → conn ∈ network.server.reading)
      (step : Link.Step (paddings.up conn) (network.up conn) action link) :
      StepCases env paddings network (.up conn action) (network.advanced conn link)
  | down (conn : ConnRef) (action : Link.Action CMD) (link : Link CMD)
      (notSends : ¬action.Sends)
      (step : Link.Step (paddings.down conn) (network.down conn) action link) :
      StepCases env paddings network (.down conn action)
        { network with down := Function.update network.down conn link }

variable {env : Environment} {paddings : Paddings} {network next : Network} {action : Action}

theorem step_cases (step : Step env paddings network action next) :
    StepCases env paddings network action next := by
  cases action with
  | accept =>
      rcases Option.map_eq_some_iff.mp step with ⟨server, accepts, rfl⟩
      exact .accept server accepts
  | process owned =>
      rcases Option.map_eq_some_iff.mp step with ⟨server, handles, rfl⟩
      exact .process owned server handles
  | up conn action =>
      rw [Step, Network.step] at step
      split at step
      next reading =>
        rcases Option.map_eq_some_iff.mp step with ⟨link, moves, rfl⟩
        exact .up conn action link reading moves
      next => contradiction
  | down conn action =>
      rw [Step, Network.step] at step
      split at step
      next => contradiction
      next notSends =>
        rcases Option.map_eq_some_iff.mp step with ⟨link, moves, rfl⟩
        exact .down conn action link notSends moves

section Post

theorem reached_post {first down : ConnRef → Link CMD}
    (reached : AllReached (fun conn => Link.Step (paddings.down conn)) first down)
    (messages : List (ConnRef × Packet CMD)) :
    AllReached (fun conn => Link.Step (paddings.down conn)) first (post down messages) := by
  induction messages generalizing down with
  | nil => exact reached
  | cons message rest induction =>
      exact induction (reached.update (Link.step_SendPacket (down message.1) message.2))

theorem sent_post (down : ConnRef → Link CMD) (messages : List (ConnRef × Packet CMD))
    (conn : ConnRef) : (post down messages conn).sent =
      (down conn).sent ++ (messages.filter fun message => message.1 = conn).map Prod.snd := by
  induction messages generalizing down with
  | nil => exact (List.append_nil _).symm
  | cons message rest induction =>
      have afterFirst := induction (Function.update down message.1
        ((down message.1).SendPacket message.2))
      by_cases same : message.1 = conn
      · subst same
        rw [Function.update_self] at afterFirst
        rw [List.filter_cons_of_pos (by simp)]
        exact afterFirst.trans (List.append_assoc _ [message.2] _)
      · rw [Function.update_of_ne (Ne.symm same)] at afterFirst
        rw [List.filter_cons_of_neg (by simpa using same)]
        exact afterFirst

end Post

theorem pushed_of_reached {up : ConnRef → Link CMD}
    (reached : AllReached (fun conn => Link.Step (paddings.up conn)) (Link.start · .Server) up)
    (conn : ConnRef) : ∀ owned ∈ (up conn).reader.m_PktIn,
      owned.connectionPtr = some conn ∧ owned.pkt.body.length < 2 ^ 32 := by
  rcases reached conn with ⟨actions, trace⟩
  rcases Link.carries_of_trace trace with ⟨frames, carries⟩
  intro owned member
  refine ⟨?_, carries.fits owned member⟩
  rw [carries.received.pushed, Link.connectionPtr_of_trace trace] at member
  rcases List.mem_map.mp member with ⟨pkt, -, rfl⟩
  rfl

/-- Each direction of each connection has made a run of its own, and what was posted on
it is what the server sent. -/
structure Linked (paddings : Paddings) (network : Network) : Prop where
  up : AllReached (fun conn => Link.Step (paddings.up conn)) (Link.start · .Server) network.up
  down : AllReached (fun conn => Link.Step (paddings.down conn)) (Link.start · .Client)
    network.down
  sent : ∀ conn, (network.down conn).sent = network.server.sentTo conn

theorem linked_start (paddings : Paddings) (m_IDCnt : UInt32) (m_sID : ConnRef → UInt32) :
    Linked paddings (start m_IDCnt m_sID) where
  up := AllReached.refl _
  down := AllReached.refl _
  sent _ := rfl

namespace Linked

theorem served {server : Server} {messages : List (ConnRef × Packet CMD)}
    (linked : Linked paddings network) (sent : server.sent = network.server.sent ++ messages) :
    Linked paddings (network.served server) where
  up := linked.up
  down := reached_post linked.down _
  sent conn := by
    have new : Server.newlySent network.server server = messages := by
      rw [Server.newlySent, sent, List.drop_left]
    rw [Network.served, sent_post, linked.sent, new, Server.sentTo_append sent]

theorem step (linked : Linked paddings network) (wf : network.server.WellFormed)
    (step : Step env paddings network action next) : Linked paddings next := by
  cases step_cases step with
  | accept server accepts =>
      have fromPeers : Server.Action.accept.FromPeers := trivial
      rcases Server.emits_of_step wf fromPeers accepts with ⟨messages, -, sent⟩
      exact linked.served sent
  | process owned server handles =>
      have fromPeers : (Server.Action.process owned).FromPeers := trivial
      rcases Server.emits_of_step wf fromPeers handles with ⟨messages, -, sent⟩
      exact linked.served sent
  | up conn action link _ moves => exact ⟨linked.up.update moves, linked.down, linked.sent⟩
  | down conn action link notSends moves =>
      refine ⟨linked.up, linked.down.update moves, ?_⟩
      intro other
      change (Function.update network.down conn link other).sent = network.server.sentTo other
      by_cases same : other = conn
      · subst same
        rw [Function.update_self, Link.sent_of_step moves notSends]
        exact linked.sent other
      · rw [Function.update_of_ne same]
        exact linked.sent other

end Linked

theorem m_PktIn_of_step {padding : Nat → HeaderLayout.Padding CMD} {before after : Link CMD}
    {action : Link.Action CMD} (step : Link.Step padding before action after) :
    after.reader.m_PktIn = before.reader.m_PktIn ++ newlyPushed before after := by
  rcases Link.pushed_of_step step with same | ⟨-, pkt, pushes⟩
  · rw [newlyPushed, same, List.drop_length, List.append_nil]
  · rw [newlyPushed, pushes, List.drop_left]

theorem Linked.newlyPushed_of_step (linked : Linked paddings network) {conn : ConnRef}
    {action : Link.Action CMD} {link : Link CMD}
    (step : Link.Step (paddings.up conn) (network.up conn) action link) :
    newlyPushed (network.up conn) link = [] ∨ action.Reads ∧ ∃ pkt : Packet CMD,
      newlyPushed (network.up conn) link = [⟨some conn, pkt⟩] ∧ pkt.body.length < 2 ^ 32 := by
  rcases Link.pushed_of_step step with same | ⟨rfl, pkt, pushes⟩
  · rw [newlyPushed, same, List.drop_length]
    exact .inl rfl
  · have isNew : newlyPushed (network.up conn) link =
        [⟨(network.up conn).reader.connectionPtr, pkt⟩] := by
      rw [newlyPushed, pushes, List.drop_left]
    have isPushed : ⟨(network.up conn).reader.connectionPtr, pkt⟩ ∈ link.reader.m_PktIn := by
      rw [pushes]
      exact List.mem_append_right _ (List.mem_singleton_self _)
    rcases pushed_of_reached (linked.up.update step) conn _
      (by rwa [Function.update_self]) with ⟨isOwner, fits⟩
    have sameOwner : (network.up conn).reader.connectionPtr = some conn := isOwner
    rw [sameOwner] at isNew
    exact .inr ⟨trivial, pkt, isNew, fits⟩

def Action.handled : Action → List (OwnedPacket CMD)
  | .process owned => [owned]
  | _ => []

def handledBy : Server.Action → List (OwnedPacket CMD)
  | .process owned => [owned]
  | _ => []

def receivedBy : Server.Action → List (OwnedPacket CMD)
  | .receive conn pkt => [⟨some conn, pkt⟩]
  | _ => []

def packetsFrom (conn : ConnRef) (owned : List (OwnedPacket CMD)) : List (Packet CMD) :=
  (owned.filter fun owned => owned.connectionPtr = some conn).map OwnedPacket.pkt

theorem packetsFrom_append (conn : ConnRef) (first second : List (OwnedPacket CMD)) :
    packetsFrom conn (first ++ second) = packetsFrom conn first ++ packetsFrom conn second := by
  rw [packetsFrom, List.filter_append, List.map_append]
  rfl

theorem queue_of_process {server after : Server} {owned : OwnedPacket CMD}
    (wf : server.WellFormed) (step : Server.Step env server (.process owned) after) :
    owned :: after.m_TCP_PktIn = server.m_TCP_PktIn := by
  rcases List.head?_eq_some_iff.mp (Server.head_of_step_process step) with ⟨rest, queue⟩
  have popped : server.popped.m_TCP_PktIn = rest := by
    rw [Server.popped, queue]
    rfl
  rw [queue]
  cases Server.step_cases wf step with
  | process _ _ _ _ _ _ _ handles =>
      cases handles with
      | sends _ sent => rw [sent.m_TCP_PktIn, popped]
      | enters _ sent => rw [sent.m_TCP_PktIn, ← popped]
      | moves _ _ _ _ _ sent => rw [sent.m_TCP_PktIn, ← popped]

theorem received_of_trace {m_IDCnt : UInt32} {m_sID : ConnRef → UInt32} {server : Server}
    {performed : List Server.Action}
    (trace : Trace (Server.Step env) (Server.start m_IDCnt m_sID) performed server)
    (fromPeers : ∀ action ∈ performed, action.FromPeers) :
    performed.flatMap receivedBy = performed.flatMap handledBy ++ server.m_TCP_PktIn := by
  revert fromPeers
  apply trace.snoc_induction (motive := fun performed server =>
    (∀ action ∈ performed, action.FromPeers) →
      performed.flatMap receivedBy = performed.flatMap handledBy ++ server.m_TCP_PktIn)
  · exact fun _ => rfl
  · intro before middle action next front induction step fromPeers
    rw [List.forall_mem_append, List.forall_mem_singleton] at fromPeers
    have wf := Server.wellFormed_of_trace front
    rw [List.flatMap_append, induction fromPeers.1, List.flatMap_append, List.append_assoc,
      List.append_assoc, List.flatMap_singleton, List.flatMap_singleton]
    congr 1
    cases action with
    | accept =>
        cases Server.step_cases wf step
        exact List.append_nil _
    | receive conn pkt =>
        cases Server.step_cases wf step
        rfl
    | process owned =>
        rw [← queue_of_process wf step]
        exact List.append_nil _
    | sendToClient => exact fromPeers.2.elim
    | sendToAll => exact fromPeers.2.elim

theorem queue_of_step (wf : network.server.WellFormed) (linked : Linked paddings network)
    (step : Step env paddings network action next) :
    ∃ pushed, action.handled ++ next.server.m_TCP_PktIn =
        network.server.m_TCP_PktIn ++ pushed ∧
      ∀ conn, (next.up conn).reader.m_PktIn.map OwnedPacket.pkt =
        (network.up conn).reader.m_PktIn.map OwnedPacket.pkt ++ packetsFrom conn pushed := by
  cases step_cases step with
  | accept server accepts =>
      cases Server.step_cases wf accepts
      exact ⟨[], (List.append_nil _).symm, fun conn => (List.append_nil _).symm⟩
  | process owned server handles =>
      refine ⟨[], ?_, fun conn => (List.append_nil _).symm⟩
      rw [List.append_nil]
      exact queue_of_process wf handles
  | up conn action link _ moves =>
      refine ⟨newlyPushed (network.up conn) link, rfl, ?_⟩
      intro other
      change (Function.update network.up conn link other).reader.m_PktIn.map OwnedPacket.pkt = _
      by_cases same : other = conn
      · subst same
        rw [Function.update_self, m_PktIn_of_step moves, List.map_append]
        rcases linked.newlyPushed_of_step moves with nothing | ⟨-, pkt, isNew, -⟩
        · rw [nothing]
          rfl
        · simp [isNew, packetsFrom]
      · rw [Function.update_of_ne same]
        rcases linked.newlyPushed_of_step moves with nothing | ⟨-, pkt, isNew, -⟩
        · simp [nothing, packetsFrom]
        · simp [isNew, packetsFrom, Ne.symm same]
  | down conn action link _ moves =>
      exact ⟨[], (List.append_nil _).symm, fun conn => (List.append_nil _).symm⟩

def Served (Condition : Server → OwnedPacket CMD → Prop) (server : Server) : Server.Action → Prop
  | .accept => True
  | .receive _ _ => True
  | .process owned => Condition server owned
  | _ => False

def Serves (Condition : Server → OwnedPacket CMD → Prop) (network : Network) : Action → Prop
  | .process owned => Condition network.server owned
  | _ => True

theorem fromPeers_of_served {Condition : Server → OwnedPacket CMD → Prop} {server : Server}
    {action : Server.Action} (served : Served Condition server action) : action.FromPeers := by
  cases action with
  | accept => trivial
  | receive => trivial
  | process => trivial
  | sendToClient => exact served
  | sendToAll => exact served

/-- The server of a network makes runs of the server alone, that handle the same. -/
theorem server_simulates {Condition : Server → OwnedPacket CMD → Prop}
    (linked : Linked paddings network) (step : Step env paddings network action next)
    (serves : network.Serves Condition action) :
    ∃ performed, Trace (StepWhere (Server.Step env) (Served Condition)) network.server performed
        next.server ∧
      performed.flatMap handledBy = action.handled := by
  cases step_cases step with
  | accept server accepts => exact ⟨[.accept], .cons ⟨accepts, trivial⟩ (.nil _), rfl⟩
  | process owned server handles =>
      exact ⟨[.process owned], .cons ⟨handles, serves⟩ (.nil _), rfl⟩
  | up conn action link reading moves =>
      rcases linked.newlyPushed_of_step moves with nothing | ⟨reads, pkt, isNew, fits⟩
      · have same : (network.advanced conn link).server = network.server := by
          rw [advanced, nothing, List.append_nil]
        rw [same]
        exact ⟨[], .nil _, rfl⟩
      · have received : (network.advanced conn link).server = network.server.received conn pkt := by
          rw [advanced, isNew]
          rfl
        rw [received]
        have receives : Server.Step env network.server (.receive conn pkt)
            (network.server.received conn pkt) := if_pos ⟨reading reads, fits⟩
        exact ⟨[.receive conn pkt], .cons ⟨receives, trivial⟩ (.nil _), rfl⟩
  | down => exact ⟨[], .nil _, rfl⟩

theorem serves_always (network : Network) (action : Action) :
    network.Serves (fun _ _ => True) action := by
  cases action with
  | _ => trivial

theorem Linked.wellFormed_of_step (linked : Linked paddings network)
    (wf : network.server.WellFormed) (step : Step env paddings network action next) :
    next.server.WellFormed := by
  rcases server_simulates linked step (serves_always network action) with ⟨performed, runs, -⟩
  exact runs.unconditional.invariant (Server.wellFormed_preserved env) wf

theorem serving {first last : Network} {actions : List Action}
    (trace : Trace (Step env paddings) first actions last) :
    Trace (StepWhere (Step env paddings) (Serves fun _ _ => True)) first actions last :=
  trace.mono fun current action _ step => ⟨step, serves_always current action⟩

theorem fromPeers_of_trace {Condition : Server → OwnedPacket CMD → Prop} {first last : Server}
    {performed : List Server.Action}
    (trace : Trace (StepWhere (Server.Step env) (Served Condition)) first performed last) :
    ∀ action ∈ performed, action.FromPeers := by
  have peers : Trace (StepWhere (Server.Step env) fun _ action => action.FromPeers) first
      performed last := trace.mono fun _ _ _ step => ⟨step.1, fromPeers_of_served step.2⟩
  exact peers.forall_of_where

theorem exists_server_trace {Condition : Server → OwnedPacket CMD → Prop} {first last : Network}
    {actions : List Action} (wf : first.server.WellFormed) (linked : Linked paddings first)
    (trace : Trace (StepWhere (Step env paddings) (Serves Condition)) first actions last) :
    ∃ performed, Trace (StepWhere (Server.Step env) (Served Condition)) first.server performed
        last.server ∧
      performed.flatMap handledBy = actions.flatMap Action.handled := by
  let Relates (network : Network) (server : Server) : Prop :=
    network.server = server ∧ network.server.WellFormed ∧ Linked paddings network
  have simulates : ∀ current action next server, Relates current server →
      StepWhere (Step env paddings) (Serves Condition) current action next →
      ∃ performed after, Trace (StepWhere (Server.Step env) (Served Condition)) server performed
          after ∧ Relates next after ∧ performed.flatMap handledBy = action.handled := by
    rintro current action next _ ⟨rfl, wf, linked⟩ ⟨step, serves⟩
    rcases server_simulates linked step serves with ⟨performed, runs, sameHandled⟩
    have wfNext := runs.unconditional.invariant (Server.wellFormed_preserved env) wf
    exact ⟨performed, next.server, runs, ⟨rfl, wfNext, linked.step wf step⟩, sameHandled⟩
  have related : Relates first first.server := ⟨rfl, wf, linked⟩
  rcases trace.simulate Action.handled handledBy simulates related with
    ⟨performed, server, runs, ⟨rfl, -, -⟩, sameHandled⟩
  exact ⟨performed, runs, sameHandled⟩

section Runs

variable {m_IDCnt : UInt32} {m_sID : ConnRef → UInt32} {actions : List Action}

theorem linked_of_trace
    (trace : Trace (Step env paddings) (start m_IDCnt m_sID) actions network) :
    network.server.WellFormed ∧ Linked paddings network := by
  have keeps : ∀ current action next,
      current.server.WellFormed ∧ Linked paddings current →
      Step env paddings current action next →
      next.server.WellFormed ∧ Linked paddings next := by
    intro current action next ⟨wf, linked⟩ step
    exact ⟨linked.wellFormed_of_step wf step, linked.step wf step⟩
  exact trace.invariant keeps
    ⟨Server.wellFormed_start m_IDCnt m_sID, linked_start paddings m_IDCnt m_sID⟩

theorem exists_server_trace_of_start {Condition : Server → OwnedPacket CMD → Prop}
    (trace : Trace (StepWhere (Step env paddings) (Serves Condition)) (start m_IDCnt m_sID)
      actions network) :
    ∃ performed, Trace (StepWhere (Server.Step env) (Served Condition))
        (Server.start m_IDCnt m_sID) performed network.server ∧
      performed.flatMap handledBy = actions.flatMap Action.handled :=
  exists_server_trace (Server.wellFormed_start m_IDCnt m_sID)
    (linked_start paddings m_IDCnt m_sID) trace

theorem addressed_of_trace
    (trace : Trace (Step env paddings) (start m_IDCnt m_sID) actions network) :
    network.server.Addressed := by
  rcases exists_server_trace_of_start (serving trace) with ⟨performed, runs, -⟩
  exact Server.addressed_of_trace runs.unconditional (fromPeers_of_trace runs)

/-- What was handled for a connection and what waits for it are together what the
connection has pushed. -/
theorem handled_and_queued
    (trace : Trace (Step env paddings) (start m_IDCnt m_sID) actions network) (conn : ConnRef) :
    packetsFrom conn (actions.flatMap Action.handled ++ network.server.m_TCP_PktIn) =
      (network.up conn).reader.m_PktIn.map OwnedPacket.pkt := by
  refine trace.snoc_induction (motive := fun actions network =>
    packetsFrom conn (actions.flatMap Action.handled ++ network.server.m_TCP_PktIn) =
      (network.up conn).reader.m_PktIn.map OwnedPacket.pkt) rfl ?_
  intro before middle action next front induction step
  rcases linked_of_trace front with ⟨wf, linked⟩
  rcases queue_of_step wf linked step with ⟨pushed, queue, grows⟩
  rw [grows, ← induction, List.flatMap_append, List.flatMap_singleton, List.append_assoc, queue,
    ← List.append_assoc, packetsFrom_append]

/-- A client enters and pings. Its first packet is handled, the second waits, and it has
got two of the packets that were sent to it. -/
def entering : List Action :=
  let enter := Server.emptyPacket .SelfEnterWorld
  let ping := Server.emptyPacket .Ping <<< (7 : Int64)
  [.accept, .up 0 (.write (.SendPacket enter)), .up 0 (.write (.SendPacket ping)),
    .up 0 (.write .runPosted), .up 0 (.write .runPosted), .up 0 (.write (.transfer 0 8)),
    .up 0 (.write (.complete 0)), .up 0 (.write (.transfer 0 8)), .up 0 (.deliver 12),
    .up 0 .complete, .process ⟨some 0, enter⟩, .up 0 (.write (.complete 0)),
    .up 0 (.write (.transfer 0 8)), .up 0 (.deliver 12), .up 0 .complete, .up 0 .complete,
    .down 0 (.write .runPosted), .down 0 (.write (.transfer 0 8)), .down 0 (.write (.complete 0)),
    .down 0 (.write .runPosted), .down 0 (.write (.transfer 0 8)), .down 0 (.write (.complete 0)),
    .down 0 (.write (.transfer 0 18)), .down 0 (.deliver 34), .down 0 .complete,
    .down 0 .complete, .down 0 .complete]

def Paddings.zero : Paddings := ⟨fun _ _ => (0 : UInt16), fun _ _ => (0 : UInt16)⟩

theorem exists_entering :
    ∃ network, Trace (Step .calm Paddings.zero) (start 5 fun _ => 0) entering network ∧
      network.server.m_TCP_PktIn = [⟨some 0, Server.emptyPacket .Ping <<< (7 : Int64)⟩] ∧
      (network.down 0).reader.m_PktIn = [⟨none, Server.acceptPacket⟩,
        ⟨none, Server.positionPacket .PlyEnterWorld (network.server.newCharacter 0)⟩] ∧
      ∀ pkt ∈ (network.up 0).sent, pkt.Consistent := by
  have runs : ∃ network ∈ runSteps (step .calm Paddings.zero) (start 5 fun _ => 0) entering,
      network.server.m_TCP_PktIn = [⟨some 0, Server.emptyPacket .Ping <<< (7 : Int64)⟩] ∧
      (network.down 0).reader.m_PktIn = [⟨none, Server.acceptPacket⟩,
        ⟨none, Server.positionPacket .PlyEnterWorld (network.server.newCharacter 0)⟩] ∧
      ∀ pkt ∈ (network.up 0).sent, pkt.Consistent := by
    decide +kernel
  rcases runs with ⟨network, reaches, facts⟩
  exact ⟨network, Trace.of_run reaches, facts⟩

/-- Every run of the network is a run of its server, in which the bytes on the streams
are not seen: it receives on each connection what the connection pushes, and handles what
is handled. -/
theorem refines_server
    (trace : Trace (Step env paddings) (start m_IDCnt m_sID) actions network) :
    ∃ performed, Trace (Server.Step env) (Server.start m_IDCnt m_sID) performed network.server ∧
      (∀ action ∈ performed, action.FromPeers) ∧
      performed.flatMap handledBy = actions.flatMap Action.handled ∧
      ∀ conn, packetsFrom conn (performed.flatMap receivedBy) =
        (network.up conn).reader.m_PktIn.map OwnedPacket.pkt := by
  rcases exists_server_trace_of_start (serving trace) with ⟨performed, runs, sameHandled⟩
  have fromPeers := fromPeers_of_trace runs
  refine ⟨performed, runs.unconditional, fromPeers, sameHandled, ?_⟩
  intro conn
  rw [received_of_trace runs.unconditional fromPeers, sameHandled]
  exact handled_and_queued trace conn

theorem refines_server_entering :
    ∃ network performed, Trace (Step .calm Paddings.zero) (start 5 fun _ => 0) entering network ∧
      Trace (Server.Step .calm) (Server.start 5 fun _ => 0) performed network.server ∧
      performed.flatMap handledBy = [⟨some 0, Server.emptyPacket .SelfEnterWorld⟩] := by
  rcases exists_entering with ⟨network, trace, -⟩
  rcases refines_server trace with ⟨performed, runs, -, sameHandled, -⟩
  exact ⟨network, performed, trace, runs, sameHandled⟩

theorem Linked.pushed (linked : Linked paddings network) (conn : ConnRef)
    (consistent : ∀ pkt ∈ (network.up conn).sent, pkt.Consistent) :
    (network.up conn).reader.m_PktIn.map OwnedPacket.pkt <+:
      Reader.redelivered [] (network.up conn).sent := by
  rcases linked.up conn with ⟨steps, run⟩
  rcases Link.carries_of_trace run with ⟨frames, carries⟩
  have isPrefix := (carries.pushed_prefix consistent).map OwnedPacket.pkt
  rw [List.map_map] at isPrefix
  have sameList : (Reader.redelivered [] (network.up conn).sent).map
      (OwnedPacket.pkt ∘ fun pkt => ⟨(network.up conn).reader.connectionPtr, pkt⟩) =
        Reader.redelivered [] (network.up conn).sent := List.map_id _
  rwa [sameList] at isPrefix

theorem Linked.received (linked : Linked paddings network) (addressed : network.server.Addressed)
    (conn : ConnRef) : (network.down conn).reader.m_PktIn <+:
      (network.server.sentTo conn).map fun pkt => ⟨none, pkt⟩ := by
  rcases linked.down conn with ⟨steps, run⟩
  rcases Link.carries_of_trace run with ⟨frames, carries⟩
  have consistent := addressed.consistent conn
  rw [← linked.sent conn] at consistent
  have isPrefix := carries.pushed_prefix consistent
  rw [linked.sent conn, addressed.redelivered conn, Link.connectionPtr_of_trace run] at isPrefix
  exact isPrefix

theorem Linked.packets_received (linked : Linked paddings network)
    (addressed : network.server.Addressed) (conn : ConnRef) :
    (network.down conn).reader.m_PktIn.map OwnedPacket.pkt <+: network.server.sentTo conn := by
  have isPrefix := (linked.received addressed conn).map OwnedPacket.pkt
  rw [List.map_map] at isPrefix
  have sameList : (network.server.sentTo conn).map (OwnedPacket.pkt ∘ fun pkt => ⟨none, pkt⟩) =
      network.server.sentTo conn := List.map_id _
  rwa [sameList] at isPrefix

/-- Where every packet a client sent has the size of its body, the server handles them in
the order in which they were sent, each at most once and none in between left out; those
that wait in its queue are the next. One that was sent without a body is handled with the
body of the one before it. -/
theorem handles_what_was_sent
    (trace : Trace (Step env paddings) (start m_IDCnt m_sID) actions network) (conn : ConnRef)
    (consistent : ∀ pkt ∈ (network.up conn).sent, pkt.Consistent) :
    packetsFrom conn (actions.flatMap Action.handled ++ network.server.m_TCP_PktIn) <+:
      Reader.redelivered [] (network.up conn).sent := by
  rw [handled_and_queued trace conn]
  exact (linked_of_trace trace).2.pushed conn consistent

theorem handles_what_was_sent_entering :
    ∃ network, Trace (Step .calm Paddings.zero) (start 5 fun _ => 0) entering network ∧
      packetsFrom 0 (entering.flatMap Action.handled ++ network.server.m_TCP_PktIn) <+:
        Reader.redelivered [] (network.up 0).sent := by
  rcases exists_entering with ⟨network, trace, -, -, consistent⟩
  exact ⟨network, trace, handles_what_was_sent trace 0 consistent⟩

/-- What a client finds in its queue are the packets the server sent to it, exactly as
they were sent and in that order, up to some point. -/
theorem receives_what_was_sent
    (trace : Trace (Step env paddings) (start m_IDCnt m_sID) actions network) (conn : ConnRef) :
    (network.down conn).reader.m_PktIn <+:
      (network.server.sentTo conn).map fun pkt => ⟨none, pkt⟩ :=
  (linked_of_trace trace).2.received (addressed_of_trace trace) conn

theorem receives_what_was_sent_entering :
    ∃ network, Trace (Step .calm Paddings.zero) (start 5 fun _ => 0) entering network ∧
      (network.down 0).reader.m_PktIn.length = 2 ∧
      (network.down 0).reader.m_PktIn <+:
        (network.server.sentTo 0).map fun pkt => ⟨none, pkt⟩ := by
  rcases exists_entering with ⟨network, trace, -, received, -⟩
  exact ⟨network, trace, congrArg List.length received, receives_what_was_sent trace 0⟩

end Runs

end Network

end GNL
