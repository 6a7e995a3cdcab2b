import GNL.Network.MessageAll

/-! # The pings a client gets back

A client measures by its own clock how long a ping takes, and relies on the server to send
each one back as it was, and in the order they were sent.
-/

namespace GNL

def onlyPings (pkts : List (Packet CMD)) : List (Packet CMD) :=
  pkts.filter fun pkt => pkt.header.cmdID = .Ping

theorem onlyPings_append (first second : List (Packet CMD)) :
    onlyPings (first ++ second) = onlyPings first ++ onlyPings second :=
  List.filter_append _ _

/-- The packet as the server sends it back: its size is counted again. -/
def echoed (pkt : Packet CMD) : Packet CMD :=
  { pkt with header.size := pkt.get_packet_len }

theorem echoed_of_consistent {pkt : Packet CMD} (consistent : pkt.Consistent) :
    echoed pkt = pkt := by
  have size : pkt.get_packet_len = pkt.header.size := by
    rw [Packet.get_packet_len, ← consistent]
    exact UInt32.ofNat_toNat
  rw [echoed, size]

theorem onlyPings_redelivered {pkts : List (Packet CMD)}
    (bodies : ∀ pkt ∈ pkts, pkt.header.cmdID = .Ping → pkt.body ≠ []) (stale : List UInt8) :
    onlyPings (Reader.redelivered stale pkts) = onlyPings pkts := by
  induction pkts generalizing stale with
  | nil => rfl
  | cons pkt rest induction =>
      rcases List.forall_mem_cons.mp bodies with ⟨body, bodiesRest⟩
      rw [Reader.redelivered]
      by_cases isPing : pkt.header.cmdID = .Ping
      · rw [if_neg (body isPing), onlyPings, onlyPings,
          List.filter_cons_of_pos (by simpa using isPing),
          List.filter_cons_of_pos (by simpa using isPing)]
        exact congrArg (pkt :: ·) (induction bodiesRest pkt.body)
      · rw [onlyPings, onlyPings, List.filter_cons_of_neg (by simpa using isPing),
          List.filter_cons_of_neg (by simpa using isPing)]
        exact induction bodiesRest _

namespace Server

variable {env : Environment}

structure Echoes (env : Environment) (server : Server) (conn : ConnRef)
    (asked : List (Packet CMD)) : Prop where
  sent : onlyPings (server.sentTo conn) <+: asked
  whole : env.isOpen server.tick conn = true → onlyPings (server.sentTo conn) = asked

section Steps

variable {server next : Server} {action : Action} {conn : ConnRef} {asked : List (Packet CMD)}

theorem Outgoing.no_pings {pkt : Packet CMD} {messages : List (ConnRef × Packet CMD)}
    {actor : ConnRef} (outgoing : Outgoing env server actor pkt messages)
    (notPing : pkt.header.cmdID ≠ .Ping) :
    ∀ message ∈ messages, message.2.header.cmdID ≠ .Ping := by
  cases outgoing with
  | ping isPing => exact absurd isPing notPing
  | messageAll =>
      intro message member
      rcases List.mem_map.mp member with ⟨asked, -, rfl⟩
      exact nofun
  | enters =>
      intro message member
      rcases List.mem_append.mp member with isTold | isReply
      · rcases List.mem_map.mp isTold with ⟨asked, -, rfl⟩
        exact nofun
      · rcases List.mem_map.mp isReply with ⟨asked, -, rfl⟩
        simp [cmdID_worldPacket]
  | moves =>
      intro message member
      rw [eq_of_mem_announced member]
      exact nofun
  | nothing =>
      intro message member
      cases member

theorem Outgoing.echo {pkt : Packet CMD} {messages : List (ConnRef × Packet CMD)}
    {actor : ConnRef} (outgoing : Outgoing env server actor pkt messages)
    (isPing : pkt.header.cmdID = .Ping) :
    messages = (answering env server.tick [actor]).map (·, echoed pkt) := by
  cases outgoing with
  | ping _ echo cmdID body size =>
      have isEcho : echo = echoed pkt := by
        rcases echo with ⟨⟨_, counted⟩, _⟩
        cases cmdID
        cases body
        rw [echoed, ← isPing]
        exact congrArg (fun size => (⟨⟨pkt.header.cmdID, size⟩, pkt.body⟩ : Packet CMD)) size
      rw [isEcho]
  | messageAll isMessageAll => exact absurd (isPing.symm.trans isMessageAll) (by decide)
  | enters isEnter => exact absurd (isPing.symm.trans isEnter) (by decide)
  | moves isMove => exact absurd (isPing.symm.trans isMove) (by decide)
  | nothing notPing => exact absurd isPing notPing

theorem Emits.onlyPings {messages : List (ConnRef × Packet CMD)}
    (emits : Emits env server action messages) (conn : ConnRef) :
    onlyPings ((messages.filter fun message => message.1 = conn).map Prod.snd) =
      if env.isOpen server.tick conn = true then
        (onlyPings (Network.packetsFrom conn (Network.handledBy action))).map echoed
      else [] := by
  have nothing : (if env.isOpen server.tick conn = true then [] else ([] : List (Packet CMD))) =
      [] := ite_self []
  cases emits with
  | accept =>
      refine Eq.trans ?_ nothing.symm
      rw [onlyPings, List.filter_eq_nil_iff]
      intro pkt member
      rcases List.mem_map.mp member with ⟨message, isTold, rfl⟩
      cases List.mem_singleton.mp (List.mem_of_mem_filter isTold)
      exact nofun
  | receive => exact nothing.symm
  | process actor pkt _ _ outgoing =>
      by_cases isPing : pkt.header.cmdID = .Ping
      · rw [outgoing.echo isPing]
        have sameTick : server.popped.tick = server.tick := rfl
        rw [sameTick, answering, answering]
        by_cases same : actor = conn
        · subst same
          split
          · simp [Network.handledBy, Network.packetsFrom, onlyPings, isPing, echoed]
          · rfl
        · split
          · simp [Network.handledBy, Network.packetsFrom, onlyPings, same]
          · simp [Network.handledBy, Network.packetsFrom, onlyPings, same]
      · have noneSent : onlyPings ((messages.filter fun message => message.1 = conn).map
            Prod.snd) = [] := by
          rw [onlyPings, List.filter_eq_nil_iff]
          intro told member
          rcases List.mem_map.mp member with ⟨message, isTold, rfl⟩
          simpa using outgoing.no_pings isPing message (List.mem_of_mem_filter isTold)
        have noneHandled : onlyPings (Network.packetsFrom conn
            (Network.handledBy (.process ⟨some actor, pkt⟩))) = [] := by
          rw [onlyPings, List.filter_eq_nil_iff]
          intro told member
          rcases List.mem_map.mp member with ⟨owned, isHandled, rfl⟩
          cases List.mem_singleton.mp (List.mem_of_mem_filter isHandled)
          simpa using isPing
        rw [noneSent, noneHandled]
        exact nothing.symm

theorem Echoes.step (echoes : server.Echoes env conn asked) (wf : server.WellFormed)
    (fromPeers : action.FromPeers) (step : Step env server action next) :
    next.Echoes env conn
      (asked ++ (onlyPings (Network.packetsFrom conn (Network.handledBy action))).map echoed) := by
  rcases emits_of_step wf fromPeers step with ⟨messages, emits, sent⟩
  have new := emits.onlyPings conn
  cases isOpen : env.isOpen server.tick conn with
  | true =>
      rw [if_pos isOpen] at new
      have all : onlyPings (next.sentTo conn) =
          asked ++
            (onlyPings (Network.packetsFrom conn (Network.handledBy action))).map echoed := by
        rw [sentTo_append sent, onlyPings_append, new, echoes.whole isOpen]
      exact ⟨all ▸ List.prefix_refl _, fun _ => all⟩
  | false =>
      rw [if_neg (by simp [isOpen])] at new
      refine ⟨?_, ?_⟩
      · rw [sentTo_append sent, onlyPings_append, new, List.append_nil]
        exact echoes.sent.trans (List.prefix_append _ _)
      · intro stillOpen
        rw [env.closed_stays_closed (tick_le_of_step wf step) stillOpen] at isOpen
        contradiction

theorem echoes_of_trace {m_IDCnt : UInt32} {m_sID : ConnRef → UInt32} {server : Server}
    {performed : List Action}
    (trace : Trace (Step env) (start m_IDCnt m_sID) performed server)
    (fromPeers : ∀ action ∈ performed, action.FromPeers) (conn : ConnRef) :
    server.Echoes env conn
      ((onlyPings
        (Network.packetsFrom conn (performed.flatMap Network.handledBy))).map echoed) := by
  revert fromPeers
  apply trace.snoc_induction (motive := fun performed server =>
    (∀ action ∈ performed, action.FromPeers) → server.Echoes env conn
      ((onlyPings (Network.packetsFrom conn (performed.flatMap Network.handledBy))).map echoed))
  · exact fun _ => ⟨List.prefix_refl _, fun _ => rfl⟩
  · intro before middle action next front induction step fromPeers
    rw [List.forall_mem_append, List.forall_mem_singleton] at fromPeers
    have later := (induction fromPeers.1).step (wellFormed_of_trace front) fromPeers.2 step
    rwa [← List.map_append, ← onlyPings_append, ← Network.packetsFrom_append,
      ← List.flatMap_singleton Network.handledBy action, ← List.flatMap_append] at later

end Steps

end Server

namespace Network

variable {env : Environment} {paddings : Paddings} {network : Network} {m_IDCnt : UInt32}
  {m_sID : ConnRef → UInt32} {actions : List Action}

/-- The pings a client finds in its queue are the first of those the server handled for it,
in order and with nothing changed but a size that was wrong; while the connection is open
each one handled has been sent back. Where the client sent them with a body and the right
size, they are the first pings it sent, exactly as it sent them. -/
theorem pings_come_back
    (trace : Trace (Step env paddings) (start m_IDCnt m_sID) actions network) (conn : ConnRef) :
    let asked := onlyPings (packetsFrom conn (actions.flatMap Action.handled))
    let received := onlyPings ((network.down conn).reader.m_PktIn.map OwnedPacket.pkt)
    received <+: asked.map echoed ∧
      (env.isOpen network.server.tick conn = true →
        onlyPings (network.server.sentTo conn) = asked.map echoed) ∧
      ((∀ pkt ∈ (network.up conn).sent, pkt.Consistent) →
        (∀ pkt ∈ (network.up conn).sent, pkt.header.cmdID = .Ping → pkt.body ≠ []) →
        received <+: onlyPings (network.up conn).sent) := by
  intro asked received
  rcases exists_server_trace_of_start (serving trace) with ⟨performed, runs, sameHandled⟩
  have linked := (linked_of_trace trace).2
  have echoes := Server.echoes_of_trace runs.unconditional (fromPeers_of_trace runs) conn
  rw [sameHandled] at echoes
  have isPrefix : received <+: asked.map echoed :=
    ((linked.packets_received (addressed_of_trace trace) conn).filter _).trans echoes.sent
  refine ⟨isPrefix, echoes.whole, ?_⟩
  intro consistent bodies
  have wasSent : asked <+: onlyPings (network.up conn).sent := by
    have pushed := (linked.pushed conn consistent).filter (·.header.cmdID = .Ping)
    rw [← handled_and_queued trace conn, packetsFrom_append, List.filter_append] at pushed
    have sameSent := onlyPings_redelivered bodies []
    rw [onlyPings] at sameSent
    rw [sameSent] at pushed
    exact (List.prefix_append _ _).trans pushed
  have unchanged : asked.map echoed = asked := by
    conv_rhs => rw [← List.map_id asked]
    apply List.map_congr_left
    intro pkt isAsked
    have inSent := List.mem_of_mem_filter (wasSent.subset isAsked)
    exact echoed_of_consistent (consistent pkt inSent)
  rw [unchanged] at isPrefix
  exact isPrefix.trans wasSent

theorem pings_come_back_first_of_two :
    let ping (timeNow : Int64) : Packet CMD := Server.emptyPacket .Ping <<< timeNow
    let actions : List Action := [.accept, .up 0 (.write (.SendPacket (ping 7))),
      .up 0 (.write (.SendPacket (ping 8))), .up 0 (.write .runPosted),
      .up 0 (.write (.transfer 0 8)), .up 0 (.write (.complete 0)),
      .up 0 (.write (.transfer 0 8)), .up 0 (.deliver 16), .up 0 .complete, .up 0 .complete,
      .process ⟨some 0, ping 7⟩, .down 0 (.write .runPosted), .down 0 (.write .runPosted),
      .down 0 (.write (.transfer 0 8)), .down 0 (.write (.complete 0)),
      .down 0 (.write (.transfer 0 8)), .down 0 (.write (.complete 0)),
      .down 0 (.write (.transfer 0 8)), .down 0 (.deliver 24), .down 0 .complete,
      .down 0 .complete, .down 0 .complete]
    ∃ network, Trace (Step .calm Paddings.zero) (start 5 fun _ => 0) actions network ∧
      (network.up 0).sent = [ping 7, ping 8] ∧
      (network.down 0).reader.m_PktIn.length = 2 ∧
      onlyPings ((network.down 0).reader.m_PktIn.map OwnedPacket.pkt) <+:
        onlyPings (network.up 0).sent := by
  intro ping actions
  have runs : ∃ network ∈ runSteps (step .calm Paddings.zero) (start 5 fun _ => 0) actions,
      (network.up 0).sent = [ping 7, ping 8] ∧
      (network.down 0).reader.m_PktIn.length = 2 ∧
      (∀ pkt ∈ (network.up 0).sent, pkt.Consistent) ∧
      ∀ pkt ∈ (network.up 0).sent, pkt.header.cmdID = .Ping → pkt.body ≠ [] := by
    decide +kernel
  rcases runs with ⟨network, reaches, sent, received, consistent, bodies⟩
  have trace : Trace (Step .calm Paddings.zero) (start 5 fun _ => 0) actions network :=
    Trace.of_run reaches
  exact ⟨network, trace, sent, received,
    (pings_come_back trace 0).2.2 consistent bodies⟩

end Network

end GNL
