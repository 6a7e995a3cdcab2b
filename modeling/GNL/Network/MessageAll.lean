import GNL.Network
import GNL.Server.Views

/-! # What clients hear of each other

The server handles one packet after the other, and passes a `MessageAll` on to every
client but the one that sent it before it handles the next. So all clients hear the same
messages in the same order, each from where it was accepted to where it is.
-/

namespace GNL

namespace Server

variable {env : Environment}

def speakers (handled : List (OwnedPacket CMD)) : List ConnRef :=
  handled.filterMap fun owned =>
    if owned.pkt.header.cmdID = .MessageAll then owned.connectionPtr else none

def newsFor (m_sID : ConnRef → UInt32) (conn : ConnRef) (handled : List (OwnedPacket CMD)) :
    List (Packet CMD) :=
  ((speakers handled).filter (· ≠ conn)).map fun speaker =>
    emptyPacket .ServerMessage <<< m_sID speaker

def news (pkts : List (Packet CMD)) : List (Packet CMD) :=
  pkts.filter fun pkt => pkt.header.cmdID = .ServerMessage

theorem newsFor_append (m_sID : ConnRef → UInt32) (conn : ConnRef)
    (first second : List (OwnedPacket CMD)) :
    newsFor m_sID conn (first ++ second) =
      newsFor m_sID conn first ++ newsFor m_sID conn second := by
  rw [newsFor, speakers, List.filterMap_append, List.filter_append, List.map_append]
  rfl

theorem newsFor_congr {m_sID other : ConnRef → UInt32} {conn : ConnRef}
    {handled : List (OwnedPacket CMD)}
    (same : ∀ owned ∈ handled, ∀ speaker ∈ owned.connectionPtr, other speaker = m_sID speaker) :
    newsFor other conn handled = newsFor m_sID conn handled := by
  apply List.map_congr_left
  intro speaker member
  rcases List.mem_filterMap.mp (List.mem_of_mem_filter member) with ⟨owned, isHandled, isSpeaker⟩
  split at isSpeaker
  · rw [same owned isHandled speaker isSpeaker]
  · contradiction

theorem answering_or_closed {tick : Nat} {conns : List ConnRef} {conn : ConnRef}
    (member : conn ∈ conns) :
    conn ∈ answering env tick conns ∨ conn ∈ foundClosed env tick conns := by
  induction conns generalizing tick with
  | nil => contradiction
  | cons first rest induction =>
      rw [answering, foundClosed]
      rcases List.mem_cons.mp member with rfl | inRest
      · split
        · exact .inl List.mem_cons_self
        · exact .inr List.mem_cons_self
      · have found : conn ∈ answering env (tick + 1) rest ∨
            conn ∈ foundClosed env (tick + 1) rest := induction inRest
        rcases found with isOpen | isClosed
        · split
          · exact .inl (List.mem_cons_of_mem first isOpen)
          · exact .inl isOpen
        · split
          · exact .inr isClosed
          · exact .inr (List.mem_cons_of_mem first isClosed)

theorem isOpen_of_answering {tick : Nat} {conns : List ConnRef} {conn : ConnRef}
    (member : conn ∈ answering env tick conns) : env.isOpen tick conn = true := by
  induction conns generalizing tick with
  | nil => contradiction
  | cons first rest induction =>
      rw [answering] at member
      split at member
      next isOpen =>
        rcases List.mem_cons.mp member with rfl | inRest
        · exact isOpen
        · exact env.closed_stays_closed (Nat.le_succ tick) (induction inRest)
      next => exact env.closed_stays_closed (Nat.le_succ tick) (induction member)

/-- A client has heard the first of some messages; all of them, while it is connected. -/
structure Heard (env : Environment) (server : Server) (conn : ConnRef)
    (spoken : List (Packet CMD)) : Prop where
  heard : news (server.sentTo conn) <+: spoken
  whole : env.isOpen server.tick conn = true →
    some conn ∈ server.m_TCPConnections ∧ news (server.sentTo conn) = spoken

section Steps

variable {server next : Server} {action : Action} {conn : ConnRef} {spoken : List (Packet CMD)}

theorem listed_of_step (wf : server.WellFormed) (distinct : server.m_TCPConnections.Nodup)
    (step : Step env server action next) (isListed : some conn ∈ server.m_TCPConnections)
    (isOpen : env.isOpen next.tick conn = true) : some conn ∈ next.m_TCPConnections := by
  rcases step_drops wf distinct step with ⟨prepared, prepares, drops⟩
  rw [drops.m_TCPConnections]
  constructor
  · cases prepares with
    | accept => exact List.mem_append_left _ isListed
    | _ => exact isListed
  · intro lost isLost same
    cases same
    rw [drops.closed conn isLost] at isOpen
    contradiction

theorem news_append (first second : List (Packet CMD)) :
    news (first ++ second) = news first ++ news second :=
  List.filter_append _ _

theorem Heard.quiet (heard : server.Heard env conn spoken) (wf : server.WellFormed)
    (distinct : server.m_TCPConnections.Nodup) (step : Step env server action next)
    (same : news (next.sentTo conn) = news (server.sentTo conn)) :
    next.Heard env conn spoken where
  heard := by
    rw [same]
    exact heard.heard
  whole isOpen := by
    rcases heard.whole (env.closed_stays_closed (tick_le_of_step wf step) isOpen) with
      ⟨isListed, all⟩
    exact ⟨listed_of_step wf distinct step isListed isOpen, same.trans all⟩

theorem Outgoing.no_news {pkt : Packet CMD} {messages : List (ConnRef × Packet CMD)}
    {actor : ConnRef} (outgoing : Outgoing env server actor pkt messages)
    (notMessageAll : pkt.header.cmdID ≠ .MessageAll) :
    ∀ message ∈ messages, message.2.header.cmdID ≠ .ServerMessage := by
  cases outgoing with
  | ping _ echo cmdID =>
      intro message member
      rcases List.mem_map.mp member with ⟨asked, -, rfl⟩
      simp [cmdID]
  | messageAll isMessageAll => exact absurd isMessageAll notMessageAll
  | enters =>
      intro message member
      rcases List.mem_append.mp member with isTold | isReply
      · rcases List.mem_map.mp isTold with ⟨asked, -, rfl⟩
        exact nofun
      · rcases List.mem_map.mp isReply with ⟨asked, -, rfl⟩
        simp [cmdID_worldPacket]
  | moves =>
      intro message member
      rw [eq_of_mem_announced member]
      exact nofun
  | nothing =>
      intro message member
      cases member

theorem news_of_others {messages : List (ConnRef × Packet CMD)}
    (sent : next.sent = server.sent ++ messages)
    (others : ∀ message ∈ messages, message.2.header.cmdID ≠ .ServerMessage) (conn : ConnRef) :
    news (next.sentTo conn) = news (server.sentTo conn) := by
  have nothing : news ((messages.filter fun message => message.1 = conn).map Prod.snd) = [] := by
    rw [news, List.filter_eq_nil_iff]
    intro pkt member
    rcases List.mem_map.mp member with ⟨message, isTold, rfl⟩
    simpa using others message (List.mem_of_mem_filter isTold)
  rw [sentTo_append sent, news_append, nothing, List.append_nil]

theorem newsFor_handled (m_sID : ConnRef → UInt32) (conn actor : ConnRef) (pkt : Packet CMD) :
    newsFor m_sID conn [⟨some actor, pkt⟩] =
      if pkt.header.cmdID = .MessageAll ∧ conn ≠ actor then
        [emptyPacket .ServerMessage <<< m_sID actor] else [] := by
  by_cases isMessageAll : pkt.header.cmdID = .MessageAll
  · by_cases isOther : conn ≠ actor
    · simp [newsFor, speakers, isMessageAll, isOther, isOther.symm]
    · simp [newsFor, speakers, isMessageAll, not_not.mp isOther]
  · simp [newsFor, speakers, isMessageAll]

theorem Heard.told {actor : ConnRef} {pkt : Packet CMD} {messages : List (ConnRef × Packet CMD)}
    (heard : server.Heard env conn spoken) (wf : server.WellFormed)
    (distinct : server.m_TCPConnections.Nodup)
    (step : Step env server (.process ⟨some actor, pkt⟩) next)
    (isMessageAll : pkt.header.cmdID = .MessageAll)
    (outgoing : Outgoing env server.popped actor pkt messages)
    (sent : next.sent = server.sent ++ messages) :
    next.Heard env conn (spoken ++ newsFor server.m_sID conn [⟨some actor, pkt⟩]) := by
  let asked := answering env server.tick server.listed
  let message := emptyPacket .ServerMessage <<< server.m_sID actor
  have isListed : some conn ∈ server.m_TCPConnections → conn ∈ server.listed :=
    fun member => List.mem_filterMap.mpr ⟨some conn, member, rfl⟩
  have once : (asked.filter (· ≠ actor)).Nodup := by
    rw [wf.m_TCPConnections_eq] at distinct
    exact ((answering_sublist _ _).nodup (List.Nodup.of_map _ distinct)).filter _
  have isSent : messages = (asked.filter (· ≠ actor)).map (·, message) := by
    cases outgoing with
    | messageAll => rfl
    | ping isPing => exact absurd (isPing.symm.trans isMessageAll) (by decide)
    | enters isEnter => exact absurd (isEnter.symm.trans isMessageAll) (by decide)
    | moves isMove => exact absurd (isMove.symm.trans isMessageAll) (by decide)
    | nothing _ notMessageAll => exact absurd isMessageAll notMessageAll
  have grows : news (next.sentTo conn) = news (server.sentTo conn) ++
      if conn ∈ asked ∧ conn ≠ actor then [message] else [] := by
    rw [sentTo_append sent, news_append, isSent, told_each once]
    simp only [List.mem_filter, decide_eq_true_eq]
    split
    · rfl
    · rfl
  rw [newsFor_handled]
  simp only [isMessageAll, true_and]
  by_cases isAsked : conn ∈ asked
  · rcases heard.whole (isOpen_of_answering isAsked) with ⟨wasListed, all⟩
    simp only [isAsked, true_and, all] at grows
    exact ⟨grows ▸ List.prefix_refl _, fun isOpen =>
      ⟨listed_of_step wf distinct step wasListed isOpen, grows⟩⟩
  · simp only [isAsked, false_and, if_false, List.append_nil] at grows
    refine ⟨?_, ?_⟩
    · rw [grows]
      exact heard.heard.trans (List.prefix_append _ _)
    · intro isOpen
      rcases heard.whole (env.closed_stays_closed (tick_le_of_step wf step) isOpen) with
        ⟨wasListed, -⟩
      rcases answering_or_closed (isListed wasListed) with answers | closed
      · exact absurd answers isAsked
      · rcases step_drops wf distinct step with ⟨prepared, -, drops⟩
        have isLost : conn ∈ server.lostIn env (.process ⟨some actor, pkt⟩) := by
          rw [lostIn]
          simp only [Option.elim_some, isMessageAll, lostBy]
          exact closed
        rw [drops.closed conn isLost] at isOpen
        contradiction

theorem Heard.step (heard : server.Heard env conn spoken) (wf : server.WellFormed)
    (distinct : server.m_TCPConnections.Nodup) (fromPeers : action.FromPeers)
    (step : Step env server action next) :
    next.Heard env conn (spoken ++ newsFor server.m_sID conn (Network.handledBy action)) := by
  rcases emits_of_step wf fromPeers step with ⟨messages, emits, sent⟩
  cases emits with
  | accept =>
      change next.Heard env conn (spoken ++ [])
      rw [List.append_nil]
      refine heard.quiet wf distinct step (news_of_others sent ?_ conn)
      intro message member
      cases List.mem_singleton.mp member
      exact nofun
  | receive =>
      change next.Heard env conn (spoken ++ [])
      rw [List.append_nil]
      exact heard.quiet wf distinct step (news_of_others sent (by simp) conn)
  | process actor pkt _ queue outgoing =>
      by_cases isMessageAll : pkt.header.cmdID = .MessageAll
      · exact heard.told wf distinct step isMessageAll outgoing sent
      · rw [Network.handledBy, newsFor_handled, if_neg fun both => isMessageAll both.1,
          List.append_nil]
        exact heard.quiet wf distinct step
          (news_of_others sent (outgoing.no_news isMessageAll) conn)

end Steps

theorem heard_accepted {server : Server} (addressed : server.Addressed) :
    server.accepted.Heard env server.created [] := by
  have sent : server.accepted.sent = server.sent ++ [(server.created, acceptPacket)] := rfl
  have nothing : news (server.accepted.sentTo server.created) = [] := by
    rw [sentTo_append sent, addressed.sentTo_of_not_created (Nat.lt_irrefl _)]
    simp [news, acceptPacket]
  exact ⟨nothing ▸ List.prefix_refl _,
    fun _ => ⟨List.mem_append_right _ (List.mem_singleton_self _), nothing⟩⟩

theorem handled_created_of_step {server next : Server} {action : Action} (wf : server.WellFormed)
    (step : Step env server action next) :
    ∀ owned ∈ Network.handledBy action, ∀ speaker ∈ owned.connectionPtr,
      speaker < server.created := by
  intro owned member speaker isSpeaker
  cases action with
  | process _ =>
      cases List.mem_singleton.mp member
      rcases wf.queue owned (List.mem_of_mem_head? (head_of_step_process step)) with
        ⟨⟨conn, isCreated, same⟩, -⟩
      cases same.symm.trans isSpeaker
      exact isCreated
  | _ => cases member

theorem handled_created {first server : Server} {performed : List Action}
    (wf : first.WellFormed) (trace : Trace (Step env) first performed server) :
    ∀ owned ∈ performed.flatMap Network.handledBy, ∀ speaker ∈ owned.connectionPtr,
      speaker < server.created := by
  apply trace.snoc_induction (motive := fun performed server =>
    ∀ owned ∈ performed.flatMap Network.handledBy, ∀ speaker ∈ owned.connectionPtr,
      speaker < server.created)
  · intro owned member
    cases member
  · intro before middle action next front induction step owned member speaker isSpeaker
    have wfMiddle := front.invariant (wellFormed_preserved env) wf
    have wasCreated : speaker < middle.created := by
      rw [List.flatMap_append, List.flatMap_singleton, List.mem_append] at member
      exact member.elim (fun isOld => induction owned isOld speaker isSpeaker)
        fun isNew => handled_created_of_step wfMiddle step owned isNew speaker isSpeaker
    exact Nat.lt_of_lt_of_le wasCreated (created_le_of_step wfMiddle step)

/-- From its accept on a client hears all that others say. -/
theorem heard_of_trace {m_IDCnt : UInt32} {first server : Server} {performed : List Action}
    (recorded : first.Recorded env m_IDCnt) {conn : ConnRef} (heard : first.Heard env conn [])
    (trace : Trace (Step env) first performed server)
    (fromPeers : ∀ action ∈ performed, action.FromPeers) :
    server.Heard env conn (newsFor server.m_sID conn (performed.flatMap Network.handledBy)) := by
  revert fromPeers
  apply trace.snoc_induction (motive := fun performed server =>
    (∀ action ∈ performed, action.FromPeers) →
      server.Heard env conn (newsFor server.m_sID conn (performed.flatMap Network.handledBy)))
  · exact fun _ => heard
  · intro before middle action next front induction step fromPeers
    rw [List.forall_mem_append, List.forall_mem_singleton] at fromPeers
    have recordedMiddle : middle.Recorded env m_IDCnt :=
      front.invariant (fun _ _ _ recorded step => recorded.step step) recorded
    have wf := recordedMiddle.wf
    have created := handled_created recorded.wf front
    have heardNext := (induction fromPeers.1).step wf recordedMiddle.registered.distinct
      fromPeers.2 step
    rw [← newsFor_append, ← List.flatMap_singleton Network.handledBy action,
      ← List.flatMap_append] at heardNext
    have sameIDs : newsFor next.m_sID conn ((before ++ [action]).flatMap Network.handledBy) =
        newsFor middle.m_sID conn ((before ++ [action]).flatMap Network.handledBy) := by
      apply newsFor_congr
      intro owned member speaker isSpeaker
      apply m_sID_of_step wf step
      rw [List.flatMap_append, List.flatMap_singleton, List.mem_append] at member
      exact member.elim (fun isOld => created owned isOld speaker isSpeaker)
        fun isNew => handled_created_of_step wf step owned isNew speaker isSpeaker
    rwa [sameIDs]

end Server

namespace Network

variable {env : Environment} {paddings : Paddings} {first second network : Network}
  {m_IDCnt : UInt32} {m_sID : ConnRef → UInt32} {before after : List Action}

/-- The messages of others that a client finds in its queue are those of the `MessageAll`
packets that were handled since its connection was accepted, in the order in which they were
handled and with none left out, up to some point; while the connection is open all of them
have been sent. -/
theorem hears_in_order (trace : Trace (Step env paddings) (start m_IDCnt m_sID) before first)
    (accepts : Step env paddings first .accept second)
    (later : Trace (Step env paddings) second after network) :
    let conn := first.server.created
    let spoken := Server.newsFor network.server.m_sID conn (after.flatMap Action.handled)
    Server.news ((network.down conn).reader.m_PktIn.map OwnedPacket.pkt) <+: spoken ∧
      (env.isOpen network.server.tick conn = true →
        Server.news (network.server.sentTo conn) = spoken) := by
  intro conn spoken
  have reaches := trace.snoc accepts
  have whole := reaches.append later
  rcases linked_of_trace trace with ⟨wfFirst, -⟩
  rcases linked_of_trace reaches with ⟨wf, linked⟩
  rcases exists_server_trace_of_start (serving reaches) with ⟨performed, runs, -⟩
  have recorded := Server.recorded_of_trace runs.unconditional
  rcases exists_server_trace wf linked (serving later) with ⟨rest, runsLater, sameHandled⟩
  have heardFirst : second.server.Heard env conn [] := by
    cases step_cases accepts with
    | accept server acceptsServer =>
        cases Server.step_cases wfFirst acceptsServer
        exact Server.heard_accepted (addressed_of_trace trace)
  have heard := Server.heard_of_trace recorded heardFirst runsLater.unconditional
    (fromPeers_of_trace runsLater)
  rw [sameHandled] at heard
  have isPrefix := (linked_of_trace whole).2.packets_received (addressed_of_trace whole) conn
  exact ⟨(isPrefix.filter _).trans heard.heard, fun isOpen => (heard.whole isOpen).2⟩

theorem hears_in_order_of_two :
    let speak := Server.emptyPacket .MessageAll
    let before : List Action := [.accept, .up 0 (.write (.SendPacket speak)),
      .up 0 (.write .runPosted), .up 0 (.write (.transfer 0 8)), .up 0 (.deliver 8),
      .up 0 .complete]
    let after : List Action := [.process ⟨some 0, speak⟩, .down 1 (.write .runPosted),
      .down 1 (.write (.transfer 0 8)), .down 1 (.write (.complete 0)),
      .down 1 (.write .runPosted), .down 1 (.write (.transfer 0 8)),
      .down 1 (.write (.complete 0)), .down 1 (.write (.transfer 0 4)), .down 1 (.deliver 20),
      .down 1 .complete, .down 1 .complete, .down 1 .complete]
    ∃ first network : Network,
      Trace (Step .calm Paddings.zero) (start 5 fun _ => 0) before first ∧
      Trace (Step .calm Paddings.zero) first (.accept :: after) network ∧
      first.server.created = 1 ∧ (network.down 1).reader.m_PktIn.length = 2 ∧
      Server.news ((network.down 1).reader.m_PktIn.map OwnedPacket.pkt) <+:
        Server.newsFor network.server.m_sID 1 (after.flatMap Action.handled) := by
  intro speak before after
  have runs : ∃ first ∈ runSteps (step .calm Paddings.zero) (start 5 fun _ => 0) before,
      first.server.created = 1 ∧
      ∃ network ∈ runSteps (step .calm Paddings.zero) first (.accept :: after),
        (network.down 1).reader.m_PktIn.length = 2 := by
    decide +kernel
  rcases runs with ⟨first, reaches, created, network, reachesLater, received⟩
  have later : Trace (Step .calm Paddings.zero) first (.accept :: after) network :=
    Trace.of_run reachesLater
  refine ⟨first, network, Trace.of_run reaches, later, created, received, ?_⟩
  cases later with
  | cons accepts rest =>
      have hears := (hears_in_order (Trace.of_run reaches) accepts rest).1
      rwa [created] at hears

end Network

end GNL
