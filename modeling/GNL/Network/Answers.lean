import GNL.Network
import GNL.Server.Relay

/-! # Why a client is sent a packet

Each packet a client gets answers a packet the server handled for some client, and says
what that packet said. What it says of a client it says under the ID that client was
given; nobody can speak or move for another.
-/

namespace GNL

namespace Server

variable {env : Environment}

/-- The packets that may be sent to a connection because of a request of `sender`. -/
inductive Answers (m_sID : ConnRef → UInt32) (sender : ConnRef) (request : Packet CMD) :
    ConnRef → Packet CMD → Prop
  | ping (isPing : request.header.cmdID = .Ping) (echo : Packet CMD)
      (cmdID : echo.header.cmdID = .Ping) (body : echo.body = request.body) :
      Answers m_sID sender request sender echo
  | messageAll (isMessageAll : request.header.cmdID = .MessageAll) (conn : ConnRef)
      (isOther : conn ≠ sender) :
      Answers m_sID sender request conn (emptyPacket .ServerMessage <<< m_sID sender)
  | entered (isSelfEnterWorld : request.header.cmdID = .SelfEnterWorld) (conn : ConnRef)
      (cha : Character) (id : cha.GetID = (m_sID sender).toUInt16)
      (pos : cha.pos = (default : Character).pos) :
      Answers m_sID sender request conn (positionPacket .PlyEnterWorld cha)
  | world (isSelfEnterWorld : request.header.cmdID = .SelfEnterWorld) (entries : List ChaEntry)
      (cha : Character) (id : cha.GetID = (m_sID sender).toUInt16) :
      Answers m_sID sender request sender (worldPacket entries cha)
  | moved (isMovePlayer : request.header.cmdID = .MovePlayer) (conn : ConnRef) (cha : Character)
      (id : cha.GetID.toUInt32 = m_sID sender) (front : List UInt8) (claimed : UInt16)
      (body : request.body = front ++ StandardLayout.toBytes claimed ++
        StandardLayout.toBytes cha.GetPosX ++ StandardLayout.toBytes cha.GetPosY) :
      Answers m_sID sender request conn (positionPacket .MovePlayer cha)

theorem Answers.congr {m_sID other : ConnRef → UInt32} {sender conn : ConnRef}
    {request pkt : Packet CMD} (answers : Answers m_sID sender request conn pkt)
    (same : other sender = m_sID sender) : Answers other sender request conn pkt := by
  cases answers with
  | ping isPing _ cmdID body => exact .ping isPing _ cmdID body
  | messageAll isMessageAll _ isOther =>
      rw [← same]
      exact .messageAll isMessageAll conn isOther
  | entered isSelfEnterWorld _ cha id pos =>
      exact .entered isSelfEnterWorld conn cha (same ▸ id) pos
  | world isSelfEnterWorld entries cha id => exact .world isSelfEnterWorld entries cha (same ▸ id)
  | moved isMovePlayer _ cha id front claimed body =>
      exact .moved isMovePlayer conn cha (same ▸ id) front claimed body

theorem body_of_extract {α : Type} [StandardLayout α] {pkt rest : Packet CMD} {data : α}
    (extracted : pkt.extract α = .ok (data, rest)) :
    pkt.body = rest.body ++ StandardLayout.toBytes data := by
  by_cases longEnough : StandardLayout.sizeof α ≤ pkt.body.length
  · rcases Packet.extract_of_le α longEnough with ⟨_, _, isExtracted, -, -, -, body⟩
    cases isExtracted.symm.trans extracted
    exact body
  · rw [Packet.extract_of_lt α (Nat.not_le.mp longEnough)] at extracted
    contradiction

theorem body_of_extracts {pkt rest : Packet CMD} {id : UInt16} {x y : Double}
    (extracts : Extracts pkt id x y rest) :
    pkt.body = rest.body ++ StandardLayout.toBytes id ++ StandardLayout.toBytes x ++
      StandardLayout.toBytes y := by
  rcases extracts with ⟨first, second, extractY, extractX, extractID⟩
  rw [body_of_extract extractY, body_of_extract extractX, body_of_extract extractID]

theorem Outgoing.answers {server : Server} {conn : ConnRef} {pkt : Packet CMD}
    {messages : List (ConnRef × Packet CMD)} (wf : server.WellFormed)
    (outgoing : Outgoing env server conn pkt messages) :
    ∀ message ∈ messages, Answers server.m_sID conn pkt message.1 message.2 := by
  cases outgoing with
  | ping isPing echo cmdID body =>
      intro message member
      rcases List.mem_map.mp member with ⟨asked, isAnswering, rfl⟩
      cases List.mem_singleton.mp ((answering_sublist _ _).subset isAnswering)
      exact .ping isPing echo cmdID body
  | messageAll isMessageAll =>
      intro message member
      rcases List.mem_map.mp member with ⟨asked, others, rfl⟩
      exact .messageAll isMessageAll asked (of_decide_eq_true (List.mem_filter.mp others).2)
  | enters isSelfEnterWorld =>
      intro message member
      rcases List.mem_append.mp member with isTold | isReply
      · rcases List.mem_map.mp isTold with ⟨asked, -, rfl⟩
        exact .entered isSelfEnterWorld asked _ rfl rfl
      · rcases List.mem_map.mp isReply with ⟨asked, isAnswering, rfl⟩
        cases List.mem_singleton.mp ((answering_sublist _ _).subset isAnswering)
        exact .world isSelfEnterWorld _ _ rfl
  | moves isMovePlayer cha x y found id rest extracts =>
      rintro ⟨owner, told⟩ member
      rw [flagged] at member
      cases eq_of_mem_announced member
      exact .moved isMovePlayer owner _ (wf.chaMap _ _ found).key rest.body id
        (body_of_extracts extracts)
  | nothing =>
      intro message member
      cases member

/-- Everything a server sent accepts a connection, or answers a packet it handled. -/
theorem sent_answers {m_IDCnt : UInt32} {m_sID : ConnRef → UInt32} {server : Server}
    {actions : List Action} (trace : Trace (Step env) (start m_IDCnt m_sID) actions server)
    (fromPeers : ∀ action ∈ actions, action.FromPeers) :
    ∀ message ∈ server.sent, message.2 = acceptPacket ∨
      ∃ sender request, .process ⟨some sender, request⟩ ∈ actions ∧ sender < server.created ∧
        Answers server.m_sID sender request message.1 message.2 := by
  revert fromPeers
  apply trace.snoc_induction (motive := fun actions server =>
    (∀ action ∈ actions, action.FromPeers) → ∀ message ∈ server.sent, message.2 = acceptPacket ∨
      ∃ sender request, .process ⟨some sender, request⟩ ∈ actions ∧ sender < server.created ∧
        Answers server.m_sID sender request message.1 message.2)
  · intro _ message member
    cases member
  · intro before middle action next front induction step fromPeers message member
    rw [List.forall_mem_append] at fromPeers
    have wf := wellFormed_of_trace front
    rcases emits_of_step wf (List.forall_mem_singleton.mp fromPeers.2) step with
      ⟨messages, emits, sent⟩
    have sameID : ∀ sender < middle.created, next.m_sID sender = middle.m_sID sender :=
      fun sender isCreated => m_sID_of_step wf step isCreated
    have later := created_le_of_step wf step
    rw [sent] at member
    rcases List.mem_append.mp member with isOld | isNew
    · rcases induction fromPeers.1 message isOld with accepts | ⟨sender, request, handled,
        isCreated, answers⟩
      · exact .inl accepts
      · exact .inr ⟨sender, request, List.mem_append_left _ handled,
          Nat.lt_of_lt_of_le isCreated later, answers.congr (sameID sender isCreated)⟩
    · cases emits with
      | accept =>
          cases List.mem_singleton.mp isNew
          exact .inl rfl
      | receive => cases isNew
      | process conn pkt _ queue outgoing =>
          have isCreated := (wf.of_head queue).1
          have answers := outgoing.answers wf.popped message isNew
          exact .inr ⟨conn, pkt, List.mem_append_right _ (List.mem_singleton_self _),
            Nat.lt_of_lt_of_le isCreated later, answers.congr (sameID conn isCreated)⟩

end Server

namespace Network

variable {env : Environment} {paddings : Paddings} {network : Network} {m_IDCnt : UInt32}
  {m_sID : ConnRef → UInt32} {actions : List Action}

/-- Every packet in the queue of a client accepts its connection, or answers a packet the
server handled for some client; where the sizes of what that client sent are right, it
sent that packet, but for a body left over from the one before it. -/
theorem received_answers
    (trace : Trace (Step env paddings) (start m_IDCnt m_sID) actions network) (conn : ConnRef) :
    ∀ owned ∈ (network.down conn).reader.m_PktIn, owned.pkt = Server.acceptPacket ∨
      ∃ sender request, Server.Answers network.server.m_sID sender request conn owned.pkt ∧
        request ∈ packetsFrom sender (actions.flatMap Action.handled) ∧
        ((∀ pkt ∈ (network.up sender).sent, pkt.Consistent) →
          request ∈ Reader.redelivered [] (network.up sender).sent) := by
  rcases exists_server_trace_of_start (serving trace) with ⟨performed, runs, sameHandled⟩
  have linked := (linked_of_trace trace).2
  intro owned member
  have wasSent := (linked.received (addressed_of_trace trace) conn).subset member
  rcases List.mem_map.mp wasSent with ⟨pkt, inSent, rfl⟩
  rcases List.mem_map.mp inSent with ⟨message, isMessage, rfl⟩
  rw [List.mem_filter] at isMessage
  have isFor : message.1 = conn := of_decide_eq_true isMessage.2
  rcases Server.sent_answers runs.unconditional (fromPeers_of_trace runs) message isMessage.1 with
    accepts | ⟨sender, request, processed, -, answers⟩
  · exact .inl accepts
  · rw [isFor] at answers
    have isHandled : request ∈ packetsFrom sender (actions.flatMap Action.handled) := by
      have inHandled : ⟨some sender, request⟩ ∈ performed.flatMap handledBy :=
        List.mem_flatMap.mpr ⟨_, processed, List.mem_singleton_self _⟩
      rw [sameHandled] at inHandled
      exact List.mem_map.mpr ⟨_, List.mem_filter.mpr ⟨inHandled, by simp⟩, rfl⟩
    refine .inr ⟨sender, request, answers, isHandled, ?_⟩
    intro consistent
    apply (linked.pushed sender consistent).subset
    rw [← handled_and_queued trace sender, packetsFrom_append]
    exact List.mem_append_left _ isHandled

theorem received_answers_entering :
    ∃ network, Trace (Step .calm Paddings.zero) (start 5 fun _ => 0) entering network ∧
      ∃ owned ∈ (network.down 0).reader.m_PktIn, owned.pkt.header.cmdID = .PlyEnterWorld ∧
        ∃ sender request, Server.Answers network.server.m_sID sender request 0 owned.pkt ∧
          request ∈ packetsFrom sender (entering.flatMap Action.handled) := by
  rcases exists_entering with ⟨network, trace, -, received, -⟩
  have isReceived : ⟨none, Server.positionPacket .PlyEnterWorld (network.server.newCharacter 0)⟩ ∈
      (network.down 0).reader.m_PktIn := by
    rw [received]
    exact List.mem_cons_of_mem _ (List.mem_singleton_self _)
  rcases received_answers trace 0 _ isReceived with accepts | ⟨sender, request, answers, handled, -⟩
  · have sameCmd : CMD.PlyEnterWorld = CMD.AcceptTCPConnection :=
      congrArg (fun pkt : Packet CMD => pkt.header.cmdID) accepts
    contradiction
  · exact ⟨network, trace, _, isReceived, rfl, sender, request, answers, handled⟩

end Network

end GNL
