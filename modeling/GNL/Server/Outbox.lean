import GNL.Common.TCPConnection.Delivery
import GNL.Server.Announcement
import GNL.Server.Broadcast

/-! # What handling a packet sends, message by message

Each handler asks the connections it sends to one after the other whether they are
open, and sends to those that are. The server sends one packet without a body to each
connection, before all others; a receiver that keeps the body of the packet before is
never given the chance to.
-/

namespace GNL.Server

variable {env : Environment}

def answering (env : Environment) : Nat → List ConnRef → List ConnRef
  | _, [] => []
  | tick, conn :: rest =>
      if env.isOpen tick conn then conn :: answering env (tick + 1) rest
      else answering env (tick + 1) rest

theorem answering_sublist (tick : Nat) (conns : List ConnRef) :
    (answering env tick conns).Sublist conns := by
  induction conns generalizing tick with
  | nil => exact List.Sublist.slnil
  | cons conn rest induction =>
      rw [answering]
      split
      · exact (induction (tick + 1)).cons_cons conn
      · exact (induction (tick + 1)).cons conn

inductive Outgoing (env : Environment) (server : Server) (conn : ConnRef) (pkt : Packet CMD) :
    List (ConnRef × Packet CMD) → Prop
  | ping (isPing : pkt.header.cmdID = .Ping) (echo : Packet CMD)
      (cmdID : echo.header.cmdID = .Ping) (body : echo.body = pkt.body)
      (size : echo.header.size = echo.get_packet_len) (longEnough : 8 ≤ pkt.body.length) :
      Outgoing env server conn pkt ((answering env server.tick [conn]).map (·, echo))
  | messageAll (isMessageAll : pkt.header.cmdID = .MessageAll) :
      Outgoing env server conn pkt
        (((answering env server.tick server.listed).filter (· ≠ conn)).map
          (·, emptyPacket .ServerMessage <<< server.m_sID conn))
  | enters (isSelfEnterWorld : pkt.header.cmdID = .SelfEnterWorld) :
      Outgoing env server conn pkt
        ((answering env (server.tick + 1) ((server.inside conn).notified env)).map
            (·, positionPacket .PlyEnterWorld (server.newCharacter conn)) ++
          (answering env (server.tick + 1 + ((server.inside conn).notified env).length)
            [conn]).map (·, worldPacket
              (env.iteration server.tick (server.entered conn).entries)
              (server.newCharacter conn)))
  | moves (isMovePlayer : pkt.header.cmdID = .MovePlayer) (cha : Character) (x y : Double)
      (found : server.m_chaMap.lookup (server.m_sID conn) = some cha) (id : UInt16)
      (rest : Packet CMD) (extracts : Extracts pkt id x y rest) :
      Outgoing env server conn pkt
        (flagged { cha with pos := (x, y) }
          (positionPacket .MovePlayer { cha with pos := (x, y) })
          (env.iteration server.tick (server.moved conn cha x y).entries))
  | nothing (notPing : pkt.header.cmdID ≠ .Ping) (notMessageAll : pkt.header.cmdID ≠ .MessageAll)
      (notEnters : pkt.header.cmdID ≠ .SelfEnterWorld) : Outgoing env server conn pkt []

section Sends

variable {server after : Server} {conn : ConnRef} {pkt : Packet CMD}

theorem sent_of_SendToClient {client : Option ConnRef}
    (sends : server.SendToClient env (some conn) pkt = .ok (client, after)) :
    after.sent = server.sent ++ (answering env server.tick [conn]).map (·, pkt) ∧
      after.tick = server.tick + 1 := by
  cases isOpen : env.isOpen server.tick conn with
  | true =>
      cases (SendToClient_of_open pkt isOpen).symm.trans sends
      simp only [answering, isOpen, if_true]
      exact ⟨rfl, rfl⟩
  | false =>
      cases (SendToClient_of_closed pkt isOpen).symm.trans sends
      simp only [answering, isOpen, Bool.false_eq_true, if_false]
      exact ⟨(List.append_nil _).symm, rfl⟩

theorem answering_cons (tick : Nat) (conn : ConnRef) (rest : List ConnRef) :
    answering env tick (conn :: rest) =
      answering env tick [conn] ++ answering env (tick + 1) rest := by
  simp only [answering]
  split <;> rfl

theorem sent_of_notifyEach {conns : List ConnRef}
    (notifies : notifyEach env pkt (conns.map some) server = .ok after) :
    after.sent = server.sent ++ (answering env server.tick conns).map (·, pkt) ∧
      after.tick = server.tick + conns.length := by
  induction conns generalizing server with
  | nil =>
      cases notifies
      exact ⟨(List.append_nil _).symm, rfl⟩
  | cons conn rest induction =>
      rw [List.map_cons, notifyEach] at notifies
      cases sends : server.SendToClient env (some conn) pkt with
      | error fault =>
          rw [sends] at notifies
          cases notifies
      | ok told =>
          rw [sends] at notifies
          rcases sent_of_SendToClient sends with ⟨sentFirst, tickFirst⟩
          rcases induction notifies with ⟨sentRest, tickRest⟩
          constructor
          · rw [sentRest, sentFirst, tickFirst, answering_cons server.tick conn rest,
              List.map_append, List.append_assoc]
          · rw [tickRest, tickFirst, List.length_cons]
            omega

theorem sent_of_sendToEach {ignore_client : Option ConnRef} {conns : List ConnRef}
    {left : List (Option ConnRef)} {invalid : Bool}
    (looped : sendToEach env pkt ignore_client (conns.map some) server =
      .ok (left, invalid, after)) :
    after.sent = server.sent ++
      ((answering env server.tick conns).filter (some · ≠ ignore_client)).map (·, pkt) := by
  induction conns generalizing server left invalid with
  | nil =>
      cases looped
      exact (List.append_nil _).symm
  | cons conn rest induction =>
      rw [List.map_cons] at looped
      cases isOpen : env.isOpen server.tick conn with
      | true =>
          rw [sendToEach_of_open isOpen] at looped
          rcases exists_of_map_eq_ok looped with ⟨others, loopedRest, isResult⟩
          cases isResult
          have tick : (server.passed pkt ignore_client conn).tick = server.tick + 1 := tick_passed
          have answers : answering env server.tick (conn :: rest) =
              conn :: answering env (server.tick + 1) rest := by
            rw [answering, if_pos isOpen]
          rw [induction loopedRest, sent_of_passed, tick, answers, List.append_assoc]
          by_cases ignored : some conn ≠ ignore_client
          · rw [if_pos ignored, List.filter_cons_of_pos (by simpa using ignored)]
            rfl
          · rw [if_neg ignored, List.filter_cons_of_neg (by simpa using ignored)]
            rfl
      | false =>
          rw [sendToEach_of_closed isOpen] at looped
          rcases exists_of_map_eq_ok looped with ⟨others, loopedRest, isResult⟩
          cases isResult
          have answers : answering env server.tick (conn :: rest) =
              answering env (server.tick + 1) rest := by
            rw [answering, if_neg (by simp [isOpen])]
          rw [induction loopedRest, answers]
          rfl

theorem sent_of_SendToAll {ignore_client : Option ConnRef} (wf : server.WellFormed)
    (sends : server.SendToAll env pkt ignore_client = .ok after) :
    after.sent = server.sent ++
      ((answering env server.tick server.listed).filter (some · ≠ ignore_client)).map (·, pkt) := by
  rw [SendToAll, wf.m_TCPConnections_eq] at sends
  cases looped : sendToEach env pkt ignore_client (server.listed.map some) server with
  | error fault =>
      rw [looped] at sends
      cases sends
  | ok left =>
      rw [looped] at sends
      have sent := sent_of_sendToEach looped
      cases invalid : left.2.1 with
      | true =>
          simp only [bind, Except.bind, invalid, if_true] at sends
          cases sends
          exact sent
      | false =>
          simp only [bind, Except.bind, invalid, Bool.false_eq_true, if_false] at sends
          cases sends
          exact sent

end Sends

section Handlers

variable {server : Server} {conn : ConnRef} {pkt : Packet CMD} {handled : Handled}

theorem outgoing_onPing (isPing : pkt.header.cmdID = .Ping)
    (result : server.onPing env (some conn) pkt = .ok handled) :
    ∃ messages, Outgoing env server conn pkt messages ∧
      handled.2.2.sent = server.sent ++ messages := by
  have longEnough : 8 ≤ pkt.body.length := by
    by_contra short
    rw [onPing_of_short (Nat.not_le.mp short)] at result
    contradiction
  rcases Packet.extract_of_le Int64 longEnough with
    ⟨timeRec, rest, extracted, sameCmd, -, -, body⟩
  simp only [onPing, deref, bind, Except.bind, extracted] at result
  split at result
  · contradiction
  next sends =>
    cases result
    refine ⟨_, .ping isPing (rest <<< timeRec) (sameCmd.trans isPing) ?_ rfl longEnough, ?_⟩
    · rw [Packet.body_insert, ← body]
    · exact (sent_of_SendToClient sends).1

theorem outgoing_onMessageAll (wf : server.WellFormed)
    (isMessageAll : pkt.header.cmdID = .MessageAll)
    (result : server.onMessageAll env (some conn) pkt = .ok handled) :
    ∃ messages, Outgoing env server conn pkt messages ∧
      handled.2.2.sent = server.sent ++ messages := by
  simp only [onMessageAll, deref, bind, Except.bind] at result
  split at result
  · contradiction
  next sends =>
    cases result
    have sent := sent_of_SendToAll wf sends
    simp only [ne_eq, Option.some.injEq] at sent
    exact ⟨_, .messageAll isMessageAll, sent⟩

theorem outgoing_onSelfEnterWorld (wf : server.WellFormed) (isCreated : conn < server.created)
    (isSelfEnterWorld : pkt.header.cmdID = .SelfEnterWorld)
    (result : server.onSelfEnterWorld env (some conn) pkt = .ok handled) :
    ∃ messages, Outgoing env server conn pkt messages ∧
      handled.2.2.sent = server.sent ++ messages := by
  have wfInside : (server.inside conn).WellFormed := wf.enters isCreated
  rcases drops_notified env wf isCreated with ⟨told, notifies, -, drops⟩
  have stillCreated : conn < told.created := by
    rw [drops.created]
    exact isCreated
  rcases drops_SendToClient env stillCreated (worldPacket
    (env.iteration server.tick (server.entered conn).entries) (server.newCharacter conn)) with
      ⟨client, after, sends, -, -⟩
  have handles : server.onSelfEnterWorld env (some conn) pkt = .ok (client, pkt, after) :=
    onSelfEnterWorld_of_sends notifies sends
  cases handles.symm.trans result
  have owners : (env.iteration server.tick (server.inside conn).m_chaMap.entries).map
      (fun entry => entry.2.GetTCPConnection) = ((server.inside conn).notified env).map some :=
    wfInside.owners_eq
  rw [owners] at notifies
  rcases sent_of_notifyEach notifies with ⟨sentTold, tickTold⟩
  rcases sent_of_SendToClient sends with ⟨sentReply, -⟩
  refine ⟨_, .enters isSelfEnterWorld, ?_⟩
  rw [sentReply, sentTold, tickTold, List.append_assoc]
  rfl

theorem outgoing_onMovePlayer (wf : server.WellFormed)
    (isMovePlayer : pkt.header.cmdID = .MovePlayer)
    (result : server.onMovePlayer env (some conn) pkt = .ok handled) :
    ∃ messages, Outgoing env server conn pkt messages ∧
      handled.2.2.sent = server.sent ++ messages := by
  cases found : server.m_chaMap.lookup (server.m_sID conn) with
  | none =>
      simp only [onMovePlayer, deref, bind, Except.bind, found] at result
      cases result
      exact ⟨[], .nothing (by simp [isMovePlayer]) (by simp [isMovePlayer])
        (by simp [isMovePlayer]), (List.append_nil _).symm⟩
  | some cha =>
      have longEnough : 18 ≤ pkt.body.length := by
        by_contra short
        rw [onMovePlayer_of_short (ChaMap.mem_of_lookup found) (Nat.not_le.mp short)] at result
        contradiction
      rcases exists_extracts longEnough with ⟨id, x, y, rest, extracts⟩
      cases (onMovePlayer_of_extracts wf found extracts).symm.trans result
      exact ⟨_, .moves isMovePlayer cha x y found id rest extracts, rfl⟩

theorem outgoing_OnPacket (wf : server.WellFormed) (isCreated : conn < server.created)
    (result : server.OnPacket env (some conn) pkt = .ok handled) :
    ∃ messages, Outgoing env server conn pkt messages ∧
      handled.2.2.sent = server.sent ++ messages := by
  unfold OnPacket at result
  split at result
  case h_1 isPing => exact outgoing_onPing isPing result
  case h_2 isMessageAll => exact outgoing_onMessageAll wf isMessageAll result
  case h_3 isSelfEnterWorld => exact outgoing_onSelfEnterWorld wf isCreated isSelfEnterWorld result
  case h_4 isMovePlayer => exact outgoing_onMovePlayer wf isMovePlayer result
  case h_5 notPing notMessageAll notEnters _ =>
    cases result
    exact ⟨[], .nothing notPing notMessageAll notEnters, (List.append_nil _).symm⟩

end Handlers

/-- An accept, a read or a packet handled; the rest are sends of the application. -/
def Action.FromPeers : Action → Prop
  | .accept => True
  | .receive _ _ => True
  | .process _ => True
  | _ => False

instance : DecidablePred Action.FromPeers
  | .accept => isTrue trivial
  | .receive _ _ => isTrue trivial
  | .process _ => isTrue trivial
  | .sendToClient _ _ => isFalse id
  | .sendToAll _ _ => isFalse id

inductive Emits (env : Environment) (server : Server) :
    Action → List (ConnRef × Packet CMD) → Prop
  | accept : Emits env server .accept [(server.created, acceptPacket)]
  | receive (conn : ConnRef) (pkt : Packet CMD) : Emits env server (.receive conn pkt) []
  | process (conn : ConnRef) (pkt : Packet CMD) (messages : List (ConnRef × Packet CMD))
      (queue : server.m_TCP_PktIn.head? = some ⟨some conn, pkt⟩)
      (outgoing : Outgoing env server.popped conn pkt messages) :
      Emits env server (.process ⟨some conn, pkt⟩) messages

theorem emits_of_step {server next : Server} {action : Action} (wf : server.WellFormed)
    (fromPeers : action.FromPeers) (step : Step env server action next) :
    ∃ messages, Emits env server action messages ∧ next.sent = server.sent ++ messages := by
  cases step_cases wf step with
  | accept => exact ⟨_, .accept, rfl⟩
  | receive conn pkt => exact ⟨_, .receive conn pkt, (List.append_nil _).symm⟩
  | process conn pkt _ isCreated _ queue =>
      rw [Step, step_process queue] at step
      rcases Option.map_eq_some_iff.mp step with ⟨handled, result, rfl⟩
      rcases outgoing_OnPacket wf.popped isCreated (toOption_eq_some_iff.mp result) with
        ⟨messages, outgoing, sent⟩
      exact ⟨messages, .process conn pkt messages queue outgoing, sent⟩
  | sendToClient => exact fromPeers.elim
  | sendToAll => exact fromPeers.elim

theorem created_le_of_step {server next : Server} {action : Action} (wf : server.WellFormed)
    (step : Step env server action next) : server.created ≤ next.created := by
  cases step_cases wf step with
  | accept => exact Nat.le_succ _
  | receive => exact Nat.le_refl _
  | process _ _ _ _ _ _ _ handles =>
      cases handles with
      | sends _ sent => exact Nat.le_of_eq sent.created.symm
      | enters _ sent => exact Nat.le_of_eq sent.created.symm
      | moves _ _ _ _ _ sent => exact Nat.le_of_eq sent.created.symm
  | sendToClient _ _ _ sent => exact Nat.le_of_eq sent.created.symm
  | sendToAll _ _ _ sent => exact Nat.le_of_eq sent.created.symm

section Packets

variable {server : Server} {conn : ConnRef} {pkt : Packet CMD}
  {messages : List (ConnRef × Packet CMD)}

/-- What a handler sends goes to connections that were accepted, and is a packet with a
body of the length it says. -/
structure Proper (server : Server) (message : ConnRef × Packet CMD) : Prop where
  isCreated : message.1 < server.created
  hasBody : message.2.body ≠ []
  consistent : message.2.Consistent

theorem proper_positionPacket (cmdID : CMD) (cha : Character) (isCreated : conn < server.created) :
    server.Proper (conn, positionPacket cmdID cha) where
  isCreated := isCreated
  hasBody empty := by
    have longer := congrArg List.length empty
    simp [positionPacket, emptyPacket, default] at longer
  consistent := consistent_positionPacket cmdID cha

theorem proper_of_answering {tick : Nat} {conns : List ConnRef}
    (proper : ∀ conn ∈ conns, server.Proper (conn, pkt)) :
    ∀ message ∈ (answering env tick conns).map (·, pkt), server.Proper message := by
  intro message member
  rcases List.mem_map.mp member with ⟨conn, isAnswering, rfl⟩
  exact proper conn ((answering_sublist tick conns).subset isAnswering)

theorem proper_worldPacket (wf : server.WellFormed) (isCreated : conn < server.created)
    (cha : Character) :
    server.Proper (conn, worldPacket (env.iteration server.tick server.m_chaMap.entries) cha) where
  isCreated := isCreated
  hasBody empty := by
    have longer := congrArg List.length empty
    simp [worldPacket] at longer
  consistent := by
    apply consistent_worldPacket
    rw [length_iteration]
    exact wf.length_entries

theorem Outgoing.proper (outgoing : Outgoing env server conn pkt messages)
    (wf : server.WellFormed) (isCreated : conn < server.created)
    (fits : pkt.body.length < 2 ^ 32) : ∀ message ∈ messages, server.Proper message := by
  cases outgoing with
  | ping isPing echo cmdID body size longEnough =>
      apply proper_of_answering
      intro asked member
      cases List.mem_singleton.mp member
      refine ⟨isCreated, ?_, ?_⟩
      · intro empty
        rw [← body, empty] at longEnough
        contradiction
      · rw [Packet.Consistent, size]
        apply Packet.toNat_get_packet_len
        rw [body]
        exact fits
  | messageAll isMessageAll =>
      intro message member
      rcases List.mem_map.mp member with ⟨asked, others, rfl⟩
      have isListed := (answering_sublist _ _).subset (List.mem_of_mem_filter others)
      refine ⟨wf.listed_lt asked isListed, ?_, Packet.consistent_insert _ _ (by decide)⟩
      intro empty
      have longer := congrArg List.length empty
      simp at longer
  | enters isSelfEnterWorld =>
      have wfInside : (server.inside conn).WellFormed := wf.enters isCreated
      intro message member
      rcases List.mem_append.mp member with isTold | isReply
      · refine proper_of_answering ?_ message isTold
        intro asked isOwner
        exact proper_positionPacket _ _ (wfInside.notified_lt asked isOwner)
      · refine proper_of_answering ?_ message isReply
        intro asked isAsked
        cases List.mem_singleton.mp isAsked
        have proper : (server.inside conn).Proper (conn, worldPacket
            (env.iteration server.tick (server.entered conn).entries)
            (server.newCharacter conn)) := proper_worldPacket wfInside isCreated _
        exact ⟨proper.isCreated, proper.hasBody, proper.consistent⟩
  | moves isMovePlayer cha x y found =>
      rintro ⟨owner, told⟩ member
      have isTold := member
      rw [flagged] at isTold
      cases eq_of_mem_announced isTold
      rcases mem_announced.mp isTold with ⟨entry, others, isOwner⟩
      have inWorld := List.mem_of_mem_filter others
      rcases (wf.moves found x y).owned entry inWorld with ⟨other, otherCreated, same⟩
      cases isOwner.symm.trans same
      exact proper_positionPacket _ _ otherCreated
  | nothing =>
      intro message member
      cases member

end Packets

def sentTo (server : Server) (conn : ConnRef) : List (Packet CMD) :=
  (server.sent.filter fun message => message.1 = conn).map Prod.snd

theorem sentTo_append {server next : Server} {messages : List (ConnRef × Packet CMD)}
    (sent : next.sent = server.sent ++ messages) (conn : ConnRef) :
    next.sentTo conn = server.sentTo conn ++
      (messages.filter fun message => message.1 = conn).map Prod.snd := by
  rw [sentTo, sent, List.filter_append, List.map_append]
  rfl

/-- Nothing yet, or the packet that accepts a connection and then packets with a body. -/
def Greets (pkts : List (Packet CMD)) : Prop :=
  pkts = [] ∨ ∃ rest, pkts = acceptPacket :: rest ∧
    ∀ pkt ∈ rest, pkt.body ≠ [] ∧ pkt.Consistent

theorem Greets.consistent {pkts : List (Packet CMD)} (greets : Greets pkts) :
    ∀ pkt ∈ pkts, pkt.Consistent := by
  rcases greets with rfl | ⟨rest, rfl, bodies⟩
  · exact fun pkt member => absurd member List.not_mem_nil
  · exact List.forall_mem_cons.mpr
      ⟨consistent_acceptPacket, fun pkt member => (bodies pkt member).2⟩

theorem Greets.redelivered {pkts : List (Packet CMD)} (greets : Greets pkts) :
    Reader.redelivered [] pkts = pkts := by
  rcases greets with rfl | ⟨rest, rfl, bodies⟩
  · rfl
  · rw [Reader.redelivered_eq_iff]
    refine ⟨fun _ _ _ => rfl, List.pairwise_cons.mpr ⟨fun _ _ _ => rfl, ?_⟩⟩
    apply List.pairwise_of_forall_mem_list
    intro earlier _ later inRest isEmpty
    exact absurd isEmpty (bodies later inRest).1

structure Addressed (server : Server) : Prop where
  known : ∀ message ∈ server.sent, message.1 < server.created
  greeted : ∀ conn < server.created, ∃ rest, server.sentTo conn = acceptPacket :: rest ∧
    ∀ pkt ∈ rest, pkt.body ≠ [] ∧ pkt.Consistent

namespace Addressed

variable {server next : Server} {action : Action}

theorem sentTo_of_not_created (addressed : server.Addressed) {conn : ConnRef}
    (notCreated : ¬conn < server.created) : server.sentTo conn = [] := by
  rw [sentTo, List.map_eq_nil_iff, List.filter_eq_nil_iff]
  intro message member isSame
  exact notCreated (of_decide_eq_true isSame ▸ addressed.known message member)

theorem proper {messages : List (ConnRef × Packet CMD)} (addressed : server.Addressed)
    (created : next.created = server.created) (sent : next.sent = server.sent ++ messages)
    (proper : ∀ message ∈ messages, server.Proper message) : next.Addressed where
  known message member := by
    rw [created]
    rw [sent] at member
    rcases List.mem_append.mp member with before | isNew
    · exact addressed.known message before
    · exact (proper message isNew).isCreated
  greeted conn isCreated := by
    rw [created] at isCreated
    rcases addressed.greeted conn isCreated with ⟨rest, before, bodies⟩
    refine ⟨rest ++ (messages.filter fun message => message.1 = conn).map Prod.snd, ?_, ?_⟩
    · rw [sentTo_append sent, before]
      rfl
    · intro pkt member
      rcases List.mem_append.mp member with inRest | isNew
      · exact bodies pkt inRest
      · rcases List.mem_map.mp isNew with ⟨message, isTold, rfl⟩
        have isProper := proper message (List.mem_of_mem_filter isTold)
        exact ⟨isProper.hasBody, isProper.consistent⟩

theorem accepted (addressed : server.Addressed) : server.accepted.Addressed where
  known message member := by
    rcases List.mem_append.mp member with before | isNew
    · exact Nat.lt_succ_of_lt (addressed.known message before)
    · cases List.mem_singleton.mp isNew
      exact Nat.lt_succ_self _
  greeted conn isCreated := by
    have sent : server.accepted.sent = server.sent ++ [(server.created, acceptPacket)] := rfl
    rw [sentTo_append sent]
    rcases Nat.lt_succ_iff_lt_or_eq.mp isCreated with isOld | rfl
    · have other : server.created ≠ conn := (Nat.ne_of_lt isOld).symm
      rw [List.filter_cons_of_neg (by simpa using other)]
      simpa using addressed.greeted conn isOld
    · rw [addressed.sentTo_of_not_created (Nat.lt_irrefl _)]
      exact ⟨[], by simp, nofun⟩

theorem step (addressed : server.Addressed) (wf : server.WellFormed)
    (fromPeers : action.FromPeers) (step : Step env server action next) : next.Addressed := by
  rcases emits_of_step wf fromPeers step with ⟨messages, emits, sent⟩
  cases step_cases wf step with
  | accept => exact addressed.accepted
  | receive conn pkt => exact ⟨addressed.known, addressed.greeted⟩
  | process conn pkt _ isCreated fits _ _ handles =>
      cases emits with
      | process _ _ _ _ outgoing =>
          have created : next.created = server.created := by
            cases handles with
            | sends _ sends => exact sends.created
            | enters _ sends => exact sends.created
            | moves _ _ _ _ _ sends => exact sends.created
          refine addressed.proper created sent ?_
          intro message member
          have isProper := outgoing.proper wf.popped isCreated fits message member
          exact ⟨isProper.isCreated, isProper.hasBody, isProper.consistent⟩
  | sendToClient => exact fromPeers.elim
  | sendToAll => exact fromPeers.elim

end Addressed

theorem addressed_of_trace {m_IDCnt : UInt32} {m_sID : ConnRef → UInt32} {server : Server}
    {actions : List Action} (trace : Trace (Step env) (start m_IDCnt m_sID) actions server)
    (fromPeers : ∀ action ∈ actions, action.FromPeers) : server.Addressed := by
  have keeps : ∀ current action next, WellFormed current ∧ Addressed current →
      Action.FromPeers action → Step env current action next →
      WellFormed next ∧ Addressed next := by
    intro current action next ⟨wf, addressed⟩ allowed step
    exact ⟨wf.step step, addressed.step wf allowed step⟩
  have started : (start m_IDCnt m_sID).Addressed :=
    ⟨nofun, fun conn isCreated => absurd isCreated (Nat.not_lt_zero conn)⟩
  exact (trace.invariant_of_forall keeps fromPeers ⟨wellFormed_start m_IDCnt m_sID, started⟩).2

theorem Addressed.greets {server : Server} (addressed : server.Addressed) (conn : ConnRef) :
    Greets (server.sentTo conn) := by
  by_cases isCreated : conn < server.created
  · exact .inr (addressed.greeted conn isCreated)
  · exact .inl (addressed.sentTo_of_not_created isCreated)

theorem Addressed.consistent {server : Server} (addressed : server.Addressed) (conn : ConnRef) :
    ∀ pkt ∈ server.sentTo conn, pkt.Consistent :=
  (addressed.greets conn).consistent

theorem Addressed.redelivered {server : Server} (addressed : server.Addressed) (conn : ConnRef) :
    Reader.redelivered [] (server.sentTo conn) = server.sentTo conn :=
  (addressed.greets conn).redelivered

/-- A client is sent the packet that accepts it, then only packets with a body of the
length they say; a reader that fills in the body of the packet before has nothing to fill
in. -/
theorem sentTo_redelivered {m_IDCnt : UInt32} {m_sID : ConnRef → UInt32} {server : Server}
    {actions : List Action} (trace : Trace (Step env) (start m_IDCnt m_sID) actions server)
    (fromPeers : ∀ action ∈ actions, action.FromPeers) (conn : ConnRef) :
    (conn < server.created → ∃ rest, server.sentTo conn = acceptPacket :: rest ∧
      ∀ pkt ∈ rest, pkt.body ≠ []) ∧
    (∀ pkt ∈ server.sentTo conn, pkt.Consistent) ∧
    Reader.redelivered [] (server.sentTo conn) = server.sentTo conn := by
  have addressed := addressed_of_trace trace fromPeers
  refine ⟨?_, addressed.consistent conn, addressed.redelivered conn⟩
  intro isCreated
  rcases addressed.greeted conn isCreated with ⟨rest, isSent, bodies⟩
  exact ⟨rest, isSent, fun pkt member => (bodies pkt member).1⟩

theorem sentTo_redelivered_two_players :
    let enter := emptyPacket .SelfEnterWorld
    let ping := emptyPacket .Ping <<< (7 : Int64)
    let actions : List Action := [.accept, .accept, .receive 1 enter, .receive 0 enter,
      .receive 0 ping, .process ⟨some 1, enter⟩, .process ⟨some 0, enter⟩,
      .process ⟨some 0, ping⟩]
    ∃ server, Trace (Step Environment.calm) (start 5 fun _ => 0) actions server ∧
      (server.sentTo 0).length = 4 ∧
      Reader.redelivered [] (server.sentTo 0) = server.sentTo 0 := by
  intro enter ping actions
  have runs : ∃ server ∈ runSteps (step Environment.calm) (start 5 fun _ => 0) actions,
      (server.sentTo 0).length = 4 := by
    decide
  rcases runs with ⟨server, reaches, count⟩
  have trace := Trace.of_run reaches
  exact ⟨server, trace, count, (sentTo_redelivered trace (by decide) 0).2.2⟩

end GNL.Server
