import GNL.Server.Outbox
import GNL.Server.Relay

/-! # What a client has seen so far

A client that has received part of what it was sent shows the world as it was at an
earlier moment of the run. The one packet that belongs to no moment is the announcement of
its own character, which comes before the list of the world and says nothing of others.
-/

namespace GNL

namespace Replica

def seen (pkts : List (Packet CMD)) : Replica :=
  pkts.foldl receive empty

theorem delivered_eq_seen (server : Server) (conn : ConnRef) :
    delivered server.sent conn = seen (server.sentTo conn) := by
  rw [delivered, seen, Server.sentTo, List.foldl_map]

theorem seen_snoc (pkts : List (Packet CMD)) (pkt : Packet CMD) :
    seen (pkts ++ [pkt]) = (seen pkts).receive pkt := by
  rw [seen, List.foldl_append]
  rfl

def Ignores (pkt : Packet CMD) : Prop :=
  pkt.header.cmdID ≠ .SelfEnterWorld ∧ pkt.header.cmdID ≠ .PlyEnterWorld ∧
    pkt.header.cmdID ≠ .MovePlayer

theorem receive_of_ignores {pkt : Packet CMD} (ignores : Ignores pkt) (replica : Replica) :
    replica.receive pkt = replica := by
  rcases ignores with ⟨notWorld, notEntered, notMoved⟩
  unfold receive
  split
  · contradiction
  · contradiction
  · contradiction
  · rfl

theorem seen_append_of_ignores {pkts ignored : List (Packet CMD)}
    (ignores : ∀ pkt ∈ ignored, Ignores pkt) : seen (pkts ++ ignored) = seen pkts := by
  induction ignored generalizing pkts with
  | nil => rw [List.append_nil]
  | cons pkt rest induction =>
      rcases List.forall_mem_cons.mp ignores with ⟨ignoresFirst, ignoresRest⟩
      rw [List.append_cons, induction ignoresRest, seen_snoc, receive_of_ignores ignoresFirst]

end Replica

namespace Server

variable {env : Environment}

def KeepsViews (server : Server) (action : Action) : Prop :=
  action.FromPeers ∧ server.Harmless action

instance (server : Server) (action : Action) : Decidable (server.KeepsViews action) :=
  inferInstanceAs (Decidable (_ ∧ _))

section AlwaysOpen

variable {server next : Server} {action : Action} {conn : ConnRef} {pkt : Packet CMD}

theorem Sent.lookup_of_alwaysOpen {Sends : Packet CMD → Prop} (alwaysOpen : env.AlwaysOpen)
    (sent : Sent env Sends server next) (key : UInt32) :
    next.m_chaMap.lookup key = server.m_chaMap.lookup key := by
  rcases sent.m_chaMap key with same | ⟨-, client, -, -, closed⟩
  · exact same
  · rw [alwaysOpen] at closed
    contradiction

theorem owner_of_step (alwaysOpen : env.AlwaysOpen) (wf : server.WellFormed)
    (fromPeers : action.FromPeers) (step : Step env server action next) {key : UInt32}
    {cha : Character} (found : server.m_chaMap.lookup key = some cha) :
    ∃ later, next.m_chaMap.lookup key = some later ∧
      later.m_TCPConnection = cha.m_TCPConnection := by
  cases step_cases wf step with
  | accept => exact ⟨cha, found, rfl⟩
  | receive => exact ⟨cha, found, rfl⟩
  | process conn pkt _ _ _ _ _ handles =>
      cases handles with
      | sends _ sent => exact ⟨cha, (sent.lookup_of_alwaysOpen alwaysOpen key).trans found, rfl⟩
      | enters _ sent =>
          rw [sent.lookup_of_alwaysOpen alwaysOpen key]
          exact ⟨cha, ChaMap.lookup_AddChaToWorld_of_some found, rfl⟩
      | moves _ placed x y foundPlaced sent =>
          rw [sent.lookup_of_alwaysOpen alwaysOpen key]
          change ∃ later, (server.popped.moved conn placed x y).lookup key = some later ∧ _
          rw [lookup_moved]
          split
          next same =>
            rw [same] at found
            cases foundPlaced.symm.trans found
            exact ⟨_, rfl, rfl⟩
          next => exact ⟨cha, found, rfl⟩
  | sendToClient => exact fromPeers.elim
  | sendToAll => exact fromPeers.elim

theorem owner_of_trace (alwaysOpen : env.AlwaysOpen) {actions : List Action}
    (trace : Trace (Step env) server actions next)
    (fromPeers : ∀ action ∈ actions, action.FromPeers) (wf : server.WellFormed) {key : UInt32}
    (owns : ∃ cha, server.m_chaMap.lookup key = some cha ∧ cha.m_TCPConnection = some conn) :
    ∃ cha, next.m_chaMap.lookup key = some cha ∧ cha.m_TCPConnection = some conn := by
  have keeps : ∀ current action next,
      (WellFormed current ∧ ∃ cha, current.m_chaMap.lookup key = some cha ∧
        cha.m_TCPConnection = some conn) →
      Action.FromPeers action → Step env current action next →
      WellFormed next ∧ ∃ cha, next.m_chaMap.lookup key = some cha ∧
        cha.m_TCPConnection = some conn := by
    rintro current action next ⟨wf, cha, found, isOwner⟩ allowed step
    rcases owner_of_step alwaysOpen wf allowed step found with ⟨later, foundLater, same⟩
    exact ⟨wf.step step, later, foundLater, same.trans isOwner⟩
  exact (trace.invariant_of_forall keeps fromPeers ⟨wf, owns⟩).2

theorem Outgoing.ignores {messages : List (ConnRef × Packet CMD)}
    (outgoing : Outgoing env server conn pkt messages)
    (notEnters : pkt.header.cmdID ≠ .SelfEnterWorld)
    (notMoves : pkt.header.cmdID ≠ .MovePlayer) :
    ∀ message ∈ messages, Replica.Ignores message.2 := by
  cases outgoing with
  | ping isPing echo cmdID =>
      intro message member
      rcases List.mem_map.mp member with ⟨asked, -, rfl⟩
      simp [Replica.Ignores, cmdID]
  | messageAll isMessageAll =>
      intro message member
      rcases List.mem_map.mp member with ⟨asked, -, rfl⟩
      simp [Replica.Ignores, emptyPacket]
  | enters isSelfEnterWorld => exact absurd isSelfEnterWorld notEnters
  | moves isMovePlayer => exact absurd isMovePlayer notMoves
  | nothing =>
      intro message member
      cases member

theorem agrees_of_ignores {messages : List (ConnRef × Packet CMD)} (agrees : server.Agrees)
    (sent : next.sent = server.sent ++ messages)
    (ignores : ∀ message ∈ messages, Replica.Ignores message.2)
    (m_chaMap : ∀ key, next.m_chaMap.lookup key = server.m_chaMap.lookup key) : next.Agrees := by
  intro key cha owner found isOwner id different
  rw [m_chaMap] at found ⊢
  rw [← agrees key cha owner found isOwner id different, Replica.delivered_eq_seen,
    Replica.delivered_eq_seen, sentTo_append sent]
  apply congrFun (Replica.seen_append_of_ignores _) id
  intro pkt member
  rcases List.mem_map.mp member with ⟨message, isTold, rfl⟩
  exact ignores message (List.mem_of_mem_filter isTold)

theorem agrees_of_step (alwaysOpen : env.AlwaysOpen) (wf : server.WellFormed)
    (agrees : server.Agrees) (keeps : server.KeepsViews action)
    (step : Step env server action next) : next.Agrees := by
  rcases keeps with ⟨fromPeers, harmless⟩
  by_cases plays : action.Plays
  · exact (agrees_step_iff alwaysOpen wf agrees plays step).mpr harmless
  · rcases emits_of_step wf fromPeers step with ⟨messages, emits, sent⟩
    cases emits with
    | accept => exact absurd trivial plays
    | receive => exact absurd trivial plays
    | process conn pkt _ queue outgoing =>
        have notPlays : ¬(pkt.header.cmdID = .SelfEnterWorld ∨ pkt.header.cmdID = .MovePlayer) :=
          plays
        rw [not_or] at notPlays
        apply agrees_of_ignores agrees sent (outgoing.ignores notPlays.1 notPlays.2)
        cases step_cases wf step with
        | process _ _ _ _ _ _ _ handles =>
            cases handles with
            | sends _ sends => exact fun key => sends.lookup_of_alwaysOpen alwaysOpen key
            | enters isEnter => exact absurd isEnter notPlays.1
            | moves isMove => exact absurd isMove notPlays.2

end AlwaysOpen

section Growth

variable {server next : Server} {conn : ConnRef} {pkt : Packet CMD}

theorem told_each {conns : List ConnRef} (distinct : conns.Nodup) (pkt : Packet CMD)
    (conn : ConnRef) : ((conns.map (·, pkt)).filter fun message => message.1 = conn).map Prod.snd =
      if conn ∈ conns then [pkt] else [] := by
  have isConn : ((fun message : ConnRef × Packet CMD => decide (message.1 = conn)) ∘
      fun conn => (conn, pkt)) = (· == conn) := by
    funext other
    simp [beq_eq_decide]
  rw [List.filter_map, isConn, List.filter_beq, distinct.count]
  split
  · rfl
  · rfl

theorem length_told_each_le {conns : List ConnRef} (distinct : conns.Nodup) (pkt : Packet CMD)
    (conn : ConnRef) :
    (((conns.map (·, pkt)).filter fun message => message.1 = conn).map Prod.snd).length ≤ 1 := by
  rw [told_each distinct]
  split
  · exact Nat.le_refl _
  · exact Nat.zero_le _

theorem Outgoing.to_one {messages : List (ConnRef × Packet CMD)} {actor : ConnRef}
    (outgoing : Outgoing env server actor pkt messages) (keyed : server.Keyed)
    (distinct : server.listed.Nodup) (conn : ConnRef) :
    let new := (messages.filter fun message => message.1 = conn).map Prod.snd
    new.length ≤ 1 ∨ ∃ world : Packet CMD, world.header.cmdID = .SelfEnterWorld ∧
      pkt.header.cmdID = .SelfEnterWorld ∧ actor = conn ∧
      new = [positionPacket .PlyEnterWorld (server.newCharacter conn), world] := by
  intro new
  cases outgoing with
  | ping _ echo =>
      have asked : (answering env server.tick [actor]).Nodup :=
        (answering_sublist _ _).nodup (List.nodup_singleton _)
      exact .inl (length_told_each_le asked echo conn)
  | messageAll =>
      have asked : (answering env server.tick server.listed).Nodup :=
        (answering_sublist _ _).nodup distinct
      exact .inl (length_told_each_le (asked.filter _) _ conn)
  | enters isSelfEnterWorld =>
      let told := answering env (server.tick + 1) ((server.inside actor).notified env)
      let replied := answering env
        (server.tick + 1 + ((server.inside actor).notified env).length) [actor]
      have toldOnce : told.Nodup :=
        (answering_sublist _ _).nodup (keyed.inside actor).nodup_notified
      have repliedOnce : replied.Nodup :=
        (answering_sublist _ _).nodup (List.nodup_singleton _)
      have isNew : new = (if conn ∈ told then
            [positionPacket .PlyEnterWorld (server.newCharacter actor)] else []) ++
          if conn ∈ replied then [worldPacket
            (env.iteration server.tick (server.entered actor).entries)
            (server.newCharacter actor)] else [] := by
        rw [← told_each toldOnce, ← told_each repliedOnce, ← List.map_append,
          ← List.filter_append]
      rw [isNew]
      by_cases isReplied : conn ∈ replied
      · have isActor : actor = conn :=
          (List.mem_singleton.mp ((answering_sublist _ _).subset isReplied)).symm
        rw [if_pos isReplied]
        split
        · subst isActor
          exact .inr ⟨_, cmdID_worldPacket _ _, isSelfEnterWorld, rfl, rfl⟩
        · exact .inl (Nat.le_refl _)
      · rw [if_neg isReplied, List.append_nil]
        split
        · exact .inl (Nat.le_refl _)
        · exact .inl (Nat.zero_le _)
  | moves _ cha x y found =>
      have owned : (owners ((env.iteration server.tick
          (server.moved actor cha x y).entries).filter fun entry =>
            entry.2.GetID ≠ ({ cha with pos := (x, y) } : Character).GetID)).Nodup :=
        (List.filter_sublist.filterMap _).nodup (keyed.moves found x y).nodup_notified
      have once := length_told_each_le owned
        (positionPacket .MovePlayer { cha with pos := (x, y) }) conn
      rw [← announced_eq] at once
      exact .inl once
  | nothing => exact .inl (Nat.zero_le _)

theorem Emits.to_one {action : Action} {messages : List (ConnRef × Packet CMD)}
    (emits : Emits env server action messages) (wf : server.WellFormed) (keyed : server.Keyed)
    (distinct : server.m_TCPConnections.Nodup) (conn : ConnRef) :
    let new := (messages.filter fun message => message.1 = conn).map Prod.snd
    new.length ≤ 1 ∨ ∃ world : Packet CMD, world.header.cmdID = .SelfEnterWorld ∧
      new = [positionPacket .PlyEnterWorld (server.newCharacter conn), world] := by
  have listed : server.popped.listed.Nodup := by
    rw [wf.m_TCPConnections_eq] at distinct
    exact List.Nodup.of_map _ distinct
  cases emits with
  | accept =>
      exact .inl (length_told_each_le (List.nodup_singleton server.created) acceptPacket conn)
  | receive => exact .inl (Nat.zero_le _)
  | process actor pkt _ _ outgoing =>
      have keyedPopped : server.popped.Keyed := keyed
      rcases outgoing.to_one keyedPopped listed conn with short | ⟨world, isWorld, -, -, isNew⟩
      · exact .inl short
      · exact .inr ⟨world, isWorld, isNew⟩

def Shown (server : Server) : Prop :=
  ∀ conn, (∃ pkt ∈ server.sentTo conn, pkt.header.cmdID = .SelfEnterWorld) →
    (server.newCharacter conn).GetID.toUInt32 ∈ server.m_chaMap

theorem Outgoing.sends_world {messages : List (ConnRef × Packet CMD)} {actor : ConnRef}
    (outgoing : Outgoing env server actor pkt messages)
    {message : ConnRef × Packet CMD} (member : message ∈ messages)
    (isWorld : message.2.header.cmdID = .SelfEnterWorld) :
    pkt.header.cmdID = .SelfEnterWorld ∧ message.1 = actor := by
  cases outgoing with
  | ping _ echo cmdID =>
      rcases List.mem_map.mp member with ⟨asked, -, rfl⟩
      rw [cmdID] at isWorld
      contradiction
  | messageAll =>
      rcases List.mem_map.mp member with ⟨asked, -, rfl⟩
      contradiction
  | enters isSelfEnterWorld =>
      rcases List.mem_append.mp member with isTold | isReply
      · rcases List.mem_map.mp isTold with ⟨asked, -, rfl⟩
        contradiction
      · rcases List.mem_map.mp isReply with ⟨asked, isAnswering, rfl⟩
        have isActor := List.mem_singleton.mp ((answering_sublist _ _).subset isAnswering)
        exact ⟨isSelfEnterWorld, isActor⟩
  | moves =>
      rw [eq_of_mem_announced member] at isWorld
      contradiction
  | nothing => cases member

theorem mem_entered (server : Server) (conn : ConnRef) :
    (server.newCharacter conn).GetID.toUInt32 ∈ server.entered conn := by
  by_cases present : (server.newCharacter conn).GetID.toUInt32 ∈ server.m_chaMap
  · rw [entered, ChaMap.AddChaToWorld, if_pos present]
    exact present
  · rw [entered, ChaMap.AddChaToWorld, if_neg present]
    rw [AList.mem_insert]
    exact .inl rfl

theorem Shown.step (alwaysOpen : env.AlwaysOpen) (wf : server.WellFormed)
    (addressed : server.Addressed) (shown : server.Shown) {action : Action}
    (fromPeers : action.FromPeers) (step : Step env server action next) : next.Shown := by
  rintro conn ⟨pkt, member, isWorld⟩
  rcases emits_of_step wf fromPeers step with ⟨messages, emits, sent⟩
  rw [sentTo_append sent] at member
  rcases List.mem_append.mp member with before | isNew
  · have isCreated : conn < server.created := by
      by_contra notCreated
      rw [addressed.sentTo_of_not_created notCreated] at before
      cases before
    rw [newCharacter_congr (m_sID_of_step wf step isCreated)]
    rcases Option.isSome_iff_exists.mp (AList.lookup_isSome.mpr
      (shown conn ⟨pkt, before, isWorld⟩)) with ⟨cha, found⟩
    rcases owner_of_step alwaysOpen wf fromPeers step found with ⟨later, foundLater, -⟩
    exact ChaMap.mem_of_lookup foundLater
  · rcases List.mem_map.mp isNew with ⟨message, isTold, rfl⟩
    rw [List.mem_filter] at isTold
    cases emits with
    | accept =>
        cases List.mem_singleton.mp isTold.1
        contradiction
    | receive => cases isTold.1
    | process actor request _ queue outgoing =>
        rcases outgoing.sends_world isTold.1 isWorld with ⟨isEnter, isActor⟩
        have isConn : conn = actor := (of_decide_eq_true isTold.2).symm.trans isActor
        cases step_cases wf step with
        | process _ _ _ isCreated _ _ _ handles =>
            rw [isConn, newCharacter_congr (m_sID_of_step wf step isCreated)]
            cases handles with
            | sends notEnters => exact absurd isEnter notEnters
            | enters _ sends =>
                rw [← AList.lookup_isSome, sends.lookup_of_alwaysOpen alwaysOpen,
                  AList.lookup_isSome]
                exact mem_entered server.popped actor
            | moves isMove =>
                rw [isEnter] at isMove
                contradiction

end Growth

/-- The client of a connection has received `pkts` and shows the world as it was in
`server`, all but its own character; of what it was sent by then it may have got one
packet more. -/
structure ShowsWorld (server : Server) (conn : ConnRef) (pkts : List (Packet CMD)) : Prop where
  owns : ∃ key cha, server.m_chaMap.lookup key = some cha ∧ cha.m_TCPConnection = some conn
  sees : ∀ id : UInt16, id ≠ (server.newCharacter conn).GetID →
    Replica.seen pkts id = (server.m_chaMap.lookup id.toUInt32).map Character.pos
  received : server.sentTo conn <+: pkts
  ahead : pkts.length ≤ (server.sentTo conn).length + 1

theorem Agrees.showsWorld {server : Server} (agrees : server.Agrees) (keyed : server.Keyed)
    {conn : ConnRef} {key : UInt32} {cha : Character}
    (found : server.m_chaMap.lookup key = some cha) (isOwner : cha.m_TCPConnection = some conn) :
    server.ShowsWorld conn (server.sentTo conn) where
  owns := ⟨key, cha, found, isOwner⟩
  sees id different := by
    rw [← Replica.delivered_eq_seen]
    apply agrees key cha conn found isOwner id
    rw [keyed key cha conn found isOwner]
    exact fun same => different (UInt16.toUInt32_inj.mp same)
  received := List.prefix_refl _
  ahead := Nat.le_succ _

/-- What every run of peers that tell nobody a wrong position keeps. -/
structure Told (env : Environment) (m_IDCnt : UInt32) (server : Server) : Prop where
  recorded : server.Recorded env m_IDCnt
  addressed : server.Addressed
  agrees : server.Agrees
  shown : server.Shown

theorem told_of_trace (alwaysOpen : env.AlwaysOpen) {m_IDCnt : UInt32} {m_sID : ConnRef → UInt32}
    {server : Server} {actions : List Action}
    (trace : Trace (StepWhere (Step env) KeepsViews) (start m_IDCnt m_sID) actions server) :
    server.Told env m_IDCnt := by
  have keeps : ∀ current action next, Told env m_IDCnt current →
      StepWhere (Step env) KeepsViews current action next → Told env m_IDCnt next := by
    intro current action next told ⟨step, keepsViews⟩
    have wf := told.recorded.wf
    exact ⟨told.recorded.step step, told.addressed.step wf keepsViews.1 step,
      agrees_of_step alwaysOpen wf told.agrees keepsViews step,
      told.shown.step alwaysOpen wf told.addressed keepsViews.1 step⟩
  refine trace.invariant keeps ⟨recorded_start env m_IDCnt m_sID, ⟨nofun, ?_⟩,
    agrees_start m_IDCnt m_sID, ?_⟩
  · exact fun conn isCreated => absurd isCreated (Nat.not_lt_zero conn)
  · rintro conn ⟨pkt, member, -⟩
    cases member

theorem exists_append_of_not_prefix {α : Type} {pkts old new : List α}
    (isPrefix : pkts <+: old ++ new) (notBefore : ¬pkts <+: old) :
    ∃ more, more ≠ [] ∧ pkts = old ++ more ∧ more <+: new := by
  rcases List.prefix_or_prefix_of_prefix isPrefix (List.prefix_append old new) with
    before | ⟨more, rfl⟩
  · exact absurd before notBefore
  · refine ⟨more, ?_, rfl, (List.prefix_append_right_inj old).mp isPrefix⟩
    rintro rfl
    rw [List.append_nil] at notBefore
    exact notBefore (List.prefix_refl old)

section Moments

variable {m_IDCnt : UInt32} {server next : Server} {action : Action} {conn : ConnRef}

theorem Told.owns_before (told : server.Told env m_IDCnt) (toldNext : next.Told env m_IDCnt)
    (alwaysOpen : env.AlwaysOpen) (fromPeers : action.FromPeers)
    (step : Step env server action next)
    (hasWorld : ∃ pkt ∈ server.sentTo conn, pkt.header.cmdID = .SelfEnterWorld)
    (owns : ∃ key cha, next.m_chaMap.lookup key = some cha ∧ cha.m_TCPConnection = some conn) :
    ∃ key cha, server.m_chaMap.lookup key = some cha ∧ cha.m_TCPConnection = some conn := by
  have wf := told.recorded.wf
  have isCreated : conn < server.created := by
    by_contra notCreated
    rw [told.addressed.sentTo_of_not_created notCreated] at hasWorld
    simp at hasWorld
  rcases owns with ⟨key, cha, found, isOwner⟩
  have isKey := toldNext.recorded.keyed key cha conn found isOwner
  rw [newCharacter_congr (m_sID_of_step wf step isCreated)] at isKey
  rcases Option.isSome_iff_exists.mp (AList.lookup_isSome.mpr (told.shown conn hasWorld)) with
    ⟨present, isPresent⟩
  rcases owner_of_step alwaysOpen wf fromPeers step isPresent with ⟨later, foundLater, sameOwner⟩
  rw [← isKey] at isPresent foundLater
  cases foundLater.symm.trans found
  exact ⟨key, present, isPresent, sameOwner.symm.trans isOwner⟩

theorem Told.showsWorld (told : server.Told env m_IDCnt) (toldNext : next.Told env m_IDCnt)
    (alwaysOpen : env.AlwaysOpen) (fromPeers : action.FromPeers)
    (step : Step env server action next)
    (owns : ∃ key cha, next.m_chaMap.lookup key = some cha ∧ cha.m_TCPConnection = some conn)
    {pkts : List (Packet CMD)} (isPrefix : pkts <+: next.sentTo conn)
    (isLater : ¬pkts <+: server.sentTo conn)
    (hasWorld : ∃ pkt ∈ pkts, pkt.header.cmdID = .SelfEnterWorld) :
    server.ShowsWorld conn pkts ∨ next.ShowsWorld conn pkts := by
  have wf := told.recorded.wf
  rcases emits_of_step wf fromPeers step with ⟨messages, emits, sent⟩
  have grows := sentTo_append sent conn
  rw [grows] at isPrefix
  rcases exists_append_of_not_prefix isPrefix isLater with ⟨more, nonempty, isPkts, isMore⟩
  have whole : more = (messages.filter fun message => message.1 = conn).map Prod.snd →
      next.ShowsWorld conn pkts := by
    intro same
    rcases owns with ⟨key, cha, found, isOwner⟩
    have shows := toldNext.agrees.showsWorld toldNext.recorded.keyed found isOwner
    rwa [grows, ← same, ← isPkts] at shows
  have some_ := List.length_pos_of_ne_nil nonempty
  rcases emits.to_one wf told.recorded.keyed told.recorded.registered.distinct conn with
    short | ⟨world, -, isNew⟩
  · exact .inr (whole (isMore.eq_of_length_le (by omega)))
  · by_cases isAll : 2 ≤ more.length
    · apply Or.inr
      apply whole
      apply isMore.eq_of_length_le
      rw [isNew]
      exact isAll
    · rw [isNew] at isMore
      have one : more = [positionPacket .PlyEnterWorld (server.newCharacter conn)] := by
        rw [List.prefix_iff_eq_take.mp isMore, (by omega : more.length = 1)]
        rfl
      rw [one] at isPkts
      have wasWorld : ∃ pkt ∈ server.sentTo conn, pkt.header.cmdID = .SelfEnterWorld := by
        rcases hasWorld with ⟨pkt, member, isWorld⟩
        rw [isPkts] at member
        rcases List.mem_append.mp member with before | isOwn
        · exact ⟨pkt, before, isWorld⟩
        · cases List.mem_singleton.mp isOwn
          contradiction
      rcases told.owns_before toldNext alwaysOpen fromPeers step wasWorld owns with
        ⟨key, cha, found, isOwner⟩
      have shows := told.agrees.showsWorld told.recorded.keyed found isOwner
      refine .inl ⟨shows.owns, ?_, ?_, ?_⟩
      · intro id different
        rw [isPkts, Replica.seen_snoc, receive_positionPacket (.inl rfl), ← shows.sees id different]
        exact Function.update_of_ne different _ _
      · rw [isPkts]
        exact List.prefix_append _ _
      · rw [isPkts, List.length_append, List.length_singleton]

end Moments

/-- Whatever part of what it was sent a client has received, once it has seen the world it
shows the world as it was at an earlier moment, all but its own character. -/
theorem view_is_past (alwaysOpen : env.AlwaysOpen) {m_IDCnt : UInt32} {m_sID : ConnRef → UInt32}
    {server : Server} {actions : List Action}
    (trace : Trace (StepWhere (Step env) KeepsViews) (start m_IDCnt m_sID) actions server)
    {conn : ConnRef} (owns : ∃ key cha, server.m_chaMap.lookup key = some cha ∧
      cha.m_TCPConnection = some conn)
    {pkts : List (Packet CMD)} (isPrefix : pkts <+: server.sentTo conn)
    (hasWorld : ∃ pkt ∈ pkts, pkt.header.cmdID = .SelfEnterWorld) :
    ∃ before middle after, actions = before ++ after ∧
      Trace (StepWhere (Step env) KeepsViews) (start m_IDCnt m_sID) before middle ∧
      Trace (StepWhere (Step env) KeepsViews) middle after server ∧
      middle.ShowsWorld conn pkts := by
  revert owns isPrefix
  apply trace.snoc_induction (motive := fun actions server =>
    (∃ key cha, server.m_chaMap.lookup key = some cha ∧ cha.m_TCPConnection = some conn) →
    pkts <+: server.sentTo conn → ∃ before middle after, actions = before ++ after ∧
      Trace (StepWhere (Step env) KeepsViews) (start m_IDCnt m_sID) before middle ∧
      Trace (StepWhere (Step env) KeepsViews) middle after server ∧
      middle.ShowsWorld conn pkts)
  · intro _ isPrefix
    rcases hasWorld with ⟨pkt, member, -⟩
    cases isPrefix.subset member
  · intro earlier current action next front induction step owns isPrefix
    have told := told_of_trace alwaysOpen front
    have toldNext := told_of_trace alwaysOpen (front.snoc step)
    rcases step with ⟨step, keeps⟩
    by_cases wasBefore : pkts <+: current.sentTo conn
    · have wasWorld : ∃ pkt ∈ current.sentTo conn, pkt.header.cmdID = .SelfEnterWorld := by
        rcases hasWorld with ⟨pkt, member, isWorld⟩
        exact ⟨pkt, wasBefore.subset member, isWorld⟩
      have owned := told.owns_before toldNext alwaysOpen keeps.1 step wasWorld owns
      rcases induction owned wasBefore with
        ⟨before, middle, after, isSplit, reaches, leads, shows⟩
      refine ⟨before, middle, after ++ [action], ?_, reaches, leads.snoc ⟨step, keeps⟩, shows⟩
      rw [isSplit, List.append_assoc]
    · rcases told.showsWorld toldNext alwaysOpen keeps.1 step owns isPrefix wasBefore hasWorld with
        shows | shows
      · exact ⟨earlier, current, [action], rfl, front, .cons ⟨step, keeps⟩ (.nil _), shows⟩
      · exact ⟨earlier ++ [action], next, [], (List.append_nil _).symm, front.snoc ⟨step, keeps⟩,
          .nil _, shows⟩

end Server

end GNL
