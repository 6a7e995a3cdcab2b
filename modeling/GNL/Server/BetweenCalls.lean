import GNL.Server.Serial
import GNL.Server.Views
import GNL.Common.TCPConnection.Link
import Mathlib.Data.Nat.ModEq

/-! # What holds between two calls

Whatever the other thread did during a call of the main thread: once the call has
returned, the server is as the calls left it that were made one at a time.
-/

namespace GNL

namespace Server

variable {env : Environment} {m_IDCnt : UInt32} {m_sID : ConnRef → UInt32} {server : Server}
  {actions : List Action}

def Action.enters : Action → Option ConnRef
  | .process owned => if owned.pkt.header.cmdID = .SelfEnterWorld then owned.connectionPtr else none
  | .accept | .receive _ _ | .sendToClient _ _ | .sendToAll _ _ => none

theorem enters_of_owner (trace : Trace (Step env) (start m_IDCnt m_sID) actions server)
    {key : UInt32} {cha : Character} {conn : ConnRef}
    (found : server.m_chaMap.lookup key = some cha) (isOwner : cha.m_TCPConnection = some conn) :
    conn ∈ actions.filterMap Action.enters := by
  have ofOwner : ∀ key cha, server.m_chaMap.lookup key = some cha →
      cha.m_TCPConnection = some conn → conn ∈ actions.filterMap Action.enters := by
    refine trace.snoc_induction (motive := fun actions server => ∀ key cha,
      server.m_chaMap.lookup key = some cha → cha.m_TCPConnection = some conn →
        conn ∈ actions.filterMap Action.enters) ?_ ?_
    · intro key cha found
      simp [start] at found
    · intro before middle action next front induction step key cha found isOwner
      rw [List.filterMap_append]
      apply List.mem_append.mpr
      cases step_cases (wellFormed_of_trace front) step with
      | accept => exact .inl (induction _ _ found isOwner)
      | receive => exact .inl (induction _ _ found isOwner)
      | process actor pkt _ _ _ _ _ handles =>
          cases handles with
          | sends _ sent => exact .inl (induction _ _ (sent.lookup_eq_some found) isOwner)
          | enters cmdID sent =>
              rcases ChaMap.lookup_AddChaToWorld (sent.lookup_eq_some found) with
                wasFound | ⟨-, rfl⟩
              · exact .inl (induction _ _ wasFound isOwner)
              · cases isOwner
                right
                simp [Action.enters, cmdID]
          | moves _ placed x y foundPlaced sent =>
              have wasFound := sent.lookup_eq_some found
              change (middle.popped.moved actor placed x y).lookup key = some cha at wasFound
              rw [lookup_moved] at wasFound
              split at wasFound
              next =>
                cases wasFound
                exact .inl (induction _ _ foundPlaced isOwner)
              next => exact .inl (induction _ _ wasFound isOwner)
      | sendToClient _ _ _ sent => exact .inl (induction _ _ (sent.lookup_eq_some found) isOwner)
      | sendToAll _ _ _ sent => exact .inl (induction _ _ (sent.lookup_eq_some found) isOwner)
  exact ofOwner key cha found isOwner

theorem Registered.eq_of_newCharacter (registered : server.Registered m_IDCnt)
    (few : server.created ≤ 2 ^ 16) {first second : ConnRef} (firstCreated : first < server.created)
    (secondCreated : second < server.created)
    (same : (server.newCharacter first).GetID = (server.newCharacter second).GetID) :
    first = second := by
  have sameID : (m_IDCnt + UInt32.ofNat first).toUInt16 =
      (m_IDCnt + UInt32.ofNat second).toUInt16 := by
    rw [← registered.ids first firstCreated, ← registered.ids second secondCreated]
    exact same
  have sameNat := congrArg UInt16.toNat sameID
  simp only [UInt32.toNat_toUInt16, UInt32.toNat_add, UInt32.toNat_ofNat'] at sameNat
  have residues : ∀ offset : Nat, (m_IDCnt.toNat + offset % 2 ^ 32) % 2 ^ 32 % 2 ^ 16 =
      (m_IDCnt.toNat + offset) % 2 ^ 16 := by
    intro offset
    omega
  rw [residues, residues] at sameNat
  exact (Nat.ModEq.add_left_cancel' m_IDCnt.toNat sameNat).eq_of_lt_of_lt
    (Nat.lt_of_lt_of_le firstCreated few) (Nat.lt_of_lt_of_le secondCreated few)

theorem keepsViews_of_trace (trace : Trace (Step env) (start m_IDCnt m_sID) actions server)
    (fromPeers : ∀ action ∈ actions, action.FromPeers)
    (once : (actions.filterMap Action.enters).Nodup) (few : server.created ≤ 2 ^ 16) :
    Trace (StepWhere (Step env) KeepsViews) (start m_IDCnt m_sID) actions server := by
  revert fromPeers once few
  apply trace.snoc_induction (motive := fun actions server =>
    (∀ action ∈ actions, action.FromPeers) → (actions.filterMap Action.enters).Nodup →
      server.created ≤ 2 ^ 16 →
      Trace (StepWhere (Step env) KeepsViews) (start m_IDCnt m_sID) actions server)
  · intro _ _ _
    exact .nil _
  · intro before middle action next front induction step fromPeers once few
    rcases List.forall_mem_append.mp fromPeers with ⟨fromPeersBefore, fromPeersLast⟩
    have recorded := recorded_of_trace front
    rw [List.filterMap_append] at once
    rcases List.nodup_append.mp once with ⟨onceBefore, -, apart⟩
    have fewBefore := Nat.le_trans (created_le_of_step recorded.wf step) few
    refine (induction fromPeersBefore onceBefore fewBefore).snoc
      ⟨step, fromPeersLast action (List.mem_singleton_self _), ?_⟩
    cases action with
    | process owned =>
        intro isEnter conn isConn cha present isPresent
        have queue := List.mem_of_mem_head? (head_of_step_process step)
        rcases (recorded.wf.queue owned queue).1 with ⟨actor, isCreated, isActor⟩
        cases isActor.symm.trans isConn
        rcases (recorded.wf.chaMap _ present isPresent).owner with ⟨owner, ownerCreated, isOwner⟩
        have sameID := UInt16.toUInt32_inj.mp (recorded.keyed _ present owner isPresent isOwner)
        have isSelf :=
          recorded.registered.eq_of_newCharacter fewBefore isCreated ownerCreated sameID
        rw [← isSelf] at isOwner
        have entered := enters_of_owner front isPresent isOwner
        have enters : conn ∈ [Action.process owned].filterMap Action.enters := by
          simp [Action.enters, isEnter, isActor]
        exact absurd rfl (apart conn entered conn enters)
    | accept => trivial
    | receive => trivial
    | sendToClient => trivial
    | sendToAll => trivial

end Server

namespace RunningServer

variable {order : Iteration} {padding : ConnRef → Nat → UInt16} {m_IDCnt : UInt32}
  {m_sID : ConnRef → UInt32} {actions : List Action} {running : RunningServer}

theorem Reflects.created_le {server : Server} (reflects : running.Reflects server) :
    server.created ≤ running.created := by
  rcases reflects.created with same | ⟨more, -⟩
  · exact Nat.le_of_eq same.symm
  · rw [more]
    exact Nat.le_succ _

structure InOrder (m_IDCnt : UInt32) (running : RunningServer) : Prop where
  listed : ∀ client ∈ running.m_TCPConnections, ∃ conn < running.created, client = some conn
  distinct : running.m_TCPConnections.Nodup
  identified : ∀ conn, (running.connection conn).identified = true →
    conn < running.created ∧ (running.connection conn).m_sID = m_IDCnt + UInt32.ofNat conn
  next : running.io = .idle → running.m_IDCnt = m_IDCnt + UInt32.ofNat running.created
  owned : ∀ key cha, running.m_chaMap.lookup key = some cha → cha.m_World = true ∧
    ∃ conn < running.created, cha.m_TCPConnection = some conn ∧ key = cha.GetID.toUInt32 ∧
      cha.GetID = (m_IDCnt + UInt32.ofNat conn).toUInt16
  queued : ∀ owned ∈ running.m_TCP_PktIn, ∃ conn < running.created,
    owned.connectionPtr = some conn

section Peers

variable {env : Environment} {server : Server} {performed calls : List Server.Action}

theorem fromPeers_of_calls (made : performed.filter Server.Action.isCall = calls)
    (fromPeers : ∀ call ∈ calls, call.FromPeers) : ∀ action ∈ performed, action.FromPeers := by
  intro action member
  cases isCall : action.isCall with
  | false => cases action <;> trivial
  | true =>
      apply fromPeers
      rw [← made]
      exact List.mem_filter.mpr ⟨member, isCall⟩

theorem enters_of_calls (made : performed.filter Server.Action.isCall = calls) :
    performed.filterMap Server.Action.enters = calls.filterMap Server.Action.enters := by
  rw [← made, List.filterMap_filter]
  congr 1
  funext action
  cases action <;> rfl

theorem Serves.alwaysOpen
    (serves : running.Serves order (Server.start m_IDCnt m_sID) [] 0 [] env performed server)
    (isOpen : ∀ conn < running.created, (running.connection conn).IsConnected = true) :
    env.AlwaysOpen := by
  intro tick conn
  apply serves.answers.isOpen
  by_cases isCreated : conn < running.created
  · exact .inl (isOpen conn isCreated)
  · exact .inr (Nat.le_trans serves.reflects.created_le (Nat.not_lt.mp isCreated))

theorem Serves.greets
    (serves : running.Serves order (Server.start m_IDCnt m_sID) [] 0 [] env performed server)
    (introduced : running.Introduced padding) (fromPeers : ∀ action ∈ performed, action.FromPeers)
    (conn : ConnRef) : Server.Greets (running.connection conn).sent := by
  have unaccepted : ¬conn < running.created → Server.Greets (running.connection conn).sent :=
    fun notCreated => .inl (introduced.fresh conn (.inl (Nat.not_lt.mp notCreated)))
  by_cases isCreated : conn < server.created
  · have addressed := Server.addressed_of_trace (serves.runs env (.refl env _)) fromPeers
    rw [serves.reflects.sent conn isCreated]
    exact addressed.greets conn
  · cases serves.same.accepts with
    | waits _ created => exact unaccepted (created ▸ isCreated)
    | unnamed _ _ created => exact unaccepted (created ▸ isCreated)
    | named _ _ created => exact unaccepted (created ▸ isCreated)
    | @unlisted stage io early created _ sent =>
        by_cases isNewest : conn = server.created
        · rw [isNewest]
          rcases early with rfl | rfl | rfl
          · exact .inl (introduced.fresh _ (.inr (.inl io)))
          · exact .inl (introduced.fresh _ (.inr (.inr io)))
          · exact .inr ⟨[], sent rfl, fun pkt member => absurd member List.not_mem_nil⟩
        · apply unaccepted
          rw [created]
          exact fun isLess => (Nat.lt_succ_iff_lt_or_eq.mp isLess).elim isCreated isNewest

end Peers

theorem packets_prefix (introduced : running.Introduced padding) {conn : ConnRef}
    (greets : Server.Greets (running.connection conn).sent) {self : ConnRef}
    {reads : List Reader.Action} {client : Reader CMD}
    (receives : Trace Reader.Step (Reader.connected self .Client) reads client)
    (arrived : Reader.arrived reads <+: (running.connection conn).writer.written) :
    client.m_PktIn.map OwnedPacket.pkt <+: (running.connection conn).sent := by
  rcases Reader.received_of_trace receives with ⟨frames, received⟩
  have isStream := arrived.trans ( Writer.Sending.written_prefix (introduced.writers conn))
  have isPrefix := (Link.pushed_prefix received isStream greets.consistent).map OwnedPacket.pkt
  rwa [greets.redelivered, OwnedPacket.map_pkt] at isPrefix

/-- Where the application itself only calls `Process`: whatever the other thread did during
those calls, and however the bytes travel, a client finds in its queue the first of the
packets that were sent to it, which are that of its acceptance and then packets with a body
of the length they say. -/
theorem client_receives_between_calls
    (trace : Trace (Step order padding) (start m_IDCnt m_sID) actions running)
    (returned : running.main = .idle)
    (fromPeers : ∀ call ∈ noted (step order padding) mainCalls (start m_IDCnt m_sID) actions,
      call.FromPeers) {conn self : ConnRef} {reads : List Reader.Action} {client : Reader CMD}
    (receives : Trace Reader.Step (Reader.connected self .Client) reads client)
    (arrived : Reader.arrived reads <+: (running.connection conn).writer.written) :
    Server.Greets (running.connection conn).sent ∧
      client.m_PktIn.map OwnedPacket.pkt <+: (running.connection conn).sent := by
  rcases serves_of_trace trace returned with ⟨env, performed, server, made, serves⟩
  have introduced := introduced_of_trace trace
  have greets := serves.greets introduced (fromPeers_of_calls made fromPeers) conn
  exact ⟨greets, packets_prefix introduced greets receives arrived⟩

/-- A connection enters while another is accepted, and is sent what it is due. -/
def entersMeanwhile : List Action :=
  [.accept, .io, .io, .io, .io, .io, .io, .read 0 (.arrive [2, 0, 0, 0, 0, 0, 0, 0]),
    .read 0 .complete, .Process, .main, .accept, .io, .main, .io, .main, .io, .main, .io, .main,
    .io, .main, .io, .main, .main, .write 0 .runPosted, .write 0 (.transfer 0 8),
    .write 0 (.complete 0), .write 0 .runPosted, .write 0 .runPosted, .write 0 (.transfer 0 8),
    .write 0 (.complete 0), .write 0 (.transfer 0 18), .write 0 (.complete 0),
    .write 0 (.transfer 0 8), .write 0 (.complete 0), .write 0 (.transfer 0 24)]

theorem client_receives_between_calls_cut :
    let padding : ConnRef → Nat → UInt16 := fun _ _ => 0
    ∃ (running : RunningServer) (reads : List Reader.Action) (client : Reader CMD),
      Trace (Step .asKept padding) (start 5 fun _ => 0) entersMeanwhile running ∧
      Trace Reader.Step (Reader.connected 3 .Client) reads client ∧
      client.m_PktIn.length = 2 ∧
      client.m_PktIn.map OwnedPacket.pkt <+: (running.connection 0).sent := by
  intro padding
  let reads : RunningServer → List Reader.Action := fun running =>
    [.arrive (running.connection 0).writer.written.dropLast, .complete, .complete, .complete,
      .complete]
  have runs : ∃ running ∈ runSteps (step .asKept padding) (start 5 fun _ => 0) entersMeanwhile,
      ∃ client ∈ runSteps Reader.step (Reader.connected 3 .Client : Reader CMD) (reads running),
        running.main = .idle ∧ client.m_PktIn.length = 2 := by
    decide +kernel
  have fromPeers : ∀ call ∈ noted (step .asKept padding) mainCalls (start 5 fun _ => 0)
      entersMeanwhile, call.FromPeers := by
    decide +kernel
  rcases runs with ⟨running, reaches, client, receives, returned, received⟩
  have trace : Trace (Step .asKept padding) (start 5 fun _ => 0) entersMeanwhile running :=
    Trace.of_run reaches
  have readTrace : Trace Reader.Step (Reader.connected 3 .Client) (reads running) client :=
    Trace.of_run receives
  have arrived : Reader.arrived (reads running) <+: (running.connection 0).writer.written := by
    change (running.connection 0).writer.written.dropLast ++ [] <+: _
    rw [List.append_nil]
    exact List.dropLast_prefix _
  exact ⟨running, reads running, client, trace, readTrace, received,
    (client_receives_between_calls trace returned fromPeers readTrace arrived).2⟩

/-- Where only `Process` is called, nobody disconnects, no connection enters twice and there
are no more of them than 16-bit IDs: whatever the other thread did during the calls, and
however the bytes travel, a client with a character in the world that has got the list of
the world shows it as it was after part of the calls, all but its own character; and once
it has received all that was sent to it, as it is. -/
theorem client_shows_past_world_between_calls
    (trace : Trace (Step order padding) (start m_IDCnt m_sID) actions running)
    (returned : running.main = .idle)
    (fromPeers : ∀ call ∈ noted (step order padding) mainCalls (start m_IDCnt m_sID) actions,
      call.FromPeers)
    (isOpen : ∀ conn < running.created, (running.connection conn).IsConnected = true)
    (once : ((noted (step order padding) mainCalls (start m_IDCnt m_sID) actions).filterMap
      Server.Action.enters).Nodup)
    (few : running.created ≤ 2 ^ 16) {key : UInt32} {cha : Character} {conn self : ConnRef}
    (found : running.m_chaMap.lookup key = some cha) (isOwner : cha.m_TCPConnection = some conn)
    {reads : List Reader.Action} {client : Reader CMD}
    (receives : Trace Reader.Step (Reader.connected self .Client) reads client)
    (arrived : Reader.arrived reads <+: (running.connection conn).writer.written)
    (hasWorld : ∃ owned ∈ client.m_PktIn, owned.pkt.header.cmdID = .SelfEnterWorld) :
    ∃ env before middle after server,
      Trace (Server.Step env) (Server.start m_IDCnt m_sID) before middle ∧
      Trace (Server.Step env) middle after server ∧
      (before ++ after).filter Server.Action.isCall =
        noted (step order padding) mainCalls (start m_IDCnt m_sID) actions ∧
      running.Reflects server ∧
      middle.ShowsWorld conn (client.m_PktIn.map OwnedPacket.pkt) ∧
      (client.m_PktIn.map OwnedPacket.pkt = (running.connection conn).sent →
        ∀ id : UInt16, id.toUInt32 ≠ key →
          Replica.seen (client.m_PktIn.map OwnedPacket.pkt) id =
            (running.m_chaMap.lookup id.toUInt32).map Character.pos) := by
  rcases serves_of_trace trace returned with ⟨env, performed, server, made, serves⟩
  have introduced := introduced_of_trace trace
  have reflects := serves.reflects
  have allFromPeers := fromPeers_of_calls made fromPeers
  have alwaysOpen := serves.alwaysOpen isOpen
  have keeping : Trace (StepWhere (Server.Step env) Server.KeepsViews)
      (Server.start m_IDCnt m_sID) performed server := by
    apply Server.keepsViews_of_trace (serves.runs env (.refl env _)) allFromPeers
    · rw [enters_of_calls made]
      exact once
    · exact Nat.le_trans reflects.created_le few
  have told := Server.told_of_trace alwaysOpen keeping
  rw [reflects.m_chaMap] at found
  have isCreated := told.recorded.wf.owner_lt found isOwner
  have isPrefix := packets_prefix introduced
    (serves.greets introduced allFromPeers conn) receives arrived
  rw [reflects.sent conn isCreated] at isPrefix ⊢
  rcases hasWorld with ⟨owned, member, isWorld⟩
  rcases Server.view_is_past alwaysOpen keeping ⟨key, cha, found, isOwner⟩ isPrefix
    ⟨owned.pkt, List.mem_map_of_mem member, isWorld⟩ with
      ⟨before, middle, after, rfl, reaches, leads, shows⟩
  refine ⟨env, before, middle, after, server, reaches.unconditional, leads.unconditional, made,
    reflects, shows, ?_⟩
  intro isAll id different
  rw [isAll, reflects.m_chaMap, ← Replica.delivered_eq_seen]
  exact told.agrees key cha conn found isOwner id different

theorem client_shows_past_world_between_calls_of_one :
    let padding : ConnRef → Nat → UInt16 := fun _ _ => 0
    ∃ (running : RunningServer) (reads : List Reader.Action) (client : Reader CMD),
      Trace (Step .asKept padding) (start 5 fun _ => 0) entersMeanwhile running ∧
      Trace Reader.Step (Reader.connected 3 .Client) reads client ∧
      client.m_PktIn.length = 3 ∧
      ∃ middle : Server, middle.ShowsWorld 0 (client.m_PktIn.map OwnedPacket.pkt) := by
  intro padding
  let reads : RunningServer → List Reader.Action := fun running =>
    [.arrive (running.connection 0).writer.written, .complete, .complete, .complete, .complete,
      .complete]
  let calls := noted (step .asKept padding) mainCalls (start 5 fun _ => 0) entersMeanwhile
  have runs : ∃ running ∈ runSteps (step .asKept padding) (start 5 fun _ => 0) entersMeanwhile,
      ∃ client ∈ runSteps Reader.step (Reader.connected 3 .Client : Reader CMD) (reads running),
        running.main = .idle ∧ client.m_PktIn.length = 3 ∧ running.created = 2 ∧
        (∀ conn < 2, (running.connection conn).IsConnected = true) ∧
        (∃ cha ∈ running.m_chaMap.lookup 5, cha.m_TCPConnection = some 0) ∧
        ∃ owned ∈ client.m_PktIn, owned.pkt.header.cmdID = .SelfEnterWorld := by
    decide +kernel
  have fromPeers : ∀ call ∈ calls, call.FromPeers := by
    decide +kernel
  have once : (calls.filterMap Server.Action.enters).Nodup := by
    decide +kernel
  rcases runs with ⟨running, reaches, client, receives, returned, received, created, isOpen,
    ⟨cha, found, isOwner⟩, hasWorld⟩
  have trace : Trace (Step .asKept padding) (start 5 fun _ => 0) entersMeanwhile running :=
    Trace.of_run reaches
  have readTrace : Trace Reader.Step (Reader.connected 3 .Client) (reads running) client :=
    Trace.of_run receives
  have arrived : Reader.arrived (reads running) <+: (running.connection 0).writer.written :=
    ⟨[], (List.append_nil _).trans (List.append_nil _)⟩
  rcases client_shows_past_world_between_calls trace returned fromPeers (created ▸ isOpen) once
    (by omega) found isOwner readTrace arrived hasWorld with
      ⟨_, _, middle, _, _, _, _, _, _, shows, _⟩
  exact ⟨running, reads running, client, trace, readTrace, received, middle, shows⟩

end RunningServer

end GNL
