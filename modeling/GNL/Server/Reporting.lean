import GNL.Server.Departure

/-! # How often a disconnect is reported

`OnClientDisconnect` runs wherever a send finds its connection closed. The list of
connections is emptied of a dropped connection, but packets of it stay in the queue
and its character may stay in the world, and a handler that enters asks the
connection it serves twice. Each of these reports the same connection again.
-/

namespace GNL.Server

variable {env : Environment}

/-- The key of a character is the ID of its connection, cut to 16 bits. -/
def Keyed (server : Server) : Prop :=
  ∀ key cha conn, server.m_chaMap.lookup key = some cha → cha.m_TCPConnection = some conn →
    key = (server.newCharacter conn).GetID.toUInt32

theorem keyed_start (m_IDCnt : UInt32) (m_sID : ConnRef → UInt32) :
    (start m_IDCnt m_sID).Keyed := by
  intro key cha conn found
  simp [start] at found

theorem newCharacter_congr {before after : Server} {conn : ConnRef}
    (same : after.m_sID conn = before.m_sID conn) :
    after.newCharacter conn = before.newCharacter conn := by
  rw [newCharacter, newCharacter, same]

theorem Keyed.step {server next : Server} {action : Action} (keyed : server.Keyed)
    (wf : server.WellFormed) (distinct : server.m_TCPConnections.Nodup)
    (step : Step env server action next) : next.Keyed := by
  rcases step_drops wf distinct step with ⟨prepared, prepares, drops⟩
  intro key cha conn found isOwner
  rw [drops.m_chaMap] at found
  split at found
  · contradiction
  have sameID : ∀ conn < server.created, next.m_sID conn = server.m_sID conn :=
    fun conn isCreated => m_sID_of_step wf step isCreated
  rcases prepares.owner found with ⟨before, foundBefore, sameOwner⟩ |
    ⟨actor, pkt, rfl, -, isKey, isActor⟩
  · have wasOwner := sameOwner.trans isOwner
    rw [newCharacter_congr (sameID conn (wf.owner_lt foundBefore wasOwner))]
    exact keyed key before conn foundBefore wasOwner
  · cases isActor.symm.trans isOwner
    cases prepares with
    | enters _ _ isCreated => rw [newCharacter_congr (sameID conn isCreated), isKey]
    | handles _ _ isCreated => rw [newCharacter_congr (sameID conn isCreated), isKey]
    | moves _ _ isCreated => rw [newCharacter_congr (sameID conn isCreated), isKey]

theorem Keyed.nodup_notified {server : Server} (keyed : server.Keyed) :
    (server.notified env).Nodup := by
  have entriesDistinct : (env.iteration server.tick server.m_chaMap.entries).Nodup := by
    rw [(env.iteration_perm _ _).nodup_iff]
    exact List.Nodup.of_map Sigma.fst server.m_chaMap.keys_nodup
  rw [notified, owners, List.Nodup, List.pairwise_filterMap]
  apply entriesDistinct.pairwise_of_forall_ne
  intro first firstMember second secondMember different conn firstOwner _ secondOwner same
  subst same
  have firstFound := (mem_iteration server first).mp firstMember
  have secondFound := (mem_iteration server second).mp secondMember
  have sameKey : first.1 = second.1 := by
    rw [keyed _ _ conn firstFound firstOwner, keyed _ _ conn secondFound secondOwner]
  rw [sameKey, secondFound] at firstFound
  exact different (Sigma.ext sameKey (heq_of_eq (Option.some.inj firstFound).symm))

def Fresh (server : Server) (lost : List ConnRef) : Prop :=
  lost.Nodup ∧ ∀ conn ∈ lost, conn ∉ server.removed

theorem nodup_removed_iff {server next : Server} {action : Action} (wf : server.WellFormed)
    (distinct : server.m_TCPConnections.Nodup) (step : Step env server action next)
    (once : server.removed.Nodup) :
    next.removed.Nodup ↔ server.Fresh (server.lostIn env action) := by
  rw [removed_of_step wf distinct step, List.nodup_append']
  simp only [once, true_and, Fresh, List.Disjoint]
  exact and_congr_right fun _ => ⟨fun apart conn isLost wasRemoved => apart wasRemoved isLost,
    fun apart conn wasRemoved isLost => apart conn isLost wasRemoved⟩

def HandledOnce (env : Environment) (server : Server) (conn : ConnRef) : CMD → Prop
  | .Ping => conn ∉ server.removed
  | .SelfEnterWorld =>
      conn ∉ server.removed ∧
      (∀ entry ∈ server.m_chaMap.entries, ∀ owner ∈ entry.2.m_TCPConnection,
        owner ∉ server.removed) ∧
      ∀ asked ∈ ((server.inside conn).notified env).zipIdx, asked.1 = conn →
        env.isOpen (server.tick + 1 + asked.2) conn = true
  | _ => True

def ReportsOnce (env : Environment) (server : Server) : Action → Prop
  | .process owned => ∀ conn ∈ owned.connectionPtr,
      server.popped.HandledOnce env conn owned.pkt.header.cmdID
  | .sendToClient conn _ => conn ∉ server.removed
  | _ => True

instance (env : Environment) (server : Server) (conn : ConnRef) :
    DecidablePred (server.HandledOnce env conn)
  | .Ping => inferInstanceAs (Decidable (_ ∉ _))
  | .SelfEnterWorld => inferInstanceAs (Decidable (_ ∧ _ ∧ _))
  | .Invalid => isTrue trivial
  | .AcceptTCPConnection => isTrue trivial
  | .PlyEnterWorld => isTrue trivial
  | .ServerMessage => isTrue trivial
  | .MovePlayer => isTrue trivial
  | .MessageAll => isTrue trivial
  | .unnamed _ _ => isTrue trivial

instance (env : Environment) (server : Server) : DecidablePred (server.ReportsOnce env)
  | .accept => isTrue trivial
  | .receive _ _ => isTrue trivial
  | .process _ => inferInstanceAs (Decidable (∀ _ ∈ _, _))
  | .sendToClient _ _ => inferInstanceAs (Decidable (_ ∉ _))
  | .sendToAll _ _ => isTrue trivial

section Fresh

variable {server : Server} {conn : ConnRef}

theorem fresh_foundClosed_iff (departed : server.Departed env) :
    server.Fresh (foundClosed env server.tick [conn]) ↔ conn ∉ server.removed := by
  cases isOpen : env.isOpen server.tick conn with
  | true =>
      have notRemoved : conn ∉ server.removed := by
        intro wasRemoved
        rw [departed.closed conn wasRemoved] at isOpen
        contradiction
      simp [foundClosed, isOpen, Fresh, notRemoved]
  | false => simp [foundClosed, isOpen, Fresh]

theorem fresh_listed (wf : server.WellFormed) (distinct : server.m_TCPConnections.Nodup)
    (departed : server.Departed env) :
    server.Fresh (foundClosed env server.tick server.listed) := by
  rw [wf.m_TCPConnections_eq] at distinct
  constructor
  · exact (foundClosed_sublist _ _).nodup (List.Nodup.of_map _ distinct)
  · intro conn isLost wasRemoved
    apply departed.unlisted conn wasRemoved
    rw [wf.m_TCPConnections_eq]
    exact List.mem_map_of_mem ((foundClosed_sublist _ _).subset isLost)

theorem Keyed.inside (keyed : server.Keyed) (conn : ConnRef) : (server.inside conn).Keyed := by
  intro key cha owner found isOwner
  rcases ChaMap.lookup_AddChaToWorld found with before | ⟨isKey, rfl⟩
  · exact keyed key cha owner before isOwner
  · cases isOwner
    exact isKey

theorem mem_notified {owner : ConnRef} : owner ∈ server.notified env ↔
    ∃ key cha, server.m_chaMap.lookup key = some cha ∧ cha.m_TCPConnection = some owner := by
  simp only [notified, owners, List.mem_filterMap, mem_iteration]
  constructor
  · rintro ⟨entry, found, isOwner⟩
    exact ⟨entry.1, entry.2, found, isOwner⟩
  · rintro ⟨key, cha, found, isOwner⟩
    exact ⟨⟨key, cha⟩, found, isOwner⟩

theorem mem_notified_inside {owner : ConnRef}
    (member : owner ∈ (server.inside conn).notified env) : owner = conn ∨
      ∃ entry ∈ server.m_chaMap.entries, entry.2.m_TCPConnection = some owner := by
  rcases mem_notified.mp member with ⟨key, cha, found, isOwner⟩
  rcases ChaMap.lookup_AddChaToWorld found with before | ⟨-, rfl⟩
  · exact .inr ⟨⟨key, cha⟩, AList.mem_lookup_iff.mp before, isOwner⟩
  · exact .inl (Option.some.inj isOwner).symm

theorem mem_notified_of_entry {owner : ConnRef} {entry : ChaEntry}
    (member : entry ∈ server.m_chaMap.entries) (isOwner : entry.2.m_TCPConnection = some owner) :
    owner ∈ (server.inside conn).notified env :=
  mem_notified.mpr ⟨entry.1, entry.2,
    ChaMap.lookup_AddChaToWorld_of_some (AList.mem_lookup_iff.mpr member), isOwner⟩

theorem Departed.mem_foundClosed {conns : List ConnRef} {tick : Nat}
    (departed : server.Departed env) (later : server.tick ≤ tick) (removed : conn ∈ server.removed)
    (member : conn ∈ conns) : conn ∈ foundClosed env tick conns := by
  rcases List.mem_iff_getElem?.mp member with ⟨index, isAsked⟩
  exact Server.mem_foundClosed.mpr ⟨index, isAsked,
    closed_mono (Nat.le_add_right_of_le later) (departed.closed conn removed)⟩

theorem fresh_enters_iff (departed : server.Departed env) (keyed : server.Keyed) :
    server.Fresh (server.lostBy env conn .SelfEnterWorld) ↔
      server.HandledOnce env conn .SelfEnterWorld := by
  let conns := (server.inside conn).notified env
  have later : server.tick ≤ server.tick + 1 := Nat.le_succ _
  constructor
  · rintro ⟨once, notBefore⟩
    refine ⟨?_, ?_, ?_⟩
    · intro removed
      exact notBefore conn (departed.mem_foundClosed later removed (by simp)) removed
    · intro entry member owner isOwner removed
      have isAsked : owner ∈ conns := mem_notified_of_entry member isOwner
      exact notBefore owner
        (departed.mem_foundClosed later removed (List.mem_append_left _ isAsked)) removed
    · rintro ⟨asked, index⟩ member (rfl : asked = conn)
      by_contra notOpen
      have closed := Bool.not_eq_true _ ▸ notOpen
      rw [lostBy, foundClosed_append, List.nodup_append'] at once
      have inLoop : asked ∈ foundClosed env (server.tick + 1) conns :=
        mem_foundClosed.mpr ⟨index, List.mem_zipIdx_iff_getElem?.mp member, closed⟩
      have inReply : asked ∈ foundClosed env (server.tick + 1 + conns.length) [asked] := by
        refine mem_foundClosed.mpr ⟨0, rfl, closed_mono ?_ closed⟩
        have shorter : index < conns.length := (List.mem_zipIdx' member).1
        omega
      exact once.2.2 inLoop inReply
  · rintro ⟨notRemoved, noOwnerRemoved, ownOpen⟩
    constructor
    · rw [lostBy, foundClosed_append, List.nodup_append']
      refine ⟨(foundClosed_sublist _ _).nodup (keyed.inside conn).nodup_notified,
        (foundClosed_sublist _ _).nodup (List.nodup_singleton conn), ?_⟩
      intro other isLost isLostAgain
      cases List.mem_singleton.mp ((foundClosed_sublist _ _).subset isLostAgain)
      rcases mem_foundClosed.mp isLost with ⟨index, isAsked, closed⟩
      rw [ownOpen (conn, index) (List.mem_zipIdx_iff_getElem?.mpr isAsked) rfl] at closed
      contradiction
    · intro other isLost
      rcases List.mem_append.mp ((foundClosed_sublist _ _).subset isLost) with isTold | isServed
      · rcases mem_notified_inside isTold with rfl | ⟨entry, member, isOwner⟩
        · exact notRemoved
        · exact noOwnerRemoved entry member other isOwner
      · rw [List.mem_singleton.mp isServed]
        exact notRemoved

end Fresh

theorem fresh_lostIn_iff {server next : Server} {action : Action} (wf : server.WellFormed)
    (distinct : server.m_TCPConnections.Nodup) (departed : server.Departed env)
    (keyed : server.Keyed) (step : Step env server action next) :
    server.Fresh (server.lostIn env action) ↔ server.ReportsOnce env action := by
  cases action with
  | accept => simp [lostIn, Fresh, ReportsOnce]
  | receive conn pkt => simp [lostIn, Fresh, ReportsOnce]
  | sendToClient conn pkt => exact fresh_foundClosed_iff departed
  | sendToAll pkt ignore_client =>
      exact iff_of_true (fresh_listed wf distinct departed) trivial
  | process owned =>
      rcases owned with ⟨owner, pkt⟩
      have queue := head_of_step_process step
      rcases wf.queue _ (List.mem_of_mem_head? queue) with ⟨⟨conn, -, rfl⟩, -⟩
      have departed : server.popped.Departed env :=
        ⟨departed.areCreated, departed.closed, departed.unlisted⟩
      have keyed : server.popped.Keyed := keyed
      have served : server.ReportsOnce env (.process ⟨some conn, pkt⟩) ↔
          server.popped.HandledOnce env conn pkt.header.cmdID := by
        simp [ReportsOnce]
      rw [served]
      change server.popped.Fresh (server.popped.lostBy env conn pkt.header.cmdID) ↔ _
      cases pkt.header.cmdID with
      | Ping => exact fresh_foundClosed_iff departed
      | SelfEnterWorld => exact fresh_enters_iff departed keyed
      | MessageAll => exact iff_of_true (fresh_listed wf.popped distinct departed) trivial
      | _ => exact iff_of_true (by simp [lostBy, Fresh]) trivial

structure Recorded (env : Environment) (m_IDCnt : UInt32) (server : Server) : Prop where
  wf : server.WellFormed
  registered : server.Registered m_IDCnt
  departed : server.Departed env
  keyed : server.Keyed

theorem recorded_start (env : Environment) (m_IDCnt : UInt32) (m_sID : ConnRef → UInt32) :
    (start m_IDCnt m_sID).Recorded env m_IDCnt where
  wf := wellFormed_start m_IDCnt m_sID
  registered := registered_start m_IDCnt m_sID
  departed := departed_start env m_IDCnt m_sID
  keyed := keyed_start m_IDCnt m_sID

theorem Recorded.step {m_IDCnt : UInt32} {server next : Server} {action : Action}
    (recorded : server.Recorded env m_IDCnt) (step : Step env server action next) :
    next.Recorded env m_IDCnt where
  wf := recorded.wf.step step
  registered := recorded.registered.step recorded.wf step
  departed := recorded.departed.step recorded.wf recorded.registered.distinct step
  keyed := recorded.keyed.step recorded.wf recorded.registered.distinct step

theorem recorded_of_trace {m_IDCnt : UInt32} {m_sID : ConnRef → UInt32} {server : Server}
    {actions : List Action} (trace : Trace (Step env) (start m_IDCnt m_sID) actions server) :
    server.Recorded env m_IDCnt :=
  trace.invariant (fun _ _ _ recorded step => recorded.step step)
    (recorded_start env m_IDCnt m_sID)

theorem Recorded.nodup_removed_iff {m_IDCnt : UInt32} {server next : Server} {action : Action}
    (recorded : server.Recorded env m_IDCnt) (once : server.removed.Nodup)
    (step : Step env server action next) :
    next.removed.Nodup ↔ server.ReportsOnce env action := by
  rw [Server.nodup_removed_iff recorded.wf recorded.registered.distinct step once]
  exact fresh_lostIn_iff recorded.wf recorded.registered.distinct recorded.departed
    recorded.keyed step

/-- In a run that handles no packet of a connection that was reported, sends nothing
to one and tells none, and whose connections enter while they are open, each
disconnect is reported once; and after one more step that is so exactly if this
step is such a step too. -/
theorem reported_once_iff {m_IDCnt : UInt32} {m_sID : ConnRef → UInt32} {server : Server}
    {actions : List Action}
    (trace : Trace (StepWhere (Step env) (ReportsOnce env)) (start m_IDCnt m_sID)
      actions server) :
    server.removed.Nodup ∧ ∀ action next, Step env server action next →
      (next.removed.Nodup ↔ server.ReportsOnce env action) := by
  have always : ∀ current action next, Recorded env m_IDCnt current →
      Step env current action next → Recorded env m_IDCnt next :=
    fun _ _ _ recorded step => recorded.step step
  have preserved : ∀ current action next, Recorded env m_IDCnt current →
      current.removed.Nodup → current.ReportsOnce env action → Step env current action next →
      next.removed.Nodup :=
    fun _ _ _ recorded once reportsOnce step =>
      (recorded.nodup_removed_iff once step).mpr reportsOnce
  rcases trace.invariant_where always preserved (recorded_start env m_IDCnt m_sID)
    List.nodup_nil with ⟨recorded, once⟩
  exact ⟨once, fun action next step => recorded.nodup_removed_iff once step⟩

theorem reported_once_iff_one_closed :
    let env := Environment.closing 0 4
    let actions : List Action := [.accept, .accept, .sendToAll acceptPacket none]
    ∃ server next,
      Trace (StepWhere (Step env) (ReportsOnce env)) (start 5 fun _ => 0) actions server ∧
      server.removed = [0] ∧ Step env server (.sendToClient 0 acceptPacket) next ∧
      (next.removed.Nodup ↔ 0 ∉ server.removed) := by
  intro env actions
  have runs : ∃ server ∈ runSteps (stepWhere (step env) (ReportsOnce env))
      (start 5 fun _ => 0) actions,
      server.removed = [0] ∧ (server.step env (.sendToClient 0 acceptPacket)).isSome := by
    decide
  rcases runs with ⟨server, reaches, removed, sends⟩
  rcases Option.isSome_iff_exists.mp sends with ⟨next, step⟩
  have trace := Trace.of_runStepsWhere reaches
  exact ⟨server, next, trace, removed, step, (reported_once_iff trace).2 _ next step⟩

/-- Two pings of a connection are in the queue when it closes. -/
theorem reported_by_each_ping :
    let env := Environment.closing 0 2
    let ping := emptyPacket .Ping <<< (0 : Int64)
    let actions : List Action := [.accept, .receive 0 ping, .receive 0 ping,
      .process ⟨some 0, ping⟩, .process ⟨some 0, ping⟩]
    ∃ server, Trace (Step env) (start 5 fun _ => 0) actions server ∧
      server.removed = [0, 0] ∧ ¬server.removed.Nodup := by
  intro env ping actions
  have runs : ∃ server ∈ runSteps (step env) (start 5 fun _ => 0) actions,
      server.removed = [0, 0] := by
    decide
  rcases runs with ⟨server, reaches, removed⟩
  refine ⟨server, Trace.of_run reaches, removed, ?_⟩
  rw [removed]
  decide

end GNL.Server
