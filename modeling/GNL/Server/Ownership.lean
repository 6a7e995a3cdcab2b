import GNL.Server.Handling

/-! # Whose character an entry is

A connection is known by a 32-bit ID, and its character is kept under the low 16
bits of it, but looked for and removed under all 32. While no ID is handed out
twice and no connection enters the world with an ID that does not fit, the entry
under a key belongs to the connection whose ID the key is, and to no other.
-/

namespace GNL.Server

variable {env : Environment}

/-- An action that does not confuse two connections: an accept hands out an ID
that no connection has, and a connection enters the world with an ID below 2 ^ 16. -/
def Identifiable (server : Server) : Action → Prop
  | .accept => ∀ conn < server.created, server.m_sID conn ≠ server.m_IDCnt
  | .process owned => owned.pkt.header.cmdID = .SelfEnterWorld →
      ∀ conn ∈ owned.connectionPtr, (server.m_sID conn).toNat < 2 ^ 16
  | _ => True

instance (server : Server) (action : Action) : Decidable (server.Identifiable action) := by
  unfold Identifiable
  split <;> infer_instance

def Distinct (server : Server) : Prop :=
  ∀ first < server.created, ∀ second < server.created,
    server.m_sID first = server.m_sID second → first = second

structure Identified (server : Server) : Prop where
  distinct : server.Distinct
  keys : ∀ key cha conn, server.m_chaMap.lookup key = some cha →
    cha.m_TCPConnection = some conn → server.m_sID conn = key

theorem identified_start (m_IDCnt : UInt32) (m_sID : ConnRef → UInt32) :
    (start m_IDCnt m_sID).Identified where
  distinct first isCreated := absurd isCreated (Nat.not_lt_zero first)
  keys key cha conn found := by simp [start] at found

namespace Identified

theorem sent {Sends : Packet CMD → Prop} {before after : Server}
    (identified : before.Identified) (sent : Sent env Sends before after) :
    after.Identified where
  distinct := by
    rw [Distinct, sent.created, sent.m_sID]
    exact identified.distinct
  keys key cha conn found := by
    rw [sent.m_sID]
    exact identified.keys key cha conn (sent.lookup_eq_some found)

theorem accepted {server : Server} (identified : server.Identified) (wf : server.WellFormed)
    (fresh : ∀ conn < server.created, server.m_sID conn ≠ server.m_IDCnt) :
    server.accepted.Identified where
  distinct first firstCreated second secondCreated same := by
    have old : ∀ conn, conn ≠ server.created → server.accepted.m_sID conn = server.m_sID conn :=
      fun conn isOld => Function.update_of_ne isOld _ _
    have new : server.accepted.m_sID server.created = server.m_IDCnt := Function.update_self ..
    have older : ∀ conn < server.accepted.created, conn ≠ server.created →
        conn < server.created := fun conn isCreated isOld =>
      Nat.lt_of_le_of_ne (Nat.le_of_lt_succ isCreated) isOld
    by_cases firstNew : first = server.created
    · by_cases secondNew : second = server.created
      · rw [firstNew, secondNew]
      · rw [firstNew, new, old second secondNew] at same
        exact absurd same.symm (fresh second (older second secondCreated secondNew))
    · by_cases secondNew : second = server.created
      · rw [secondNew, new, old first firstNew] at same
        exact absurd same (fresh first (older first firstCreated firstNew))
      · rw [old first firstNew, old second secondNew] at same
        exact identified.distinct first (older first firstCreated firstNew) second
          (older second secondCreated secondNew) same
  keys key cha conn found isOwner := by
    have old : server.accepted.m_sID conn = server.m_sID conn :=
      Function.update_of_ne (Nat.ne_of_lt (wf.owner_lt found isOwner)) _ _
    rw [old]
    exact identified.keys key cha conn found isOwner

theorem key_of_fits {server : Server} {conn : ConnRef}
    (fits : (server.m_sID conn).toNat < 2 ^ 16) :
    (server.newCharacter conn).GetID.toUInt32 = server.m_sID conn := by
  apply UInt32.toNat_inj.mp
  simp only [newCharacter, Character.SetID, Character.SetTCPConnection, Character.SetWorld,
    Character.GetID, UInt16.toNat_toUInt32, UInt32.toNat_toUInt16]
  exact Nat.mod_eq_of_lt fits

theorem enters {server : Server} (identified : server.Identified) {conn : ConnRef}
    (fits : (server.m_sID conn).toNat < 2 ^ 16) :
    { server with m_chaMap := server.entered conn }.Identified where
  distinct := identified.distinct
  keys key cha owner found isOwner := by
    rcases ChaMap.lookup_AddChaToWorld found with before | ⟨rfl, rfl⟩
    · exact identified.keys key cha owner before isOwner
    · cases isOwner
      exact (key_of_fits fits).symm

theorem moves {server : Server} (identified : server.Identified) {conn : ConnRef}
    {cha : Character} (found : server.m_chaMap.lookup (server.m_sID conn) = some cha)
    (x y : Double) : { server with m_chaMap := server.moved conn cha x y }.Identified where
  distinct := identified.distinct
  keys key other owner lookup isOwner := by
    rw [lookup_moved] at lookup
    split at lookup
    next same =>
      cases lookup
      rw [same]
      exact identified.keys _ cha owner found isOwner
    next => exact identified.keys key other owner lookup isOwner

theorem step {server next : Server} {action : Action} (identified : server.Identified)
    (wf : server.WellFormed) (step : Step env server action next)
    (identifiable : server.Identifiable action) : next.Identified := by
  cases step_cases wf step with
  | accept isOpen => exact identified.accepted wf identifiable
  | receive conn pkt reading fits => exact ⟨identified.distinct, identified.keys⟩
  | process conn pkt _ isCreated fits queue longEnough handles =>
      have popped : server.popped.Identified := ⟨identified.distinct, identified.keys⟩
      cases handles with
      | sends _ sent => exact popped.sent sent
      | enters cmdID sent => exact (popped.enters (identifiable cmdID conn rfl)).sent sent
      | moves _ cha x y found sent => exact (popped.moves found x y).sent sent
  | sendToClient conn pkt _ sent => exact identified.sent sent
  | sendToAll pkt ignore_client _ sent => exact identified.sent sent

end Identified

theorem identified_of_trace {m_IDCnt : UInt32} {m_sID : ConnRef → UInt32} {server : Server}
    {actions : List Action}
    (trace : Trace (StepWhere (Step env) Identifiable) (start m_IDCnt m_sID) actions server) :
    server.WellFormed ∧ server.Identified := by
  have preserved : ∀ current action next, WellFormed current → Identified current →
      Identifiable current action → Step env current action next → Identified next :=
    fun _ _ _ wf identified identifiable step => identified.step wf step identifiable
  exact trace.invariant_where (wellFormed_preserved env) preserved
    (wellFormed_start m_IDCnt m_sID) (identified_start m_IDCnt m_sID)

def Action.actor : Action → Option ConnRef
  | .process owned => owned.connectionPtr
  | _ => none

theorem Distinct.lookup_sent {Sends : Packet CMD → Prop} {before after : Server}
    (distinct : before.Distinct) (sent : Sent env Sends before after) {conn : ConnRef}
    (isCreated : conn < before.created) (isOpen : env.isOpen after.tick conn = true) :
    after.m_chaMap.lookup (before.m_sID conn) = before.m_chaMap.lookup (before.m_sID conn) := by
  apply sent.lookup_of_open
  intro other otherCreated same
  rw [distinct other otherCreated conn isCreated same]
  exact isOpen

theorem entry_kept {server next : Server} {action : Action} (wf : server.WellFormed)
    (identified : server.Identified) (step : Step env server action next) {key : UInt32}
    {cha : Character} {owner : ConnRef} (found : server.m_chaMap.lookup key = some cha)
    (isOwner : cha.m_TCPConnection = some owner) (isOpen : env.isOpen next.tick owner = true) :
    ∃ after, next.m_chaMap.lookup key = some after ∧ after.m_TCPConnection = some owner ∧
      (action.actor ≠ some owner → after = cha) := by
  have isCreated := wf.owner_lt found isOwner
  have isKey := identified.keys key cha owner found isOwner
  subst isKey
  have distinct := identified.distinct
  cases step_cases wf step with
  | accept => exact ⟨cha, found, isOwner, fun _ => rfl⟩
  | receive conn pkt reading fits => exact ⟨cha, found, isOwner, fun _ => rfl⟩
  | process conn pkt _ connCreated fits queue longEnough handles =>
      cases handles with
      | sends _ sent =>
          have inside : server.popped.Distinct := distinct
          exact ⟨cha, (inside.lookup_sent sent isCreated isOpen).trans found, isOwner,
            fun _ => rfl⟩
      | enters cmdID sent =>
          have inside : { server.popped with
              m_chaMap := server.popped.entered conn }.Distinct := distinct
          have stays : (server.popped.entered conn).lookup (server.m_sID owner) = some cha :=
            ChaMap.lookup_AddChaToWorld_of_some found
          exact ⟨cha, (inside.lookup_sent sent isCreated isOpen).trans stays, isOwner,
            fun _ => rfl⟩
      | moves _ moving x y foundMoving sent =>
          have inside : { server.popped with
              m_chaMap := server.popped.moved conn moving x y }.Distinct := distinct
          have after := inside.lookup_sent sent isCreated isOpen
          have lookup : (server.popped.moved conn moving x y).lookup (server.m_sID owner) =
              if server.m_sID owner = server.m_sID conn then some { moving with pos := (x, y) }
              else server.m_chaMap.lookup (server.m_sID owner) := lookup_moved _
          by_cases same : server.m_sID owner = server.m_sID conn
          · -- The IDs are the same, so the connection that moves is the owner.
            have isActor := distinct owner isCreated conn connCreated same
            subst isActor
            cases found.symm.trans foundMoving
            rw [if_pos rfl] at lookup
            exact ⟨{ cha with pos := (x, y) }, after.trans lookup, isOwner,
              fun other => absurd rfl other⟩
          · rw [if_neg same] at lookup
            exact ⟨cha, after.trans (lookup.trans found), isOwner, fun _ => rfl⟩
  | sendToClient conn pkt _ sent =>
      exact ⟨cha, (distinct.lookup_sent sent isCreated isOpen).trans found, isOwner,
        fun _ => rfl⟩
  | sendToAll pkt ignore_client _ sent =>
      exact ⟨cha, (distinct.lookup_sent sent isCreated isOpen).trans found, isOwner,
        fun _ => rfl⟩

/-- Nothing another connection sends, and no removal of another, touches the
entry of an open connection. -/
theorem others_untouched {m_IDCnt : UInt32} {m_sID : ConnRef → UInt32} {server next : Server}
    {actions : List Action} {action : Action}
    (trace : Trace (StepWhere (Step env) Identifiable) (start m_IDCnt m_sID) actions server)
    (step : Step env server action next) (key : UInt32) (cha : Character) (owner : ConnRef)
    (found : server.m_chaMap.lookup key = some cha)
    (isOwner : cha.m_TCPConnection = some owner) (different : action.actor ≠ some owner)
    (isOpen : env.isOpen next.tick owner = true) :
    next.m_chaMap.lookup key = some cha := by
  rcases identified_of_trace trace with ⟨wf, identified⟩
  rcases entry_kept wf identified step found isOwner isOpen with ⟨after, lookup, -, same⟩
  rw [lookup, same different]

theorem others_untouched_two_players :
    let enter := emptyPacket .SelfEnterWorld
    let move := emptyPacket .MovePlayer <<< (5 : UInt16) <<< Double.mk 1 <<< Double.mk 2
    let actions : List Action := [.accept, .accept, .receive 0 enter, .process ⟨some 0, enter⟩,
      .receive 1 enter, .process ⟨some 1, enter⟩, .receive 0 move]
    ∃ server next cha,
      Trace (StepWhere (Step Environment.calm) Identifiable) (start 5 fun _ => 0) actions server ∧
      Step Environment.calm server (.process ⟨some 0, move⟩) next ∧
      server.m_chaMap.lookup 6 = some cha ∧ next.m_chaMap.lookup 6 = some cha := by
  intro enter move actions
  have runs : ∃ server ∈ runSteps (stepWhere (step Environment.calm) Identifiable)
      (start 5 fun _ => 0) actions,
      (∃ cha ∈ server.m_chaMap.lookup 6, cha.m_TCPConnection = some 1) ∧
        (server.step Environment.calm (.process ⟨some 0, move⟩)).isSome := by
    decide
  rcases runs with ⟨server, reaches, ⟨cha, found, isOwner⟩, moves⟩
  rcases Option.isSome_iff_exists.mp moves with ⟨next, isNext⟩
  have trace := Trace.of_runStepsWhere reaches
  exact ⟨server, next, cha, trace, isNext, found,
    others_untouched trace isNext 6 cha 1 found isOwner (by decide) rfl⟩

structure Crowd (m_IDCnt : UInt32) (count : Nat) (server : Server) : Prop where
  created : server.created = count
  ids : ∀ conn < count, server.m_sID conn = m_IDCnt + UInt32.ofNat conn
  next : server.m_IDCnt = m_IDCnt + UInt32.ofNat count
  reading : ∀ conn < count, conn ∈ server.reading
  queue : server.m_TCP_PktIn = []
  chaMap : server.m_chaMap = ∅

theorem exists_crowd (m_IDCnt : UInt32) (m_sID : ConnRef → UInt32) (count : Nat) :
    ∃ server, Trace (Step Environment.calm) (start m_IDCnt m_sID)
      (List.replicate count .accept) server ∧ Crowd m_IDCnt count server := by
  induction count with
  | zero =>
      refine ⟨start m_IDCnt m_sID, .nil _, rfl, ?_, ?_, ?_, rfl, rfl⟩
      · exact fun conn isCreated => absurd isCreated (Nat.not_lt_zero conn)
      · simp [start]
      · exact fun conn isCreated => absurd isCreated (Nat.not_lt_zero conn)
  | succ count induction =>
      rcases induction with ⟨server, trace, crowd⟩
      have accepts : Step Environment.calm server .accept server.accepted := by
        have isAccepted : server.onAccept Environment.calm = .ok server.accepted :=
          onAccept_of_open rfl
        rw [Step, Server.step, isAccepted]
        rfl
      refine ⟨server.accepted, ?_, ?_, ?_, ?_, ?_, crowd.queue, crowd.chaMap⟩
      · rw [List.replicate_succ']
        exact trace.snoc accepts
      · exact congrArg Nat.succ crowd.created
      · intro conn isCreated
        have ids : server.accepted.m_sID = Function.update server.m_sID count server.m_IDCnt := by
          rw [← crowd.created]
          rfl
        rw [ids]
        by_cases isLast : conn = count
        · rw [isLast, Function.update_self, crowd.next]
        · rw [Function.update_of_ne isLast]
          exact crowd.ids conn (Nat.lt_of_le_of_ne (Nat.le_of_lt_succ isCreated) isLast)
      · rw [UInt32.ofNat_add, ← UInt32.add_assoc, ← crowd.next]
        rfl
      · intro conn isCreated
        have reading : server.accepted.reading = server.reading ++ [count] := by
          rw [← crowd.created]
          rfl
        rw [reading, List.mem_append, List.mem_singleton]
        rcases Nat.lt_succ_iff_lt_or_eq.mp isCreated with isOld | isLast
        · exact .inl (crowd.reading conn isOld)
        · exact .inr isLast

theorem lookup_sent_of_calm {Sends : Packet CMD → Prop} {before after : Server}
    (sent : Sent Environment.calm Sends before after) (key : UInt32) :
    after.m_chaMap.lookup key = before.m_chaMap.lookup key :=
  sent.lookup_of_open fun _ _ _ => rfl

/-- The connections 0 and 65536 have IDs that agree in their low 16 bits. The
second enters the world, and a move of the first moves its character. -/
theorem moved_by_another :
    let enter := emptyPacket .SelfEnterWorld
    let move := emptyPacket .MovePlayer <<< (5 : UInt16) <<< Double.mk 1 <<< Double.mk 2
    let actions : List Action := List.replicate 65537 .accept ++
      [.receive 65536 enter, .process ⟨some 65536, enter⟩, .receive 0 move]
    ∃ server next before after,
      Trace (Step Environment.calm) (start 5 fun _ => 0) actions server ∧
      Step Environment.calm server (.process ⟨some 0, move⟩) next ∧
      Environment.calm.isOpen next.tick 65536 = true ∧
      server.m_chaMap.lookup 5 = some before ∧ before.m_TCPConnection = some 65536 ∧
      next.m_chaMap.lookup 5 = some after ∧ after.pos ≠ before.pos := by
  intro enter move actions
  rcases exists_crowd 5 (fun _ => 0) 65537 with ⟨crowded, trace, crowd⟩
  have wf := wellFormed_of_trace trace
  have firstID : crowded.m_sID 0 = 5 := crowd.ids 0 (by omega)
  have lastID : crowded.m_sID 65536 = 65541 := crowd.ids 65536 (by omega)
  let queued := crowded.received 65536 enter
  have receivesEnter : Step Environment.calm crowded (.receive 65536 enter) queued :=
    if_pos ⟨crowd.reading 65536 (by omega), by decide⟩
  have wfQueued := wf.step receivesEnter
  have enterFirst : queued.m_TCP_PktIn = [⟨some 65536, enter⟩] := by
    simp [queued, received, crowd.queue]
  rcases exists_process Environment.calm wfQueued (congrArg List.head? enterFirst) trivial with
    ⟨inside, isInside, handles⟩
  cases handles with
  | sends notEnters => exact absurd rfl notEnters
  | moves isMovePlayer => contradiction
  | enters _ sent =>
      have wfInside := wfQueued.step isInside
      have insideIDs : inside.m_sID = crowded.m_sID := sent.m_sID
      have insideReading : inside.reading = crowded.reading := sent.reading
      have noneLeft : inside.m_TCP_PktIn = [] := by
        rw [sent.m_TCP_PktIn]
        simp [popped, enterFirst]
      have isKey : (crowded.newCharacter 65536).GetID.toUInt32 = 5 := by
        simp only [newCharacter, lastID]
        decide
      have found : inside.m_chaMap.lookup 5 = some (crowded.newCharacter 65536) := by
        rw [lookup_sent_of_calm sent, ← isKey]
        apply ChaMap.lookup_AddChaToWorld_of_notMem
        rw [← AList.lookup_eq_none]
        exact crowd.chaMap ▸ rfl
      have receivesMove :
          Step Environment.calm inside (.receive 0 move) (inside.received 0 move) := by
        refine if_pos ⟨?_, by decide⟩
        rw [insideReading]
        exact crowd.reading 0 (by omega)
      have wfMoving := wfInside.step receivesMove
      have moveFirst : (inside.received 0 move).m_TCP_PktIn = [⟨some 0, move⟩] := by
        simp [received, noneLeft]
      have sameID : (inside.received 0 move).m_sID 0 = 5 := (congrFun insideIDs 0).trans firstID
      have foundMoving : (inside.received 0 move).m_chaMap.lookup
          ((inside.received 0 move).m_sID 0) = some (crowded.newCharacter 65536) := by
        rw [sameID]
        exact found
      have extracts : Extracts move 5 (.mk 1) (.mk 2) (emptyPacket .MovePlayer) :=
        ⟨_, _, rfl, rfl, rfl⟩
      have moves := step_move Environment.calm wfMoving (congrArg List.head? moveFirst) rfl
        foundMoving extracts
      have elsewhere : (Double.mk 1, Double.mk 2) ≠ (Double.zero, Double.zero) := by decide
      exact ⟨inside.received 0 move, _, crowded.newCharacter 65536,
        { crowded.newCharacter 65536 with pos := (.mk 1, .mk 2) },
        trace.append (.cons receivesEnter (.cons isInside (.cons receivesMove (.nil _)))),
        moves, rfl, found, rfl, (lookup_moved 5).trans (if_pos sameID.symm), elsewhere⟩

theorem tick_le_of_step {server next : Server} {action : Action} (wf : server.WellFormed)
    (step : Step env server action next) : server.tick ≤ next.tick := by
  cases step_cases wf step with
  | accept => exact Nat.le_add_right _ 2
  | receive => exact Nat.le_refl _
  | process _ _ _ _ _ _ _ handles =>
      cases handles with
      | sends _ sent => exact sent.tick
      | enters _ sent => exact sent.tick
      | moves _ _ _ _ _ sent => exact sent.tick
  | sendToClient _ _ _ sent => exact sent.tick
  | sendToAll _ _ _ sent => exact sent.tick

theorem m_sID_of_step {server next : Server} {action : Action} (wf : server.WellFormed)
    (step : Step env server action next) {conn : ConnRef} (isCreated : conn < server.created) :
    next.m_sID conn = server.m_sID conn := by
  cases step_cases wf step with
  | accept => exact Function.update_of_ne (Nat.ne_of_lt isCreated) _ _
  | receive => rfl
  | process _ _ _ _ _ _ _ handles =>
      cases handles with
      | sends _ sent => exact congrFun sent.m_sID conn
      | enters _ sent => exact congrFun sent.m_sID conn
      | moves _ _ _ _ _ sent => exact congrFun sent.m_sID conn
  | sendToClient _ _ _ sent => exact congrFun sent.m_sID conn
  | sendToAll _ _ _ sent => exact congrFun sent.m_sID conn

def Entered (actions : List Action) (conn : ConnRef) : Prop :=
  ∃ pkt : Packet CMD, pkt.header.cmdID = .SelfEnterWorld ∧
    .process ⟨some conn, pkt⟩ ∈ actions

def Owns (server : Server) (conn : ConnRef) : Prop :=
  ∃ cha, server.m_chaMap.lookup (server.m_sID conn) = some cha ∧
    cha.m_TCPConnection = some conn

theorem Owns.step {server next : Server} {action : Action} {conn : ConnRef}
    (owns : server.Owns conn) (wf : server.WellFormed) (identified : server.Identified)
    (step : Step env server action next) (isOpen : env.isOpen next.tick conn = true) :
    next.Owns conn := by
  rcases owns with ⟨cha, found, isOwner⟩
  rcases entry_kept wf identified step found isOwner isOpen with ⟨after, lookup, stillOwner, -⟩
  rw [← m_sID_of_step wf step (wf.owner_lt found isOwner)] at lookup
  exact ⟨after, lookup, stillOwner⟩

theorem Identified.owns_entered {server : Server} {conn : ConnRef}
    (identified : server.Identified) (wf : server.WellFormed) (isCreated : conn < server.created)
    (fits : (server.m_sID conn).toNat < 2 ^ 16) :
    { server with m_chaMap := server.entered conn }.Owns conn := by
  have isKey := key_of_fits fits
  cases found : server.m_chaMap.lookup (server.m_sID conn) with
  | none =>
      have absent : server.m_sID conn ∉ server.m_chaMap := AList.lookup_eq_none.mp found
      refine ⟨server.newCharacter conn, ?_, rfl⟩
      simp only [entered, isKey]
      exact ChaMap.lookup_AddChaToWorld_of_notMem _ absent
  | some cha =>
      rcases (wf.chaMap _ cha found).owner with ⟨owner, ownerCreated, isOwner⟩
      have same := identified.distinct owner ownerCreated conn isCreated
        (identified.keys _ cha owner found isOwner)
      subst same
      exact ⟨cha, ChaMap.lookup_AddChaToWorld_of_some found, isOwner⟩

theorem owns_of_enters {server next : Server} {conn : ConnRef} {pkt : Packet CMD}
    (wf : server.WellFormed) (identified : server.Identified)
    (step : Step env server (.process ⟨some conn, pkt⟩) next)
    (isSelfEnterWorld : pkt.header.cmdID = .SelfEnterWorld)
    (fits : (server.m_sID conn).toNat < 2 ^ 16) (isOpen : env.isOpen next.tick conn = true) :
    next.Owns conn := by
  cases step_cases wf step with
  | process _ _ _ isCreated _ _ _ handles =>
      have popped : server.popped.Identified := ⟨identified.distinct, identified.keys⟩
      cases handles with
      | sends notEnters _ => exact absurd isSelfEnterWorld notEnters
      | enters _ sent =>
          rcases popped.owns_entered wf.popped isCreated fits with ⟨cha, lookup, isOwner⟩
          have inside : { server.popped with
              m_chaMap := server.popped.entered conn }.Distinct := identified.distinct
          refine ⟨cha, ?_, isOwner⟩
          rw [sent.m_sID]
          exact (inside.lookup_sent sent isCreated isOpen).trans lookup
      | moves isMovePlayer =>
          rw [isSelfEnterWorld] at isMovePlayer
          contradiction

/-- Every connection that entered and is still open finds its own character, so
no two of them share one. -/
theorem entered_owns {m_IDCnt : UInt32} {m_sID : ConnRef → UInt32} {server : Server}
    {actions : List Action}
    (trace : Trace (StepWhere (Step env) Identifiable) (start m_IDCnt m_sID) actions server) :
    (∀ conn, Entered actions conn → env.isOpen server.tick conn = true → server.Owns conn) ∧
      ∀ first second, Entered actions first → Entered actions second →
        env.isOpen server.tick first = true → env.isOpen server.tick second = true →
        server.m_sID first = server.m_sID second → first = second := by
  have owns : ∀ conn, Entered actions conn → env.isOpen server.tick conn = true →
      server.Owns conn := by
    apply Trace.snoc_induction (motive := fun actions server => ∀ conn, Entered actions conn →
      env.isOpen server.tick conn = true → server.Owns conn) _ _ trace
    · rintro conn ⟨pkt, -, member⟩
      simp at member
    · intro before middle action next front owns step conn hasEntered isOpen
      rcases identified_of_trace front with ⟨wf, identified⟩
      rcases hasEntered with ⟨pkt, isSelfEnterWorld, member⟩
      rcases List.mem_append.mp member with earlier | isLast
      · have openBefore := env.closed_stays_closed (tick_le_of_step wf step.1) isOpen
        exact (owns conn ⟨pkt, isSelfEnterWorld, earlier⟩ openBefore).step wf identified step.1
          isOpen
      · cases List.mem_singleton.mp isLast
        exact owns_of_enters wf identified step.1 isSelfEnterWorld
          (step.2 isSelfEnterWorld conn rfl) isOpen
  refine ⟨owns, ?_⟩
  intro first second firstEntered secondEntered firstOpen secondOpen same
  rcases owns first firstEntered firstOpen with ⟨firstCha, firstFound, firstOwner⟩
  rcases owns second secondEntered secondOpen with ⟨secondCha, secondFound, secondOwner⟩
  rw [same, secondFound] at firstFound
  cases firstFound
  exact Option.some.inj (firstOwner.symm.trans secondOwner)

theorem entered_owns_two_players :
    let enter := emptyPacket .SelfEnterWorld
    let actions : List Action := [.accept, .accept, .receive 0 enter, .process ⟨some 0, enter⟩,
      .receive 1 enter, .process ⟨some 1, enter⟩]
    ∃ server, Trace (StepWhere (Step Environment.calm) Identifiable) (start 5 fun _ => 0)
      actions server ∧ server.Owns 0 ∧ server.Owns 1 := by
  intro enter actions
  have runs : (runSteps (stepWhere (step Environment.calm) Identifiable)
      (start 5 fun _ => 0) actions).isSome := by
    decide
  rcases Option.isSome_iff_exists.mp runs with ⟨server, reaches⟩
  have trace := Trace.of_runStepsWhere reaches
  have owns := (entered_owns trace).1
  exact ⟨server, trace, owns 0 ⟨enter, rfl, by simp [actions]⟩ rfl,
    owns 1 ⟨enter, rfl, by simp [actions]⟩ rfl⟩

/-- A connection with the ID 65536 enters with a character under the key 0, and
nothing is found under its own ID. -/
theorem entered_under_other_key :
    let enter := emptyPacket .SelfEnterWorld
    let actions : List Action := [.accept, .receive 0 enter, .process ⟨some 0, enter⟩]
    ∃ server, Trace (Step Environment.calm) (start 65536 fun _ => 0) actions server ∧
      Entered actions 0 ∧ Environment.calm.isOpen server.tick 0 = true ∧
      server.m_chaMap.lookup (server.m_sID 0) = none ∧ ¬server.Owns 0 := by
  intro enter actions
  have runs : ∃ server ∈ runSteps (step Environment.calm) (start 65536 fun _ => 0) actions,
      server.m_chaMap.lookup (server.m_sID 0) = none := by
    decide
  rcases runs with ⟨server, reaches, missing⟩
  refine ⟨server, Trace.of_run reaches,
    ⟨enter, rfl, by simp [actions]⟩, rfl, missing, ?_⟩
  rintro ⟨cha, found, -⟩
  rw [missing] at found
  contradiction

end GNL.Server
