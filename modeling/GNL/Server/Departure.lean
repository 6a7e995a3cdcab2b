import GNL.Server.Ownership
import GNL.Server.Registry

/-! # Connections that were dropped

Packets of a dropped connection stay in the incoming queue and are handled later.
One that enters the world puts a character of the dead connection there, until the
sends of the same handler find the connection closed and drop it once more.
-/

namespace GNL.Server

variable {env : Environment}

structure Departed (env : Environment) (server : Server) : Prop where
  areCreated : ∀ conn ∈ server.removed, conn < server.created
  closed : ∀ conn ∈ server.removed, env.isOpen server.tick conn = false
  unlisted : ∀ conn ∈ server.removed, some conn ∉ server.m_TCPConnections

theorem departed_start (env : Environment) (m_IDCnt : UInt32) (m_sID : ConnRef → UInt32) :
    (start m_IDCnt m_sID).Departed env where
  areCreated := by simp [start]
  closed := by simp [start]
  unlisted := by simp [start]

theorem Departed.step {server next : Server} {action : Action} (departed : server.Departed env)
    (wf : server.WellFormed) (distinct : server.m_TCPConnections.Nodup)
    (step : Step env server action next) : next.Departed env := by
  have removed := removed_of_step wf distinct step
  rcases step_drops wf distinct step with ⟨prepared, prepares, drops⟩
  refine ⟨?_, ?_, ?_⟩
  · intro conn member
    rw [drops.created]
    rw [removed] at member
    rcases List.mem_append.mp member with before | isLost
    · exact Nat.lt_of_lt_of_le (departed.areCreated conn before) prepares.created_le
    · exact drops.areCreated conn isLost
  · intro conn member
    rw [removed] at member
    rcases List.mem_append.mp member with before | isLost
    · exact closed_mono (prepares.tick_le.trans drops.tick) (departed.closed conn before)
    · exact drops.closed conn isLost
  · intro conn member isListed
    rcases (drops.m_TCPConnections _).mp isListed with ⟨wasListed, notLost⟩
    rw [removed] at member
    rcases List.mem_append.mp member with before | isLost
    · rcases prepares.mem_m_TCPConnections wasListed with inServer | ⟨-, isNew⟩
      · exact departed.unlisted conn before inServer
      · cases isNew
        exact Nat.lt_irrefl _ (departed.areCreated _ before)
    · exact notLost conn isLost rfl

def Numbered (server : Server) : Action → Prop
  | .accept => (∀ conn < server.created, server.m_sID conn ≠ server.m_IDCnt) ∧
      server.m_IDCnt.toNat < 2 ^ 16
  | _ => True

instance (server : Server) : DecidablePred server.Numbered
  | .accept => inferInstanceAs (Decidable (_ ∧ _))
  | .receive _ _ => isTrue trivial
  | .process _ => isTrue trivial
  | .sendToClient _ _ => isTrue trivial
  | .sendToAll _ _ => isTrue trivial

/-- While the IDs handed out are distinct and fit, a dropped connection owns
nothing in the world. -/
structure Gone (env : Environment) (server : Server) : Prop where
  fits : ∀ conn < server.created, (server.m_sID conn).toNat < 2 ^ 16
  identified : server.Identified
  departed : server.Departed env
  ownsNothing : ∀ conn ∈ server.removed, ∀ key cha, server.m_chaMap.lookup key = some cha →
    cha.m_TCPConnection ≠ some conn

theorem mem_lostIn_of_enters {server : Server} {conn : ConnRef} {pkt : Packet CMD}
    (cmdID : pkt.header.cmdID = .SelfEnterWorld) (closed : env.isOpen server.tick conn = false) :
    conn ∈ server.lostIn env (.process ⟨some conn, pkt⟩) := by
  have isLost : conn ∈ server.popped.lostBy env conn .SelfEnterWorld := by
    rw [lostBy, mem_foundClosed]
    refine ⟨((server.popped.inside conn).notified env).length, by simp, closed_mono ?_ closed⟩
    exact Nat.le_add_right_of_le (Nat.le_succ _)
  simp only [lostIn, Option.elim, cmdID]
  exact isLost

theorem gone_start (env : Environment) (m_IDCnt : UInt32) (m_sID : ConnRef → UInt32) :
    (start m_IDCnt m_sID).Gone env where
  fits conn isCreated := absurd isCreated (Nat.not_lt_zero conn)
  identified := identified_start m_IDCnt m_sID
  departed := departed_start env m_IDCnt m_sID
  ownsNothing := by simp [start]

theorem Gone.identifiable {server : Server} {action : Action} (gone : server.Gone env)
    (wf : server.WellFormed) (numbered : server.Numbered action)
    (possible : server.Possible env action) : server.Identifiable action := by
  cases action with
  | accept => exact numbered.1
  | process owned =>
      intro _ conn isOwner
      rcases wf.queue _ (List.mem_of_mem_head? possible) with ⟨⟨_, isCreated, same⟩, -⟩
      cases isOwner.symm.trans same
      exact gone.fits conn isCreated
  | _ => exact trivial

theorem Gone.fits_step {server next : Server} {action : Action} (gone : server.Gone env)
    (wf : server.WellFormed) (distinct : server.m_TCPConnections.Nodup)
    (numbered : server.Numbered action) (step : Step env server action next) :
    ∀ conn < next.created, (next.m_sID conn).toNat < 2 ^ 16 := by
  rcases step_drops wf distinct step with ⟨prepared, prepares, drops⟩
  rw [drops.created, drops.m_sID]
  cases prepares with
  | accept =>
      intro conn isCreated
      rcases Nat.lt_succ_iff_lt_or_eq.mp isCreated with isOld | rfl
      · have old : server.accepted.m_sID conn = server.m_sID conn :=
          Function.update_of_ne (Nat.ne_of_lt isOld) _ _
        rw [old]
        exact gone.fits conn isOld
      · have new : server.accepted.m_sID server.created = server.m_IDCnt :=
          Function.update_self ..
        rw [new]
        exact numbered.2
  | _ => exact gone.fits

theorem Gone.step {server next : Server} {action : Action} (gone : server.Gone env)
    (wf : server.WellFormed) (distinct : server.m_TCPConnections.Nodup)
    (numbered : server.Numbered action) (step : Step env server action next) : next.Gone env := by
  have possible := (step_iff.mp step).1
  have identified := gone.identified.step wf step (gone.identifiable wf numbered possible)
  rcases step_drops wf distinct step with ⟨prepared, prepares, drops⟩
  refine ⟨gone.fits_step wf distinct numbered step, identified,
    gone.departed.step wf distinct step, ?_⟩
  · intro conn member key cha found isOwner
    have isKey := identified.keys key cha conn found isOwner
    rw [drops.m_sID] at isKey
    rw [drops.m_chaMap] at found
    split at found
    · contradiction
    next kept =>
      have notLost : conn ∉ server.lostIn env action := fun isLost =>
        kept (List.mem_map.mpr ⟨conn, isLost, isKey⟩)
      rw [removed_of_step wf distinct step] at member
      have before := (List.mem_append.mp member).resolve_right notLost
      rcases prepares.owner found with ⟨earlier, foundEarlier, sameOwner⟩ |
        ⟨actor, pkt, rfl, cmdID, -, isActor⟩
      · exact gone.ownsNothing conn before key earlier foundEarlier (sameOwner.trans isOwner)
      · cases isActor.symm.trans isOwner
        exact notLost (mem_lostIn_of_enters cmdID (gone.departed.closed conn before))

theorem gone_of_trace {m_IDCnt : UInt32} {m_sID : ConnRef → UInt32} {server : Server}
    {actions : List Action}
    (trace : Trace (StepWhere (Step env) Numbered) (start m_IDCnt m_sID) actions server) :
    server.Gone env := by
  have always : ∀ current action next, current.WellFormed ∧ current.Registered m_IDCnt →
      Step env current action next → next.WellFormed ∧ next.Registered m_IDCnt :=
    fun _ _ _ both step => ⟨both.1.step step, both.2.step both.1 step⟩
  have preserved : ∀ current action next, current.WellFormed ∧ current.Registered m_IDCnt →
      current.Gone env → current.Numbered action → Step env current action next →
      next.Gone env :=
    fun _ _ _ both gone numbered step => gone.step both.1 both.2.distinct numbered step
  exact (trace.invariant_where always preserved
    ⟨wellFormed_start m_IDCnt m_sID, registered_start m_IDCnt m_sID⟩
    (gone_start env m_IDCnt m_sID)).2

theorem removed_subset {m_IDCnt : UInt32} {server next : Server} {actions : List Action}
    (wf : server.WellFormed) (registered : server.Registered m_IDCnt)
    (trace : Trace (Step env) server actions next) : server.removed ⊆ next.removed := by
  induction trace with
  | nil => exact List.Subset.refl _
  | @cons current middle _ action _ step _ induction =>
      have kept : current.removed ⊆ middle.removed := by
        rw [removed_of_step wf registered.distinct step]
        exact List.subset_append_left _ _
      exact List.Subset.trans kept (induction (wf.step step) (registered.step wf step))

/-- Once a connection was dropped it is not in the list and owns no character,
after every later step. -/
theorem dropped_stays_away {m_IDCnt : UInt32} {m_sID : ConnRef → UInt32}
    {middle server : Server} {before after : List Action}
    (front : Trace (StepWhere (Step env) Numbered) (start m_IDCnt m_sID) before middle)
    (back : Trace (StepWhere (Step env) Numbered) middle after server) (conn : ConnRef)
    (removed : conn ∈ middle.removed) :
    (∀ key cha, server.m_chaMap.lookup key = some cha → cha.m_TCPConnection ≠ some conn) ∧
      some conn ∉ server.m_TCPConnections := by
  have gone := gone_of_trace (front.append back)
  rcases registered_of_trace front.unconditional with ⟨wf, registered⟩
  have stillRemoved := removed_subset wf registered back.unconditional removed
  exact ⟨gone.ownsNothing conn stillRemoved, gone.departed.unlisted conn stillRemoved⟩

/-- The first connection closes with a packet in the queue, is dropped by a message
to all, and then enters the world. -/
theorem dropped_stays_away_enters_later :
    let enter := emptyPacket .SelfEnterWorld
    let env := Environment.closing 0 4
    let before : List Action :=
      [.accept, .accept, .receive 0 enter, .sendToAll acceptPacket none]
    ∃ middle server,
      Trace (StepWhere (Step env) Numbered) (start 5 fun _ => 0) before middle ∧
      Trace (StepWhere (Step env) Numbered) middle [.process ⟨some 0, enter⟩] server ∧
      0 ∈ middle.removed ∧ some 0 ∉ server.m_TCPConnections := by
  intro enter env before
  have runs : ∃ middle ∈ runSteps (stepWhere (step env) Numbered) (start 5 fun _ => 0) before,
      0 ∈ middle.removed ∧
        (runSteps (stepWhere (step env) Numbered) middle [.process ⟨some 0, enter⟩]).isSome := by
    decide
  rcases runs with ⟨middle, reaches, removed, handles⟩
  rcases Option.isSome_iff_exists.mp handles with ⟨server, isNext⟩
  have front := Trace.of_runStepsWhere reaches
  have back := Trace.of_runStepsWhere isNext
  exact ⟨middle, server, front, back, removed, (dropped_stays_away front back 0 removed).2⟩

end GNL.Server
