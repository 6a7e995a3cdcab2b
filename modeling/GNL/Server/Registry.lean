import GNL.Server.Losses

/-! # The list of connections

`SendToClient`, `SendToAll` and `OnClientConnect` set the pointers they are given
to null when they find a connection closed. Between the steps of the server
none of that is left: the list holds connections that were given an ID, each once.
-/

namespace GNL.Server

variable {env : Environment}

def Possible (env : Environment) (server : Server) : Action → Prop
  | .accept => env.isOpen (server.tick + 1) server.created = true
  | .receive conn pkt => conn ∈ server.reading ∧ pkt.body.length < 2 ^ 32
  | .process owned => server.m_TCP_PktIn.head? = some owned
  | .sendToClient conn _ => conn ∈ server.reading
  | .sendToAll _ _ => True

/-- The code an action runs, with the faults it can end in. -/
def perform (env : Environment) (server : Server) : Action → Except Fault Server
  | .accept => server.onAccept env
  | .receive conn pkt => .ok (server.received conn pkt)
  | .process owned =>
      (server.popped.OnPacket env owned.connectionPtr owned.pkt).map fun handled => handled.2.2
  | .sendToClient conn pkt => (server.SendToClient env (some conn) pkt).map Prod.snd
  | .sendToAll pkt ignore_client => server.SendToAll env pkt ignore_client

theorem toOption_map (result : Except Fault α) (f : α → β) :
    (result.map f).toOption = result.toOption.map f := by
  cases result <;> rfl

theorem step_iff {server next : Server} {action : Action} :
    Step env server action next ↔
      server.Possible env action ∧ server.perform env action = .ok next := by
  rw [← toOption_eq_some_iff]
  cases action with
  | accept => exact Option.ite_none_right_eq_some
  | receive conn pkt => exact Option.ite_none_right_eq_some
  | process owned =>
      by_cases queue : server.m_TCP_PktIn.head? = some owned
      · simp only [Step, step_process queue, Possible, queue, true_and, perform, toOption_map]
      · constructor
        · exact fun step => absurd (head_of_step_process step) queue
        · exact fun performed => absurd performed.1 queue
  | sendToClient conn pkt =>
      simp only [Step, step, Possible, perform, toOption_map]
      exact Option.ite_none_right_eq_some
  | sendToAll pkt ignore_client => simp only [Step, step, Possible, perform, true_and]

theorem perform_ne_nullPointer (env : Environment) {server : Server} (wf : server.WellFormed)
    {action : Action} (possible : server.Possible env action) :
    server.perform env action ≠ .error .nullPointer := by
  cases action with
  | accept =>
      rw [perform, onAccept_of_open possible]
      exact nofun
  | receive conn pkt => exact nofun
  | process owned =>
      rcases owned with ⟨owner, pkt⟩
      rcases wf.queue _ (List.mem_of_mem_head? possible) with ⟨⟨conn, isCreated, rfl⟩, fits⟩
      rw [perform]
      by_cases longEnough : server.popped.LongEnough conn pkt
      · have handles : ∃ handled, server.popped.OnPacket env (some conn) pkt = .ok handled ∧
            Handles env server.popped conn pkt handled.2.2 :=
          OnPacket_of_longEnough wf.popped isCreated fits longEnough
        rcases handles with ⟨handled, isHandled, -⟩
        rw [isHandled]
        exact nofun
      · rw [OnPacket_of_short longEnough]
        exact nofun
  | sendToClient conn pkt =>
      rcases drops_SendToClient env (wf.reading conn possible) pkt with ⟨_, after, sends, -, -⟩
      rw [perform, sends]
      exact nofun
  | sendToAll pkt ignore_client =>
      have handed : ∃ after, server.SendToAll env pkt ignore_client = .ok after ∧
          Sent env (fun _ => True) server after :=
        sent_SendToAll env trivial ignore_client wf.connections
      rcases handed with ⟨after, sends, -⟩
      rw [perform, sends]
      exact nofun

/-- What the server keeps of the connections it lists; `m_IDCnt` is what the
counter was at the start. -/
structure Registered (m_IDCnt : UInt32) (server : Server) : Prop where
  distinct : server.m_TCPConnections.Nodup
  reading : ∀ conn, some conn ∈ server.m_TCPConnections → conn ∈ server.reading
  ids : ∀ conn < server.created, server.m_sID conn = m_IDCnt + UInt32.ofNat conn
  next : server.m_IDCnt = m_IDCnt + UInt32.ofNat server.created

theorem registered_start (m_IDCnt : UInt32) (m_sID : ConnRef → UInt32) :
    (start m_IDCnt m_sID).Registered m_IDCnt where
  distinct := List.nodup_nil
  reading conn member := by simp [start] at member
  ids conn isCreated := absurd isCreated (Nat.not_lt_zero conn)
  next := by simp [start]

namespace Registered

variable {m_IDCnt : UInt32} {server next : Server}

theorem drops {lost : List ConnRef} (registered : server.Registered m_IDCnt)
    (drops : Drops env server next lost) : next.Registered m_IDCnt where
  distinct := drops.sublist.nodup registered.distinct
  reading conn member := by
    rw [drops.reading]
    exact registered.reading conn (drops.sublist.subset member)
  ids := by
    rw [drops.created, drops.m_sID]
    exact registered.ids
  next := by rw [drops.m_IDCnt, drops.created, registered.next]

theorem accepted (registered : server.Registered m_IDCnt) (wf : server.WellFormed) :
    server.accepted.Registered m_IDCnt where
  distinct := by
    apply registered.distinct.append (List.nodup_singleton _)
    intro client member isNew
    rcases wf.connections client member with ⟨conn, isCreated, rfl⟩
    rcases List.mem_singleton.mp isNew with ⟨⟩
    exact absurd isCreated (Nat.lt_irrefl _)
  reading conn member := by
    rcases List.mem_append.mp member with before | isNew
    · exact List.mem_append_left _ (registered.reading conn before)
    · cases List.mem_singleton.mp isNew
      exact List.mem_append_right _ (List.mem_singleton_self _)
  ids conn isCreated := by
    rcases Nat.lt_succ_iff_lt_or_eq.mp isCreated with isOld | rfl
    · exact (Function.update_of_ne (Nat.ne_of_lt isOld) _ _).trans (registered.ids conn isOld)
    · exact (Function.update_self ..).trans registered.next
  next := by
    have counts : server.accepted.m_IDCnt = server.m_IDCnt + 1 := rfl
    have creates : server.accepted.created = server.created + 1 := rfl
    rw [counts, creates, UInt32.ofNat_add, ← UInt32.add_assoc, ← registered.next]
    rfl

theorem step {action : Action} (registered : server.Registered m_IDCnt) (wf : server.WellFormed)
    (step : Step env server action next) : next.Registered m_IDCnt := by
  rcases step_drops wf registered.distinct step with ⟨prepared, prepares, drops⟩
  have prepared : prepared.Registered m_IDCnt := by
    cases prepares with
    | accept => exact registered.accepted wf
    | _ => exact ⟨registered.distinct, registered.reading, registered.ids, registered.next⟩
  exact prepared.drops drops

end Registered

theorem registered_of_trace {m_IDCnt : UInt32} {m_sID : ConnRef → UInt32} {server : Server}
    {actions : List Action} (trace : Trace (Step env) (start m_IDCnt m_sID) actions server) :
    server.WellFormed ∧ server.Registered m_IDCnt := by
  have both : ∀ current action next, WellFormed current ∧ Registered m_IDCnt current →
      Step env current action next → WellFormed next ∧ Registered m_IDCnt next := by
    intro current action next ⟨wf, registered⟩ step
    exact ⟨wf.step step, registered.step wf step⟩
  exact trace.invariant both ⟨wellFormed_start m_IDCnt m_sID, registered_start m_IDCnt m_sID⟩

/-- Between steps the list holds no null pointer and no connection twice, and
connections that read under the ID they were handed; and whatever is done next, no
null pointer is used, neither by `OnClientDisconnect` nor by the handler of an accept. -/
theorem connections_well_formed {m_IDCnt : UInt32} {m_sID : ConnRef → UInt32} {server : Server}
    {actions : List Action} (trace : Trace (Step env) (start m_IDCnt m_sID) actions server) :
    none ∉ server.m_TCPConnections ∧ server.m_TCPConnections.Nodup ∧
      (∀ conn, some conn ∈ server.m_TCPConnections →
        conn ∈ server.reading ∧ server.m_sID conn = m_IDCnt + UInt32.ofNat conn) ∧
      ∀ action, server.Possible env action → server.perform env action ≠ .error .nullPointer := by
  rcases registered_of_trace trace with ⟨wf, registered⟩
  refine ⟨?_, registered.distinct, ?_, fun _ => perform_ne_nullPointer env wf⟩
  · intro isNull
    rcases wf.connections none isNull with ⟨_, -, same⟩
    contradiction
  · intro conn member
    have reading := registered.reading conn member
    exact ⟨reading, registered.ids conn (wf.reading conn reading)⟩

theorem connections_well_formed_one_closed :
    let actions : List Action := [.accept, .accept, .sendToAll acceptPacket none]
    let env := Environment.closing 0 4
    ∃ server, Trace (Step env) (start 5 fun _ => 0) actions server ∧
      server.m_TCPConnections = [some 1] ∧ 1 ∈ server.reading ∧ server.m_sID 1 = 5 + 1 := by
  intro actions env
  have runs : ∃ server ∈ runSteps (step env) (start 5 fun _ => 0) actions,
      server.m_TCPConnections = [some 1] := by
    decide
  rcases runs with ⟨server, reaches, isList⟩
  have trace : Trace (Step env) (start 5 fun _ => 0) actions server :=
    Trace.of_run reaches
  rcases connections_well_formed trace with ⟨-, -, areListed, -⟩
  have last := areListed 1 (by simp [isList])
  exact ⟨server, trace, isList, last⟩

end GNL.Server
