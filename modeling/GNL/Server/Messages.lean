import GNL.Server.Handling

/-! # The packets a server sends

Every packet the server itself builds, and every ping it sends back, says how
long its body is. The largest lists the whole world, which has room for no more
characters than there are 16-bit IDs.
-/

namespace GNL.Server

variable {env : Environment}

def newlySent (before after : Server) : List (ConnRef × Packet CMD) :=
  after.sent.drop before.sent.length

theorem consistent_of_sent {server before after : Server}
    (sent : Sent env Packet.Consistent before after) (same : before.sent = server.sent) :
    ∀ message ∈ newlySent server after, message.2.Consistent := by
  rcases sent.sent with ⟨new, isSent, consistent⟩
  rw [newlySent, isSent, same, List.drop_left]
  exact consistent

def Action.isServed : Action → Prop
  | .accept => True
  | .process _ => True
  | _ => False

/-- From every reachable state, what an accepted connection or a handled packet
makes the server send is consistent; and every queued packet that no extraction
fails on is handled. -/
theorem newly_sent_consistent {m_IDCnt : UInt32} {m_sID : ConnRef → UInt32} {server : Server}
    {actions : List Action} (trace : Trace (Step env) (start m_IDCnt m_sID) actions server) :
    (∀ action next, action.isServed → Step env server action next →
      ∀ message ∈ newlySent server next, message.2.Consistent) ∧
    ∀ owned, server.m_TCP_PktIn.head? = some owned →
      server.popped.OnPacket env owned.connectionPtr owned.pkt ≠ .error .outOfRange →
      ∃ next, Step env server (.process owned) next := by
  have wf := wellFormed_of_trace trace
  constructor
  · intro action next served step
    cases step_cases wf step with
    | accept isOpen =>
        intro message member
        have new : newlySent server server.accepted = [(server.created, acceptPacket)] :=
          List.drop_left
        rw [new] at member
        rw [List.mem_singleton.mp member]
        exact consistent_acceptPacket
    | process _ _ _ _ _ _ _ handles =>
        cases handles with
        | sends _ sent => exact consistent_of_sent sent rfl
        | enters _ sent => exact consistent_of_sent sent rfl
        | moves _ _ _ _ _ sent => exact consistent_of_sent sent rfl
    | receive => contradiction
    | sendToClient => contradiction
    | sendToAll => contradiction
  · intro owned queue inRange
    rcases owned with ⟨owner, pkt⟩
    rcases wf.queue _ (List.mem_of_mem_head? queue) with ⟨⟨conn, isCreated, rfl⟩, fits⟩
    by_cases longEnough : server.popped.LongEnough conn pkt
    · rcases exists_process env wf queue longEnough with ⟨next, step, -⟩
      exact ⟨next, step⟩
    · exact absurd (OnPacket_of_short longEnough) inRange

/-- A ping of eight bytes, received with a size field that says two. -/
theorem newly_sent_consistent_ping :
    let ping : Packet CMD := ⟨⟨.Ping, 2⟩, [1, 2, 3, 4, 5, 6, 7, 8]⟩
    ∃ server next,
      Trace (Step Environment.calm) (start 0 fun _ => 0) [.accept, .receive 0 ping] server ∧
      Step Environment.calm server (.process ⟨some 0, ping⟩) next ∧
      ∀ message ∈ newlySent server next, message.2.Consistent := by
  intro ping
  have runs : ∃ server ∈ runSteps (step Environment.calm) (start 0 fun _ => 0)
      [.accept, .receive 0 ping],
      (server.step Environment.calm (.process ⟨some 0, ping⟩)).isSome := by
    decide
  rcases runs with ⟨server, reaches, handles⟩
  rcases Option.isSome_iff_exists.mp handles with ⟨next, step⟩
  have trace := Trace.of_run reaches
  have consistent := (newly_sent_consistent trace).1 (.process ⟨some 0, ping⟩) next
  exact ⟨server, next, trace, step, consistent trivial step⟩

end GNL.Server
