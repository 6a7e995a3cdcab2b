import GNL.Network
import GNL.Server.Views

/-! # What a client shows

However the bytes travel, a client that replays what is in its queue shows the world of the
server as it was at an earlier moment.
-/

namespace GNL.Network

variable {env : Environment} {paddings : Paddings} {network : Network} {m_IDCnt : UInt32}
  {m_sID : ConnRef → UInt32} {actions : List Action}

def HarmlessToHandle (server : Server) (owned : OwnedPacket CMD) : Prop :=
  server.Harmless (.process owned)

instance (server : Server) (owned : OwnedPacket CMD) : Decidable (HarmlessToHandle server owned) :=
  inferInstanceAs (Decidable (server.Harmless _))

instance (network : Network) : DecidablePred (network.Serves HarmlessToHandle)
  | .accept => isTrue trivial
  | .process owned => inferInstanceAs (Decidable (HarmlessToHandle network.server owned))
  | .up _ _ => isTrue trivial
  | .down _ _ => isTrue trivial

theorem keepsViews_of_served {server : Server} {action : Server.Action}
    (served : Served HarmlessToHandle server action) : server.KeepsViews action := by
  refine ⟨fromPeers_of_served served, ?_⟩
  cases action with
  | process owned => exact served
  | accept => trivial
  | receive => trivial
  | sendToClient => trivial
  | sendToAll => trivial

/-- Where nobody disconnects and no packet tells a wrong position, a client with a character
in the world that has got the list of the world shows it as it was after part of the packets
were handled, all but its own character, whatever part of what was sent to it has arrived. -/
theorem client_shows_past_world (alwaysOpen : env.AlwaysOpen)
    (trace : Trace (StepWhere (Step env paddings) (Serves HarmlessToHandle))
      (start m_IDCnt m_sID) actions network) {conn : ConnRef}
    (owns : ∃ key cha, network.server.m_chaMap.lookup key = some cha ∧
      cha.m_TCPConnection = some conn)
    (hasWorld : ∃ owned ∈ (network.down conn).reader.m_PktIn,
      owned.pkt.header.cmdID = .SelfEnterWorld) :
    ∃ before middle after,
      Trace (Server.Step env) (Server.start m_IDCnt m_sID) before middle ∧
      Trace (Server.Step env) middle after network.server ∧
      (before ++ after).flatMap handledBy = actions.flatMap Action.handled ∧
      middle.ShowsWorld conn ((network.down conn).reader.m_PktIn.map OwnedPacket.pkt) := by
  rcases exists_server_trace_of_start trace with ⟨performed, runs, sameHandled⟩
  have keeping : Trace (StepWhere (Server.Step env) Server.KeepsViews)
      (Server.start m_IDCnt m_sID) performed network.server :=
    runs.mono fun _ _ _ step => ⟨step.1, keepsViews_of_served step.2⟩
  have isPrefix := (linked_of_trace trace.unconditional).2.packets_received
    (addressed_of_trace trace.unconditional) conn
  rcases hasWorld with ⟨owned, member, isWorld⟩
  rcases Server.view_is_past alwaysOpen keeping owns isPrefix
    ⟨owned.pkt, List.mem_map_of_mem member, isWorld⟩ with
      ⟨before, middle, after, rfl, reaches, leads, shows⟩
  exact ⟨before, middle, after, reaches.unconditional, leads.unconditional, sameHandled, shows⟩

theorem client_shows_past_world_of_one :
    let enter := Server.emptyPacket .SelfEnterWorld
    let sends (conn : ConnRef) : List Action := [.up conn (.write (.SendPacket enter)),
      .up conn (.write .runPosted), .up conn (.write (.transfer 0 8)), .up conn (.deliver 8),
      .up conn .complete, .process ⟨some conn, enter⟩]
    let gets : List Action := [.down 1 (.write .runPosted), .down 1 (.write (.transfer 0 8)),
      .down 1 (.write (.complete 0)), .down 1 (.write .runPosted), .down 1 (.write .runPosted),
      .down 1 (.write (.transfer 0 8)), .down 1 (.write (.complete 0)),
      .down 1 (.write (.transfer 0 18)), .down 1 (.write (.complete 0)),
      .down 1 (.write (.transfer 0 8)), .down 1 (.write (.complete 0)),
      .down 1 (.write (.transfer 0 24)), .down 1 (.deliver 66), .down 1 .complete,
      .down 1 .complete, .down 1 .complete, .down 1 .complete, .down 1 .complete]
    let actions := [.accept, .accept] ++ sends 1 ++ sends 0 ++ gets
    ∃ network, Trace (StepWhere (Step .calm Paddings.zero) (Serves HarmlessToHandle))
        (start 5 fun _ => 0) actions network ∧
      (network.server.sentTo 1).length = 4 ∧
      (network.down 1).reader.m_PktIn.length = 3 ∧
      ∃ middle : Server,
        middle.ShowsWorld 1 ((network.down 1).reader.m_PktIn.map OwnedPacket.pkt) := by
  intro enter sends gets actions
  have runs : ∃ network ∈ runSteps (stepWhere (step .calm Paddings.zero)
      (Serves HarmlessToHandle)) (start 5 fun _ => 0) actions,
      (network.server.sentTo 1).length = 4 ∧ (network.down 1).reader.m_PktIn.length = 3 ∧
      (∃ cha ∈ network.server.m_chaMap.lookup 6, cha.m_TCPConnection = some 1) ∧
      ∃ owned ∈ (network.down 1).reader.m_PktIn,
        owned.pkt.header.cmdID = .SelfEnterWorld := by
    decide +kernel
  rcases runs with ⟨network, reaches, sent, received, ⟨cha, found, isOwner⟩, hasWorld⟩
  have trace := Trace.of_runStepsWhere reaches
  have alwaysOpen : Environment.calm.AlwaysOpen := fun _ _ => rfl
  rcases client_shows_past_world alwaysOpen trace ⟨6, cha, found, isOwner⟩ hasWorld with
    ⟨before, middle, after, -, -, -, shows⟩
  exact ⟨network, trace, sent, received, middle, shows⟩

end GNL.Network
