import GNL.Server.Handling

/-! # The loop that accepts connections (`ServerApp::AwaitTCPConnection`)

The handler of an accept starts the next one as its last statement, also after an
error. `remote_endpoint()` throws where the peer has gone already; nothing in the
handler or around `run()` catches that, so the process is terminated.
-/

namespace GNL

inductive AcceptAt
  | outside
  /-- Before `socket.remote_endpoint()`. -/
  | accepted
  /-- Before `OnClientConnect`. -/
  | logged
  /-- Before `AwaitTCPConnection()`. -/
  | rearming
  deriving DecidableEq

/-- A server that was started. `outstanding` counts the accepts that are waited for,
`escaped` says whether an exception has left a handler, and `crashed` whether a null
pointer was dereferenced. -/
structure AcceptLoop where
  server : Server
  handler : AcceptAt
  outstanding : Nat
  escaped : Bool
  crashed : Bool

namespace AcceptLoop

def start (server : Server) : AcceptLoop where
  server := server
  handler := .outside
  outstanding := 1
  escaped := false
  crashed := false

inductive Action
  | complete (ok : Bool)
  | remote_endpoint (connected : Bool)
  | OnClientConnect
  | AwaitTCPConnection
  | other (action : Server.Action)
  deriving DecidableEq

def Running (loop : AcceptLoop) : Prop := loop.escaped = false ∧ loop.crashed = false

def connects (loop : AcceptLoop) : Except Fault Server → AcceptLoop
  | .ok server => { loop with server := server, handler := .rearming }
  | .error _ => { loop with crashed := true }

inductive Step (env : Environment) (loop : AcceptLoop) : Action → AcceptLoop → Prop
  | complete (running : loop.Running) (at_ : loop.handler = .outside)
      (armed : 0 < loop.outstanding) (ok : Bool) :
      Step env loop (.complete ok)
        { loop with
          outstanding := loop.outstanding - 1
          handler := if ok then .accepted else .rearming }
  | remote_endpoint (running : loop.Running) (at_ : loop.handler = .accepted) :
      Step env loop (.remote_endpoint true) { loop with handler := .logged }
  | throw (running : loop.Running) (at_ : loop.handler = .accepted) :
      Step env loop (.remote_endpoint false) { loop with handler := .outside, escaped := true }
  | OnClientConnect (running : loop.Running) (at_ : loop.handler = .logged)
      -- A socket that was just accepted is open, whatever its peer does.
      (isOpen : env.isOpen (loop.server.tick + 1) loop.server.created = true) :
      Step env loop .OnClientConnect (loop.connects (loop.server.onAccept env))
  | AwaitTCPConnection (running : loop.Running) (at_ : loop.handler = .rearming) :
      Step env loop .AwaitTCPConnection
        { loop with outstanding := loop.outstanding + 1, handler := .outside }
  | other {action : Server.Action} {server : Server} (running : loop.Running)
      (notAccept : action ≠ .accept) (step : Server.Step env loop.server action server) :
      Step env loop (.other action) { loop with server := server }

structure Accepts (loop : AcceptLoop) : Prop where
  armed : loop.handler = .outside → loop.outstanding = 1
  escaped : loop.escaped = false
  crashed : loop.crashed = false

/-- Where the handler asks for the endpoint of the peer, that is still connected. -/
def PeerStays (_ : AcceptLoop) : Action → Prop
  | .remote_endpoint connected => connected = true
  | _ => True

structure Balanced (loop : AcceptLoop) : Prop where
  waits : loop.escaped = false → loop.handler = .outside → loop.outstanding = 1
  handles : loop.escaped = false → loop.handler ≠ .outside → loop.outstanding = 0
  crashed : loop.crashed = false

theorem balanced_start (server : Server) : (start server).Balanced where
  waits _ _ := rfl
  handles _ busy := absurd rfl busy
  crashed := rfl

section Steps

variable {env : Environment} {loop next : AcceptLoop} {action : Action}

theorem running_of_step (step : Step env loop action next) : loop.Running := by
  cases step with
  | _ => assumption

theorem connects_of_open
    (isOpen : env.isOpen (loop.server.tick + 1) loop.server.created = true) :
    loop.connects (loop.server.onAccept env) =
      { loop with server := loop.server.accepted, handler := .rearming } := by
  rw [Server.onAccept_of_open isOpen]
  rfl

theorem Balanced.step (balanced : loop.Balanced) (step : Step env loop action next) :
    next.Balanced := by
  cases step with
  | complete running at_ armed ok =>
      have one := balanced.waits running.1 at_
      refine ⟨?_, ?_, running.2⟩
      · intro _ isOutside
        cases ok with
        | true => cases isOutside
        | false => cases isOutside
      · intro _ _
        simp [one]
  | remote_endpoint running at_ =>
      have none_ := balanced.handles running.1 (by simp [at_])
      exact ⟨fun _ => nofun, fun _ _ => none_, running.2⟩
  | throw running at_ => exact ⟨nofun, nofun, running.2⟩
  | OnClientConnect running at_ isOpen =>
      have none_ := balanced.handles running.1 (by simp [at_])
      rw [connects_of_open isOpen]
      exact ⟨fun _ => nofun, fun _ _ => none_, running.2⟩
  | AwaitTCPConnection running at_ =>
      have none_ := balanced.handles running.1 (by simp [at_])
      refine ⟨fun _ _ => ?_, fun _ busy => absurd rfl busy, running.2⟩
      simp [none_]
  | other running notAccept step => exact ⟨balanced.waits, balanced.handles, running.2⟩

theorem accepts_iff (balanced : loop.Balanced) : loop.Accepts ↔ loop.escaped = false :=
  ⟨Accepts.escaped, fun escaped => ⟨balanced.waits escaped, escaped, balanced.crashed⟩⟩

theorem escaped_step_iff (step : Step env loop action next) :
    next.escaped = false ↔ loop.PeerStays action := by
  have running := (running_of_step step).1
  cases step with
  | complete => exact iff_of_true running trivial
  | remote_endpoint => exact iff_of_true running rfl
  | throw => exact iff_of_false Bool.true_eq_false_eq_False Bool.false_ne_true
  | OnClientConnect _ _ isOpen =>
      rw [connects_of_open isOpen]
      exact iff_of_true running trivial
  | AwaitTCPConnection => exact iff_of_true running trivial
  | other => exact iff_of_true running trivial

end Steps

/-- The loop goes on accepting exactly in the runs in which no peer of an accepted
connection is gone when the handler asks for its endpoint. -/
theorem accepts_forever_iff {env : Environment} {server : Server} {loop : AcceptLoop}
    {actions : List Action} (trace : Trace (Step env) (start server) actions loop) :
    loop.Accepts ↔ Trace (StepWhere (Step env) PeerStays) (start server) actions loop := by
  have always : ∀ current action next, Balanced current → Step env current action next →
      Balanced next := fun _ _ _ balanced step => balanced.step step
  have exact_ : ∀ current action next, Balanced current → Step env current action next →
      (next.Accepts ↔ current.Accepts ∧ current.PeerStays action) := by
    intro current action next balanced step
    have acceptsNow : current.Accepts := (accepts_iff balanced).mpr (running_of_step step).1
    rw [accepts_iff (balanced.step step), escaped_step_iff step, and_iff_right acceptsNow]
  exact trace.stepWhere_iff always exact_ (balanced_start server)
    ⟨fun _ => rfl, rfl, rfl⟩

theorem accepts_forever_iff_two_completions :
    let actions : List Action := [.complete true, .remote_endpoint true, .OnClientConnect,
      .AwaitTCPConnection, .complete false, .AwaitTCPConnection]
    let server := Server.start 5 fun _ => 0
    ∃ loop, Trace (Step .calm) (start server) actions loop ∧ loop.outstanding = 1 ∧
      Trace (StepWhere (Step .calm) PeerStays) (start server) actions loop := by
  intro actions server
  let before : AcceptLoop := { start server with handler := .logged, outstanding := 0 }
  let added := before.connects (server.onAccept .calm)
  have isAdded : added = { before with server := server.accepted, handler := .rearming } :=
    connects_of_open rfl
  have handled : ∃ loop, Trace (Step .calm) added
      [.AwaitTCPConnection, .complete false, .AwaitTCPConnection] loop ∧
      loop.outstanding = 1 ∧ loop.Accepts := by
    rw [isAdded]
    refine ⟨_, .cons (.AwaitTCPConnection ⟨rfl, rfl⟩ rfl)
      (.cons (.complete ⟨rfl, rfl⟩ rfl Nat.zero_lt_one false)
      (.cons (.AwaitTCPConnection ⟨rfl, rfl⟩ rfl) (.nil _))), rfl, ?_⟩
    exact ⟨fun _ => rfl, rfl, rfl⟩
  rcases handled with ⟨loop, rest, outstanding, accepts⟩
  have trace : Trace (Step .calm) (start server) actions loop :=
    .cons (.complete ⟨rfl, rfl⟩ rfl Nat.zero_lt_one true)
      (.cons (.remote_endpoint ⟨rfl, rfl⟩ rfl)
      (.cons (.OnClientConnect ⟨rfl, rfl⟩ rfl rfl) rest))
  exact ⟨loop, trace, outstanding, (accepts_forever_iff trace).mp accepts⟩

/-- The peer of the first connection resets it before it is logged. -/
theorem accept_of_reset_peer :
    let server := Server.start 5 fun _ => 0
    ∃ loop, Trace (Step .calm) (start server) [.complete true, .remote_endpoint false] loop ∧
      loop.handler = .outside ∧ loop.outstanding = 0 ∧ loop.escaped = true ∧
      ¬loop.Accepts := by
  intro server
  refine ⟨_, .cons (.complete ⟨rfl, rfl⟩ rfl Nat.zero_lt_one true)
    (.cons (.throw ⟨rfl, rfl⟩ rfl) (.nil _)), rfl, rfl, rfl, ?_⟩
  exact fun accepts => Bool.noConfusion accepts.escaped

end AcceptLoop

end GNL
