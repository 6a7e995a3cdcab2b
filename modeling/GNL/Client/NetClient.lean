import GNL.Common.TCPConnection.Writer

/-! # A client and its connection (`NetClient.h`)

One thread calls `Connect`, `Disconnect` and `SendToServer`; another runs the
handlers of the `io_context` until it is stopped, by `stop()` or because no work is
left. Nothing restarts it. What is received is left out here: a read that completes
without an error starts the next one.
-/

namespace GNL.NetClient

/-- Where the `async_connect` of a connection stands. It tries its endpoints in
turn; `left` counts those after the one it is trying. -/
inductive Attempt
  | pending (left : Nat)
  | succeeded
  | failed
  deriving DecidableEq

inductive Posted (T : Type)
  | send (pkt : Packet T)
  | close

/-- An `async_write` in flight, and whether the socket was connected when it was
started; one that was not completes with an error. -/
structure StartedWrite where
  kind : WriteKind
  connected : Bool

/-- The members of a `TCPConnection<T>` of type `Client`, with the operations it has
started. `headersStarted` records for each `WriteHeader` whether `async_connect` had
completed successfully. -/
structure TCPConnection (T : Type) where
  socketOpen : Bool
  attempt : Attempt
  posted : List (Posted T)
  m_PktOut : List (Packet T)
  writing : List StartedWrite
  reading : Nat
  headersStarted : List Bool

namespace TCPConnection

variable {T : Type}

def ConnectToServer (endpoints : Nat) : TCPConnection T where
  socketOpen := 0 < endpoints
  attempt := .pending (endpoints - 1)
  posted := []
  m_PktOut := []
  writing := []
  reading := 0
  headersStarted := []

def IsConnected (conn : TCPConnection T) : Bool := conn.socketOpen

def handshaken (conn : TCPConnection T) : Bool := conn.attempt = .succeeded

def SendPacket (conn : TCPConnection T) (pkt : Packet T) : TCPConnection T :=
  { conn with posted := conn.posted ++ [.send pkt] }

def Disconnect (conn : TCPConnection T) : TCPConnection T :=
  if conn.IsConnected then { conn with posted := conn.posted ++ [.close] } else conn

def WriteHeader (conn : TCPConnection T) : TCPConnection T :=
  { conn with
    writing := conn.writing ++ [⟨.header, conn.handshaken⟩]
    headersStarted := conn.headersStarted ++ [conn.handshaken] }

def WriteData (conn : TCPConnection T) : TCPConnection T :=
  { conn with writing := conn.writing ++ [⟨.data, conn.handshaken⟩] }

def ReadHeader (conn : TCPConnection T) : TCPConnection T :=
  { conn with reading := conn.reading + 1 }

def writeNext (conn : TCPConnection T) : Option (TCPConnection T) :=
  match conn.m_PktOut with
  | [] => none
  | _ :: rest =>
      let conn := { conn with m_PktOut := rest }
      some (if rest.isEmpty then conn else conn.WriteHeader)

/-- The handler of a write, called without an error. -/
def written (conn : TCPConnection T) : WriteKind → Option (TCPConnection T)
  | .header =>
      match conn.m_PktOut with
      | [] => none
      | front :: _ => if front.body.length > 0 then some conn.WriteData else conn.writeNext
  | .data => conn.writeNext

/-- The lambda `SendPacket` posts. -/
def enqueue (conn : TCPConnection T) (pkt : Packet T) : TCPConnection T :=
  let bWritingMessage := !conn.m_PktOut.isEmpty
  let conn := { conn with m_PktOut := conn.m_PktOut ++ [pkt] }
  if !bWritingMessage then conn.WriteHeader else conn

/-- The attempt to connect to one endpoint ends. `async_connect` gives up if the
socket was closed meanwhile; it closes and opens it again for the next endpoint; and
it leaves it open when the last one fails. -/
def attemptEnds (conn : TCPConnection T) (ok : Bool) (left : Nat) : TCPConnection T :=
  if !conn.socketOpen then
    { conn with attempt := .failed }
  else if ok then
    ReadHeader { conn with attempt := .succeeded }
  else
    match left with
    | 0 => { conn with attempt := .failed }
    | left + 1 => { conn with attempt := .pending left }

inductive Handler
  | attempt (ok : Bool)
  | posted
  | write (ok : Bool)
  | read (ok : Bool)
  deriving DecidableEq

def handle (conn : TCPConnection T) : Handler → Option (TCPConnection T)
  | .attempt ok =>
      match conn.attempt with
      | .pending left => some (conn.attemptEnds ok left)
      | .succeeded | .failed => none
  | .posted =>
      match conn.posted with
      | [] => none
      | .send pkt :: posted => some ({ conn with posted }.enqueue pkt)
      | .close :: posted => some { conn with posted, socketOpen := false }
  | .write ok =>
      match conn.writing with
      | [] => none
      | write :: others =>
          if !ok then
            some { conn with writing := others, socketOpen := false }
          else if write.connected then
            { conn with writing := others }.written write.kind
          else
            none
  | .read ok =>
      if conn.reading = 0 then
        none
      else if ok then
        some conn
      else
        some { conn with reading := conn.reading - 1, socketOpen := false }

def work (conn : TCPConnection T) : Nat :=
  (match conn.attempt with
    | .pending _ => 1
    | .succeeded | .failed => 0) +
  conn.posted.length + conn.writing.length + conn.reading

end TCPConnection

/-- What the calling thread is about to do: the next call, or the rest of `Connect`
after its `Sleep`, or of `Disconnect`. -/
inductive Caller
  | idle
  | sleeping
  | stopping
  | joining
  | releasing
  deriving DecidableEq

/-- A `ClientApp<T>`. `released` are the connections that were given up without being
destroyed, `terminated` says whether the process has been terminated, and `connects`
holds for each `Connect` that returned true whether the `io_context` was stopped. -/
structure ClientApp (T : Type) where
  caller : Caller
  m_TCPConnection : Option (TCPConnection T)
  released : List (TCPConnection T)
  joinable : Bool
  stopped : Bool
  terminated : Bool
  connects : List Bool

namespace ClientApp

variable {T : Type}

def new : ClientApp T where
  caller := .idle
  m_TCPConnection := none
  released := []
  joinable := false
  stopped := false
  terminated := false
  connects := []

def IsConnected (client : ClientApp T) : Bool :=
  match client.m_TCPConnection with
  | some conn => conn.IsConnected
  | none => false

/-- `Connect` until its `Sleep`, where the host name resolves to `endpoints` of
them. Assigning to a thread that is joinable terminates the process. -/
def Connect (client : ClientApp T) (endpoints : Nat) : ClientApp T :=
  if client.joinable then
    { client with terminated := true }
  else
    { client with
      m_TCPConnection := some (.ConnectToServer endpoints)
      joinable := true
      caller := .sleeping }

def Disconnect (client : ClientApp T) : ClientApp T :=
  { client with
    m_TCPConnection :=
      if client.IsConnected then client.m_TCPConnection.map (·.Disconnect)
      else client.m_TCPConnection
    caller := .stopping }

def SendToServer (client : ClientApp T) (pkt : Packet T) : ClientApp T :=
  if client.IsConnected then
    { client with m_TCPConnection := client.m_TCPConnection.map (·.SendPacket pkt) }
  else
    client

def proceed (client : ClientApp T) : Option (ClientApp T) :=
  match client.caller with
  | .idle => none
  | .sleeping =>
      some { client with caller := .idle, connects := client.connects ++ [client.stopped] }
  | .stopping => some { client with caller := .joining, stopped := true }
  | .joining => some { client with caller := .releasing, joinable := false }
  | .releasing => some { client with
      caller := .idle
      m_TCPConnection := none
      released := client.released ++ client.m_TCPConnection.toList }

def handle (client : ClientApp T) (handler : TCPConnection.Handler) : Option (ClientApp T) :=
  if client.joinable ∧ client.stopped = false then
    match client.m_TCPConnection with
    | none => none
    | some conn => (conn.handle handler).map fun next =>
        { client with m_TCPConnection := some next, stopped := next.work = 0 }
  else
    none

inductive Action (T : Type)
  /-- `Connect`, with how many endpoints the host name resolves to; where it does
  not resolve, `Connect` returns false. -/
  | Connect (endpoints : Option Nat)
  | Disconnect
  | SendToServer (pkt : Packet T)
  | proceed
  | handle (handler : TCPConnection.Handler)

/-- The next state. `SendToServer` may be called by another thread while `Connect`
sleeps. -/
def step (client : ClientApp T) (action : Action T) : Option (ClientApp T) :=
  if client.terminated then none
  else match action with
  | .Connect none => if client.caller = .idle then some client else none
  | .Connect (some endpoints) =>
      if client.caller = .idle then some (client.Connect endpoints) else none
  | .Disconnect => if client.caller = .idle then some client.Disconnect else none
  | .SendToServer pkt =>
      if client.caller = .idle ∨ client.caller = .sleeping then some (client.SendToServer pkt)
      else none
  | .proceed => client.proceed
  | .handle handler => client.handle handler

def Step (client : ClientApp T) (action : Action T) (next : ClientApp T) : Prop :=
  client.step action = some next

inductive Performs (client : ClientApp T) : Action T → ClientApp T → Prop
  | unresolved (idle : client.caller = .idle) : Performs client (.Connect none) client
  | Connect {endpoints : Nat} (idle : client.caller = .idle) :
      Performs client (.Connect (some endpoints)) (client.Connect endpoints)
  | Disconnect (idle : client.caller = .idle) : Performs client .Disconnect client.Disconnect
  | SendToServer {pkt : Packet T} (awake : client.caller = .idle ∨ client.caller = .sleeping) :
      Performs client (.SendToServer pkt) (client.SendToServer pkt)
  | returns (sleeping : client.caller = .sleeping) :
      Performs client .proceed
        { client with caller := .idle, connects := client.connects ++ [client.stopped] }
  | stops (stopping : client.caller = .stopping) :
      Performs client .proceed { client with caller := .joining, stopped := true }
  | joins (joining : client.caller = .joining) :
      Performs client .proceed { client with caller := .releasing, joinable := false }
  | releases (releasing : client.caller = .releasing) :
      Performs client .proceed { client with
        caller := .idle
        m_TCPConnection := none
        released := client.released ++ client.m_TCPConnection.toList }
  | handle {handler : TCPConnection.Handler} {conn connNext : TCPConnection T}
      (joinable : client.joinable = true) (running : client.stopped = false)
      (hasConn : client.m_TCPConnection = some conn)
      (handles : conn.handle handler = some connNext) :
      Performs client (.handle handler)
        { client with m_TCPConnection := some connNext, stopped := connNext.work = 0 }

theorem performs_of_step {client next : ClientApp T} {action : Action T}
    (step : Step client action next) : client.terminated = false ∧ Performs client action next := by
  simp only [Step, ClientApp.step] at step
  split at step
  · contradiction
  next runs =>
    rw [Bool.not_eq_true] at runs
    refine ⟨runs, ?_⟩
    cases action with
    | Connect endpoints =>
        cases endpoints with
        | none =>
            rcases Option.ite_none_right_eq_some.mp step with ⟨idle, isNext⟩
            cases isNext
            exact .unresolved idle
        | some endpoints =>
            rcases Option.ite_none_right_eq_some.mp step with ⟨idle, isNext⟩
            cases isNext
            exact .Connect idle
    | Disconnect =>
        rcases Option.ite_none_right_eq_some.mp step with ⟨idle, isNext⟩
        cases isNext
        exact .Disconnect idle
    | SendToServer pkt =>
        rcases Option.ite_none_right_eq_some.mp step with ⟨awake, isNext⟩
        cases isNext
        exact .SendToServer awake
    | proceed =>
        simp only [ClientApp.proceed] at step
        split at step
        · contradiction
        · cases step
          exact .returns ‹_›
        · cases step
          exact .stops ‹_›
        · cases step
          exact .joins ‹_›
        · cases step
          exact .releases ‹_›
    | handle handler =>
        rcases Option.ite_none_right_eq_some.mp step with ⟨⟨joinable, running⟩, handles⟩
        split at handles
        · contradiction
        · rcases Option.map_eq_some_iff.mp handles with ⟨connNext, isNext, rfl⟩
          exact .handle joinable running ‹_› isNext

end ClientApp

end GNL.NetClient
