import GNL.Server.Meanwhile

/-! # One call at a time

The calls of the main thread interleave with the handlers of the other thread, one shared
access at a time. What they leave is what they would have left one after the other, each
all at once, in the order in which the main thread made them.
-/

namespace GNL

def Server.Action.isCall : Server.Action → Bool
  | .process _ | .sendToClient _ _ | .sendToAll _ _ => true
  | .accept | .receive _ _ => false

def Iteration.environment (order : Iteration) : Environment where
  isOpen _ _ := true
  closed_stays_closed _ isOpen := isOpen
  iteration _ entries := if nodup : (entries.map Sigma.fst).Nodup then
      order.entries ⟨entries, nodup⟩ else entries
  iteration_perm _ entries := by
    split
    next nodup => exact order.perm ⟨entries, nodup⟩
    next => exact .refl entries
  now _ := 0
  clock := Environment.calm.clock

namespace RunningServer

/-- What the main thread is asked to do; `Process` pops the first packet. -/
def mainCalls (running : RunningServer) : Action → List Server.Action
  | .Process => (running.m_TCP_PktIn.take 1).map .process
  | .SendToClient client pkt => [.sendToClient client pkt]
  | .SendToAll pkt ignore_client => [.sendToAll pkt ignore_client]
  | .accept | .main | .io | .write _ _ | .read _ _ => []

/-- A call of the main thread that has not looked at what the threads share yet, the packets
that it has popped, and the action it is. The ID that `MessageAll` sends was read. -/
inductive Waiting (running : RunningServer) (server : Server) :
    Thread → List (OwnedPacket CMD) → Server.Action → Prop
  | Process {conn : ConnRef} {pkt : Packet CMD}
      (identified : (running.connection conn).identified = true) :
      Waiting running server ⟨[some conn], .calling, [.OnPacket pkt, .destroy]⟩
        [⟨some conn, pkt⟩] (.process ⟨some conn, pkt⟩)
  | MessageAll {conn : ConnRef} {pkt : Packet CMD}
      (isMessageAll : pkt.header.cmdID = .MessageAll) :
      Waiting running server ⟨[some conn], .calling,
          [.SendToAll (Server.emptyPacket .ServerMessage <<< server.laterID conn) 0, .destroy]⟩
        [⟨some conn, pkt⟩] (.process ⟨some conn, pkt⟩)
  | SendToClient {client : ConnRef} {pkt : Packet CMD} :
      Waiting running server ⟨[some client], .calling, [.SendToClient 0 pkt, .destroy]⟩ []
        (.sendToClient client pkt)
  | SendToAll {ignore_client : Option ConnRef} {pkt : Packet CMD} :
      Waiting running server ⟨[ignore_client], .calling, [.SendToAll pkt 0, .destroy]⟩ []
        (.sendToAll pkt ignore_client)

/-- `performed` leads to `server`, and to what the running server is but for what was put
off. -/
structure Serves (order : Iteration) (first : Server) (running : RunningServer)
    (front : List (OwnedPacket CMD)) (count : Nat) (queued : List (OwnedPacket CMD))
    (env : Environment) (performed : List Server.Action) (server : Server) : Prop where
  runs : ∀ later : Environment, later.Extends env server.tick →
    Trace (Server.Step later) first performed server
  same : running.Matches front count queued server
  bounded : server.Bounded []
  answers : running.Answers order server env

/-- A run of the server that does all at once, which the running server is on: between two
calls, or at the start of one, or in the middle of one that begins at `base`. -/
inductive Serialized (order : Iteration) (first : Server) (calls : List Server.Action)
    (running : RunningServer) : Prop
  | returned {count : Nat} {queued : List (OwnedPacket CMD)} {env : Environment}
      {performed : List Server.Action} {server : Server} (main : running.main = .idle)
      (made : performed.filter Server.Action.isCall = calls)
      (serves : running.Serves order first [] count queued env performed server)
  | waits {front : List (OwnedPacket CMD)} {count : Nat} {queued : List (OwnedPacket CMD)}
      {env : Environment} {performed : List Server.Action} {server : Server}
      {action : Server.Action} (waiting : running.Waiting server running.main front action)
      (held : ∀ conn, some conn ∈ running.main.pointers → conn < server.created + count)
      (made : (performed ++ [action]).filter Server.Action.isCall = calls)
      (serves : running.Serves order first front count queued env performed server)
  | begun {count : Nat} {queued : List (OwnedPacket CMD)} {env : Environment}
      {performed : List Server.Action} {base server : Server} {action : Server.Action}
      (made : (performed ++ [action]).filter Server.Action.isCall = calls)
      (runs : ∀ later : Environment, later.Extends env server.tick →
        Trace (Server.Step later) first performed base ∧
          base.step later action = server.finish later running.main)
      (course : Course server.m_TCPConnections.length running.main)
      (same : running.Matches [] count queued server)
      (bounded : server.Bounded running.main.pointers)
      (answers : running.Answers order server env)

section Steps

variable {order : Iteration} {padding : ConnRef → Nat → UInt16}
  {running next shared : RunningServer}
  {first server base : Server} {front queued : List (OwnedPacket CMD)} {count : Nat}
  {env : Environment} {performed : List Server.Action} {calls : List Server.Action}
  {action : Server.Action} {after : Thread}

theorem identified_of_performs {act : Action} (performs : Performs padding running act next)
    {conn : ConnRef} (identified : (running.connection conn).identified = true) :
    (next.connection conn).identified = true := by
  have kept : ∀ {changed : ConnRef} {change : ServerConnection → ServerConnection},
      (∀ conn : ServerConnection, conn.identified = true → (change conn).identified = true) →
      ((running.modify changed change).connection conn).identified = true := fun stays =>
    connection_modify_of running (fun other changed =>
      (running.connection other).identified = true → changed.identified = true)
      (stays _) id identified
  cases performs with
  | @main shared after moves =>
      change (shared.connection conn).identified = true
      rcases connection_of_moves moves with same | ⟨-, sending, pkt, rfl, -, -⟩
      · rw [same]
        exact identified
      · exact kept fun _ isIdentified => isIdentified
  | @io stage newconn =>
      rw [connection_after]
      cases stage with
      | sending => exact kept fun _ isIdentified => isIdentified
      | connecting => exact kept fun _ _ => rfl
      | reading => exact kept fun _ isIdentified => isIdentified
      | _ => exact identified
  | write => exact kept fun _ isIdentified => isIdentified
  | @read reading action reader =>
      let change : ServerConnection → ServerConnection :=
        ({ · with reader := { reader with m_PktIn := [] } })
      change ((running.modify reading change).connection conn).identified = true
      exact kept fun _ isIdentified => isIdentified
  | _ => exact identified

theorem Waiting.later {thread : Thread} (waiting : running.Waiting server thread front action)
    (identified : ∀ conn, (running.connection conn).identified = true →
      (next.connection conn).identified = true) : next.Waiting server thread front action := by
  cases waiting with
  | Process isIdentified => exact .Process (identified _ isIdentified)
  | MessageAll isMessageAll => exact .MessageAll isMessageAll
  | SendToClient => exact .SendToClient
  | SendToAll => exact .SendToAll

theorem Serialized.meanwhile (serialized : running.Serialized order first calls)
    (main : next.main = running.main)
    (matches_ : ∀ front count queued server, running.Matches front count queued server →
      ∃ later more, count ≤ later ∧ next.Matches front later more server)
    (isConnected : ∀ conn, (next.connection conn).IsConnected = true →
      (running.connection conn).IsConnected = true)
    (identified : ∀ conn, (running.connection conn).identified = true →
      (next.connection conn).identified = true) :
    next.Serialized order first calls := by
  cases serialized with
  | returned isIdle made serves =>
      rcases matches_ _ _ _ _ serves.same with ⟨later, more, -, same⟩
      exact .returned (main.trans isIdle) made ⟨serves.runs, same, serves.bounded,
        serves.answers.mono isConnected (Nat.le_refl _)⟩
  | waits waiting held made serves =>
      rcases matches_ _ _ _ _ serves.same with ⟨later, more, grows, same⟩
      refine .waits (main ▸ waiting.later identified) ?_ made ⟨serves.runs, same, serves.bounded,
        serves.answers.mono isConnected (Nat.le_refl _)⟩
      intro conn isHeld
      exact Nat.lt_of_lt_of_le (held conn (main ▸ isHeld)) (Nat.add_le_add_left grows _)
  | begun made runs course same bounded answers =>
      rcases matches_ _ _ _ _ same with ⟨later, more, -, sameNext⟩
      exact .begun made (main ▸ runs) (main ▸ course) sameNext (main ▸ bounded)
        (answers.mono isConnected (Nat.le_refl _))

theorem Serialized.of_returned (serialized : running.Serialized order first calls)
    (main : running.main = .idle) : ∃ count queued env performed server,
      performed.filter Server.Action.isCall = calls ∧
        running.Serves order first [] count queued env performed server := by
  cases serialized with
  | returned _ made serves => exact ⟨_, _, _, _, _, made, serves⟩
  | waits waiting =>
      rw [main] at waiting
      cases waiting
  | @begun count queued env performed base server action made runs course same bounded answers =>
      rw [main] at runs bounded
      refine ⟨count, queued, env, performed ++ [action], server, made, ⟨?_, same, bounded,
        answers⟩⟩
      intro later extends_
      rcases runs later extends_ with ⟨trace, performs⟩
      exact trace.snoc performs

theorem Matches.of_main {queue : List (OwnedPacket CMD)} {popped : List (OwnedPacket CMD)}
    (same : running.Matches front count queued server)
    (popped_ : popped ++ queue = front ++ running.m_TCP_PktIn) (main : Thread) :
    { running with m_TCP_PktIn := queue, main }.Matches popped count queued server where
  m_chaMap := same.m_chaMap
  m_TCPConnections := same.m_TCPConnections
  m_TCP_PktIn := popped_.trans same.m_TCP_PktIn
  sent := same.sent
  m_sID := same.m_sID
  unnamed := same.unnamed
  accepts := by
    cases same.accepts with
    | waits io created m_IDCnt => exact .waits io created m_IDCnt
    | unlisted io early created m_IDCnt sent => exact .unlisted io early created m_IDCnt sent
    | unnamed io newest created m_IDCnt => exact .unnamed io newest created m_IDCnt
    | named io late created m_IDCnt => exact .named io late created m_IDCnt
  identified := same.identified
  queued := same.queued

theorem Serves.listed (serves : running.Serves order first front count queued env performed server)
    {conn : ConnRef} (listed : some conn ∈ running.m_TCPConnections) :
    conn < server.created + count := by
  rw [serves.same.m_TCPConnections] at listed
  rcases List.mem_append.mp listed with isOld | isNew
  · exact Nat.lt_add_right count (serves.bounded.listed conn isOld)
  · rcases List.mem_map.mp isNew with ⟨other, inRange, same⟩
    cases same
    exact (List.mem_range'_1.mp inRange).2

theorem Coordinated.named (coordinated : running.Coordinated) {conn : ConnRef}
    (closed : (running.connection conn).IsConnected = false) : ¬running.Unnamed conn := by
  rintro ⟨io, newest⟩
  rcases coordinated.accepting with waits | ⟨stage, newconn, accepting⟩
  · exact Stage.thread_ne_idle conn .connecting (io.symm.trans waits)
  · have isNew : newconn = conn :=
      Nat.succ_injective (accepting.newest.trans newest.symm)
    have isConnected := accepting.isConnected
    rw [isNew, closed] at isConnected
    contradiction

theorem serialized_of_begun (coordinated : running.Coordinated)
    (made : (performed ++ [action]).filter Server.Action.isCall = calls)
    (runs : ∀ later : Environment, later.Extends env server.tick →
      Trace (Server.Step later) first performed base ∧
        base.step later action = server.finish later running.main)
    (course : Course server.m_TCPConnections.length running.main)
    (same : running.Matches [] count queued server)
    (bounded : server.Bounded running.main.pointers)
    (answers : running.Answers order server env)
    (proceeds : running.proceed order running.main = some (shared, after)) :
    { shared with main := after }.Serialized order first calls := by
  have moves := (moves_of_proceed coordinated.ordinary proceeds).1
  have named : ∀ place conn, running.main.doing = .removing place →
      running.pointer running.main place = some (some conn) → ¬running.Unnamed conn := by
    intro place conn isDoing points
    rcases coordinated.drops place (by rw [isDoing]; rfl) with ⟨client, isClient, closed⟩
    cases points.symm.trans isClient
    exact coordinated.named closed
  rcases follows_of_proceed answers same bounded course named (isConnected_of_moves moves) proceeds
    with ⟨answered, following, extendsEnv, tick, answersNext, sameNext, proceedsLater⟩
  have proceedsNow := proceedsLater answered (.refl answered _)
  have runsNext : ∀ later : Environment, later.Extends answered following.tick →
      Trace (Server.Step later) first performed base ∧
        base.step later action = following.finish later after := by
    intro later extends_
    rcases runs later ((extends_.mono tick).trans extendsEnv) with ⟨trace, performs⟩
    exact ⟨trace, performs.trans (proceedsLater later extends_).finish⟩
  exact .begun made runsNext (proceedsNow.course course) (sameNext.of_main rfl after)
    (proceedsNow.bounded bounded) ⟨answersNext.isOpen, answersNext.iterates⟩

theorem Serves.catchUp (serves : running.Serves order first front count queued env performed server)
    {pointers : List (Option ConnRef)}
    (held : ∀ conn, some conn ∈ pointers → conn < server.created + count) :
    ∃ later current, running.Serves order first front 0 [] env later current ∧
      current.Bounded pointers ∧
      later.filter Server.Action.isCall = performed.filter Server.Action.isCall ∧
      current.created = server.created + count ∧
      ∀ conn, current.laterID conn = server.laterID conn := by
  rcases serves.same.catchUp serves.bounded serves.answers with ⟨arrivals, current, caughtUp⟩
  have none_ : arrivals.filter Server.Action.isCall = [] := by
    apply List.filter_eq_nil_iff.mpr
    intro arrival member
    rcases caughtUp.arrive arrival member with rfl | ⟨conn, pkt, rfl⟩ <;> exact Bool.false_ne_true
  refine ⟨performed ++ arrivals, current, ⟨?_, caughtUp.same, caughtUp.bounded, caughtUp.answers⟩,
    ?_, ?_, caughtUp.created, caughtUp.laterID⟩
  · intro later extends_
    exact (serves.runs later (extends_.mono caughtUp.tick)).append (caughtUp.runs later extends_)
  · apply caughtUp.bounded.hold
    intro conn isHeld
    rw [caughtUp.created]
    exact held conn isHeld
  · rw [List.filter_append, none_, List.append_nil]

theorem Matches.popped {owned : OwnedPacket CMD} (same : running.Matches [owned] 0 [] server) :
    running.Matches [] 0 [] server.popped ∧ server.m_TCP_PktIn.head? = some owned := by
  have queue : server.m_TCP_PktIn = owned :: running.m_TCP_PktIn :=
    ((List.append_nil _).symm.trans same.m_TCP_PktIn.symm)
  refine ⟨⟨same.m_chaMap, same.m_TCPConnections, ?_, same.sent, same.m_sID, same.unnamed,
    same.accepts, same.identified, nofun⟩, by rw [queue]; rfl⟩
  rw [Server.popped, queue]
  exact (List.append_nil _).symm

theorem course_OnPacket {conn : ConnRef} {pkt : Packet CMD} {handled : Handled}
    (notAll : pkt.header.cmdID ≠ .MessageAll)
    (handles : running.OnPacket order (some conn) pkt = some handled) (stop : Nat)
    (pointers : List (Option ConnRef)) :
    Course stop ⟨pointers, .calling, handled.calls ++ [.destroy]⟩ := by
  cases command : pkt.header.cmdID with
  | Ping =>
      simp only [OnPacket, command, Option.bind_eq_bind, Option.bind_some] at handles
      rcases Option.bind_eq_some_iff.mp handles with ⟨extracted, -, isHandled⟩
      cases isHandled
      exact .notifies trivial (by simp)
  | MessageAll => exact absurd command notAll
  | SelfEnterWorld =>
      simp only [OnPacket, command, Option.bind_eq_bind, Option.bind_some, Option.some.injEq]
        at handles
      subst handles
      apply Course.notifies
      · trivial
      · intro call member
        simp only [List.mem_append, List.mem_cons, List.mem_mapIdx, List.mem_replicate] at member
        rcases member with (⟨index, -, rfl⟩ | rfl | ⟨-, rfl⟩) | rfl | isNil
        · exact .inr ⟨_, _, rfl⟩
        · exact .inr ⟨_, _, rfl⟩
        · exact .inl rfl
        · exact .inl rfl
        · cases isNil
  | MovePlayer =>
      simp only [OnPacket, command, Option.bind_eq_bind, Option.bind_some] at handles
      split at handles
      · cases handles
        exact .notifies trivial (by simp)
      · rcases Option.bind_eq_some_iff.mp handles with ⟨_, -, handlesX⟩
        rcases Option.bind_eq_some_iff.mp handlesX with ⟨_, -, handlesID⟩
        rcases Option.bind_eq_some_iff.mp handlesID with ⟨_, -, handlesWorld⟩
        rcases Option.ite_none_right_eq_some.mp handlesWorld with ⟨-, isHandled⟩
        cases isHandled
        exact .flags (by simp)
  | _ =>
      rw [OnPacket, command] at handles
      cases handles
      exact .notifies trivial (by simp)

theorem serialized_OnPacket {conn : ConnRef} {pkt : Packet CMD} {handled : Handled}
    (notAll : pkt.header.cmdID ≠ .MessageAll)
    (isIdentified : (running.connection conn).identified = true)
    (held : conn < server.created + count)
    (made : (performed ++ [Server.Action.process ⟨some conn, pkt⟩]).filter Server.Action.isCall =
      calls)
    (serves : running.Serves order first [⟨some conn, pkt⟩] count queued env performed server)
    (handles : running.OnPacket order (some conn) pkt = some handled) :
    Serialized order first calls { running with
      m_chaMap := handled.m_chaMap
      main := ⟨some conn :: handled.pointers, .calling, handled.calls ++ [Call.destroy]⟩ } := by
  have isHeld : ∀ other, some other ∈ [some conn] → other < server.created + count := by
    intro other member
    cases List.mem_singleton.mp member
    exact held
  rcases serves.catchUp isHeld with ⟨later, current, caughtUp, bounded, sameCalls, -, -⟩
  rcases caughtUp.same.popped with ⟨same, queue⟩
  have isCreated : conn < current.created := bounded.held conn (List.mem_singleton_self _)
  have m_sID : (running.connection conn).m_sID = current.popped.m_sID conn := by
    have isNamed := (caughtUp.same.identified conn isIdentified).2
    rw [caughtUp.same.m_sID conn isCreated isNamed, Server.laterID, if_pos isCreated]
    rfl
  rcases Server.begins_OnPacket same.m_chaMap m_sID caughtUp.answers.iterates notAll handles with
    ⟨tick, pings, tickLe, begins⟩
  have runs : ∀ answered : Environment, answered.Extends env tick →
      Trace (Server.Step answered) first later current ∧
        current.step answered (.process ⟨some conn, pkt⟩) =
          (current.popped.begun tick handled.m_chaMap pings).finish answered
            ⟨some conn :: handled.pointers, .calling, handled.calls ++ [.destroy]⟩ := by
    intro answered extends_
    refine ⟨caughtUp.runs answered (extends_.mono tickLe), ?_⟩
    rw [Server.step_process_eq_finish queue]
    exact begins answered extends_.iteration extends_.now extends_.clock
  have sameBegun : { running with m_chaMap := handled.m_chaMap }.Matches [] 0 []
      (current.popped.begun tick handled.m_chaMap pings) :=
    same.keep rfl rfl rfl rfl rfl rfl rfl rfl rfl rfl rfl same.m_TCPConnections
  have known := (handles_OnPacket handles).known
  have owned : ∀ other, other ∈ Server.owners handled.m_chaMap.entries ∨
      some other ∈ handled.pointers → other < current.created := by
    intro other isKnown
    rcases known other isKnown with inWorld | isConn
    · rw [caughtUp.same.m_chaMap] at inWorld
      exact bounded.owners other inWorld
    · cases isConn
      exact isCreated
  have boundedBegun : (current.popped.begun tick handled.m_chaMap pings).Bounded
      (some conn :: handled.pointers) := by
    constructor
    · exact bounded.listed
    · exact fun other member => owned other (.inl member)
    · intro other member
      rcases List.mem_cons.mp member with isConn | isNew
      · cases isConn
        exact isCreated
      · exact owned other (.inr isNew)
    · exact bounded.sent
    · exact bounded.reading
  have madeLater : (later ++ [Server.Action.process ⟨some conn, pkt⟩]).filter Server.Action.isCall =
      calls := by
    rw [List.filter_append, sameCalls, ← List.filter_append, made]
  exact .begun madeLater runs (course_OnPacket notAll handles _ _) (sameBegun.of_main rfl _)
    boundedBegun ⟨caughtUp.answers.isOpen, caughtUp.answers.iterates⟩

theorem serialized_SendToAll {pointer : Option ConnRef} {pkt : Packet CMD}
    (made : (performed ++ [action]).filter Server.Action.isCall = calls)
    (runs : ∀ later : Environment, later.Extends env server.tick →
      Trace (Server.Step later) first performed base ∧
        base.step later action =
          server.finish later ⟨[pointer], .calling, [.SendToAll pkt 0, .destroy]⟩)
    (same : running.Matches [] 0 [] server) (bounded : server.Bounded [pointer])
    (answers : running.Answers order server env) :
    { running with
      main := ⟨[pointer], .calling,
        [.sendToEach 0 running.m_TCPConnections.length false pkt 0, Call.destroy]⟩ }.Serialized
        order first calls := by
  have stop : running.m_TCPConnections.length = server.m_TCPConnections.length := by
    rw [same.m_TCPConnections]
    exact congrArg List.length (List.append_nil _)
  rw [stop]
  have runsNext : ∀ later : Environment, later.Extends env server.tick →
      Trace (Server.Step later) first performed base ∧
        base.step later action = server.finish later ⟨[pointer], .calling,
          [.sendToEach 0 server.m_TCPConnections.length false pkt 0, .destroy]⟩ := by
    intro later extends_
    rcases runs later extends_ with ⟨trace, performs⟩
    have starts : Server.Proceeds later server
        ⟨[pointer], .calling, [.SendToAll pkt 0, .destroy]⟩ server _ := .starts
    exact ⟨trace, performs.trans starts.finish⟩
  have course : Course server.m_TCPConnections.length ⟨[pointer], .calling,
      [.sendToEach 0 server.m_TCPConnections.length false pkt 0, .destroy]⟩ :=
    .loops trivial (Nat.zero_le _) rfl (by simp)
  exact .begun made runsNext course (same.of_main rfl _) bounded
    ⟨answers.isOpen, answers.iterates⟩

theorem Serialized.main (serialized : running.Serialized order first calls)
    (coordinated : running.Coordinated)
    (proceeds : running.proceed order running.main = some (shared, after)) :
    { shared with main := after }.Serialized order first calls := by
  cases serialized with
  | returned isIdle =>
      rw [isIdle] at proceeds
      cases proceeds
  | begun made runs course same bounded answers =>
      exact serialized_of_begun coordinated made runs course same bounded answers proceeds
  | @waits front count queued env performed server action waiting held made serves =>
      have madeLater : ∀ {later : List Server.Action}, later.filter Server.Action.isCall =
          performed.filter Server.Action.isCall →
          (later ++ [action]).filter Server.Action.isCall = calls := by
        intro later sameCalls
        rw [List.filter_append, sameCalls, ← List.filter_append, made]
      rcases serves.catchUp held with
        ⟨later, current, caughtUp, bounded, sameCalls, created, laterID⟩
      generalize isMain : running.main = thread at waiting held bounded
      cases waiting with
      | @Process conn pkt isIdentified =>
          rw [isMain] at proceeds
          have handling : ((running.OnPacket order (some conn) pkt).bind fun handled => some
              ({ running with m_chaMap := handled.m_chaMap },
                (⟨some conn :: handled.pointers, .calling, handled.calls ++ [.destroy]⟩ :
                  Thread))) = some (shared, after) := proceeds
          rcases Option.bind_eq_some_iff.mp handling with ⟨handled, handles, isNext⟩
          cases isNext
          have isKnown := held conn (List.mem_singleton_self _)
          by_cases isMessageAll : pkt.header.cmdID = .MessageAll
          · simp only [OnPacket, isMessageAll, Option.bind_eq_bind, Option.bind_some,
              Option.some.injEq] at handles
            subst handles
            have isNamed := (serves.same.identified conn isIdentified).2
            rw [serves.same.m_sID conn isKnown isNamed]
            exact .waits (.MessageAll isMessageAll) held made ⟨serves.runs,
              serves.same.of_main rfl _, serves.bounded,
              ⟨serves.answers.isOpen, serves.answers.iterates⟩⟩
          · have begins := serialized_OnPacket isMessageAll isIdentified isKnown made serves handles
            exact begins
      | @MessageAll conn pkt isMessageAll =>
          rw [isMain] at proceeds
          cases proceeds
          rcases caughtUp.same.popped with ⟨same, queue⟩
          have isCreated : conn < current.created := bounded.held conn (List.mem_singleton_self _)
          have m_sID : server.laterID conn = current.popped.m_sID conn := by
            rw [← laterID, Server.laterID, if_pos isCreated]
            rfl
          have runs : ∀ answered : Environment, answered.Extends env current.tick →
              Trace (Server.Step answered) first later current ∧
                current.step answered (.process ⟨some conn, pkt⟩) =
                  current.popped.finish answered ⟨[some conn], .calling,
                    [.SendToAll (Server.emptyPacket .ServerMessage <<< server.laterID conn) 0,
                      .destroy]⟩ := by
            intro answered extends_
            refine ⟨caughtUp.runs answered extends_, ?_⟩
            rw [Server.step_process_eq_finish queue, m_sID]
            exact Server.finish_messageAll isMessageAll
          exact serialized_SendToAll (madeLater sameCalls) runs same { bounded with }
            ⟨caughtUp.answers.isOpen, caughtUp.answers.iterates⟩
      | @SendToClient client pkt =>
          have isCreated : client < current.created :=
            bounded.held client (List.mem_singleton_self _)
          have runs : ∀ answered : Environment, answered.Extends env current.tick →
              Trace (Server.Step answered) first later current ∧
                current.step answered (.sendToClient client pkt) =
                  current.finish answered running.main := by
            intro answered extends_
            rw [isMain]
            exact ⟨caughtUp.runs answered extends_,
              Server.step_sendToClient_eq_finish (bounded.reading client isCreated)⟩
          have course : Course current.m_TCPConnections.length running.main := by
            rw [isMain]
            exact .notifies trivial (by simp)
          rw [← isMain] at bounded
          exact serialized_of_begun coordinated (madeLater sameCalls) runs course caughtUp.same
            bounded caughtUp.answers proceeds
      | @SendToAll ignore_client pkt =>
          rw [isMain] at proceeds
          cases proceeds
          have runs : ∀ answered : Environment, answered.Extends env current.tick →
              Trace (Server.Step answered) first later current ∧
                current.step answered (.sendToAll pkt ignore_client) =
                  current.finish answered ⟨[ignore_client], .calling,
                    [.SendToAll pkt 0, .destroy]⟩ := by
            intro answered extends_
            exact ⟨caughtUp.runs answered extends_, Server.step_sendToAll_eq_finish⟩
          exact serialized_SendToAll (madeLater sameCalls) runs caughtUp.same bounded
            caughtUp.answers

theorem Serialized.step {act : Action} (serialized : running.Serialized order first calls)
    (coordinated : running.Coordinated) (introduced : running.Introduced padding)
    (fitting : running.Fitting) (step : Step order padding running act next) :
    next.Serialized order first (calls ++ running.mainCalls act) := by
  have performs := performs_of_step coordinated step
  have meanwhile : next.main = running.main → running.mainCalls act = [] →
      (∀ front count queued server, running.Matches front count queued server →
        ∃ later more, count ≤ later ∧ next.Matches front later more server) →
      next.Serialized order first (calls ++ running.mainCalls act) := by
    intro main noCall matches_
    rw [noCall, List.append_nil]
    exact serialized.meanwhile main matches_ (opened_before performs)
      fun conn => identified_of_performs performs
  have made : ∀ {performed : List Server.Action} {action : Server.Action},
      performed.filter Server.Action.isCall = calls → action.isCall = true →
      running.mainCalls act = [action] →
      (performed ++ [action]).filter Server.Action.isCall = calls ++ running.mainCalls act := by
    intro performed action isMade isCall noted
    rw [List.filter_append, isMade, noted, List.filter_singleton, isCall]
    rfl
  cases performs with
  | accept waits =>
      exact meanwhile rfl rfl fun front count queued server same =>
        ⟨count, queued, Nat.le_refl _, same.accept waits⟩
  | @Process owned rest queue returned =>
      rcases serialized.of_returned returned with
        ⟨count, queued, env, performed, server, isMade, serves⟩
      have inQueue : owned ∈ running.m_TCP_PktIn := queue ▸ List.mem_cons_self
      rcases introduced.queued owned inQueue with ⟨conn, owner, isIdentified⟩
      rcases owned with ⟨connectionPtr, pkt⟩
      cases owner
      have popped : running.mainCalls .Process = [.process ⟨some conn, pkt⟩] := by
        rw [mainCalls, queue]
        rfl
      refine .waits (.Process isIdentified) ?_ (made isMade rfl popped) ⟨serves.runs,
        serves.same.of_main queue.symm _, serves.bounded,
        ⟨serves.answers.isOpen, serves.answers.iterates⟩⟩
      intro other member
      cases List.mem_singleton.mp member
      exact (serves.same.identified conn isIdentified).1
  | @SendToClient client pkt returned listed =>
      rcases serialized.of_returned returned with
        ⟨count, queued, env, performed, server, isMade, serves⟩
      refine .waits .SendToClient ?_ (made isMade rfl rfl) ⟨serves.runs,
        serves.same.of_main rfl _, serves.bounded,
        ⟨serves.answers.isOpen, serves.answers.iterates⟩⟩
      intro other member
      cases List.mem_singleton.mp member
      exact serves.listed listed
  | @SendToAll pkt ignore_client returned listed =>
      rcases serialized.of_returned returned with
        ⟨count, queued, env, performed, server, isMade, serves⟩
      refine .waits .SendToAll ?_ (made isMade rfl rfl) ⟨serves.runs,
        serves.same.of_main rfl _, serves.bounded,
        ⟨serves.answers.isOpen, serves.answers.iterates⟩⟩
      intro other member
      cases List.mem_singleton.mp member
      exact serves.listed (listed.resolve_left (Option.some_ne_none other))
  | main moves =>
      rcases Option.map_eq_some_iff.mp step with ⟨⟨shared, after⟩, proceeds, isNext⟩
      rw [← isNext, mainCalls, List.append_nil]
      exact serialized.main coordinated proceeds
  | @io stage newconn accepting =>
      refine meanwhile ?_ rfl fun front count queued server same => ?_
      · cases stage <;> rfl
      · rcases same.after introduced accepting with ⟨later, grows, sameAfter⟩
        exact ⟨later, queued, grows, sameAfter⟩
  | write =>
      exact meanwhile rfl rfl fun front count queued server same =>
        ⟨count, queued, Nat.le_refl _, same.modify fun _ => ⟨rfl, rfl, rfl⟩⟩
  | @read conn action reader ready reads =>
      refine meanwhile rfl rfl fun front count queued server same => ?_
      rcases same.reads introduced fitting reads with ⟨pushed, sameNext⟩
      exact ⟨count, queued ++ pushed, Nat.le_refl _, sameNext⟩

end Steps

theorem bounded_start (m_IDCnt : UInt32) (m_sID : ConnRef → UInt32) :
    (Server.start m_IDCnt m_sID).Bounded [] where
  listed _ member := absurd member List.not_mem_nil
  owners _ member := absurd member List.not_mem_nil
  held _ member := absurd member List.not_mem_nil
  sent _ member := absurd member List.not_mem_nil
  reading _ isCreated := absurd isCreated (Nat.not_lt_zero _)

theorem matches_start (m_IDCnt : UInt32) (m_sID : ConnRef → UInt32) :
    (start m_IDCnt m_sID).Matches [] 0 [] (Server.start m_IDCnt m_sID) where
  m_chaMap := rfl
  m_TCPConnections := rfl
  m_TCP_PktIn := rfl
  sent _ isKnown := absurd isKnown (Nat.not_lt_zero _)
  m_sID _ isKnown := absurd isKnown (Nat.not_lt_zero _)
  unnamed _ isKnown := absurd isKnown (Nat.not_lt_zero _)
  accepts := .waits rfl rfl (UInt32.add_zero m_IDCnt).symm
  identified _ isIdentified := absurd isIdentified Bool.false_ne_true
  queued _ member := absurd member List.not_mem_nil

theorem serialized_of_trace {order : Iteration} {padding : ConnRef → Nat → UInt16}
    {m_IDCnt : UInt32} {m_sID : ConnRef → UInt32} {actions : List Action}
    {running : RunningServer}
    (trace : Trace (Step order padding) (start m_IDCnt m_sID) actions running) :
    running.Serialized order (Server.start m_IDCnt m_sID)
        (noted (step order padding) mainCalls (start m_IDCnt m_sID) actions) ∧ running.Fitting := by
  apply trace.snoc_induction (motive := fun actions running =>
    running.Serialized order (Server.start m_IDCnt m_sID)
        (noted (step order padding) mainCalls (start m_IDCnt m_sID) actions) ∧ running.Fitting)
  · have answers : (start m_IDCnt m_sID).Answers order (Server.start m_IDCnt m_sID)
        order.environment :=
      ⟨fun _ _ _ => rfl, fun _ m_chaMap => dif_pos m_chaMap.nodupKeys⟩
    exact ⟨.returned rfl rfl ⟨fun _ _ => .nil _, matches_start m_IDCnt m_sID,
      bounded_start m_IDCnt m_sID, answers⟩, fitting_start m_IDCnt m_sID⟩
  · rintro before middle action next front ⟨serialized, fitting⟩ step
    have coordinated := coordinated_of_trace front
    have stepped := serialized.step coordinated (introduced_of_trace front) fitting step
    rw [noted_snoc mainCalls front]
    exact ⟨stepped, fitting.step (performs_of_step coordinated step)⟩

/-- What the running server is between two calls of the main thread, but for a connection
that is just being accepted. -/
structure Reflects (running : RunningServer) (server : Server) : Prop where
  m_chaMap : running.m_chaMap = server.m_chaMap
  m_TCPConnections : running.m_TCPConnections = server.m_TCPConnections
  m_TCP_PktIn : running.m_TCP_PktIn = server.m_TCP_PktIn
  sent : ∀ conn < server.created, (running.connection conn).sent = server.sentTo conn
  m_sID : ∀ conn < server.created, ¬running.Unnamed conn →
    (running.connection conn).m_sID = server.m_sID conn
  identified : ∀ conn, (running.connection conn).identified = true →
    conn < server.created ∧ ¬running.Unnamed conn
  created : running.created = server.created ∨
    running.created = server.created + 1 ∧ running.io ≠ .idle
  m_IDCnt : running.io = .idle → running.m_IDCnt = server.m_IDCnt

theorem Serves.reflects {order : Iteration} {first server : Server} {running : RunningServer}
    {env : Environment} {performed : List Server.Action}
    (serves : running.Serves order first [] 0 [] env performed server) :
    running.Reflects server where
  m_chaMap := serves.same.m_chaMap
  m_TCPConnections := serves.same.m_TCPConnections.trans (List.append_nil _)
  m_TCP_PktIn := serves.same.m_TCP_PktIn.trans (List.append_nil _)
  sent conn isCreated := serves.same.sent_of_created isCreated
  m_sID conn isCreated isNamed := by
    rw [serves.same.m_sID conn isCreated isNamed]
    exact if_pos isCreated
  identified conn isIdentified := serves.same.identified conn isIdentified
  created := by
    cases serves.same.accepts with
    | waits _ created | unnamed _ _ created | named _ _ created => exact .inl created
    | unlisted io _ created sent =>
        exact .inr ⟨created, io ▸ Stage.thread_ne_idle _ _⟩
  m_IDCnt waits := by
    cases serves.same.accepts with
    | waits _ _ m_IDCnt | named _ _ _ m_IDCnt | unlisted _ _ _ m_IDCnt =>
        exact m_IDCnt.trans (UInt32.add_zero _)
    | unnamed io => exact absurd (io.symm.trans waits) (Stage.thread_ne_idle _ _)

/-- Between two calls the running server is on a run of the one that does all at once, in
which nothing is put off and the same calls were made. -/
theorem serves_of_trace {order : Iteration} {padding : ConnRef → Nat → UInt16}
    {m_IDCnt : UInt32} {m_sID : ConnRef → UInt32} {actions : List Action}
    {running : RunningServer}
    (trace : Trace (Step order padding) (start m_IDCnt m_sID) actions running)
    (returned : running.main = .idle) :
    ∃ env performed server,
      performed.filter Server.Action.isCall =
        noted (step order padding) mainCalls (start m_IDCnt m_sID) actions ∧
      running.Serves order (Server.start m_IDCnt m_sID) [] 0 [] env performed server := by
  rcases (serialized_of_trace trace).1.of_returned returned with
    ⟨count, queued, env, performed, server, made, serves⟩
  have holdsNone : ∀ conn, some conn ∈ ([] : List (Option ConnRef)) →
      conn < server.created + count := fun _ member => absurd member List.not_mem_nil
  rcases serves.catchUp holdsNone with ⟨later, current, caughtUp, -, sameCalls, -, -⟩
  exact ⟨env, later, current, sameCalls.trans made, caughtUp⟩

end RunningServer

end GNL
