import GNL.Server.Finish
import GNL.Server.Moves

/-! # The first step of a handler

`OnPacket` of the running server and of the server that does all at once, on a world that
both see alike: the first step of the one leaves the rest of the other.
-/

namespace GNL

structure Environment.Extends (later env : Environment) (tick : Nat) : Prop where
  isOpen : ∀ earlier < tick, ∀ conn, later.isOpen earlier conn = env.isOpen earlier conn
  iteration : later.iteration = env.iteration
  now : later.now = env.now
  clock : later.clock = env.clock

theorem Environment.Extends.refl (env : Environment) (tick : Nat) : env.Extends env tick :=
  ⟨fun _ _ _ => rfl, rfl, rfl, rfl⟩

theorem Environment.Extends.mono {later env : Environment} {tick before : Nat}
    (extends_ : later.Extends env tick) (order : before ≤ tick) : later.Extends env before :=
  ⟨fun earlier less => extends_.isOpen earlier (Nat.lt_of_lt_of_le less order),
    extends_.iteration, extends_.now, extends_.clock⟩

theorem Environment.Extends.trans {last later env : Environment} {tick : Nat}
    (second : last.Extends later tick) (first : later.Extends env tick) :
    last.Extends env tick :=
  ⟨fun earlier less conn => (second.isOpen earlier less conn).trans
      (first.isOpen earlier less conn), second.iteration.trans first.iteration,
    second.now.trans first.now, second.clock.trans first.clock⟩

namespace Server

variable {order : Iteration} {running : RunningServer} {env : Environment} {server : Server}
  {conn : ConnRef} {pkt : Packet CMD} {handled : RunningServer.Handled}

def begun (server : Server) (tick : Nat) (m_chaMap : ChaMap) (pings : List Int64) : Server :=
  { server with tick, m_chaMap, pings }

def Begins (env : Environment) (server : Server) (conn : ConnRef) (pkt : Packet CMD)
    (handled : RunningServer.Handled) : Prop :=
  ∃ tick pings, server.tick ≤ tick ∧ ∀ later : Environment, later.iteration = env.iteration →
    later.now = env.now → later.clock = env.clock →
      finish later ⟨[some conn], .calling, [.OnPacket pkt, .destroy]⟩ server =
        finish later ⟨some conn :: handled.pointers, .calling, handled.calls ++ [.destroy]⟩
          (server.begun tick handled.m_chaMap pings)

theorem begins_Ping (m_chaMap : running.m_chaMap = server.m_chaMap)
    (isPing : pkt.header.cmdID = .Ping)
    (handles : running.OnPacket order (some conn) pkt = some handled) :
    Begins env server conn pkt handled := by
  simp only [RunningServer.OnPacket, isPing, Option.bind_eq_bind, Option.bind_some] at handles
  rcases Option.bind_eq_some_iff.mp handles with ⟨⟨timeRec, rest⟩, extracted, isHandled⟩
  cases isHandled
  refine ⟨server.tick, server.pings ++ [env.clock.milliseconds (env.now server.tick) - timeRec],
    Nat.le_refl _, ?_⟩
  intro later _ now clock
  rw [finish_OnPacket, OnPacket, isPing]
  simp only [onPing, deref, bind, Except.bind, toOption_eq_some_iff.mp extracted, now, clock]
  rw [List.singleton_append, finish_single, begun, m_chaMap]
  change _ = ((SendToClient later _ (some conn) (rest <<< timeRec)).toOption.bind fun told =>
    some ([some conn].set 0 told.1, told.2)).map Prod.snd
  cases SendToClient later _ (some conn) (rest <<< timeRec) <;> rfl

theorem onSelfEnterWorld_eq_sends (env : Environment) (server : Server) (conn : ConnRef)
    (pkt : Packet CMD) :
    let inside := { server with m_chaMap := server.entered conn }
    let entries := env.iteration server.tick (server.entered conn).entries
    (server.onSelfEnterWorld env (some conn) pkt).toOption.map (fun handled => handled.2.2) =
      (notifyEach env (positionPacket .PlyEnterWorld (server.newCharacter conn))
        (entries.map fun entry => entry.2.GetTCPConnection) inside.asked).toOption.bind fun told =>
          (told.SendToClient env (some conn)
            (worldPacket entries (server.newCharacter conn))).toOption.map Prod.snd := by
  intro inside entries
  change (((notifyEach env (positionPacket .PlyEnterWorld (server.newCharacter conn))
    (entries.map fun entry => entry.2.GetTCPConnection) inside.asked) >>= fun told =>
      (told.SendToClient env (some conn) (worldPacket entries (server.newCharacter conn))) >>=
        fun sent => .ok (sent.1, pkt, sent.2)).toOption).map _ = _
  cases notifyEach env (positionPacket .PlyEnterWorld (server.newCharacter conn))
      (entries.map fun entry => entry.2.GetTCPConnection) inside.asked with
  | error fault => rfl
  | ok told =>
      change ((told.SendToClient env (some conn)
        (worldPacket entries (server.newCharacter conn))) >>=
          fun sent => .ok (sent.1, pkt, sent.2)).toOption.map _ = (told.SendToClient env
            (some conn) (worldPacket entries (server.newCharacter conn))).toOption.map _
      cases told.SendToClient env (some conn) (worldPacket entries (server.newCharacter conn)) <;>
        rfl

theorem performCalls_reply (env : Environment) (server : Server) (conn : ConnRef)
    (others : List (Option ConnRef)) (pkt : Packet CMD) (count : Nat) :
    performCalls env (.SendToClient 0 pkt :: List.replicate count .destroy)
        (some conn :: others) server =
      (server.SendToClient env (some conn) pkt).toOption.map Prod.snd := by
  change ((server.SendToClient env (some conn) pkt).toOption.bind fun told =>
    some ((some conn :: others).set 0 told.1, told.2)).bind (fun performed =>
      performCalls env (List.replicate count .destroy) performed.1 performed.2) = _
  cases (server.SendToClient env (some conn) pkt).toOption with
  | none => rfl
  | some told => exact performCalls_destroys env count _ _

theorem begins_SelfEnterWorld (m_chaMap : running.m_chaMap = server.m_chaMap)
    (m_sID : (running.connection conn).m_sID = server.m_sID conn)
    (iterates : ∀ tick (m_chaMap : ChaMap),
      env.iteration tick m_chaMap.entries = order.entries m_chaMap)
    (enters : pkt.header.cmdID = .SelfEnterWorld)
    (handles : running.OnPacket order (some conn) pkt = some handled) :
    Begins env server conn pkt handled := by
  have sameCharacter : running.newCharacter conn = server.newCharacter conn := by
    rw [RunningServer.newCharacter, m_sID]
    rfl
  simp only [RunningServer.OnPacket, enters, Option.bind_eq_bind, Option.bind_some,
    Option.some.injEq, sameCharacter, m_chaMap] at handles
  subst handles
  refine ⟨server.tick + 1, server.pings, Nat.le_succ _, ?_⟩
  intro later iteration _ _
  let entries := order.entries (server.entered conn)
  have sameEntries : later.iteration server.tick (server.entered conn).entries = entries := by
    rw [iteration]
    exact iterates _ _
  have points : ∀ index client,
      (entries.map fun entry => entry.2.GetTCPConnection)[index]? = some client →
      (some conn :: (server.newCharacter conn).GetTCPConnection ::
        entries.map fun entry => entry.2.GetTCPConnection)[2 + index]? = some client := by
    intro index client isClient
    rw [Nat.add_comm 2]
    exact isClient
  rw [finish_OnPacket, OnPacket, enters, onSelfEnterWorld_eq_sends, sameEntries, List.append_assoc,
    List.cons_append, ← List.replicate_succ']
  refine Eq.trans ?_ (performCalls_notify (firstOnly_replies later _ _)
    (entries.map fun entry => entry.2.GetTCPConnection) Nat.two_pos points _).symm
  apply congrArg (Option.bind _)
  funext told
  exact (performCalls_reply later told conn _ _ _).symm

theorem flagEach_congr (cha other : Character) (sameID : cha.GetID = other.GetID)
    (pkt : Packet CMD) (entries : List ChaEntry) (server : Server) :
    flagEach cha pkt entries server = flagEach other pkt entries server := by
  induction entries generalizing server with
  | nil => rfl
  | cons entry rest induction =>
      simp only [flagEach, sameID, induction]

theorem entriesAt_keys {entries : List ChaEntry}
    (inWorld : ∀ entry ∈ entries, server.m_chaMap.lookup entry.1 = some entry.2) :
    server.entriesAt (entries.map Sigma.fst) = entries := by
  induction entries with
  | nil => rfl
  | cons entry rest induction =>
      rcases List.forall_mem_cons.mp inWorld with ⟨found, foundRest⟩
      have restEntries := induction foundRest
      rw [entriesAt] at restEntries ⊢
      rw [List.map_cons, List.filterMap_cons, found, restEntries]
      rfl

theorem onMovePlayer_eq_flagEach (env : Environment) {cha : Character} {y x : Double} {id : UInt16}
    {afterY afterX rest : Packet CMD}
    (found : server.m_chaMap.lookup (server.m_sID conn) = some cha)
    (extractY : pkt.extract Double = .ok (y, afterY))
    (extractX : afterY.extract Double = .ok (x, afterX))
    (extractID : afterX.extract UInt16 = .ok (id, rest)) (inWorld : cha.m_World = true) :
    let moved := server.m_chaMap.insert (server.m_sID conn) { cha with pos := (x, y) }
    (server.onMovePlayer env (some conn) pkt).toOption.map (fun handled => handled.2.2) =
      (flagEach { cha with pos := (x, y) } (positionPacket .MovePlayer { cha with pos := (x, y) })
        (env.iteration server.tick moved.entries)
          (server.begun (server.tick + 1) moved server.pings)).toOption := by
  intro moved
  simp only [moved, onMovePlayer, deref, bind, Except.bind, found, extractY, extractX, extractID,
    SetPos, inWorld, if_true, FlagMoveUpdate, iterate, asked, begun]
  generalize flagEach _ _ _ _ = flagged
  cases flagged <;> rfl

theorem begins_MovePlayer (m_chaMap : running.m_chaMap = server.m_chaMap)
    (m_sID : (running.connection conn).m_sID = server.m_sID conn)
    (iterates : ∀ tick (m_chaMap : ChaMap),
      env.iteration tick m_chaMap.entries = order.entries m_chaMap)
    (moves : pkt.header.cmdID = .MovePlayer)
    (handles : running.OnPacket order (some conn) pkt = some handled) :
    Begins env server conn pkt handled := by
  simp only [RunningServer.OnPacket, moves, Option.bind_eq_bind, Option.bind_some, m_chaMap,
    m_sID] at handles
  split at handles
  next absent =>
    cases handles
    rw [m_sID] at absent
    refine ⟨server.tick, server.pings, Nat.le_refl _, ?_⟩
    intro later _ _ _
    rw [finish_OnPacket, OnPacket, moves]
    simp only [onMovePlayer, deref, bind, Except.bind, absent]
    rfl
  next cha found =>
    rw [m_sID] at found
    rcases Option.bind_eq_some_iff.mp handles with ⟨⟨y, afterY⟩, extractY, handlesX⟩
    rcases Option.bind_eq_some_iff.mp handlesX with ⟨⟨x, afterX⟩, extractX, handlesID⟩
    rcases Option.bind_eq_some_iff.mp handlesID with ⟨⟨id, rest⟩, extractID, handlesWorld⟩
    rcases Option.ite_none_right_eq_some.mp handlesWorld with ⟨inWorld, isHandled⟩
    cases isHandled
    clear handles handlesX handlesID handlesWorld
    refine ⟨server.tick + 1, server.pings, Nat.le_succ _, ?_⟩
    intro later iteration _ _
    let moved := server.m_chaMap.insert (server.m_sID conn) { cha with pos := (x, y) }
    have sameEntries : later.iteration server.tick moved.entries = order.entries moved := by
      rw [iteration]
      exact iterates _ _
    have keyed : entriesAt (server.begun (server.tick + 1) moved server.pings)
        ((order.entries moved).map Sigma.fst) = order.entries moved := by
      apply entriesAt_keys
      intro entry member
      exact AList.mem_lookup_iff.mpr ((order.perm moved).mem_iff.mp member)
    rw [finish_OnPacket, OnPacket, moves]
    refine (onMovePlayer_eq_flagEach later found (toOption_eq_some_iff.mp extractY)
      (toOption_eq_some_iff.mp extractX) (toOption_eq_some_iff.mp extractID) inWorld).trans ?_
    rw [sameEntries]
    refine Eq.trans ?_ (finish_single later _ (some conn) _).symm
    have sameFlags := flagEach_congr { cha with pos := (x, y) }
      ((default : Character).SetID cha.GetID) rfl
      (positionPacket .MovePlayer { cha with pos := (x, y) }) (order.entries moved)
      (server.begun (server.tick + 1) moved server.pings)
    refine (congrArg Except.toOption sameFlags).trans ?_
    change _ = ((flagEach ((default : Character).SetID cha.GetID)
      (positionPacket .MovePlayer { cha with pos := (x, y) }) (entriesAt _ _) _).toOption.bind
        fun after => some ([some conn], after)).map Prod.snd
    rw [keyed]
    cases (flagEach ((default : Character).SetID cha.GetID) _ (order.entries moved) _).toOption <;>
      rfl

theorem begins_other (m_chaMap : running.m_chaMap = server.m_chaMap)
    (handles : some ⟨running.m_chaMap, [], []⟩ = some handled)
    (ignores : ∀ later : Environment, server.OnPacket later (some conn) pkt =
      .ok (some conn, pkt, server)) :
    Begins env server conn pkt handled := by
  cases handles
  refine ⟨server.tick, server.pings, Nat.le_refl _, ?_⟩
  intro later _ _ _
  rw [finish_OnPacket, ignores, m_chaMap]
  rfl

theorem begins_OnPacket (m_chaMap : running.m_chaMap = server.m_chaMap)
    (m_sID : (running.connection conn).m_sID = server.m_sID conn)
    (iterates : ∀ tick (m_chaMap : ChaMap),
      env.iteration tick m_chaMap.entries = order.entries m_chaMap)
    (notAll : pkt.header.cmdID ≠ .MessageAll)
    (handles : running.OnPacket order (some conn) pkt = some handled) :
    Begins env server conn pkt handled := by
  cases command : pkt.header.cmdID with
  | Ping => exact begins_Ping m_chaMap command handles
  | MessageAll => exact absurd command notAll
  | SelfEnterWorld => exact begins_SelfEnterWorld m_chaMap m_sID iterates command handles
  | MovePlayer => exact begins_MovePlayer m_chaMap m_sID iterates command handles
  | _ =>
      rw [RunningServer.OnPacket, command] at handles
      apply begins_other m_chaMap handles
      intro later
      rw [OnPacket, command]

end Server

end GNL
