import GNL.Server.Following
import GNL.Server.Lifetime

/-! # What happens meanwhile

Connections are accepted and packets are read at any moment of a call of the main thread.
Where they are put off until the call is over, they leave the server as it is.
-/

namespace GNL

structure Reader.Fits (conn : Reader CMD) : Prop where
  body : conn.m_tmpPktIn.body.length < 2 ^ 32
  data : ∀ length, .data length ∈ conn.reading → length < 2 ^ 32

theorem Reader.Fits.step {conn next : Reader CMD} {action : Reader.Action} (fits : conn.Fits)
    (step : Reader.Step conn action next) : next.Fits ∧ ∃ pushed,
      next.m_PktIn = conn.m_PktIn ++ pushed ∧ ∀ owned ∈ pushed,
        owned.connectionPtr = conn.connectionPtr ∧ owned.pkt.body.length < 2 ^ 32 ∧
          conn.reading ≠ [] := by
  cases action with
  | arrive bytes =>
      cases step
      exact ⟨⟨fits.body, fits.data⟩, [], (List.append_nil _).symm, by simp⟩
  | complete =>
      rcases Reader.complete_cases step with
        ⟨others, reading, -, rfl⟩ | ⟨length, others, reading, enough, rfl⟩
      · have later : ∀ length, .data length ∈ others → length < 2 ^ 32 := fun length member =>
          fits.data length (by simp [reading, member])
        simp only [Reader.headerRead]
        split
        · refine ⟨⟨?_, ?_⟩, [], (List.append_nil _).symm, by simp⟩
          · simpa [Reader.ReadData, Packet.length_resize] using UInt32.toNat_lt _
          · intro length member
            rcases List.mem_append.mp member with before | isNew
            · exact later length before
            · cases List.mem_singleton.mp isNew
              simpa [Packet.length_resize] using UInt32.toNat_lt _
        · refine ⟨⟨fits.body, ?_⟩, _, rfl, ?_⟩
          · intro length member
            rcases List.mem_append.mp member with before | isNew
            · exact later length before
            · cases List.mem_singleton.mp isNew
          · exact List.forall_mem_singleton.mpr ⟨rfl, fits.body, by simp [reading]⟩
      · have isData : length < 2 ^ 32 := fits.data length (by simp [reading])
        have taken : (conn.unread.take length).length < 2 ^ 32 := by
          rw [List.length_take, Nat.min_eq_left enough]
          exact isData
        refine ⟨⟨taken, ?_⟩, _, rfl, ?_⟩
        · intro other member
          rcases List.mem_append.mp member with before | isNew
          · have isReading : PendingRead.data other ∈ others := before
            exact fits.data other (by simp [reading, isReading])
          · cases List.mem_singleton.mp isNew
        · exact List.forall_mem_singleton.mpr ⟨rfl, taken, by simp [reading]⟩
  | fail =>
      simp only [Reader.Step, Reader.step, Reader.fail] at step
      split at step
      · contradiction
      next read others reading =>
        cases step
        refine ⟨⟨fits.body, ?_⟩, [], (List.append_nil _).symm, by simp⟩
        exact fun length member => fits.data length (by simp [reading, show _ ∈ others from member])

namespace RunningServer

variable {order : Iteration} {padding : ConnRef → Nat → UInt16} {running next : RunningServer}
  {front queued : List (OwnedPacket CMD)} {count : Nat} {server : Server} {conn newconn : ConnRef}

def Fitting (running : RunningServer) : Prop := ∀ conn, (running.connection conn).reader.Fits

theorem fitting_start (m_IDCnt : UInt32) (m_sID : ConnRef → UInt32) :
    (start m_IDCnt m_sID).Fitting := by
  intro conn
  refine ⟨?_, by simp [start, ServerConnection.make]⟩
  exact (by decide : (default : Packet CMD).body.length < 2 ^ 32)

theorem Fitting.modify (fitting : running.Fitting) {change : ServerConnection → ServerConnection}
    (connection : next.connection = (running.modify conn change).connection)
    (fits : (change (running.connection conn)).reader.Fits) : next.Fitting := by
  intro other
  rw [connection]
  exact connection_modify_of running (fun _ changed => changed.reader.Fits) fits (fitting other)

theorem Fitting.step {action : Action} (fitting : running.Fitting)
    (performs : Performs padding running action next) : next.Fitting := by
  cases performs with
  | @main shared after moves =>
      rcases connection_of_moves moves with same | ⟨-, conn, pkt, rfl, -, -⟩
      · intro conn
        change (shared.connection conn).reader.Fits
        rw [same]
        exact fitting conn
      · have same : { running.SendPacket conn pkt with main := after }.connection =
          (running.modify conn (·.SendPacket pkt)).connection := rfl
        exact fitting.modify same (fitting conn)
  | @io stage newconn =>
      cases stage with
      | sending => exact fitting.modify (connection_after .sending newconn) (fitting newconn)
      | connecting => exact fitting.modify (connection_after .connecting newconn) (fitting newconn)
      | reading =>
          refine fitting.modify (connection_after .reading newconn) ⟨(fitting newconn).body, ?_⟩
          intro length member
          rcases List.mem_append.mp member with before | isNew
          · exact (fitting newconn).data length before
          · cases List.mem_singleton.mp isNew
      | _ => exact fitting
  | @write conn action writer =>
      have same : (running.modify conn ({ · with writer })).connection =
        (running.modify conn ({ · with writer })).connection := rfl
      exact fitting.modify same (fitting conn)
  | @read conn action reader ready reads =>
      have before : Reader.Fits
          { (running.connection conn).reader with m_PktIn := running.m_TCP_PktIn } :=
        ⟨(fitting conn).body, (fitting conn).data⟩
      have after := (before.step reads).1
      let change : ServerConnection → ServerConnection :=
        ({ · with reader := { reader with m_PktIn := [] } })
      have same : { running.modify conn change with m_TCP_PktIn := reader.m_PktIn }.connection =
        (running.modify conn change).connection := rfl
      exact fitting.modify same ⟨after.body, after.data⟩
  | _ => exact fitting

namespace Matches

theorem stage_eq {first second : Stage} {other : ConnRef}
    (same : first.thread conn = second.thread other) : first = second := by
  cases first <;> cases second <;>
    first
    | rfl
    | simp [Stage.thread, Thread.acceptHandler] at same

theorem unlisted {stage : Stage} (same : running.Matches front count queued server)
    (accepting : running.AcceptingAt stage newconn)
    (early : stage = .greeting ∨ stage = .sending ∨ stage = .listing) :
    newconn = server.created + count ∧ running.created = server.created + count + 1 ∧
      running.m_IDCnt = server.m_IDCnt + UInt32.ofNat count ∧
        (stage = .listing → (running.connection newconn).sent = [Server.acceptPacket]) := by
  cases same.accepts with
  | waits io => exact absurd (accepting.io.symm.trans io) (Stage.thread_ne_idle _ _)
  | unlisted io isEarly created m_IDCnt sent =>
      have isStage := stage_eq (io.symm.trans accepting.io)
      have isNext : newconn = server.created + count :=
        Nat.succ_injective (accepting.newest.trans created)
      exact ⟨isNext, created, m_IDCnt, fun listing => isNext ▸ sent (isStage.trans listing)⟩
  | unnamed io =>
      rw [← stage_eq (io.symm.trans accepting.io)] at early
      simp at early
  | named io late =>
      rw [stage_eq (io.symm.trans accepting.io)] at late
      rcases early with rfl | rfl | rfl <;> simp at late

theorem listed {stage : Stage} (same : running.Matches front count queued server)
    (accepting : running.AcceptingAt stage newconn)
    (listed : stage = .connecting ∨ stage = .reading ∨ stage = .returning) :
    newconn + 1 = server.created + count ∧ running.created = server.created + count ∧
      (stage = .connecting → running.m_IDCnt + 1 = server.m_IDCnt + UInt32.ofNat count) ∧
        (stage ≠ .connecting → running.m_IDCnt = server.m_IDCnt + UInt32.ofNat count) := by
  cases same.accepts with
  | waits io => exact absurd (accepting.io.symm.trans io) (Stage.thread_ne_idle _ _)
  | unlisted io early =>
      rw [stage_eq (io.symm.trans accepting.io)] at early
      rcases listed with rfl | rfl | rfl <;> simp at early
  | unnamed io newest created m_IDCnt =>
      have isStage := stage_eq (io.symm.trans accepting.io)
      exact ⟨accepting.newest.trans created, created, fun _ => m_IDCnt,
        fun notStage => absurd isStage.symm notStage⟩
  | named io late created m_IDCnt =>
      have isStage := stage_eq (io.symm.trans accepting.io)
      refine ⟨accepting.newest.trans created, created, ?_, fun _ => m_IDCnt⟩
      rintro rfl
      simp [isStage] at late

theorem unnamed_iff {stage : Stage} (io : running.io = stage.thread newconn) :
    running.Unnamed conn ↔ stage = .connecting ∧ conn + 1 = running.created := by
  rw [Unnamed, io]
  cases stage <;> simp [Stage.thread, Thread.acceptHandler]

theorem not_unnamed_of_idle (waits : running.io = .idle) : ¬running.Unnamed conn :=
  fun isUnnamed => Stage.thread_ne_idle conn .connecting (isUnnamed.1.symm.trans waits)

theorem proceed (same : running.Matches front count queued server)
    (namedBefore : ∀ conn, ¬running.Unnamed conn) (named : ∀ conn, ¬next.Unnamed conn)
    (m_chaMap : next.m_chaMap = running.m_chaMap)
    (connections : next.m_TCPConnections = running.m_TCPConnections)
    (queue : next.m_TCP_PktIn = running.m_TCP_PktIn)
    (kept : ∀ conn < server.created + count,
      (next.connection conn).sent = (running.connection conn).sent ∧
        (next.connection conn).m_sID = (running.connection conn).m_sID)
    (identified : ∀ conn, (next.connection conn).identified = (running.connection conn).identified)
    (accepts : next.Accepts (server.created + count) (server.m_IDCnt + UInt32.ofNat count)) :
    next.Matches front count queued server where
  m_chaMap := m_chaMap.trans same.m_chaMap
  m_TCPConnections := connections.trans same.m_TCPConnections
  m_TCP_PktIn := queue ▸ same.m_TCP_PktIn
  sent conn isKnown := (kept conn isKnown).1.trans (same.sent conn isKnown)
  m_sID conn isKnown _ := (kept conn isKnown).2.trans (same.m_sID conn isKnown (namedBefore conn))
  unnamed conn _ isUnnamed := absurd isUnnamed (named conn)
  accepts := accepts
  identified conn isIdentified :=
    ⟨(same.identified conn (identified conn ▸ isIdentified)).1, named conn⟩
  queued := same.queued

theorem accept (same : running.Matches front count queued server) (waits : running.io = .idle) :
    { running with
      created := running.created + 1
      io := .acceptHandler running.created }.Matches front count queued server := by
  have created : running.created = server.created + count ∧
      running.m_IDCnt = server.m_IDCnt + UInt32.ofNat count := by
    cases same.accepts with
    | waits _ created m_IDCnt => exact ⟨created, m_IDCnt⟩
    | unlisted io => exact absurd (io.symm.trans waits) (Stage.thread_ne_idle _ _)
    | unnamed io => exact absurd (io.symm.trans waits) (Stage.thread_ne_idle _ _)
    | named io => exact absurd (io.symm.trans waits) (Stage.thread_ne_idle _ _)
  refine same.proceed (fun _ => not_unnamed_of_idle waits) ?_ rfl rfl rfl
    (fun _ _ => ⟨rfl, rfl⟩) (fun _ => rfl) ?_
  · intro conn isUnnamed
    rcases (unnamed_iff (rfl : _ = Stage.greeting.thread running.created)).mp isUnnamed with
      ⟨impossible, -⟩
    contradiction
  · exact .unlisted (congrArg (Stage.thread · .greeting) created.1) (.inl rfl)
      (congrArg (· + 1) created.1) created.2 nofun

theorem newcomers_succ (server : Server) (count : Nat) :
    server.newcomers (count + 1) = server.newcomers count ++ [some (server.created + count)] := by
  rw [Server.newcomers, List.range'_concat, List.map_append, Nat.one_mul]
  rfl

theorem list (same : running.Matches front count queued server)
    (accepting : running.AcceptingAt .listing newconn) :
    (Stage.listing.after running newconn).Matches front (count + 1) queued server := by
  rcases same.unlisted accepting (by simp) with ⟨rfl, created, m_IDCnt, sent⟩
  have io : (Stage.listing.after running (server.created + count)).io =
      Stage.connecting.thread (server.created + count) := rfl
  have unnamedIff : ∀ conn, (Stage.listing.after running (server.created + count)).Unnamed conn ↔
      conn = server.created + count := by
    intro conn
    rw [unnamed_iff io]
    change _ ∧ conn + 1 = running.created ↔ _
    rw [created]
    simp
  have named : ∀ conn, ¬running.Unnamed conn := fun conn isUnnamed =>
    absurd ((unnamed_iff accepting.io).mp isUnnamed).1 nofun
  have nextID : server.m_IDCnt + UInt32.ofNat (count + 1) = running.m_IDCnt + 1 := by
    rw [m_IDCnt, UInt32.ofNat_add, UInt32.add_assoc]
    rfl
  have known : ∀ conn < server.created + (count + 1), conn ≠ server.created + count →
      conn < server.created + count := fun conn isKnown notNew =>
    Nat.lt_of_le_of_ne (Nat.lt_succ_iff.mp isKnown) notNew
  have notCreated : ¬server.created + count < server.created :=
    Nat.not_lt.mpr (Nat.le_add_right _ _)
  constructor
  · exact same.m_chaMap
  · change running.m_TCPConnections ++ [some _] = _
    rw [newcomers_succ, same.m_TCPConnections, List.append_assoc]
  · exact same.m_TCP_PktIn
  · intro conn isKnown
    change (running.connection conn).sent = _
    by_cases isNew : conn = server.created + count
    · rw [isNew, sent rfl, Server.laterSentTo, if_neg notCreated]
    · exact same.sent conn (known conn isKnown isNew)
  · intro conn isKnown isNamed
    rw [unnamedIff] at isNamed
    exact same.m_sID conn (known conn isKnown isNamed) (named conn)
  · intro conn _ isUnnamed
    change running.m_IDCnt = _
    rw [(unnamedIff conn).mp isUnnamed, m_IDCnt, Server.laterID, if_neg notCreated,
      Nat.add_sub_cancel_left]
  · exact .unnamed io rfl created nextID.symm
  · intro conn isIdentified
    have before := (same.identified conn isIdentified).1
    rw [unnamedIff]
    exact ⟨Nat.lt_succ_of_lt before, Nat.ne_of_lt before⟩
  · intro owned member
    rcases same.queued owned member with ⟨conn, isKnown, isOwned⟩
    exact ⟨conn, Nat.lt_succ_of_lt isKnown, isOwned⟩

theorem connect (same : running.Matches front count queued server)
    (accepting : running.AcceptingAt .connecting newconn) :
    (Stage.connecting.after running newconn).Matches front count queued server := by
  rcases same.listed accepting (by simp) with ⟨newest, created, m_IDCnt, -⟩
  have io : (Stage.connecting.after running newconn).io = Stage.reading.thread newconn := rfl
  have unnamedIff : ∀ conn, running.Unnamed conn ↔ conn = newconn := by
    intro conn
    rw [unnamed_iff accepting.io, ← accepting.newest]
    simp
  have named : ∀ conn, ¬(Stage.connecting.after running newconn).Unnamed conn :=
    fun conn isUnnamed => absurd ((unnamed_iff io).mp isUnnamed).1 nofun
  have connection : (Stage.connecting.after running newconn).connection = (running.modify newconn
      ({ · with m_sID := running.m_IDCnt, identified := true })).connection := rfl
  constructor
  · exact same.m_chaMap
  · exact same.m_TCPConnections
  · exact same.m_TCP_PktIn
  · intro conn isKnown
    rw [connection]
    exact connection_modify_of running (fun other changed =>
      other < server.created + count → changed.sent = server.laterSentTo other)
      (same.sent newconn) (same.sent conn) isKnown
  · intro conn isKnown _
    rw [connection]
    by_cases isNew : conn = newconn
    · rw [isNew, connection_modify_self]
      exact same.unnamed newconn (isNew ▸ isKnown) ((unnamedIff newconn).mpr rfl)
    · rw [connection_modify_of_ne running isNew]
      exact same.m_sID conn isKnown fun isUnnamed => isNew ((unnamedIff conn).mp isUnnamed)
  · exact fun conn _ isUnnamed => absurd isUnnamed (named conn)
  · exact .named io (.inl rfl) created (m_IDCnt rfl)
  · intro conn isIdentified
    refine ⟨?_, named conn⟩
    by_cases isNew : conn = newconn
    · rw [isNew, ← newest]
      exact Nat.lt_succ_self newconn
    · rw [connection, connection_modify_of_ne running isNew] at isIdentified
      exact (same.identified conn isIdentified).1
  · exact same.queued

theorem greet (same : running.Matches front count queued server)
    (introduced : running.Introduced padding) (accepting : running.AcceptingAt .sending newconn) :
    (Stage.sending.after running newconn).Matches front count queued server := by
  rcases same.unlisted accepting (by simp) with ⟨rfl, created, m_IDCnt, -⟩
  have io : (Stage.sending.after running (server.created + count)).io =
      Stage.listing.thread (server.created + count) := rfl
  have fresh := introduced.fresh _ (.inr (.inr accepting.io))
  have connection : (Stage.sending.after running (server.created + count)).connection =
      (running.modify (server.created + count) (·.SendPacket Server.acceptPacket)).connection :=
    rfl
  apply same.proceed
  · exact fun conn isUnnamed => absurd ((unnamed_iff accepting.io).mp isUnnamed).1 nofun
  · exact fun conn isUnnamed => absurd ((unnamed_iff io).mp isUnnamed).1 nofun
  · rfl
  · rfl
  · rfl
  · intro conn isKnown
    rw [connection, connection_modify_of_ne running (Nat.ne_of_lt isKnown)]
    exact ⟨rfl, rfl⟩
  · intro conn
    rw [connection]
    exact connection_modify_of running (fun other changed =>
      changed.identified = (running.connection other).identified) rfl rfl
  · refine .unlisted io (by simp) created m_IDCnt fun _ => ?_
    rw [connection, connection_modify_self, ServerConnection.SendPacket, fresh, List.nil_append]

theorem after {stage : Stage} (same : running.Matches front count queued server)
    (introduced : running.Introduced padding) (accepting : running.AcceptingAt stage newconn) :
    ∃ later, count ≤ later ∧
      (stage.after running newconn).Matches front later queued server := by
  cases stage with
  | greeting =>
      rcases same.unlisted accepting (by simp) with ⟨rfl, created, m_IDCnt, -⟩
      have io : (Stage.greeting.after running (server.created + count)).io =
          Stage.sending.thread (server.created + count) := rfl
      refine ⟨count, Nat.le_refl _, ?_⟩
      apply same.proceed
      · exact fun conn isUnnamed => absurd ((unnamed_iff accepting.io).mp isUnnamed).1 nofun
      · exact fun conn isUnnamed => absurd ((unnamed_iff io).mp isUnnamed).1 nofun
      · rfl
      · rfl
      · rfl
      · exact fun _ _ => ⟨rfl, rfl⟩
      · exact fun _ => rfl
      · exact .unlisted io (by simp) created m_IDCnt nofun
  | sending => exact ⟨count, Nat.le_refl _, same.greet introduced accepting⟩
  | listing => exact ⟨count + 1, Nat.le_succ _, same.list accepting⟩
  | connecting => exact ⟨count, Nat.le_refl _, same.connect accepting⟩
  | reading =>
      rcases same.listed accepting (by simp) with ⟨-, created, -, m_IDCnt⟩
      have io : (Stage.reading.after running newconn).io = Stage.returning.thread newconn := rfl
      have kept : ∀ conn, ((Stage.reading.after running newconn).connection conn).sent =
            (running.connection conn).sent ∧
          ((Stage.reading.after running newconn).connection conn).m_sID =
            (running.connection conn).m_sID ∧
          ((Stage.reading.after running newconn).connection conn).identified =
            (running.connection conn).identified := by
        intro conn
        rw [connection_after]
        exact connection_modify_of running (fun other changed =>
          changed.sent = (running.connection other).sent ∧
            changed.m_sID = (running.connection other).m_sID ∧
              changed.identified = (running.connection other).identified)
          ⟨rfl, rfl, rfl⟩ ⟨rfl, rfl, rfl⟩
      refine ⟨count, Nat.le_refl _, ?_⟩
      apply same.proceed
      · exact fun conn isUnnamed => absurd ((unnamed_iff accepting.io).mp isUnnamed).1 nofun
      · exact fun conn isUnnamed => absurd ((unnamed_iff io).mp isUnnamed).1 nofun
      · rfl
      · rfl
      · rfl
      · exact fun conn _ => ⟨(kept conn).1, (kept conn).2.1⟩
      · exact fun conn => (kept conn).2.2
      · exact .named io (.inr rfl) created (m_IDCnt nofun)
  | returning =>
      rcases same.listed accepting (by simp) with ⟨-, created, -, m_IDCnt⟩
      refine ⟨count, Nat.le_refl _, ?_⟩
      apply same.proceed
      · exact fun conn isUnnamed => absurd ((unnamed_iff accepting.io).mp isUnnamed).1 nofun
      · exact fun conn => not_unnamed_of_idle rfl
      · rfl
      · rfl
      · rfl
      · exact fun _ _ => ⟨rfl, rfl⟩
      · exact fun _ => rfl
      · exact .waits rfl created (m_IDCnt nofun)

theorem modify (same : running.Matches front count queued server)
    {change : ServerConnection → ServerConnection}
    (kept : ∀ conn, (change conn).sent = conn.sent ∧ (change conn).m_sID = conn.m_sID ∧
      (change conn).identified = conn.identified) :
    (running.modify conn change).Matches front count queued server := by
  have keptEach : ∀ other, ((running.modify conn change).connection other).sent =
        (running.connection other).sent ∧
      ((running.modify conn change).connection other).m_sID =
        (running.connection other).m_sID ∧
      ((running.modify conn change).connection other).identified =
        (running.connection other).identified := fun _ =>
    connection_modify_of running (fun other changed =>
      changed.sent = (running.connection other).sent ∧
        changed.m_sID = (running.connection other).m_sID ∧
          changed.identified = (running.connection other).identified)
      (kept _) ⟨rfl, rfl, rfl⟩
  refine same.frame rfl rfl rfl rfl (fun other => (keptEach other).2) rfl rfl rfl rfl
    same.m_chaMap same.m_TCPConnections ?_ fun other _ => (keptEach other).1
  exact fun other isCreated => (keptEach other).1.trans (same.sent_of_created isCreated)

theorem push (same : running.Matches front count queued server)
    {pushed : List (OwnedPacket CMD)}
    (known : ∀ owned ∈ pushed, ∃ conn < server.created + count,
      owned.connectionPtr = some conn ∧ owned.pkt.body.length < 2 ^ 32) :
    { running with m_TCP_PktIn := running.m_TCP_PktIn ++ pushed }.Matches front count
      (queued ++ pushed) server where
  m_chaMap := same.m_chaMap
  m_TCPConnections := same.m_TCPConnections
  m_TCP_PktIn := by
    rw [← List.append_assoc, same.m_TCP_PktIn, List.append_assoc]
  sent := same.sent
  m_sID := same.m_sID
  unnamed := same.unnamed
  accepts := by
    cases same.accepts with
    | waits io created m_IDCnt => exact .waits io created m_IDCnt
    | unlisted io early created m_IDCnt sent => exact .unlisted io early created m_IDCnt sent
    | unnamed io newest created m_IDCnt => exact .unnamed io newest created m_IDCnt
    | named io late created m_IDCnt => exact .named io late created m_IDCnt
  identified := same.identified
  queued := List.forall_mem_append.mpr ⟨same.queued, known⟩

theorem reads (same : running.Matches front count queued server)
    (introduced : running.Introduced padding) (fitting : running.Fitting)
    {action : Reader.Action} {reader : Reader CMD}
    (step : Reader.Step
      { (running.connection conn).reader with m_PktIn := running.m_TCP_PktIn } action reader) :
    ∃ pushed, { running.modify conn ({ · with reader := { reader with m_PktIn := [] } }) with
      m_TCP_PktIn := reader.m_PktIn }.Matches front count (queued ++ pushed) server := by
  have before : Reader.Fits
      { (running.connection conn).reader with m_PktIn := running.m_TCP_PktIn } :=
    ⟨(fitting conn).body, (fitting conn).data⟩
  rcases (before.step step).2 with ⟨pushed, pushes, known⟩
  let change : ServerConnection → ServerConnection :=
    ({ · with reader := { reader with m_PktIn := [] } })
  have changed : (running.modify conn change).Matches front count queued server :=
    same.modify fun _ => ⟨rfl, rfl, rfl⟩
  refine ⟨pushed, ?_⟩
  rw [pushes]
  apply changed.push
  intro owned member
  rcases known owned member with ⟨isConn, fits, isReading⟩
  have isIdentified := (introduced.reading conn isReading).2
  exact ⟨conn, (same.identified conn isIdentified).1, isConn.trans (introduced.objects conn), fits⟩

end Matches

end RunningServer

namespace Server

theorem newcomers_accepted (server : Server) (count : Nat) :
    server.newcomers (count + 1) = some server.created :: server.accepted.newcomers count := by
  rw [newcomers, List.range'_succ, List.map_cons]
  rfl

theorem laterSentTo_accepted {server : Server} {pointers : List (Option ConnRef)}
    (bounded : server.Bounded pointers) (conn : ConnRef) :
    server.accepted.laterSentTo conn = server.laterSentTo conn := by
  have created : server.accepted.created = server.created + 1 := rfl
  have sent : server.accepted.sent = server.sent ++ [(server.created, acceptPacket)] := rfl
  rw [laterSentTo, laterSentTo, created, sentTo_append sent]
  rcases Nat.lt_trichotomy conn server.created with isOld | rfl | isLater
  · have isOther : server.created ≠ conn := (Nat.ne_of_lt isOld).symm
    rw [if_pos (Nat.lt_succ_of_lt isOld), if_pos isOld,
      List.filter_cons_of_neg (by simpa using isOther)]
    exact List.append_nil _
  · have nothing : server.sentTo server.created = [] := by
      rw [sentTo, List.map_eq_nil_iff, List.filter_eq_nil_iff]
      intro message member isSame
      exact Nat.lt_irrefl _ (of_decide_eq_true isSame ▸ bounded.sent message member)
    rw [if_pos (Nat.lt_succ_self _), if_neg (Nat.lt_irrefl _), nothing]
    simp
  · rw [if_neg (Nat.not_lt.mpr isLater), if_neg (Nat.not_lt.mpr (Nat.le_of_lt isLater))]

theorem laterID_accepted (server : Server) (conn : ConnRef) :
    server.accepted.laterID conn = server.laterID conn := by
  have created : server.accepted.created = server.created + 1 := rfl
  have m_sID : server.accepted.m_sID =
    Function.update server.m_sID server.created server.m_IDCnt := rfl
  have m_IDCnt : server.accepted.m_IDCnt = server.m_IDCnt + 1 := rfl
  rw [laterID, laterID, created, m_sID, m_IDCnt]
  rcases Nat.lt_trichotomy conn server.created with isOld | rfl | isLater
  · rw [if_pos (Nat.lt_succ_of_lt isOld), if_pos isOld,
      Function.update_of_ne (Nat.ne_of_lt isOld)]
  · rw [if_pos (Nat.lt_succ_self _), if_neg (Nat.lt_irrefl _), Function.update_self, Nat.sub_self]
    exact (UInt32.add_zero _).symm
  · rw [if_neg (Nat.not_lt.mpr isLater), if_neg (Nat.not_lt.mpr (Nat.le_of_lt isLater))]
    have offset : ∀ first last : Nat, first < last → last - first = 1 + (last - (first + 1)) := by
      omega
    rw [offset server.created conn isLater, UInt32.ofNat_add, UInt32.add_assoc]
    rfl

theorem Bounded.accepted {server : Server} {pointers : List (Option ConnRef)}
    (bounded : server.Bounded pointers) : server.accepted.Bounded pointers where
  listed conn member := by
    rcases List.mem_append.mp member with before | isNew
    · exact Nat.lt_succ_of_lt (bounded.listed conn before)
    · cases List.mem_singleton.mp isNew
      exact Nat.lt_succ_self _
  owners conn member := Nat.lt_succ_of_lt (bounded.owners conn member)
  held conn member := Nat.lt_succ_of_lt (bounded.held conn member)
  sent message member := by
    rcases List.mem_append.mp member with before | isNew
    · exact Nat.lt_succ_of_lt (bounded.sent message before)
    · rw [List.mem_singleton.mp isNew]
      exact Nat.lt_succ_self _
  reading conn isCreated := by
    rcases Nat.lt_succ_iff_lt_or_eq.mp isCreated with isOld | rfl
    · exact List.mem_append_left _ (bounded.reading conn isOld)
    · exact List.mem_append_right _ (List.mem_singleton_self _)

end Server

namespace RunningServer

/-- What was put off is done: `current` is reached by accepting connections and receiving
packets only, and nothing is put off there. -/
structure CaughtUp (order : Iteration) (env : Environment) (running : RunningServer)
    (front : List (OwnedPacket CMD)) (pointers : List (Option ConnRef)) (server : Server)
    (known : Nat) (arrivals : List Server.Action) (current : Server) : Prop where
  runs : ∀ later : Environment, later.Extends env current.tick →
    Trace (Server.Step later) server arrivals current
  arrive : ∀ action ∈ arrivals, action = .accept ∨ ∃ conn pkt, action = .receive conn pkt
  tick : server.tick ≤ current.tick
  created : current.created = known
  laterID : ∀ conn, current.laterID conn = server.laterID conn
  same : running.Matches front 0 [] current
  bounded : current.Bounded pointers
  answers : running.Answers order current env

namespace Matches

variable {order : Iteration} {env : Environment} {running : RunningServer}
  {front queued : List (OwnedPacket CMD)} {count : Nat} {server : Server}
  {pointers : List (Option ConnRef)}

theorem accepted (same : running.Matches front (count + 1) queued server)
    (bounded : server.Bounded pointers) :
    running.Matches front count queued server.accepted := by
  have known : server.accepted.created + count = server.created + (count + 1) :=
    Nat.succ_add_eq_add_succ _ _
  have nextID : server.accepted.m_IDCnt + UInt32.ofNat count =
      server.m_IDCnt + UInt32.ofNat (count + 1) := by
    rw [Nat.add_comm count, UInt32.ofNat_add, ← UInt32.add_assoc]
    rfl
  constructor
  · exact same.m_chaMap
  · rw [same.m_TCPConnections, Server.newcomers_accepted]
    exact List.append_cons _ _ _
  · exact same.m_TCP_PktIn
  · rw [known]
    exact fun conn isKnown =>
      (same.sent conn isKnown).trans (Server.laterSentTo_accepted bounded conn).symm
  · rw [known]
    exact fun conn isKnown isNamed =>
      (same.m_sID conn isKnown isNamed).trans (Server.laterID_accepted server conn).symm
  · rw [known]
    exact fun conn isKnown isUnnamed =>
      (same.unnamed conn isKnown isUnnamed).trans (Server.laterID_accepted server conn).symm
  · rw [known, nextID]
    exact same.accepts
  · rw [known]
    exact same.identified
  · rw [known]
    exact same.queued

theorem received {conn : ConnRef} {pkt : Packet CMD}
    (same : running.Matches front count (⟨some conn, pkt⟩ :: queued) server) :
    running.Matches front count queued (server.received conn pkt) where
  m_chaMap := same.m_chaMap
  m_TCPConnections := same.m_TCPConnections
  m_TCP_PktIn := same.m_TCP_PktIn.trans (List.append_cons _ _ _)
  sent := same.sent
  m_sID := same.m_sID
  unnamed := same.unnamed
  accepts := same.accepts
  identified := same.identified
  queued := (List.forall_mem_cons.mp same.queued).2

theorem catchUp_queued (same : running.Matches front 0 queued server)
    (bounded : server.Bounded pointers) (answers : running.Answers order server env) :
    ∃ arrivals current,
      CaughtUp order env running front pointers server server.created arrivals current := by
  induction queued generalizing server with
  | nil =>
      exact ⟨[], server, fun _ _ => .nil server, by simp, Nat.le_refl _, rfl, fun _ => rfl, same,
        bounded, answers⟩
  | cons owned queued induction =>
      rcases (List.forall_mem_cons.mp same.queued).1 with ⟨conn, isCreated, owner, fits⟩
      rcases owned with ⟨connectionPtr, pkt⟩
      cases owner
      have boundedNext : (server.received conn pkt).Bounded pointers := { bounded with }
      rcases induction same.received boundedNext ⟨answers.isOpen, answers.iterates⟩ with
        ⟨arrivals, current, caughtUp⟩
      refine ⟨.receive conn pkt :: arrivals, current, { caughtUp with runs := ?_, arrive := ?_ }⟩
      · intro later extends_
        refine .cons ?_ (caughtUp.runs later extends_)
        exact if_pos ⟨bounded.reading conn isCreated, fits⟩
      · exact List.forall_mem_cons.mpr ⟨.inr ⟨conn, pkt, rfl⟩, caughtUp.arrive⟩

theorem catchUp (same : running.Matches front count queued server)
    (bounded : server.Bounded pointers) (answers : running.Answers order server env) :
    ∃ arrivals current, CaughtUp order env running front pointers server (server.created + count)
      arrivals current := by
  induction count generalizing server with
  | zero => exact same.catchUp_queued bounded answers
  | succ count induction =>
      have answersNext : running.Answers order server.accepted env :=
        answers.mono (fun _ isOpen => isOpen) (Nat.le_succ _)
      rcases induction (same.accepted bounded) bounded.accepted answersNext with
        ⟨arrivals, current, caughtUp⟩
      have tick : server.tick + 2 ≤ current.tick := caughtUp.tick
      refine ⟨.accept :: arrivals, current, ?_, ?_, ?_, ?_, ?_, caughtUp.same, caughtUp.bounded,
        caughtUp.answers⟩
      · intro later extends_
        refine .cons ?_ (caughtUp.runs later extends_)
        have isOpen : later.isOpen (server.tick + 1) server.created = true := by
          rw [extends_.isOpen _ (by omega)]
          exact answers.isOpen _ (.inr (Nat.le_refl _)) _
        rw [Server.Step, Server.step, if_pos isOpen, Server.onAccept_of_open isOpen]
        rfl
      · exact List.forall_mem_cons.mpr ⟨.inl rfl, caughtUp.arrive⟩
      · omega
      · exact caughtUp.created.trans (Nat.succ_add_eq_add_succ _ _)
      · exact fun conn => (caughtUp.laterID conn).trans (Server.laterID_accepted server conn)

end Matches

end RunningServer

end GNL
