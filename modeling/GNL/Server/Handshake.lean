import GNL.Common.TCPConnection.Sending
import GNL.Server.Accepting

/-! # The first packet on a connection

The handler of an accept posts `AcceptTCPConnection` before it lists the connection,
assigns its ID after, and reads from it last. The main thread knows of a connection
from the list, or from a packet that was read on it, and sends other commands only.
-/

namespace GNL

def ServerConnection.Greeted (conn : ServerConnection) : Prop :=
  ∃ rest, conn.sent = Server.acceptPacket :: rest ∧
    ∀ pkt ∈ rest, pkt.header.cmdID ≠ .AcceptTCPConnection

theorem ServerConnection.Greeted.SendPacket {conn : ServerConnection} {pkt : Packet CMD}
    (greeted : conn.Greeted) (other : pkt.header.cmdID ≠ .AcceptTCPConnection) :
    (conn.SendPacket pkt).Greeted := by
  rcases greeted with ⟨rest, sent, others⟩
  refine ⟨rest ++ [pkt], ?_, ?_⟩
  · rw [ServerConnection.SendPacket, sent, List.cons_append]
  · exact List.forall_mem_append.mpr ⟨others, List.forall_mem_singleton.mpr other⟩

namespace RunningServer

def Awaited (server : RunningServer) (conn : ConnRef) : Prop :=
  server.created ≤ conn ∨ server.io = Stage.greeting.thread conn ∨
    server.io = Stage.sending.thread conn

/-- What was sent on the connections, by how far the handler that accepts each has got,
and what is known of those the main thread can find. -/
structure Introduced (padding : ConnRef → Nat → UInt16) (server : RunningServer) : Prop where
  fresh : ∀ conn, server.Awaited conn → (server.connection conn).sent = []
  greeted : ∀ conn, ¬ server.Awaited conn → (server.connection conn).Greeted
  known : ∀ conn, conn ∈ server.kept ∨ conn ∈ server.main.held →
    (server.connection conn).Greeted
  identifies : ∀ conn, server.io = Stage.reading.thread conn →
    (server.connection conn).identified = true
  reading : ∀ conn, (server.connection conn).reader.reading ≠ [] →
    (server.connection conn).Greeted ∧ (server.connection conn).identified = true
  queued : ∀ owned ∈ server.m_TCP_PktIn, ∃ conn, owned.connectionPtr = some conn ∧
    (server.connection conn).identified = true
  objects : ∀ conn, (server.connection conn).reader.connectionPtr = some conn
  writers : ∀ conn, Writer.Sending (padding conn) (server.connection conn).writer
    (server.connection conn).sent

theorem introduced_start (padding : ConnRef → Nat → UInt16) (m_IDCnt : UInt32)
    (m_sID : ConnRef → UInt32) : (start m_IDCnt m_sID).Introduced padding where
  fresh _ _ := rfl
  greeted _ notAwaited := absurd (.inl (Nat.zero_le _)) notAwaited
  known _ isKnown := by simp [kept, Thread.held, start, Thread.idle, Server.owners] at isKnown
  identifies _ io := by cases io
  reading _ isReading := absurd rfl isReading
  queued _ member := absurd member List.not_mem_nil
  objects _ := rfl
  writers _ := Writer.sending_idle

section Steps

variable {order : Iteration} {padding : ConnRef → Nat → UInt16} {server next : RunningServer}

theorem Introduced.frame (introduced : server.Introduced padding)
    (connection : next.connection = server.connection)
    (awaited : ∀ conn, next.Awaited conn ↔ server.Awaited conn)
    (known : ∀ conn, conn ∈ next.kept ∨ conn ∈ next.main.held →
      (server.connection conn).Greeted)
    (identifies : ∀ conn, next.io = Stage.reading.thread conn →
      (server.connection conn).identified = true)
    (queued : next.m_TCP_PktIn ⊆ server.m_TCP_PktIn) : next.Introduced padding where
  fresh conn isAwaited := connection ▸ introduced.fresh conn ((awaited conn).mp isAwaited)
  greeted conn notAwaited :=
    connection ▸ introduced.greeted conn fun isAwaited => notAwaited ((awaited conn).mpr isAwaited)
  known conn isKnown := connection ▸ known conn isKnown
  identifies conn io := connection ▸ identifies conn io
  reading := connection ▸ introduced.reading
  queued owned member := connection ▸ introduced.queued owned (queued member)
  objects := connection ▸ introduced.objects
  writers := connection ▸ introduced.writers

theorem Introduced.change (introduced : server.Introduced padding) {conn : ConnRef}
    {change : ServerConnection → ServerConnection}
    (connection : next.connection = (server.modify conn change).connection)
    (awaited : ∀ other, other ≠ conn → (next.Awaited other ↔ server.Awaited other))
    (fresh : next.Awaited conn → (change (server.connection conn)).sent = [])
    (greeted : ¬ next.Awaited conn → (change (server.connection conn)).Greeted)
    (stays : (server.connection conn).Greeted → (change (server.connection conn)).Greeted)
    (identified : (server.connection conn).identified = true →
      (change (server.connection conn)).identified = true)
    (known : ∀ other, other ∈ next.kept ∨ other ∈ next.main.held →
      (server.connection other).Greeted)
    (identifies : ∀ other, next.io = Stage.reading.thread other →
      (next.connection other).identified = true)
    (reading : (change (server.connection conn)).reader.reading ≠ [] →
      (change (server.connection conn)).Greeted ∧
        (change (server.connection conn)).identified = true)
    (queued : ∀ owned ∈ next.m_TCP_PktIn, ∃ other, owned.connectionPtr = some other ∧
      (server.connection other).identified = true)
    (object : (change (server.connection conn)).reader.connectionPtr = some conn)
    (writer : Writer.Sending (padding conn) (change (server.connection conn)).writer
      (change (server.connection conn)).sent) : next.Introduced padding := by
  have stillGreeted : ∀ other, (server.connection other).Greeted →
      ((server.modify conn change).connection other).Greeted := fun other =>
    connection_modify_of server
      (fun other changed => (server.connection other).Greeted → changed.Greeted) stays id
  have stillIdentified : ∀ other, (server.connection other).identified = true →
      ((server.modify conn change).connection other).identified = true := fun other =>
    connection_modify_of server (fun other changed =>
      (server.connection other).identified = true → changed.identified = true) identified id
  refine ⟨?_, ?_, ?_, identifies, ?_, ?_, ?_, ?_⟩
  all_goals rw [connection]
  · intro other isAwaited
    by_cases isConn : other = conn
    · subst isConn
      rw [connection_modify_self]
      exact fresh isAwaited
    · rw [connection_modify_of_ne server isConn]
      exact introduced.fresh other ((awaited other isConn).mp isAwaited)
  · intro other notAwaited
    by_cases isConn : other = conn
    · subst isConn
      rw [connection_modify_self]
      exact greeted notAwaited
    · rw [connection_modify_of_ne server isConn]
      exact introduced.greeted other fun isAwaited =>
        notAwaited ((awaited other isConn).mpr isAwaited)
  · exact fun other isKnown => stillGreeted other (known other isKnown)
  · intro other
    exact connection_modify_of server (fun _ changed => changed.reader.reading ≠ [] →
      changed.Greeted ∧ changed.identified = true) reading (introduced.reading other)
  · intro owned member
    rcases queued owned member with ⟨other, owner, isIdentified⟩
    exact ⟨other, owner, stillIdentified other isIdentified⟩
  · intro other
    exact connection_modify_of server
      (fun other changed => changed.reader.connectionPtr = some other) object
      (introduced.objects other)
  · intro other
    exact connection_modify_of server (fun other changed =>
      Writer.Sending (padding other) changed.writer changed.sent) writer
      (introduced.writers other)

theorem known_of_moves {thread after : Thread} {shared : RunningServer}
    (moves : Moves server thread shared after) {conn : ConnRef}
    (isKnown : conn ∈ shared.kept ∨ conn ∈ after.held) :
    conn ∈ server.kept ∨ conn ∈ thread.held := by
  have inKept : ∀ {connections : List (Option ConnRef)},
      (some conn ∈ connections → some conn ∈ server.m_TCPConnections) →
      conn ∈ kept { server with m_TCPConnections := connections } → conn ∈ server.kept := by
    intro connections fewer member
    simp only [kept, List.mem_append, List.reduceOption_mem_iff] at member ⊢
    exact member.imp_left (Or.imp_left fewer)
  have inHeld : ∀ {pointers : List (Option ConnRef)},
      (some conn ∈ pointers → some conn ∈ thread.pointers) →
      conn ∈ pointers.reduceOption → conn ∈ thread.held := by
    intro pointers fewer member
    rw [List.reduceOption_mem_iff] at member
    exact List.reduceOption_mem_iff.mpr (fewer member)
  cases moves with
  | control => exact isKnown
  | send => exact isKnown
  | @remove client other doing isDoing points goesOn =>
      refine isKnown.imp_left fun member => ?_
      simp only [kept, List.mem_append] at member ⊢
      refine member.imp_left (Or.imp_right fun inMap => ?_)
      rcases List.mem_filterMap.mp inMap with ⟨entry, isEntry, pointer⟩
      have inEntries := (List.kerase_sublist _ _).subset isEntry
      exact List.mem_filterMap.mpr ⟨entry, inEntries, pointer⟩
  | erase => exact isKnown.imp_left (inKept fun member => List.mem_of_mem_filter member)
  | resetHeld =>
      refine isKnown.imp_right (inHeld fun member => ?_)
      exact (List.mem_or_eq_of_mem_set member).resolve_right (Option.some_ne_none conn)
  | resetListed =>
      refine isKnown.imp_left (inKept fun member => ?_)
      exact (List.mem_or_eq_of_mem_set member).resolve_right (Option.some_ne_none conn)
  | @handle client handled todo gives points handles =>
      have fromClient : conn ∈ Server.owners server.m_chaMap.entries ∨ client = some conn →
          conn ∈ server.kept ∨ conn ∈ thread.held := by
        rintro (inMap | rfl)
        · exact .inl (List.mem_append_left _ (List.mem_append_right _ inMap))
        · exact .inr (mem_held_of_getElem? points)
      rcases isKnown with inKept | inHeld
      · simp only [kept, List.mem_append] at inKept
        rcases inKept with (inList | inMap) | inQueue
        · exact .inl (List.mem_append_left _ (List.mem_append_left _ inList))
        · exact fromClient (handles.known conn (.inl inMap))
        · exact .inl (List.mem_append_right _ inQueue)
      · rw [Thread.held, List.reduceOption_append, List.mem_append] at inHeld
        rcases inHeld with before | isNew
        · exact .inr before
        · exact fromClient (handles.known conn (.inr (List.reduceOption_mem_iff.mp isNew)))
  | eraseNull => exact isKnown.imp_left (inKept fun member => List.mem_of_mem_filter member)
  | destroy =>
      exact isKnown.imp_right (inHeld fun member => (List.dropLast_sublist _).subset member)

theorem not_awaited_of_greeted (introduced : server.Introduced padding) {conn : ConnRef}
    (greeted : (server.connection conn).Greeted) : ¬ server.Awaited conn := by
  intro isAwaited
  rcases greeted with ⟨rest, sent, -⟩
  rw [introduced.fresh conn isAwaited] at sent
  contradiction

theorem Introduced.send (introduced : server.Introduced padding) {conn : ConnRef}
    {pkt : Packet CMD} (greeted : (server.connection conn).Greeted)
    (other : pkt.header.cmdID ≠ .AcceptTCPConnection) :
    (server.SendPacket conn pkt).Introduced padding := by
  have sends := greeted.SendPacket other
  apply introduced.change
  · rfl
  · exact fun _ _ => Iff.rfl
  · exact fun isAwaited => absurd isAwaited (not_awaited_of_greeted introduced greeted)
  · exact fun _ => sends
  · exact fun _ => sends
  · exact id
  · exact introduced.known
  · intro newconn io
    exact connection_modify_of server (fun other changed =>
      (server.connection other).identified = true → changed.identified = true) id id
      (introduced.identifies newconn io)
  · exact fun isReading => ⟨sends, (introduced.reading conn isReading).2⟩
  · exact introduced.queued
  · exact introduced.objects conn
  · exact (introduced.writers conn).SendPacket pkt

theorem Introduced.moves {after : Thread} {shared : RunningServer}
    (introduced : server.Introduced padding) (moves : Moves server server.main shared after) :
    { shared with main := after }.Introduced padding := by
  have known : ∀ conn, conn ∈ shared.kept ∨ conn ∈ after.held →
      (server.connection conn).Greeted :=
    fun conn isKnown => introduced.known conn (known_of_moves moves isKnown)
  cases moves with
  | @send conn pkt todo gives owned other =>
      have sends := introduced.send (introduced.known conn owned) other
      exact sends.frame rfl (fun _ => Iff.rfl) sends.known sends.identifies
        (List.Subset.refl _)
  | _ =>
      exact introduced.frame rfl (fun _ => Iff.rfl) known introduced.identifies
        (List.Subset.refl _)

theorem awaited_iff {stage : Stage} {newconn conn : ConnRef}
    (io : server.io = stage.thread newconn) : server.Awaited conn ↔
      server.created ≤ conn ∨ (stage = .greeting ∨ stage = .sending) ∧ newconn = conn := by
  rw [Awaited, io]
  cases stage <;> simp [Stage.thread, Thread.acceptHandler]

theorem awaited_iff_of_idle {conn : ConnRef} (waits : server.io = .idle) :
    server.Awaited conn ↔ server.created ≤ conn := by
  rw [Awaited, waits]
  simp [Stage.thread, Thread.acceptHandler, Thread.idle]

theorem Introduced.greeted_of_accepting {stage : Stage} {newconn : ConnRef}
    (introduced : server.Introduced padding) (accepting : server.AcceptingAt stage newconn)
    (later : ¬ (stage = .greeting ∨ stage = .sending)) :
    (server.connection newconn).Greeted := by
  apply introduced.greeted
  rw [awaited_iff accepting.io]
  rintro (notCreated | ⟨earlier, -⟩)
  · exact Nat.not_lt.mpr notCreated accepting.newest.le
  · exact later earlier

theorem Introduced.greet {newconn : ConnRef} (introduced : server.Introduced padding)
    (accepting : server.AcceptingAt .sending newconn) :
    (Stage.sending.after server newconn).Introduced padding := by
  have awaitedBefore : ∀ conn, server.Awaited conn ↔ server.created ≤ conn ∨ newconn = conn :=
    fun conn => by simp [awaited_iff accepting.io]
  have io : (Stage.sending.after server newconn).io = Stage.listing.thread newconn := rfl
  have created : (Stage.sending.after server newconn).created = server.created := rfl
  have awaitedAfter : ∀ conn,
      (Stage.sending.after server newconn).Awaited conn ↔ server.created ≤ conn :=
    fun conn => by simp [awaited_iff io, created]
  have isFresh := introduced.fresh newconn ((awaitedBefore newconn).mpr (.inr rfl))
  have sent : ((server.connection newconn).SendPacket Server.acceptPacket).sent =
      [Server.acceptPacket] := by
    rw [ServerConnection.SendPacket, isFresh, List.nil_append]
  have greets : ((server.connection newconn).SendPacket Server.acceptPacket).Greeted :=
    ⟨[], sent, by simp⟩
  apply introduced.change
  · exact connection_after .sending newconn
  · intro other isOther
    rw [awaitedBefore, awaitedAfter, or_iff_left (Ne.symm isOther)]
  · rw [awaitedAfter]
    exact fun notCreated => absurd accepting.newest.le (Nat.not_lt.mpr notCreated)
  · exact fun _ => greets
  · exact fun _ => greets
  · exact id
  · exact introduced.known
  · intro conn isReading
    rw [io] at isReading
    simp [Stage.thread] at isReading
  · exact fun isReading => ⟨greets, (introduced.reading newconn isReading).2⟩
  · exact introduced.queued
  · exact introduced.objects newconn
  · exact (introduced.writers newconn).SendPacket Server.acceptPacket

theorem awaited_of_later {stage : Stage} {newconn conn : ConnRef}
    (io : server.io = stage.thread newconn) (later : ¬ (stage = .greeting ∨ stage = .sending)) :
    server.Awaited conn ↔ server.created ≤ conn := by
  rw [awaited_iff io, or_iff_left fun earlier => later earlier.1]

theorem awaited_of_stages {stage following : Stage} {newconn conn : ConnRef}
    (io : server.io = stage.thread newconn) (ioNext : next.io = following.thread newconn)
    (created : next.created = server.created)
    (later : ¬ (stage = .greeting ∨ stage = .sending))
    (laterNext : ¬ (following = .greeting ∨ following = .sending)) :
    next.Awaited conn ↔ server.Awaited conn := by
  rw [awaited_of_later io later, awaited_of_later ioNext laterNext, created]

theorem Introduced.list {newconn : ConnRef} (introduced : server.Introduced padding)
    (accepting : server.AcceptingAt .listing newconn) :
    (Stage.listing.after server newconn).Introduced padding := by
  apply introduced.frame
  · rfl
  · have io : (Stage.listing.after server newconn).io = Stage.connecting.thread newconn := rfl
    exact fun _ => awaited_of_stages accepting.io io rfl nofun nofun
  · intro conn isKnown
    have before : conn = newconn ∨ conn ∈ server.kept ∨ conn ∈ server.main.held := by
      simp only [Stage.after, kept, List.reduceOption_append, List.mem_append] at isKnown ⊢
      simp only [List.reduceOption_cons_of_some, List.reduceOption_nil, List.mem_singleton]
        at isKnown
      tauto
    rcases before with rfl | isKnown
    · exact introduced.greeted_of_accepting accepting nofun
    · exact introduced.known conn isKnown
  · intro conn isReading
    simp [Stage.after, Stage.thread] at isReading
  · exact List.Subset.refl _

theorem Introduced.connect {newconn : ConnRef} (introduced : server.Introduced padding)
    (accepting : server.AcceptingAt .connecting newconn) :
    (Stage.connecting.after server newconn).Introduced padding := by
  have greeted := introduced.greeted_of_accepting accepting nofun
  have io : (Stage.connecting.after server newconn).io = Stage.reading.thread newconn := rfl
  have awaited : ∀ conn, (Stage.connecting.after server newconn).Awaited conn ↔
      server.Awaited conn := fun _ => awaited_of_stages accepting.io io rfl nofun nofun
  apply introduced.change
  · exact connection_after .connecting newconn
  · exact fun conn _ => awaited conn
  · rw [awaited]
    exact introduced.fresh newconn
  · exact fun _ => greeted
  · exact id
  · exact fun _ => rfl
  · exact introduced.known
  · intro conn isReading
    rw [io] at isReading
    have same : newconn = conn := by simpa [Stage.thread] using isReading
    subst same
    simp only [connection_after, connection_modify_self]
  · exact fun _ => ⟨greeted, rfl⟩
  · exact introduced.queued
  · exact introduced.objects newconn
  · exact introduced.writers newconn

theorem Introduced.read {newconn : ConnRef} (introduced : server.Introduced padding)
    (accepting : server.AcceptingAt .reading newconn) :
    (Stage.reading.after server newconn).Introduced padding := by
  have greeted := introduced.greeted_of_accepting accepting nofun
  have io : (Stage.reading.after server newconn).io = Stage.returning.thread newconn := rfl
  have awaited : ∀ conn, (Stage.reading.after server newconn).Awaited conn ↔
      server.Awaited conn := fun _ => awaited_of_stages accepting.io io rfl nofun nofun
  apply introduced.change
  · exact connection_after .reading newconn
  · exact fun conn _ => awaited conn
  · rw [awaited]
    exact introduced.fresh newconn
  · exact fun _ => greeted
  · exact id
  · exact id
  · exact introduced.known
  · intro conn isReading
    rw [io] at isReading
    simp [Stage.thread] at isReading
  · exact fun _ => ⟨greeted, introduced.identifies newconn accepting.io⟩
  · exact introduced.queued
  · exact introduced.objects newconn
  · exact introduced.writers newconn

theorem Introduced.after {stage : Stage} {newconn : ConnRef}
    (introduced : server.Introduced padding) (accepting : server.AcceptingAt stage newconn) :
    (stage.after server newconn).Introduced padding := by
  cases stage with
  | greeting =>
      apply introduced.frame
      · rfl
      · intro conn
        have io : (Stage.greeting.after server newconn).io = Stage.sending.thread newconn := rfl
        rw [awaited_iff accepting.io, awaited_iff io]
        simp [Stage.after]
      · exact introduced.known
      · intro conn isReading
        simp [Stage.after, Stage.thread] at isReading
      · exact List.Subset.refl _
  | sending => exact introduced.greet accepting
  | listing => exact introduced.list accepting
  | connecting => exact introduced.connect accepting
  | reading => exact introduced.read accepting
  | returning =>
      apply introduced.frame
      · rfl
      · intro conn
        rw [awaited_of_later accepting.io (by simp), awaited_iff_of_idle rfl]
        exact Iff.rfl
      · exact introduced.known
      · intro conn isReading
        simp [Stage.after, Stage.thread, Thread.idle] at isReading
      · exact List.Subset.refl _

theorem reads_spec {conn next : Reader CMD} {action : Reader.Action}
    (step : Reader.Step conn action next) :
    next.connectionPtr = conn.connectionPtr ∧ (next.reading ≠ [] → conn.reading ≠ []) ∧
      ∀ owned ∈ next.m_PktIn, owned ∈ conn.m_PktIn ∨
        owned.connectionPtr = conn.connectionPtr ∧ conn.reading ≠ [] := by
  cases action with
  | arrive bytes =>
      cases step
      exact ⟨rfl, id, fun _ member => .inl member⟩
  | complete =>
      rcases Reader.complete_cases step with
        ⟨others, reading, -, rfl⟩ | ⟨length, others, reading, -, rfl⟩
      · simp only [Reader.headerRead]
        split
        · exact ⟨rfl, fun _ => by simp [reading], fun _ member => .inl member⟩
        · refine ⟨rfl, fun _ => by simp [reading], fun owned member => ?_⟩
          rcases List.mem_append.mp member with before | isNew
          · exact .inl before
          · rw [List.mem_singleton.mp isNew]
            exact .inr ⟨rfl, by simp [reading]⟩
      · refine ⟨rfl, fun _ => by simp [reading], fun owned member => ?_⟩
        rcases List.mem_append.mp member with before | isNew
        · exact .inl before
        · rw [List.mem_singleton.mp isNew]
          exact .inr ⟨rfl, by simp [reading]⟩
  | fail =>
      simp only [Reader.Step, Reader.step, Reader.fail] at step
      split at step
      · contradiction
      next read others reading =>
        cases step
        exact ⟨rfl, fun _ => by simp [reading], fun _ member => .inl member⟩

theorem sent_of_ready {conn : ConnRef} {action : Writer.Action CMD}
    (ready : server.Ready (.write conn action)) : Writer.sent [action] = [] := by
  cases action with
  | SendPacket pkt => exact absurd ready id
  | _ => rfl

theorem awaited_of_accept (waits : server.io = .idle) (io : next.io = .acceptHandler server.created)
    (created : next.created = server.created + 1) (conn : ConnRef) :
    next.Awaited conn ↔ server.Awaited conn := by
  have isGreeting : next.io = Stage.greeting.thread server.created := io
  rw [awaited_iff_of_idle waits, awaited_iff isGreeting, created]
  simp only [true_or, true_and]
  exact Nat.le_iff_lt_or_eq.symm

theorem Introduced.identifies_modify (introduced : server.Introduced padding) {conn : ConnRef}
    {change : ServerConnection → ServerConnection}
    (same : (change (server.connection conn)).identified = (server.connection conn).identified)
    (newconn : ConnRef) (io : server.io = Stage.reading.thread newconn) :
    ((server.modify conn change).connection newconn).identified = true :=
  connection_modify_of server (fun other changed =>
    (server.connection other).identified = true → changed.identified = true)
    (fun isIdentified => same.trans isIdentified) id (introduced.identifies newconn io)

theorem Introduced.calls (introduced : server.Introduced padding) {pointer : Option ConnRef}
    (listed : pointer = none ∨ pointer ∈ server.m_TCPConnections) (todo : List Call) :
    { server with main := ⟨[pointer], .calling, todo⟩ }.Introduced padding := by
  apply introduced.frame
  · rfl
  · exact fun _ => Iff.rfl
  · rintro conn (inKept | inHeld)
    · exact introduced.known conn (.inl inKept)
    · rw [mem_held_singleton.mp inHeld] at listed
      have isListed := listed.resolve_left (Option.some_ne_none conn)
      exact introduced.known conn (.inl (mem_kept_of_mem isListed))
  · exact introduced.identifies
  · exact List.Subset.refl _

theorem Introduced.pops (introduced : server.Introduced padding) {owned : OwnedPacket CMD}
    {others : List (OwnedPacket CMD)} (queue : server.m_TCP_PktIn = owned :: others)
    (todo : List Call) :
    { server with
      m_TCP_PktIn := others
      main := ⟨[owned.connectionPtr], .calling, todo⟩ }.Introduced padding := by
  apply introduced.frame
  · rfl
  · exact fun _ => Iff.rfl
  · intro conn isKnown
    have inKept := (mem_kept_iff_of_pop queue conn).mpr (isKnown.imp_right mem_held_singleton.mp)
    exact introduced.known conn (.inl inKept)
  · exact introduced.identifies
  · exact fun other member => queue ▸ List.mem_cons_of_mem owned member

theorem Introduced.writes (introduced : server.Introduced padding) {conn : ConnRef}
    {action : Writer.Action CMD} {writer : Writer CMD}
    (ready : server.Ready (.write conn action))
    (step : Writer.Step (padding conn) (server.connection conn).writer action writer) :
    (server.modify conn ({ · with writer })).Introduced padding := by
  rcases (introduced.writers conn).step step with ⟨other, same, sending⟩
  cases same
  rw [sent_of_ready ready, List.append_nil] at sending
  apply introduced.change
  · rfl
  · exact fun _ _ => Iff.rfl
  · exact introduced.fresh conn
  · exact introduced.greeted conn
  · exact id
  · exact id
  · exact introduced.known
  · exact introduced.identifies_modify rfl
  · exact introduced.reading conn
  · exact introduced.queued
  · exact introduced.objects conn
  · exact sending

theorem Introduced.reads (introduced : server.Introduced padding) {conn : ConnRef}
    {action : Reader.Action} {reader : Reader CMD}
    (step : Reader.Step
      { (server.connection conn).reader with m_PktIn := server.m_TCP_PktIn } action reader) :
    { server.modify conn ({ · with reader := { reader with m_PktIn := [] } }) with
      m_TCP_PktIn := reader.m_PktIn }.Introduced padding := by
  rcases reads_spec step with ⟨object, reading, pushes⟩
  let change : ServerConnection → ServerConnection :=
    ({ · with reader := { reader with m_PktIn := [] } })
  have same : { server.modify conn change with m_TCP_PktIn := reader.m_PktIn }.connection =
    (server.modify conn change).connection := rfl
  apply introduced.change same
  · exact fun _ _ => Iff.rfl
  · exact introduced.fresh conn
  · exact introduced.greeted conn
  · exact id
  · exact id
  · intro other isKnown
    have known : other ∈ server.kept ∨ other ∈ server.main.held ∨
        ∃ owned ∈ reader.m_PktIn, owned.connectionPtr = some other := by
      simp only [kept, List.mem_append, List.mem_filterMap] at isKnown ⊢
      tauto
    rcases known with inKept | inHeld | ⟨owned, member, owner⟩
    · exact introduced.known other (.inl inKept)
    · exact introduced.known other (.inr inHeld)
    · rcases pushes owned member with before | ⟨isConn, isReading⟩
      · refine introduced.known other (.inl (List.mem_append_right _ ?_))
        exact List.mem_filterMap.mpr ⟨owned, before, owner⟩
      · have isOther := owner.symm.trans (isConn.trans (introduced.objects conn))
        rw [Option.some.inj isOther]
        exact (introduced.reading conn isReading).1
  · exact introduced.identifies_modify rfl
  · exact fun isReading => introduced.reading conn (reading isReading)
  · intro owned member
    rcases pushes owned member with before | ⟨owner, isReading⟩
    · exact introduced.queued owned before
    · exact ⟨conn, owner.trans (introduced.objects conn),
        (introduced.reading conn isReading).2⟩
  · exact object.trans (introduced.objects conn)
  · exact introduced.writers conn

theorem Introduced.step {action : Action} (introduced : server.Introduced padding)
    (coordinated : server.Coordinated) (step : Step order padding server action next) :
    next.Introduced padding := by
  cases performs_of_step coordinated step with
  | accept waits =>
      apply introduced.frame
      · rfl
      · exact awaited_of_accept waits rfl rfl
      · exact introduced.known
      · intro conn isReading
        simp [Stage.thread, Thread.acceptHandler] at isReading
      · exact List.Subset.refl _
  | Process queue => exact introduced.pops queue _
  | SendToClient _ listed => exact introduced.calls (.inr listed) _
  | SendToAll _ listed => exact introduced.calls listed _
  | main moves => exact introduced.moves moves
  | io accepting => exact introduced.after accepting
  | write ready writes => exact introduced.writes ready writes
  | read ready reads => exact introduced.reads reads

theorem introduced_of_trace {m_IDCnt : UInt32} {m_sID : ConnRef → UInt32}
    {actions : List Action}
    (trace : Trace (Step order padding) (start m_IDCnt m_sID) actions server) :
    server.Introduced padding := by
  have preserved : ∀ current action next, Coordinated current ∧ Introduced padding current →
      Step order padding current action next → Coordinated next ∧ Introduced padding next :=
    fun _ _ _ holds step => ⟨holds.1.step step, holds.2.step holds.1 step⟩
  exact (trace.invariant preserved
    ⟨coordinated_start m_IDCnt m_sID, introduced_start padding m_IDCnt m_sID⟩).2

end Steps

/-- In every interleaving of the two threads, the bytes on each connection are frames of
which the first is that of `AcceptTCPConnection`, which is sent once on every connection
but one that is just being accepted; and a packet of a connection is queued only after
that was sent and the connection was given its ID. -/
theorem accept_packet_first {order : Iteration} {padding : ConnRef → Nat → UInt16}
    {m_IDCnt : UInt32} {m_sID : ConnRef → UInt32} {actions : List Action}
    {server : RunningServer}
    (trace : Trace (Step order padding) (start m_IDCnt m_sID) actions server) :
    ∀ conn < server.created,
      (server.connection conn).writer.written <+:
        Writer.frames (padding conn) (server.connection conn).sent ∧
      ((server.connection conn).sent = [] ∨ (server.connection conn).Greeted) ∧
      (conn + 1 < server.created ∨ server.io = .idle → (server.connection conn).Greeted) ∧
      ∀ owned ∈ server.m_TCP_PktIn, owned.connectionPtr = some conn →
        (server.connection conn).Greeted ∧ (server.connection conn).identified = true := by
  intro conn isCreated
  have coordinated := coordinated_of_trace trace
  have introduced := introduced_of_trace trace
  refine ⟨ Writer.Sending.written_prefix (introduced.writers conn), ?_, ?_, ?_⟩
  · by_cases isAwaited : server.Awaited conn
    · exact .inl (introduced.fresh conn isAwaited)
    · exact .inr (introduced.greeted conn isAwaited)
  · intro accepted
    apply introduced.greeted conn
    rcases coordinated.accepting with waits | ⟨stage, newconn, accepting⟩
    · rw [awaited_iff_of_idle waits]
      exact Nat.not_le.mpr isCreated
    · rw [awaited_iff accepting.io]
      rintro (notCreated | ⟨-, rfl⟩)
      · exact Nat.not_le.mpr isCreated notCreated
      · rcases accepted with older | waits
        · rw [accepting.newest] at older
          exact Nat.lt_irrefl _ older
        · exact stage.thread_ne_idle newconn (accepting.io.symm.trans waits)
  · intro owned member owner
    rcases introduced.queued owned member with ⟨other, isOwner, isIdentified⟩
    rw [Option.some.inj (owner.symm.trans isOwner)]
    refine ⟨introduced.known other (.inl ?_), isIdentified⟩
    exact List.mem_append_right _ (List.mem_filterMap.mpr ⟨owned, member, isOwner⟩)

/-- A connection is accepted while the main thread sends to all, and a packet is read. -/
theorem accept_packet_first_sent_to_all :
    let padding : ConnRef → Nat → UInt16 := fun _ _ => 0
    let news := Server.emptyPacket .ServerMessage
    let actions : List Action := [.accept, .io, .io, .io, .SendToAll news none, .main, .main, .io,
      .main, .main, .io, .io, .write 0 .runPosted, .write 0 (.transfer 0 8),
      .write 0 .runPosted, .read 0 (.arrive [7, 0, 0, 0, 0, 0, 0, 0]), .read 0 .complete]
    ∃ server, Trace (Step .asKept padding) (start 5 fun _ => 0) actions server ∧
      (server.connection 0).sent = [Server.acceptPacket, news] ∧
      (server.connection 0).writer.written = Server.acceptPacket.frame (0 : UInt16) ∧
      server.m_TCP_PktIn = [⟨some 0, Server.emptyPacket .MessageAll⟩] ∧
      (server.connection 0).Greeted ∧ (server.connection 0).identified = true := by
  intro padding news actions
  have runs : ∃ server ∈ runSteps (step .asKept padding) (start 5 fun _ => 0) actions,
      server.created = 1 ∧ (server.connection 0).sent = [Server.acceptPacket, news] ∧
        (server.connection 0).writer.written = Server.acceptPacket.frame (0 : UInt16) ∧
        server.m_TCP_PktIn = [⟨some 0, Server.emptyPacket .MessageAll⟩] := by
    decide
  rcases runs with ⟨server, reaches, created, sent, written, queue⟩
  have trace : Trace (Step .asKept padding) (start 5 fun _ => 0) actions server :=
    Trace.of_run reaches
  have first := accept_packet_first trace 0 (by omega)
  have queued : ⟨some 0, Server.emptyPacket .MessageAll⟩ ∈ server.m_TCP_PktIn := by simp [queue]
  exact ⟨server, trace, sent, written, queue, first.2.2.2 _ queued rfl⟩

end RunningServer

end GNL
