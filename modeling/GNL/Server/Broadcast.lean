import GNL.Server.Losses
import GNL.Server.Messages

/-! # What `SendToAll` does to each connection

The loop sends, reports and sets pointers to null as it goes; what it set to null is
erased after it. Each connection is asked once whether it is open, and what is done to
it depends on the answer alone.
-/

namespace GNL.Server

variable {env : Environment} {pkt : Packet CMD} {ignore_client : Option ConnRef}

def foundOpen (env : Environment) (tick : Nat) (conns : List ConnRef) (conn : ConnRef) : Bool :=
  env.isOpen (tick + conns.idxOf conn) conn

theorem foundOpen_of_getElem? {tick index : Nat} {conns : List ConnRef} {conn : ConnRef}
    (distinct : conns.Nodup) (isAt : conns[index]? = some conn) :
    env.isOpen (tick + index) conn = foundOpen env tick conns conn := by
  rcases List.getElem?_eq_some_iff.mp isAt with ⟨inRange, rfl⟩
  rw [foundOpen, distinct.idxOf_getElem]

theorem sent_of_passed (server : Server) (conn : ConnRef) :
    (server.passed pkt ignore_client conn).sent =
      server.sent ++ if some conn ≠ ignore_client then [(conn, pkt)] else [] := by
  unfold passed
  split
  · rfl
  · exact (List.append_nil _).symm

theorem removed_of_passed (server : Server) (conn : ConnRef) :
    (server.passed pkt ignore_client conn).removed = server.removed := by
  unfold passed
  split <;> rfl

theorem sendToEach_eq (pkt : Packet CMD) (ignore_client : Option ConnRef)
    {isOpen : ConnRef → Bool} {conns : List ConnRef} {server : Server}
    (answers : ∀ index conn, conns[index]? = some conn →
      env.isOpen (server.tick + index) conn = isOpen conn) :
    ∃ invalid after, sendToEach env pkt ignore_client (conns.map some) server =
        .ok (conns.map fun conn => if isOpen conn then some conn else none, invalid, after) ∧
      (invalid = false → ∀ conn ∈ conns, isOpen conn = true) ∧
      after.sent = server.sent ++
        ((conns.filter isOpen).filter (some · ≠ ignore_client)).map (·, pkt) ∧
      after.removed = server.removed ++ conns.filter (!isOpen ·) := by
  induction conns generalizing server with
  | nil => exact ⟨false, server, rfl, by simp, by simp, by simp⟩
  | cons conn rest induction =>
      have answer : env.isOpen server.tick conn = isOpen conn := answers 0 conn rfl
      have later : ∀ index other, rest[index]? = some other →
          env.isOpen (server.tick + 1 + index) other = isOpen other := by
        intro index other isAt
        have shifted := answers (index + 1) other isAt
        rw [← shifted, Nat.add_assoc, Nat.add_comm 1]
      rw [List.map_cons, List.map_cons]
      cases open_ : isOpen conn with
      | true =>
          rw [open_] at answer
          have ticks : (server.passed pkt ignore_client conn).tick = server.tick + 1 := tick_passed
          rcases induction (ticks ▸ later) with ⟨invalid, after, looped, valid, sent, removed⟩
          refine ⟨invalid, after, ?_, ?_, ?_, ?_⟩
          · rw [sendToEach_of_open answer, looped]
            rfl
          · exact fun isFalse => List.forall_mem_cons.mpr ⟨open_, valid isFalse⟩
          · rw [sent, sent_of_passed, List.filter_cons_of_pos open_, List.append_assoc]
            by_cases ignored : some conn ≠ ignore_client
            · rw [if_pos ignored, List.filter_cons_of_pos (by simpa using ignored)]
              rfl
            · rw [if_neg ignored, List.filter_cons_of_neg (by simpa using ignored)]
              rfl
          · rw [removed, removed_of_passed, List.filter_cons_of_neg (by simp [open_])]
      | false =>
          rw [open_] at answer
          have ticks : (server.asked.disconnected conn).tick = server.tick + 1 := rfl
          rcases induction (ticks ▸ later) with ⟨invalid, after, looped, -, sent, removed⟩
          refine ⟨true, after, ?_, nofun, ?_, ?_⟩
          · rw [sendToEach_of_closed answer, looped]
            rfl
          · rw [sent, List.filter_cons_of_neg (by simp [open_])]
            rfl
          · rw [removed, List.filter_cons_of_pos (by simp [open_])]
            exact List.append_assoc _ [conn] _

theorem filter_left (isOpen : ConnRef → Bool) (conns : List ConnRef) :
    (conns.map fun conn => if isOpen conn then some conn else none).filter (· ≠ none) =
      (conns.filter isOpen).map some := by
  induction conns with
  | nil => rfl
  | cons conn rest induction =>
      rw [List.map_cons]
      cases open_ : isOpen conn with
      | true =>
          rw [List.filter_cons_of_pos open_, List.map_cons, if_pos rfl,
            List.filter_cons_of_pos (by simp), induction]
      | false =>
          rw [if_neg Bool.false_ne_true, List.filter_cons_of_neg (by simp),
            List.filter_cons_of_neg (by simp [open_]), induction]

/-- `SendToAll` hands the packet to each connection it finds open but the ignored one,
reports each it finds closed, and keeps those it finds open. -/
theorem SendToAll_exact (env : Environment) (server : Server) {conns : List ConnRef}
    (connections : server.m_TCPConnections = conns.map some) (distinct : conns.Nodup)
    (pkt : Packet CMD) (ignore_client : Option ConnRef) :
    let isOpen := foundOpen env server.tick conns
    ∃ after, server.SendToAll env pkt ignore_client = .ok after ∧
      newlySent server after =
        ((conns.filter isOpen).filter (some · ≠ ignore_client)).map (·, pkt) ∧
      after.removed = server.removed ++ conns.filter (!isOpen ·) ∧
      after.m_TCPConnections = (conns.filter isOpen).map some := by
  intro isOpen
  have answers : ∀ index conn, conns[index]? = some conn →
      env.isOpen (server.tick + index) conn = isOpen conn :=
    fun _ _ isAt => foundOpen_of_getElem? distinct isAt
  rcases sendToEach_eq pkt ignore_client answers with
    ⟨invalid, after, looped, valid, sent, removed⟩
  rw [← connections] at looped
  have erased := filter_left isOpen conns
  have isNext : server.SendToAll env pkt ignore_client =
      .ok { after with m_TCPConnections := (conns.filter isOpen).map some } := by
    rw [SendToAll, looped, ← erased]
    cases invalid with
    | true => rfl
    | false =>
        have noneNull : (conns.map fun conn => if isOpen conn then some conn else none).filter
            (· ≠ none) = conns.map fun conn => if isOpen conn then some conn else none := by
          rw [List.filter_eq_self]
          intro client member
          rcases List.mem_map.mp member with ⟨conn, inList, rfl⟩
          simp [valid rfl conn inList]
        rw [noneNull]
        rfl
  refine ⟨_, isNext, ?_, removed, rfl⟩
  rw [newlySent, sent, List.drop_left]

theorem SendToAll_exact_one_closed :
    let env := Environment.closing 1 0
    let news := emptyPacket .ServerMessage
    let server := { start 5 fun _ => 0 with m_TCPConnections := [some 0, some 1, some 2, some 3] }
    ∃ after, server.SendToAll env news (some 2) = .ok after ∧
      newlySent server after = [(0, news), (3, news)] ∧ after.removed = [1] ∧
      after.m_TCPConnections = [some 0, some 2, some 3] := by
  intro env news server
  have connections : server.m_TCPConnections = [0, 1, 2, 3].map some := rfl
  rcases SendToAll_exact env server connections (by decide) news (some 2) with
    ⟨after, isNext, sent, removed, left⟩
  exact ⟨after, isNext, sent, removed, left⟩

end GNL.Server
