import GNL.Client.Codec
import GNL.Server.Handling

/-! # Extraction from packets that are too short

`operator >>` does not look whether the body holds the value it takes off, and
neither do its callers. The server and the scripts are safe from a packet
exactly when it is long enough for all that is extracted from it.
-/

namespace GNL

/-- The bytes a read takes off the body; a string has none of its own. -/
def FieldKind.width : FieldKind → Nat
  | Short => 2
  | Long => 4
  | LongLong => 8
  | Double => 8
  | String => 0

namespace NetNode

section Reads

variable {S : Type} [GodotString S]

theorem read_of_le (DataType : Type) [StandardLayout DataType] {node : NetNode}
    (longEnough : StandardLayout.sizeof DataType ≤ node.m_pktIn.body.length) :
    ∃ data rest, node.read DataType = .ok (data, rest) ∧
      rest.m_pktIn.body.length + StandardLayout.sizeof DataType = node.m_pktIn.body.length := by
  rcases Packet.extract_of_le DataType longEnough with ⟨data, rest, extracted, -, -, length, -⟩
  exact ⟨data, { node with m_pktIn := rest }, by rw [read, extracted]; rfl, length⟩

theorem read_of_lt (DataType : Type) [StandardLayout DataType] {node : NetNode}
    (short : node.m_pktIn.body.length < StandardLayout.sizeof DataType) :
    node.read DataType = .error .outOfRange := by
  rw [read, Packet.extract_of_lt DataType short]
  rfl

theorem readField_of_le {kind : FieldKind} (fixed : kind ≠ .String) {node : NetNode}
    (longEnough : kind.width ≤ node.m_pktIn.body.length) :
    ∃ (value : Field S) (rest : NetNode), node.readField kind = .ok (value, rest) ∧
      rest.m_pktIn.body.length + kind.width = node.m_pktIn.body.length := by
  cases kind with
  | String => exact absurd rfl fixed
  | Short =>
      rcases read_of_le UInt16 longEnough with ⟨data, rest, taken, length⟩
      exact ⟨.Short data, rest, by rw [readField, ReadShort, taken]; rfl, length⟩
  | Long =>
      rcases read_of_le UInt32 longEnough with ⟨data, rest, taken, length⟩
      exact ⟨.Long data, rest, by rw [readField, ReadLong, taken]; rfl, length⟩
  | LongLong =>
      rcases read_of_le UInt64 longEnough with ⟨data, rest, taken, length⟩
      exact ⟨.LongLong data, rest, by rw [readField, ReadLongLong, taken]; rfl, length⟩
  | Double =>
      rcases read_of_le GNL.Double longEnough with ⟨data, rest, taken, length⟩
      exact ⟨.Double data, rest, by rw [readField, ReadDouble, taken]; rfl, length⟩

theorem readField_of_lt {kind : FieldKind} {node : NetNode}
    (short : node.m_pktIn.body.length < kind.width) :
    (node.readField kind : Except Fault (Field S × NetNode)) = .error .outOfRange := by
  cases kind with
  | String => exact absurd short (Nat.not_lt_zero _)
  | Short => rw [readField, ReadShort, read_of_lt UInt16 short]; rfl
  | Long => rw [readField, ReadLong, read_of_lt UInt32 short]; rfl
  | LongLong => rw [readField, ReadLongLong, read_of_lt UInt64 short]; rfl
  | Double => rw [readField, ReadDouble, read_of_lt GNL.Double short]; rfl

def totalWidth (kinds : List FieldKind) : Nat := (kinds.map FieldKind.width).sum

theorem totalWidth_cons (kind : FieldKind) (kinds : List FieldKind) :
    totalWidth (kind :: kinds) = kind.width + totalWidth kinds := by
  simp [totalWidth]

variable (S) in
theorem readAll_cons_of_le {kind : FieldKind} (fixed : kind ≠ .String) {node : NetNode}
    (longEnough : kind.width ≤ node.m_pktIn.body.length) :
    ∃ (value : Field S) (rest : NetNode),
      rest.m_pktIn.body.length + kind.width = node.m_pktIn.body.length ∧
      ∀ kinds, (codec S).readAll (kind :: kinds) node =
        ((codec S).readAll kinds rest).map fun result => (value :: result.1, result.2) := by
  have first : ∃ (value : Field S) (rest : NetNode), node.readField kind = .ok (value, rest) ∧
      rest.m_pktIn.body.length + kind.width = node.m_pktIn.body.length :=
    readField_of_le fixed longEnough
  rcases first with ⟨value, rest, taken, length⟩
  exact ⟨value, rest, length, fun kinds => (codec S).readAll_cons taken⟩

theorem readAll_of_le {kinds : List FieldKind} (fixed : ∀ kind ∈ kinds, kind ≠ .String)
    {node : NetNode} (longEnough : totalWidth kinds ≤ node.m_pktIn.body.length) :
    ∃ values rest, (codec S).readAll kinds node = .ok (values, rest) := by
  induction kinds generalizing node with
  | nil => exact ⟨[], node, rfl⟩
  | cons kind kinds induction =>
      rw [totalWidth_cons] at longEnough
      rw [List.forall_mem_cons] at fixed
      have firstLongEnough : kind.width ≤ node.m_pktIn.body.length := by
        omega
      rcases readAll_cons_of_le S fixed.1 firstLongEnough with ⟨value, rest, length, reads⟩
      have restLongEnough : totalWidth kinds ≤ rest.m_pktIn.body.length := by
        omega
      rcases induction fixed.2 restLongEnough with ⟨values, final, later⟩
      refine ⟨value :: values, final, ?_⟩
      rw [reads, later]
      rfl

theorem readAll_of_lt {kinds : List FieldKind} (fixed : ∀ kind ∈ kinds, kind ≠ .String)
    {node : NetNode} (short : node.m_pktIn.body.length < totalWidth kinds) :
    (codec S).readAll kinds node = .error .outOfRange := by
  induction kinds generalizing node with
  | nil => exact absurd short (Nat.not_lt_zero _)
  | cons kind kinds induction =>
      rw [totalWidth_cons] at short
      rw [List.forall_mem_cons] at fixed
      by_cases firstLongEnough : kind.width ≤ node.m_pktIn.body.length
      · rcases readAll_cons_of_le S fixed.1 firstLongEnough with ⟨value, rest, length, reads⟩
        have restShort : rest.m_pktIn.body.length < totalWidth kinds := by
          omega
        rw [reads, induction fixed.2 restShort]
        rfl
      · exact (codec S).readAll_cons_error (readField_of_lt (Nat.not_le.mp firstLongEnough))

variable (S) in
/-- The reads stay inside the body, and leave the node as it is where the body
is too short for them. -/
def Guarded (node : NetNode) (kinds : List FieldKind) : Prop :=
  (codec S).readAll kinds node ≠ .error .outOfRange ∧
    (node.m_pktIn.body.length < totalWidth kinds →
      ∃ values, (codec S).readAll kinds node = .ok (values, node))

theorem guarded_iff (node : NetNode) {kinds : List FieldKind}
    (fixed : ∀ kind ∈ kinds, kind ≠ .String) :
    Guarded S node kinds ↔ totalWidth kinds ≤ node.m_pktIn.body.length := by
  constructor
  · intro guarded
    by_contra short
    exact guarded.1 (readAll_of_lt fixed (Nat.not_le.mp short))
  · intro longEnough
    have reads : ∃ values rest, (codec S).readAll kinds node = .ok (values, rest) :=
      readAll_of_le fixed longEnough
    rcases reads with ⟨values, rest, taken⟩
    refine ⟨?_, fun short => absurd longEnough (Nat.not_le.mpr short)⟩
    rw [taken]
    intro impossible
    contradiction

end Reads

end NetNode

namespace Server

variable {env : Environment} {server : Server} {conn : ConnRef} {pkt : Packet CMD}

/-- `OnPacket` stays inside the body, and leaves the packet and the server as
they are where the packet is too short. -/
def Guarded (env : Environment) (server : Server) (conn : ConnRef) (pkt : Packet CMD) : Prop :=
  server.OnPacket env (some conn) pkt ≠ .error .outOfRange ∧
    (¬server.LongEnough conn pkt →
      server.OnPacket env (some conn) pkt = .ok (some conn, pkt, server))

theorem guarded_iff (wf : server.WellFormed) (isCreated : conn < server.created)
    (fits : pkt.body.length < 2 ^ 32) :
    Guarded env server conn pkt ↔ server.LongEnough conn pkt := by
  constructor
  · intro guarded
    by_contra short
    exact guarded.1 (OnPacket_of_short short)
  · intro longEnough
    have result : ∃ handled, server.OnPacket env (some conn) pkt = .ok handled ∧
        Handles env server conn pkt handled.2.2 :=
      OnPacket_of_longEnough wf isCreated fits longEnough
    rcases result with ⟨handled, isHandled, -⟩
    refine ⟨?_, fun short => absurd longEnough short⟩
    rw [isHandled]
    intro impossible
    contradiction

end Server

/-- Whatever packet a peer gets queued on a running server, its handling is safe
exactly when it is long enough; and whatever packet a script has before it, its reads
of numbers up to the next `ReadString` are safe exactly when the body holds them all. -/
theorem extraction_guarded_iff {S : Type} [GodotString S] {env : Environment} {m_IDCnt : UInt32}
    {m_sID : ConnRef → UInt32} {server : Server} {actions : List Server.Action}
    (trace : Trace (Server.Step env) (Server.start m_IDCnt m_sID) actions server) :
    (∀ conn pkt, server.m_TCP_PktIn.head? = some ⟨some conn, pkt⟩ →
      (Server.Guarded env server.popped conn pkt ↔ server.popped.LongEnough conn pkt)) ∧
    ∀ (node : NetNode) (kinds : List FieldKind), (∀ kind ∈ kinds, kind ≠ .String) →
      (NetNode.Guarded S node kinds ↔
        NetNode.totalWidth kinds ≤ node.m_pktIn.body.length) := by
  constructor
  · intro conn pkt queue
    have wf := Server.wellFormed_of_trace trace
    rcases wf.of_head queue with ⟨isCreated, fits⟩
    exact Server.guarded_iff wf.popped isCreated fits
  · intro node kinds fixed
    exact NetNode.guarded_iff node fixed

theorem extraction_guarded_iff_ping :
    let ping : Packet CMD := ⟨⟨.Ping, 8⟩, [1, 2, 3, 4, 5, 6, 7, 8]⟩
    ∃ server, Trace (Server.Step Environment.calm) (Server.start 0 fun _ => 0)
        [.accept, .receive 0 ping] server ∧
      (Server.Guarded Environment.calm server.popped 0 ping ↔
        server.popped.LongEnough 0 ping) := by
  intro ping
  have runs : ∃ server ∈ runSteps (Server.step Environment.calm) (Server.start 0 fun _ => 0)
      [.accept, .receive 0 ping], server.m_TCP_PktIn.head? = some ⟨some 0, ping⟩ := by
    decide
  rcases runs with ⟨server, reaches, queue⟩
  have trace := Trace.of_run reaches
  have guarded := extraction_guarded_iff (S := List Char) trace
  exact ⟨server, trace, guarded.1 0 ping queue⟩

/-- A ping without a body is taken apart all the same. -/
theorem empty_ping_extracted :
    let ping : Packet CMD := ⟨⟨.Ping, 0⟩, []⟩
    ∃ server, Trace (Server.Step Environment.calm) (Server.start 0 fun _ => 0)
        [.accept, .receive 0 ping] server ∧
      server.m_TCP_PktIn.head? = some ⟨some 0, ping⟩ ∧
      server.popped.OnPacket Environment.calm (some 0) ping = .error .outOfRange ∧
      ¬Server.Guarded Environment.calm server.popped 0 ping := by
  intro ping
  have runs : ∃ server ∈ runSteps (Server.step Environment.calm) (Server.start 0 fun _ => 0)
      [.accept, .receive 0 ping], server.m_TCP_PktIn.head? = some ⟨some 0, ping⟩ := by
    decide
  rcases runs with ⟨server, reaches, queue⟩
  have outOfRange : server.popped.OnPacket Environment.calm (some 0) ping = .error .outOfRange :=
    Server.onPing_of_short (by decide)
  exact ⟨server, Trace.of_run reaches, queue, outOfRange,
    fun guarded => guarded.1 outOfRange⟩

end GNL
