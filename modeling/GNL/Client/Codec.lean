import GNL.Client.Outgoing

/-! # Writing a packet and reading it back

Fixed-width values are found by their width and strings by the separator in
front of them, each from the end of the body. Every read takes off what the
matching write appended; a string read last leaves its size in the header.
-/

namespace GNL

/-- A string `ReadString` can return: one byte to a character, no terminator
inside, and room for a terminator in the array it is copied to. -/
structure GodotString.Plain [GodotString S] (string : S) : Prop where
  noTerminator : '\x00' ∉ characters string
  ascii : ∀ character ∈ characters string, character.toNat < 128
  short : (characters string).length < MAX_LEN

theorem GodotString.Plain.length_utf8 [GodotString S] {string : S} (plain : Plain string) :
    (utf8 string).length = (characters string).length :=
  length_utf8_of_ascii plain.ascii

theorem GodotString.Plain.utf8_short [GodotString S] {string : S} (plain : Plain string) :
    (utf8 string).length < MAX_LEN := by
  rw [plain.length_utf8]
  exact plain.short

def Field.Plain [GodotString S] : Field S → Prop
  | String data => GodotString.Plain data
  | _ => True

namespace Packet

open GodotString

variable {S : Type} [GodotString S]

theorem overwrite_append (front back source : List UInt8) (length : source.length = back.length) :
    overwrite (front ++ back) front.length source = front ++ source := by
  rw [overwrite, List.take_left, length, ← List.length_append, List.drop_length, List.append_nil]

/-- What `WriteString` appends: of the encoding only as many bytes as the string
has characters. -/
theorem body_insertString (documented : Documented S) (pkt : Packet T) (data : S) :
    (pkt.insertString data).body =
      pkt.body ++ 0 :: (utf8 data).take (characters data).length := by
  have enough : (characters data).length ≤ (utf8 data).length := length_le_length_utf8 data
  have copied : (alloc_c_string data).take (GodotString.length data) =
      (utf8 data).take (characters data).length := by
    rw [documented.alloc_c_string_eq, documented.length_eq, List.take_append_of_le_length enough]
  have resized : resize pkt.body (pkt.body.length + GodotString.length data + 1) =
      pkt.body ++ List.replicate ((characters data).length + 1) 0 := by
    rw [resize, List.take_of_length_le (by omega), documented.length_eq]
    congr 2
    omega
  have separated : overwrite (pkt.body ++ List.replicate ((characters data).length + 1) 0)
      pkt.body.length [0] =
      (pkt.body ++ [0]) ++ List.replicate (characters data).length 0 := by
    simp [overwrite, List.replicate_succ]
  have copiedLength : ((utf8 data).take (characters data).length).length =
      (List.replicate (characters data).length (0 : UInt8)).length := by
    rw [List.length_take, List.length_replicate]
    omega
  simp only [insertString, copied, resized, separated]
  have offset : pkt.body.length + 1 = (pkt.body ++ [(0 : UInt8)]).length := by
    simp
  rw [offset, overwrite_append _ _ _ copiedLength]
  simp

theorem body_insertString_iff (documented : Documented S) (pkt : Packet T) (data : S) :
    (pkt.insertString data).body = pkt.body ++ 0 :: utf8 data ↔
      ∀ character ∈ characters data, character.toNat < 128 := by
  rw [body_insertString documented, List.append_cancel_left_eq, List.cons.injEq,
    List.take_eq_self_iff, ← length_utf8_eq_iff]
  have enough := length_le_length_utf8 data
  constructor
  · rintro ⟨-, whole⟩
    omega
  · intro sameLength
    exact ⟨rfl, sameLength.le⟩

theorem scan_append (front : List UInt8) {text : List UInt8} (noZero : (0 : UInt8) ∉ text) :
    ((front ++ 0 :: text).reverse.takeWhile (· ≠ 0)).length = text.length := by
  rw [List.reverse_append, List.reverse_cons, List.append_assoc, List.singleton_append,
    takeWhile_append_zero (by simpa using noZero), List.length_reverse]

theorem resize_append (front back : List UInt8) : resize (front ++ back) front.length = front := by
  simp [resize]

theorem extractString_append (documented : Documented S) {pkt : Packet T} {front : List UInt8}
    {data : S} (noTerminator : '\x00' ∉ characters data)
    (short : (utf8 data).length < MAX_LEN) (ends : pkt.body = front ++ 0 :: utf8 data) :
    pkt.extractString = .ok (data, { pkt with body := front }) := by
  have strlen : (pkt.body.reverse.takeWhile (· ≠ 0)).length = (utf8 data).length := by
    rw [ends, scan_append front (zero_notMem_utf8 noTerminator)]
  have bodyLength : pkt.body.length = front.length + 1 + (utf8 data).length := by
    rw [ends, List.length_append, List.length_cons]
    omega
  have stops : ¬(utf8 data).length = pkt.body.length := by
    omega
  have copied : pkt.body.drop (pkt.body.length - (utf8 data).length) = utf8 data := by
    rw [bodyLength, Nat.add_sub_cancel, ends, List.drop_append, List.drop_of_length_le (by omega)]
    simp
  have kept : resize pkt.body (pkt.body.length - (utf8 data).length - 1) = front := by
    rw [bodyLength, Nat.add_sub_cancel, Nat.add_sub_cancel, ends, resize_append]
  -- The array is zeroed before the copy, so what follows the string is a terminator.
  have terminated : List.replicate (MAX_LEN - (utf8 data).length) (0 : UInt8) =
      0 :: List.replicate (MAX_LEN - (utf8 data).length - 1) 0 := by
    rw [← List.replicate_succ]
    congr 1
    omega
  simp only [extractString, strlen, stops, Nat.not_le.mpr short, if_false, copied, kept,
    terminated, documented.ofCString_eq data _ noTerminator]

end Packet

namespace NetNode

variable {S : Type} [GodotString S]

theorem read_append [StandardLayout α] {node : NetNode} {front : List UInt8} {data : α}
    (ends : node.m_pktIn.body = front ++ StandardLayout.toBytes data) :
    ∃ rest, node.read α = .ok (data, rest) ∧ rest.m_pktIn.body = front ∧
      rest.m_pktIn.header.size = rest.m_pktIn.get_packet_len := by
  rcases Packet.extract_append ends with ⟨rest, taken, body, -, size⟩
  exact ⟨{ node with m_pktIn := rest }, by rw [read, taken]; rfl, body, size⟩

theorem readField_of_sent (documented : GodotString.Documented S) {before after : NetNode}
    {field : Field S} (plain : field.Plain)
    (agrees : after.m_pktIn.body = (before.write field).m_pktOut.body) :
    ∃ rest : NetNode, after.readField field.kind = .ok (field, rest) ∧
      rest.m_pktIn.body = before.m_pktOut.body ∧
      rest.m_pktIn.header.size =
        if field.kind = .String then after.m_pktIn.header.size
        else rest.m_pktIn.get_packet_len := by
  cases field with
  | String data =>
      have ends := agrees.trans
        ((Packet.body_insertString_iff documented before.m_pktOut data).mpr plain.ascii)
      have taken := Packet.extractString_append documented plain.noTerminator
        plain.utf8_short ends
      exact ⟨{ after with m_pktIn.body := before.m_pktOut.body },
        by simp only [readField, Field.kind, ReadString, taken, Except.map], rfl, rfl⟩
  | _ =>
      rcases read_append agrees with ⟨rest, taken, body, size⟩
      exact ⟨rest, by simp only [readField, Field.kind, ReadShort, ReadLong, ReadLongLong,
        ReadDouble, taken, Except.map], body, size⟩

theorem recovers (documented : GodotString.Documented S) {field : Field S} (plain : field.Plain) :
    (codec S).Recovers field := by
  intro before after agrees
  rcases readField_of_sent documented plain agrees with ⟨rest, taken, body, -⟩
  exact ⟨rest, taken, body⟩

def SizeCovers (node : NetNode) : Prop :=
  node.m_pktIn.body.length ≤ node.m_pktIn.header.size.toNat

theorem sizeCovers_read [StandardLayout α] {node rest : NetNode} {data : α}
    (covers : node.SizeCovers) (taken : node.read α = .ok (data, rest)) : rest.SizeCovers := by
  by_cases longEnough : StandardLayout.sizeof α ≤ node.m_pktIn.body.length
  · rcases Packet.extract_of_le α longEnough with ⟨_, shorter, extracted, -, size, length, -⟩
    rw [read, extracted, Except.map, Except.ok.injEq, Prod.mk.injEq] at taken
    rcases taken with ⟨-, rfl⟩
    have sizeBound := node.m_pktIn.header.size.toNat_lt
    have fits : shorter.body.length < 2 ^ 32 := by
      rw [SizeCovers] at covers
      omega
    rw [SizeCovers, size, Packet.toNat_get_packet_len _ fits]
  · rw [read, Packet.extract_of_lt α (Nat.not_le.mp longEnough)] at taken
    contradiction

theorem sizeCovers_ReadString {node rest : NetNode} {data : S}
    (covers : node.SizeCovers) (taken : node.ReadString S = .ok (data, rest)) :
    rest.SizeCovers := by
  rcases exists_of_map_eq_ok taken with ⟨⟨_, shorter⟩, extracted, made⟩
  cases made
  simp only [Packet.extractString] at extracted
  split at extracted
  · contradiction
  · split at extracted
    · contradiction
    · simp only [Except.ok.injEq, Prod.mk.injEq] at extracted
      rcases extracted with ⟨-, rfl⟩
      simp only [SizeCovers, Packet.length_resize] at covers ⊢
      omega

theorem sizeCovers_readField {kind : FieldKind} {node rest : NetNode} {value : Field S}
    (covers : node.SizeCovers) (taken : node.readField kind = .ok (value, rest)) :
    rest.SizeCovers := by
  cases kind with
  | String =>
      rcases exists_of_map_eq_ok taken with ⟨_, result, made⟩
      cases made
      exact sizeCovers_ReadString covers result
  | _ =>
      rcases exists_of_map_eq_ok taken with ⟨_, result, made⟩
      cases made
      exact sizeCovers_read covers result

/-- The reads for `fields`, last written first, return them and leave the body
that was there before them. -/
def ReadsBack (sender receiver : NetNode) (fields : List (Field S)) (rest : NetNode) : Prop :=
  (codec S).readAll (fields.reverse.map Field.kind) receiver = .ok (fields.reverse, rest) ∧
    rest.m_pktIn.body = sender.m_pktOut.body

def SizeRestored (sender : NetNode) : List (Field S) → Prop
  | [] => sender.m_pktOut.Consistent
  | first :: _ => first.kind ≠ .String

theorem consistent_writeAll (sender : NetNode) {fields : List (Field S)} (some : fields ≠ [])
    (fits : ((codec S).writeAll sender fields).m_pktOut.body.length < 2 ^ 32) :
    ((codec S).writeAll sender fields).m_pktOut.Consistent := by
  rw [← List.dropLast_concat_getLast some, StackCodec.writeAll_append] at fits ⊢
  exact consistent_write _ _ fits

theorem readsBack_iff {sender receiver rest other : NetNode} {fields : List (Field S)}
    (reads : ReadsBack sender receiver fields rest) :
    ReadsBack sender receiver fields other ↔ other = rest := by
  constructor
  · intro others
    have same := others.1.symm.trans reads.1
    simpa using same
  · rintro rfl
    exact reads

theorem exists_readsBack (documented : GodotString.Documented S) (sender receiver : NetNode)
    (fields : List (Field S)) (plain : ∀ field ∈ fields, field.Plain)
    (delivered : receiver.m_pktIn.body = ((codec S).writeAll sender fields).m_pktOut.body) :
    ∃ rest, ReadsBack sender receiver fields rest :=
  (codec S).readAll_writeAll fields (fun field member => recovers documented (plain field member))
    sender receiver delivered

omit [GodotString S] in
theorem consistent_rest_iff {first : Field S} {middle rest : NetNode}
    (covers : middle.SizeCovers)
    (shrinks : rest.m_pktIn.body.length < middle.m_pktIn.body.length)
    (size : rest.m_pktIn.header.size =
      if first.kind = .String then middle.m_pktIn.header.size else rest.m_pktIn.get_packet_len) :
    rest.m_pktIn.Consistent ↔ first.kind ≠ .String := by
  rw [SizeCovers] at covers
  by_cases string : first.kind = .String
  · -- The size is still that of the body before the string was taken off.
    rw [if_pos string] at size
    apply iff_of_false
    · intro consistent
      rw [Packet.Consistent, size] at consistent
      omega
    · exact not_not.mpr string
  · rw [if_neg string] at size
    apply iff_of_true
    · have middleFits := middle.m_pktIn.header.size.toNat_lt
      rw [Packet.Consistent, size]
      apply Packet.toNat_get_packet_len
      omega
    · exact string

/-- Reading what was written in the reverse order returns every value and
restores the body, and the size with it unless the last read is of a string. -/
theorem reads_back_iff (documented : GodotString.Documented S) (sender receiver : NetNode)
    (fields : List (Field S)) (plain : ∀ field ∈ fields, field.Plain)
    (fits : ((codec S).writeAll sender fields).m_pktOut.body.length < 2 ^ 32)
    (delivered : receiver.m_pktIn = ((codec S).writeAll sender fields).m_pktOut) :
    (∃ rest, ReadsBack sender receiver fields rest) ∧
      ((∃ rest, ReadsBack sender receiver fields rest ∧ rest.m_pktIn.Consistent) ↔
        SizeRestored sender fields) := by
  cases fields with
  | nil =>
      have reads : ReadsBack sender receiver ([] : List (Field S)) receiver :=
        ⟨rfl, congrArg Packet.body delivered⟩
      have same : receiver.m_pktIn = sender.m_pktOut := delivered
      refine ⟨⟨receiver, reads⟩, ?_⟩
      simp only [readsBack_iff reads, exists_eq_left, SizeRestored, same]
  | cons first later =>
      rcases List.forall_mem_cons.mp plain with ⟨plainFirst, plainLater⟩
      rcases exists_readsBack documented (sender.write first) receiver later plainLater
        (congrArg Packet.body delivered) with ⟨middle, readLater, middleBody⟩
      have coversReceiver : receiver.SizeCovers := by
        rw [SizeCovers, delivered]
        exact (consistent_writeAll sender (List.cons_ne_nil first later) fits).ge
      have coversMiddle : middle.SizeCovers :=
        (codec S).readAll_invariant (fun _ _ _ _ => sizeCovers_readField) _ coversReceiver readLater
      rcases readField_of_sent documented plainFirst middleBody with
        ⟨rest, readFirst, restBody, restSize⟩
      have reads : ReadsBack sender receiver (first :: later) rest := by
        refine ⟨?_, restBody⟩
        rw [List.reverse_cons, List.map_append, (codec S).readAll_append _ _ readLater,
          List.map_singleton, (codec S).readAll_cons readFirst]
        rfl
      refine ⟨⟨rest, reads⟩, ?_⟩
      simp only [readsBack_iff reads, exists_eq_left, SizeRestored]
      have shrinks : rest.m_pktIn.body.length < middle.m_pktIn.body.length := by
        rw [restBody, middleBody]
        exact length_lt_length_write sender first
      exact consistent_rest_iff coversMiddle shrinks restSize

theorem reads_back_short_string_double :
    let sender : NetNode := ⟨⟨true, []⟩, default, default⟩
    let fields : List (Field (List Char)) := [.Short 7, .String ['h', 'i'], .Double Double.zero]
    let receiver : NetNode :=
      { sender with m_pktIn := ((codec (List Char)).writeAll sender fields).m_pktOut }
    (∃ rest, ReadsBack sender receiver fields rest) ∧
      ((∃ rest, ReadsBack sender receiver fields rest ∧ rest.m_pktIn.Consistent) ↔
        SizeRestored sender fields) := by
  intro sender fields receiver
  have plain : ∀ field ∈ fields, field.Plain := by
    intro field member
    simp only [fields, List.mem_cons, List.not_mem_nil, or_false] at member
    rcases member with rfl | rfl | rfl
    · trivial
    · exact ⟨by decide, by simp [GodotString.characters], by decide⟩
    · trivial
  exact reads_back_iff GodotString.documented_listChar sender receiver fields plain
    (by decide) rfl

/-- A packet that holds one string is empty once the string is read, and still
says it holds two bytes. -/
theorem readString_leaves_size :
    let sender : NetNode := ⟨⟨true, []⟩, default, default⟩
    let fields : List (Field (List Char)) := [.String ['a']]
    let receiver : NetNode :=
      { sender with m_pktIn := ((codec (List Char)).writeAll sender fields).m_pktOut }
    (∀ field ∈ fields, field.Plain) ∧
      ((codec (List Char)).writeAll sender fields).m_pktOut.body.length < 2 ^ 32 ∧
      ¬∃ rest, ReadsBack sender receiver fields rest ∧ rest.m_pktIn.Consistent := by
  intro sender fields receiver
  have plain : GodotString.Plain ['a'] := ⟨by decide, by simp [GodotString.characters], by decide⟩
  have ends : receiver.m_pktIn.body = [] ++ 0 :: GodotString.utf8 ['a'] := by decide
  have taken := Packet.extractString_append GodotString.documented_listChar plain.noTerminator
    plain.utf8_short ends
  refine ⟨by simpa [fields, Field.Plain] using plain, by decide, ?_⟩
  rintro ⟨rest, ⟨reads, body⟩, consistent⟩
  have left : rest = { receiver with m_pktIn.body := [] } := by
    simpa [fields, codec, StackCodec.readAll, Field.kind, readField, ReadString, taken, Except.map]
      using reads.symm
  rw [left] at consistent
  exact absurd consistent (by decide)

end NetNode

end GNL
