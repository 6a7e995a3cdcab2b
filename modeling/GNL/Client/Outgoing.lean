import GNL.Client.NetNode
import Mathlib.Data.List.Induction
import Mathlib.Data.List.Infix

/-! # The outgoing packet of a script node

Every write recalculates the size of `m_pktOut`; `PreparePacket` empties the
body and leaves the size of the last packet behind. A packet sent before the
next write carries that size.
-/

namespace GNL.NetNode

inductive Call (S : Type)
  | PreparePacket
  | WriteCmd (cmdid : UInt16)
  | Write (field : Field S)
  | PingServer (ticks : Int64)
  | SendPacket

variable {S : Type}

def Call.clears : Call S → Bool
  | PreparePacket => true
  | _ => false

def Call.writes : Call S → Bool
  | Write _ => true
  | _ => false

def sinceCleared (calls : List (Call S)) : List (Call S) :=
  calls.reverse.takeWhile fun call => !call.clears

/-- When the size field of `m_pktOut` is that of its body after some calls: there
was a write since the body was last emptied, or there was none at all and the
size the calls started with is the right one. -/
def SizeCurrent (start : NetNode) (calls : List (Call S)) : Prop :=
  (∃ call ∈ sinceCleared calls, call.writes) ∨
    (∀ call ∈ calls, ¬call.writes) ∧
      if ∃ call ∈ calls, call.clears then start.m_pktOut.header.size = 0
      else start.m_pktOut.Consistent

structure Outgoing (start : NetNode) (calls : List (Call S)) (node : NetNode) : Prop where
  connected : node.m_Client.IsConnected
  consistent_iff : node.m_pktOut.Consistent ↔ SizeCurrent start calls
  size_of_unwritten : (∀ call ∈ calls, ¬call.writes) →
    node.m_pktOut.header.size = start.m_pktOut.header.size
  size_of_written : (∃ call ∈ calls, call.writes) → node.m_pktOut.header.size ≠ 0

theorem Outgoing.start {start : NetNode} (connected : start.m_Client.IsConnected) :
    Outgoing start ([] : List (Call S)) start where
  connected := connected
  consistent_iff := by simp [SizeCurrent, sinceCleared]
  size_of_unwritten _ := rfl
  size_of_written written := by simp at written

theorem Outgoing.keep {start node next : NetNode} {calls : List (Call S)} {last : Call S}
    (outgoing : Outgoing start calls node) (connected : next.m_Client.IsConnected)
    (notClears : last.clears = false) (notWrites : last.writes = false)
    (sameSize : next.m_pktOut.header.size = node.m_pktOut.header.size)
    (sameBody : next.m_pktOut.body = node.m_pktOut.body) :
    Outgoing start (calls ++ [last]) next where
  connected := connected
  consistent_iff := by
    have sameConsistent : next.m_pktOut.Consistent ↔ node.m_pktOut.Consistent := by
      rw [Packet.Consistent, Packet.Consistent, sameSize, sameBody]
    rw [sameConsistent, outgoing.consistent_iff]
    simp [SizeCurrent, sinceCleared, notClears, notWrites, or_imp, forall_and, or_and_right,
      exists_or]
  size_of_unwritten unwritten := by
    rw [sameSize]
    exact outgoing.size_of_unwritten fun call member =>
      unwritten call (List.mem_append_left [last] member)
  size_of_written written := by
    rw [sameSize]
    apply outgoing.size_of_written
    simpa [notWrites, or_and_right, exists_or] using written

theorem Outgoing.clear {start node : NetNode} {calls : List (Call S)}
    (outgoing : Outgoing start calls node) :
    Outgoing start (calls ++ [.PreparePacket]) node.PreparePacket.2 := by
  have connected := outgoing.connected
  have cleared : node.PreparePacket.2 = { node with m_pktOut.body := [] } := by
    simp [PreparePacket, connected]
  have unwritten_iff : (∀ call ∈ calls ++ [.PreparePacket], ¬call.writes) ↔
      ∀ call ∈ calls, ¬call.writes := by
    simp [Call.writes, or_imp, forall_and]
  rw [cleared]
  constructor
  case connected => exact connected
  case size_of_unwritten =>
    intro unwritten
    exact outgoing.size_of_unwritten (unwritten_iff.mp unwritten)
  case size_of_written =>
    rintro ⟨call, member, writes⟩
    apply outgoing.size_of_written
    by_contra none
    simp only [not_exists, not_and] at none
    exact unwritten_iff.mpr none call member writes
  case consistent_iff =>
    -- The body is empty now, so the size is right only where nothing ever set it.
    have current_iff : SizeCurrent start (calls ++ [.PreparePacket]) ↔
        (∀ call ∈ calls, ¬call.writes) ∧ start.m_pktOut.header.size = 0 := by
      rw [SizeCurrent, unwritten_iff]
      simp [sinceCleared, Call.clears]
    rw [current_iff]
    have consistent_iff_zero : ({ node.m_pktOut with body := [] } : Packet CMD).Consistent ↔
        node.m_pktOut.header.size = 0 := by
      rw [Packet.Consistent, ← UInt32.toNat_inj]
      rfl
    rw [consistent_iff_zero]
    by_cases unwritten : ∀ call ∈ calls, ¬call.writes
    · rw [outgoing.size_of_unwritten unwritten]
      exact (and_iff_right unwritten).symm
    · have written : ∃ call ∈ calls, call.writes := by
        simpa using unwritten
      exact iff_of_false (outgoing.size_of_written written) fun both => unwritten both.1

variable [GodotString S]

section Writes

@[simp] theorem m_Client_write (node : NetNode) (field : Field S) :
    (node.write field).m_Client = node.m_Client := by
  cases field <;> rfl

theorem size_write (node : NetNode) (field : Field S) :
    (node.write field).m_pktOut.header.size = (node.write field).m_pktOut.get_packet_len := by
  cases field <;> rfl

theorem length_insertString (pkt : Packet T) (data : S) :
    (pkt.insertString data).body.length = pkt.body.length + GodotString.length data + 1 := by
  have separator : (overwrite (Packet.resize pkt.body
      (pkt.body.length + GodotString.length data + 1)) pkt.body.length [0]).length =
      pkt.body.length + GodotString.length data + 1 := by
    rw [length_overwrite, Packet.length_resize]
    rw [Packet.length_resize, List.length_singleton]
    omega
  simp only [Packet.insertString]
  rw [length_overwrite, separator]
  rw [separator, List.length_take]
  omega

theorem length_lt_length_write (node : NetNode) (field : Field S) :
    node.m_pktOut.body.length < (node.write field).m_pktOut.body.length := by
  cases field with
  | String data =>
      simp only [write, WriteString, length_insertString]
      omega
  | _ =>
      simp only [write, WriteShort, WriteLong, WriteLongLong, WriteDouble, Packet.body_insert,
        List.length_append, StandardLayout.length_toBytes, sizeof_uint16, sizeof_uint32,
        sizeof_uint64, sizeof_double]
      omega

theorem consistent_write (node : NetNode) (field : Field S)
    (fits : (node.write field).m_pktOut.body.length < 2 ^ 32) :
    (node.write field).m_pktOut.Consistent := by
  rw [Packet.Consistent, size_write]
  exact Packet.toNat_get_packet_len _ fits

end Writes

theorem Outgoing.write {start node : NetNode} {calls : List (Call S)} (field : Field S)
    (outgoing : Outgoing start calls node)
    (fits : (node.write field).m_pktOut.body.length < 2 ^ 32) :
    Outgoing start (calls ++ [.Write field]) (node.write field) where
  connected := by
    rw [m_Client_write]
    exact outgoing.connected
  consistent_iff := by
    apply iff_of_true (consistent_write node field fits)
    left
    exact ⟨.Write field, by simp [sinceCleared, Call.clears], rfl⟩
  size_of_unwritten unwritten :=
    absurd rfl (unwritten (.Write field) (List.mem_append_right calls List.mem_cons_self))
  size_of_written _ := by
    intro zero
    have consistent := consistent_write node field fits
    have longer := length_lt_length_write node field
    rw [Packet.Consistent, zero] at consistent
    rw [← consistent] at longer
    exact Nat.not_lt_zero _ longer

variable (clock : SystemClock)

def call (node : NetNode) : Call S → NetNode
  | .PreparePacket => node.PreparePacket.2
  | .WriteCmd cmdid => node.WriteCmd cmdid
  | .Write field => node.write field
  | .PingServer ticks => PingServer clock node ticks
  | .SendPacket => node.SendPacket

def callAll (node : NetNode) (calls : List (Call S)) : NetNode :=
  calls.foldl (call clock) node

theorem callAll_concat (node : NetNode) (calls : List (Call S)) (last : Call S) :
    node.callAll clock (calls ++ [last]) = (node.callAll clock calls).call clock last :=
  by
  rw [callAll, List.foldl_append]
  rfl

theorem Outgoing.call {start node : NetNode} {calls : List (Call S)} (last : Call S)
    (outgoing : Outgoing start calls node)
    (fits : (node.call clock last).m_pktOut.body.length < 2 ^ 32) :
    Outgoing start (calls ++ [last]) (node.call clock last) := by
  cases last with
  | PreparePacket => exact outgoing.clear
  | WriteCmd cmdid => exact outgoing.keep outgoing.connected rfl rfl rfl rfl
  | Write field => exact outgoing.write field fits
  | PingServer ticks =>
      have connected : (PingServer clock node ticks).m_Client.IsConnected := by
        simpa [PingServer] using outgoing.connected
      exact outgoing.keep connected rfl rfl rfl rfl
  | SendPacket =>
      have connected : node.SendPacket.m_Client.IsConnected := by
        simpa [NetNode.SendPacket] using outgoing.connected
      exact outgoing.keep connected rfl rfl rfl rfl

theorem outgoing_callAll {node : NetNode} (connected : node.m_Client.IsConnected)
    (calls : List (Call S))
    (fits : ∀ before, before <+: calls →
      (node.callAll clock before).m_pktOut.body.length < 2 ^ 32) :
    Outgoing node calls (node.callAll clock calls) := by
  induction calls using List.reverseRecOn with
  | nil => exact Outgoing.start connected
  | append_singleton calls last induction =>
      have earlier := induction fun before isPrefix =>
        fits before (isPrefix.trans (List.prefix_append calls [last]))
      rw [callAll_concat]
      apply earlier.call clock last
      rw [← callAll_concat]
      exact fits _ (List.prefix_refl _)

def passed (node : NetNode) : Call S → List (Packet CMD)
  | .PingServer ticks => [pingPacket clock ticks]
  | .SendPacket => [node.m_pktOut]
  | _ => []

theorem sent_call {node : NetNode} (connected : node.m_Client.IsConnected) (last : Call S) :
    (node.call clock last).m_Client.sent =
      node.m_Client.sent ++ node.passed clock last := by
  cases last with
  | PreparePacket => simp [call, PreparePacket, connected, passed]
  | WriteCmd cmdid => simp [call, WriteCmd, passed]
  | Write field => simp [call, passed]
  | PingServer ticks =>
      simp only [call, PingServer, ClientApp.SendToServer_of_connected connected, passed]
  | SendPacket =>
      simp only [call, SendPacket, ClientApp.SendToServer_of_connected connected, passed]

theorem consistent_pingPacket (ticks : Int64) : (pingPacket clock ticks).Consistent :=
  Packet.consistent_insert _ _ (by decide)

/-- Every packet a connected node sends says how long its body is exactly when
none is sent between a `PreparePacket` and the next write, but for those sent
before the first write. -/
theorem sent_consistent_iff (node : NetNode) (calls : List (Call S))
    (connected : node.m_Client.IsConnected) (nothingSent : node.m_Client.sent = [])
    (fits : ∀ before, before <+: calls →
      (node.callAll clock before).m_pktOut.body.length < 2 ^ 32) :
    (∀ pkt ∈ (node.callAll clock calls).m_Client.sent, pkt.Consistent) ↔
      ∀ before, before ++ [.SendPacket] <+: calls → SizeCurrent node before := by
  induction calls using List.reverseRecOn with
  | nil => simp [callAll, nothingSent]
  | append_singleton calls last induction =>
      have fitsEarlier : ∀ before, before <+: calls →
          (node.callAll clock before).m_pktOut.body.length < 2 ^ 32 := fun before isPrefix =>
        fits before (isPrefix.trans (List.prefix_append calls [last]))
      have outgoing := outgoing_callAll clock connected calls fitsEarlier
      have lastConsistent :
          (∀ pkt ∈ (node.callAll clock calls).passed clock last, pkt.Consistent) ↔
            (last = .SendPacket → SizeCurrent node calls) := by
        cases last with
        | SendPacket => simp [passed, outgoing.consistent_iff]
        | PingServer ticks => simp [passed, consistent_pingPacket]
        | _ => simp [passed]
      rw [callAll_concat, sent_call clock outgoing.connected]
      simp only [List.mem_append, or_imp, forall_and, induction fitsEarlier, lastConsistent,
        List.prefix_concat_iff]
      constructor
      · rintro ⟨earlier, sent⟩
        constructor
        · intro before same
          rcases List.append_inj' same rfl with ⟨rfl, lastIs⟩
          exact sent (List.singleton_inj.mp lastIs).symm
        · exact earlier
      · rintro ⟨sent, earlier⟩
        constructor
        · exact earlier
        · rintro rfl
          exact sent calls rfl

theorem sent_consistent_iff_two_packets :
    let clock : SystemClock := ⟨10000, by decide⟩
    let node : NetNode := ⟨⟨true, []⟩, default, default⟩
    let calls : List (Call (List Char)) :=
      [.Write (.Long 1), .SendPacket, .PreparePacket, .WriteCmd 2, .SendPacket]
    (∀ pkt ∈ (node.callAll clock calls).m_Client.sent, pkt.Consistent) ↔
      ∀ before, before ++ [.SendPacket] <+: calls → SizeCurrent node before := by
  intro clock node calls
  have fits : ∀ before ∈ calls.inits,
      (node.callAll clock before).m_pktOut.body.length < 2 ^ 32 := by
    decide
  exact sent_consistent_iff clock node calls rfl rfl fun before isPrefix =>
    fits before ((List.mem_inits before calls).mpr isPrefix)

/-- The second packet has no body and says it has the four bytes of the first. -/
theorem preparePacket_leaves_size :
    let clock : SystemClock := ⟨10000, by decide⟩
    let node : NetNode := ⟨⟨true, []⟩, default, default⟩
    let calls : List (Call (List Char)) :=
      [.Write (.Long 1), .SendPacket, .PreparePacket, .WriteCmd 2, .SendPacket]
    node.m_Client.IsConnected ∧
      (∀ before ∈ calls.inits, (node.callAll clock before).m_pktOut.body.length < 2 ^ 32) ∧
      ⟨⟨.SelfEnterWorld, 4⟩, []⟩ ∈ (node.callAll clock calls).m_Client.sent ∧
      ¬∀ pkt ∈ (node.callAll clock calls).m_Client.sent, pkt.Consistent := by
  decide

end GNL.NetNode
