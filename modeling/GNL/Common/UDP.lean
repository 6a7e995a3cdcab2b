import GNL.Common.NetPacket
import GNL.Semantics.Trace

/-! # Packets over UDP (`NetUDP.h`)

A packet is sent as two datagrams, its header and its body, and put together again
by the order in which datagrams arrive. The channel between two connected peers may
lose, repeat, reorder and cut datagrams. Nothing tells the receiver which of them
belong together: it does not look at how many bytes it got, and the buffers keep
what was in them.
-/

namespace GNL

inductive Part
  | header
  | data
  deriving DecidableEq

/-- One of the two datagrams of a packet. Only its `bytes` are on the wire; of which
part of which packet they are is noted here and nowhere read by the code. -/
inductive Datagram (T : Type) [HeaderLayout T]
  | header (padding : HeaderLayout.Padding T) (pkt : Packet T)
  | data (pkt : Packet T)

namespace Datagram

variable {T : Type} [HeaderLayout T]

def bytes : Datagram T → List UInt8
  | header padding pkt => HeaderLayout.toBytes padding pkt.header
  | data pkt => pkt.body

def pkt : Datagram T → Packet T
  | header _ pkt => pkt
  | data pkt => pkt

def announces : Datagram T → Option (PacketHeader T)
  | header _ pkt => if pkt.body = [] then none else some pkt.header
  | data _ => none

/-- A body is the one announced, or that of another packet with the same header; a
header comes when no body is announced. -/
def Answers (announced : Option (PacketHeader T)) : Datagram T → Prop
  | header _ _ => announced = none
  | data pkt => announced = some pkt.header

instance [DecidableEq T] (announced : Option (PacketHeader T)) :
    DecidablePred (Answers announced)
  | header _ _ => inferInstanceAs (Decidable (announced = none))
  | data pkt => inferInstanceAs (Decidable (announced = some pkt.header))

end Datagram

/-- The members of a `UDP<T>`. `posted` holds the packets captured by lambdas that
have not run, `sending` and `receiving` the operations that were started, and
`datagrams` what was handed to the network. `header` and `body` are the memory of
`m_tmpPktIn`, and `m_PktIn` what was pushed into the incoming queue. -/
structure UDP (T : Type) [HeaderLayout T] where
  posted : List (Packet T)
  m_PktOut : List (Packet T)
  sending : List Part
  datagrams : List (Datagram T)
  receiving : List Part
  header : List UInt8
  body : List UInt8
  m_PktIn : List (Packet T)
  socketOpen : Bool

namespace UDP

section Operations

variable {T : Type} [HeaderLayout T] (padding : Nat → HeaderLayout.Padding T)

def pop_front (udp : UDP T) : Except Fault (UDP T) :=
  match udp.m_PktOut with
  | [] => .error .emptyQueue
  | _ :: rest => .ok { udp with m_PktOut := rest }

/-- `async_send` of the header of `m_PktOut.get_front()`; what its padding bytes
hold is up to `padding`. -/
def WriteHeader (udp : UDP T) : Except Fault (UDP T) :=
  match udp.m_PktOut with
  | [] => .error .emptyQueue
  | front :: _ => .ok { udp with
      sending := udp.sending ++ [.header]
      datagrams := udp.datagrams ++ [.header (padding udp.datagrams.length) front] }

def WriteData (udp : UDP T) : Except Fault (UDP T) :=
  match udp.m_PktOut with
  | [] => .error .emptyQueue
  | front :: _ => .ok { udp with
      sending := udp.sending ++ [.data]
      datagrams := udp.datagrams ++ [.data front] }

def writeNext (udp : UDP T) : Except Fault (UDP T) :=
  match udp.pop_front with
  | .error fault => .error fault
  | .ok udp => if udp.m_PktOut.isEmpty then .ok udp else udp.WriteHeader padding

/-- The handler of `WriteHeader`, called without an error. -/
def headerSent (udp : UDP T) : Except Fault (UDP T) :=
  match udp.m_PktOut with
  | [] => .error .emptyQueue
  | front :: _ => if front.body.length > 0 then udp.WriteData else udp.writeNext padding

def dataSent (udp : UDP T) : Except Fault (UDP T) :=
  udp.writeNext padding

/-- The lambda `SendPacket` posts. -/
def enqueue (udp : UDP T) (pkt : Packet T) : Except Fault (UDP T) :=
  let bWritingMessage := !udp.m_PktOut.isEmpty
  let udp := { udp with m_PktOut := udp.m_PktOut ++ [pkt] }
  if !bWritingMessage then udp.WriteHeader padding else .ok udp

def ReadHeader (udp : UDP T) : UDP T := { udp with receiving := udp.receiving ++ [.header] }

def ReadData (udp : UDP T) : UDP T := { udp with receiving := udp.receiving ++ [.data] }

def m_tmpPktIn (udp : UDP T) : Packet T := ⟨HeaderLayout.ofBytes udp.header, udp.body⟩

def PushToIncomingQueue (udp : UDP T) : UDP T :=
  ReadHeader { udp with m_PktIn := udp.m_PktIn ++ [udp.m_tmpPktIn] }

/-- A buffer after a datagram was received into it: one that is shorter leaves the
rest untouched, one that is longer is cut. -/
def fill (buffer datagram : List UInt8) : List UInt8 :=
  datagram.take buffer.length ++ buffer.drop datagram.length

theorem fill_of_length {buffer datagram : List UInt8} (length : datagram.length = buffer.length) :
    fill buffer datagram = datagram := by
  rw [fill, ← length, List.take_length, List.drop_eq_nil_of_le (by omega), List.append_nil]

/-- The handler of `ReadHeader`, called without an error. -/
def headerReceived (udp : UDP T) (datagram : List UInt8) : UDP T :=
  let udp := { udp with header := fill udp.header datagram }
  if udp.m_tmpPktIn.header.size > 0 then
    ReadData { udp with body := Packet.resize udp.body udp.m_tmpPktIn.header.size.toNat }
  else
    PushToIncomingQueue udp

def dataReceived (udp : UDP T) (datagram : List UInt8) : UDP T :=
  PushToIncomingQueue { udp with body := fill udp.body datagram }

/-- An endpoint as the handler of `async_connect` leaves it; `unused` is what the
padding bytes of a new header hold. -/
def connected [Inhabited T] (unused : HeaderLayout.Padding T) : UDP T :=
  ReadHeader {
    posted := []
    m_PktOut := []
    sending := []
    datagrams := []
    receiving := []
    header := HeaderLayout.toBytes unused (default : Packet T).header
    body := []
    m_PktIn := []
    socketOpen := true }

def completeSend (udp : UDP T) : Option (UDP T) :=
  match udp.sending with
  | [] => none
  | .header :: others => ({ udp with sending := others }.headerSent padding).toOption
  | .data :: others => ({ udp with sending := others }.dataSent padding).toOption

def receive (udp : UDP T) (datagram : List UInt8) : Option (UDP T) :=
  match udp.receiving with
  | [] => none
  | .header :: others => some ({ udp with receiving := others }.headerReceived datagram)
  | .data :: others => some ({ udp with receiving := others }.dataReceived datagram)

def Holds (udp : UDP T) (pkt : Packet T) : Prop :=
  pkt ∈ udp.posted ∨ pkt ∈ udp.m_PktOut ∨ pkt ∈ udp.datagrams.map Datagram.pkt

section Sending

variable {udp next : UDP T} {pkt : Packet T}

theorem holds_of_send {datagram : Datagram T} {sending : List Part}
    (isFront : datagram.pkt ∈ udp.m_PktOut)
    (holds : { udp with sending, datagrams := udp.datagrams ++ [datagram] }.Holds pkt) :
    udp.Holds pkt := by
  rcases holds with posted | queued | sent
  · exact .inl posted
  · exact .inr (.inl queued)
  · rw [List.map_append] at sent
    rcases List.mem_append.mp sent with before | isNew
    · exact .inr (.inr before)
    · rw [List.map_singleton, List.mem_singleton] at isNew
      exact .inr (.inl (isNew ▸ isFront))

theorem holds_of_WriteHeader (isNext : udp.WriteHeader padding = .ok next)
    (holds : next.Holds pkt) : udp.Holds pkt := by
  unfold WriteHeader at isNext
  split at isNext
  · contradiction
  next front rest queue =>
    cases isNext
    exact holds_of_send (queue ▸ List.mem_cons_self) holds

theorem holds_of_WriteData (isNext : udp.WriteData = .ok next) (holds : next.Holds pkt) :
    udp.Holds pkt := by
  unfold WriteData at isNext
  split at isNext
  · contradiction
  next front rest queue =>
    cases isNext
    exact holds_of_send (queue ▸ List.mem_cons_self) holds

theorem holds_of_writeNext (isNext : udp.writeNext padding = .ok next)
    (holds : next.Holds pkt) : udp.Holds pkt := by
  unfold writeNext pop_front at isNext
  cases queue : udp.m_PktOut with
  | nil =>
      rw [queue] at isNext
      contradiction
  | cons front rest =>
      simp only [queue] at isNext
      have popped : { udp with m_PktOut := rest }.Holds pkt := by
        split at isNext
        · cases isNext
          exact holds
        · exact holds_of_WriteHeader padding isNext holds
      rcases popped with posted | queued | sent
      · exact .inl posted
      · refine .inr (.inl ?_)
        rw [queue]
        exact List.mem_cons_of_mem _ queued
      · exact .inr (.inr sent)

theorem holds_of_completeSend (isNext : udp.completeSend padding = some next)
    (holds : next.Holds pkt) : udp.Holds pkt := by
  unfold completeSend at isNext
  split at isNext
  · contradiction
  next others sending =>
    have written := toOption_eq_some_iff.mp isNext
    have before : { udp with sending := others }.Holds pkt := by
      unfold headerSent at written
      split at written
      · contradiction
      · split at written
        · exact holds_of_WriteData written holds
        · exact holds_of_writeNext padding written holds
    exact before
  next others sending =>
    have before : { udp with sending := others }.Holds pkt :=
      holds_of_writeNext padding (toOption_eq_some_iff.mp isNext) holds
    exact before

theorem holds_of_enqueue {given : Packet T} {posted : List (Packet T)}
    (queue : udp.posted = given :: posted)
    (isNext : { udp with posted }.enqueue padding given = .ok next)
    (holds : next.Holds pkt) : udp.Holds pkt := by
  have queued : { udp with posted, m_PktOut := udp.m_PktOut ++ [given] }.Holds pkt := by
    simp only [enqueue] at isNext
    split at isNext
    · exact holds_of_WriteHeader padding isNext holds
    · cases isNext
      exact holds
  rcases queued with posted | queued | sent
  · refine .inl ?_
    rw [queue]
    exact List.mem_cons_of_mem _ posted
  · rcases List.mem_append.mp queued with before | isNew
    · exact .inr (.inl before)
    · refine .inl ?_
      rw [queue, List.mem_singleton.mp isNew]
      exact List.mem_cons_self
  · exact .inr (.inr sent)

end Sending

end Operations

end UDP

/-- Two connected endpoints, the packets passed to `SendPacket` on the first, and the
datagrams that have come to the second. -/
structure UDPChannel (T : Type) [HeaderLayout T] where
  sender : UDP T
  receiver : UDP T
  passed : List (Packet T)
  came : List (Datagram T)

namespace UDPChannel

/-- A body that is left over makes a packet nobody sends of a header without one. -/
theorem consistent_leftOver_iff {T : Type} {pkt : Packet T} {body : List UInt8}
    (noBody : pkt.body = []) (consistent : pkt.Consistent) :
    (⟨pkt.header, body⟩ : Packet T).Consistent ↔ body = [] := by
  have sizeZero : pkt.header.size.toNat = 0 := consistent.trans (by rw [noBody, List.length_nil])
  rw [Packet.Consistent, sizeZero, eq_comm, List.length_eq_zero_iff]

section Steps

variable {T : Type} [HeaderLayout T] (padding : Nat → HeaderLayout.Padding T)

def connected [Inhabited T] (unused : HeaderLayout.Padding T) : UDPChannel T where
  sender := UDP.connected unused
  receiver := UDP.connected unused
  passed := []
  came := []

inductive Action (T : Type)
  | SendPacket (pkt : Packet T)
  | runPosted
  | completeSend
  | failSend
  /-- The datagram sent as the `index`th comes, cut after `length` bytes. -/
  | receive (index length : Nat)
  | failReceive

/-- The next state. A packet that is passed to `SendPacket` says how long its body
is; any datagram that was sent may come, however often it or any other has come
before. -/
def step (channel : UDPChannel T) : Action T → Option (UDPChannel T)
  | .SendPacket pkt =>
      if pkt.Consistent then
        some { channel with
          sender.posted := channel.sender.posted ++ [pkt]
          passed := channel.passed ++ [pkt] }
      else none
  | .runPosted =>
      match channel.sender.posted with
      | [] => none
      | pkt :: posted =>
          ({ channel.sender with posted }.enqueue padding pkt).toOption.map
            fun sender => { channel with sender }
  | .completeSend =>
      (channel.sender.completeSend padding).map fun sender => { channel with sender }
  | .failSend =>
      match channel.sender.sending with
      | [] => none
      | _ :: others => some { channel with
          sender.sending := others
          sender.socketOpen := false }
  | .receive index length =>
      match channel.sender.datagrams[index]? with
      | none => none
      | some datagram => (channel.receiver.receive (datagram.bytes.take length)).map
          fun receiver => { channel with receiver, came := channel.came ++ [datagram] }
  | .failReceive =>
      match channel.receiver.receiving with
      | [] => none
      | _ :: others => some { channel with
          receiver.receiving := others
          receiver.socketOpen := false }

def Step (channel : UDPChannel T) (action : Action T) (next : UDPChannel T) : Prop :=
  channel.step padding action = some next

def announced (channel : UDPChannel T) : Option (PacketHeader T) :=
  channel.came.getLast?.bind Datagram.announces

/-- Datagrams come whole, a body after a header that announces it, and otherwise headers. -/
def Whole (channel : UDPChannel T) : Action T → Prop
  | .receive index length => ∀ datagram ∈ channel.sender.datagrams[index]?,
      datagram.bytes.length ≤ length ∧ datagram.Answers channel.announced
  | _ => True

/-- Of a packet without a body nothing comes after something of a packet with one. -/
def BodilessFirst (channel : UDPChannel T) : Action T → Prop
  | .receive index _ => ∀ datagram ∈ channel.sender.datagrams[index]?,
      datagram.pkt.body = [] → ∀ earlier ∈ channel.came, earlier.pkt.body = []
  | _ => True

def Matched (channel : UDPChannel T) (action : Action T) : Prop :=
  channel.Whole action ∧ channel.BodilessFirst action

instance [DecidableEq T] (channel : UDPChannel T) : DecidablePred channel.Whole
  | .SendPacket _ => isTrue trivial
  | .runPosted => isTrue trivial
  | .completeSend => isTrue trivial
  | .failSend => isTrue trivial
  | .receive _ _ => inferInstanceAs (Decidable (∀ _ ∈ _, _))
  | .failReceive => isTrue trivial

instance (channel : UDPChannel T) : DecidablePred channel.BodilessFirst
  | .SendPacket _ => isTrue trivial
  | .runPosted => isTrue trivial
  | .completeSend => isTrue trivial
  | .failSend => isTrue trivial
  | .receive _ _ => inferInstanceAs (Decidable (∀ _ ∈ _, _))
  | .failReceive => isTrue trivial

instance [DecidableEq T] (channel : UDPChannel T) : DecidablePred channel.Matched :=
  fun _ => inferInstanceAs (Decidable (_ ∧ _))

def DeliversSent (channel : UDPChannel T) : Prop :=
  ∀ pkt ∈ channel.receiver.m_PktIn, pkt ∈ channel.passed

structure Honest (channel : UDPChannel T) : Prop where
  consistent : ∀ pkt ∈ channel.passed, pkt.Consistent
  holds : ∀ pkt, channel.sender.Holds pkt → pkt ∈ channel.passed

theorem honest_connected [Inhabited T] (unused : HeaderLayout.Padding T) :
    (connected unused : UDPChannel T).Honest where
  consistent pkt member := by simp [connected] at member
  holds pkt held := by simp [connected, UDP.connected, UDP.ReadHeader, UDP.Holds] at held

section Sender

variable {channel next : UDPChannel T}

theorem Honest.sender (honest : channel.Honest) {sender : UDP T}
    (kept : ∀ pkt, sender.Holds pkt → channel.sender.Holds pkt) :
    { channel with sender }.Honest :=
  ⟨honest.consistent, fun pkt held => honest.holds pkt (kept pkt held)⟩

theorem Honest.step {action : Action T} (honest : channel.Honest)
    (step : Step padding channel action next) : next.Honest := by
  cases action with
  | SendPacket pkt =>
      rcases Option.ite_none_right_eq_some.mp step with ⟨consistent, isNext⟩
      cases isNext
      constructor
      · intro other member
        rcases List.mem_append.mp member with before | isNew
        · exact honest.consistent other before
        · rw [List.mem_singleton.mp isNew]
          exact consistent
      · intro other held
        rcases held with posted | queued | sent
        · rcases List.mem_append.mp posted with before | isNew
          · exact List.mem_append_left _ (honest.holds other (.inl before))
          · exact List.mem_append_right _ isNew
        · exact List.mem_append_left _ (honest.holds other (.inr (.inl queued)))
        · exact List.mem_append_left _ (honest.holds other (.inr (.inr sent)))
  | runPosted =>
      simp only [Step, UDPChannel.step] at step
      split at step
      · contradiction
      next posted =>
        rcases Option.map_eq_some_iff.mp step with ⟨sender, enqueued, rfl⟩
        exact honest.sender fun _ =>
          UDP.holds_of_enqueue padding posted (toOption_eq_some_iff.mp enqueued)
  | completeSend =>
      rcases Option.map_eq_some_iff.mp step with ⟨sender, completes, rfl⟩
      exact honest.sender fun _ => UDP.holds_of_completeSend padding completes
  | failSend =>
      simp only [Step, UDPChannel.step] at step
      split at step
      · contradiction
      · cases step
        exact honest.sender fun _ => id
  | receive index length =>
      simp only [Step, UDPChannel.step] at step
      split at step
      · contradiction
      · rcases Option.map_eq_some_iff.mp step with ⟨receiver, -, rfl⟩
        exact ⟨honest.consistent, honest.holds⟩
  | failReceive =>
      simp only [Step, UDPChannel.step] at step
      split at step
      · contradiction
      · cases step
        exact ⟨honest.consistent, honest.holds⟩

end Sender

/-- The receiver's memory between two handlers: it waits for what was announced, with
room for it, or for a header; or for nothing after an error. A body is left over once
one has come. -/
structure Waits (channel : UDPChannel T) : Prop where
  header : channel.receiver.header.length = HeaderLayout.sizeof T
  receiving : channel.receiver.receiving = [] ∨
    channel.receiver.receiving = [if channel.announced.isSome then .data else .header]
  announced : ∀ header ∈ channel.announced, channel.receiver.m_tmpPktIn.header = header ∧
    channel.receiver.body.length = header.size.toNat ∧ 0 < header.size.toNat
  leftOver : channel.announced = none →
    (channel.receiver.body = [] ↔ ∀ earlier ∈ channel.came, earlier.pkt.body = [])
  pushed : ∀ pkt ∈ channel.receiver.m_PktIn, pkt ∈ channel.passed ∨ ¬ pkt.Consistent

theorem waits_connected [Inhabited T] (unused : HeaderLayout.Padding T) :
    (connected unused : UDPChannel T).Waits where
  header := HeaderLayout.length_toBytes _ _
  receiving := .inr rfl
  announced header isAnnounced := by simp [UDPChannel.announced, connected] at isAnnounced
  leftOver _ := by simp [connected, UDP.connected, UDP.ReadHeader]
  pushed pkt member := by simp [connected, UDP.connected, UDP.ReadHeader] at member

section Receiver

variable {channel next : UDPChannel T}

inductive Receives (udp : UDP T) : Datagram T → UDP T → Prop
  | announced {padding : HeaderLayout.Padding T} {pkt : Packet T} (hasBody : pkt.body ≠ []) :
      Receives udp (.header padding pkt) { udp with
        header := HeaderLayout.toBytes padding pkt.header
        body := Packet.resize udp.body pkt.header.size.toNat
        receiving := [.data] }
  | alone {padding : HeaderLayout.Padding T} {pkt : Packet T} (noBody : pkt.body = []) :
      Receives udp (.header padding pkt) { udp with
        header := HeaderLayout.toBytes padding pkt.header
        m_PktIn := udp.m_PktIn ++ [⟨pkt.header, udp.body⟩]
        receiving := [.header] }
  | data {pkt : Packet T} : Receives udp (.data pkt) { udp with
        body := pkt.body
        m_PktIn := udp.m_PktIn ++ [pkt]
        receiving := [.header] }

theorem announced_snoc (came : List (Datagram T)) (datagram : Datagram T) (sender receiver : UDP T)
    (passed : List (Packet T)) :
    (⟨sender, receiver, passed, came ++ [datagram]⟩ : UDPChannel T).announced =
      datagram.announces := by
  simp [announced]

theorem Waits.reading (waits : channel.Waits) {datagram : List UInt8} {receiver : UDP T}
    (received : channel.receiver.receive datagram = some receiver) :
    channel.receiver.receiving = [if channel.announced.isSome then .data else .header] := by
  rcases waits.receiving with none | reading
  · simp [UDP.receive, none] at received
  · exact reading

theorem Waits.receives (waits : channel.Waits) {datagram : Datagram T} {length : Nat}
    {receiver : UDP T} (consistent : datagram.pkt.Consistent)
    (longEnough : datagram.bytes.length ≤ length) (answers : datagram.Answers channel.announced)
    (received : channel.receiver.receive (datagram.bytes.take length) = some receiver) :
    Receives channel.receiver datagram receiver := by
  rw [List.take_of_length_le longEnough] at received
  cases datagram with
  | header padding pkt =>
      have isReading : channel.receiver.receiving = [.header] := by
        rw [waits.reading received, answers]
        rfl
      have filled : UDP.fill channel.receiver.header (HeaderLayout.toBytes padding pkt.header) =
          HeaderLayout.toBytes padding pkt.header :=
        UDP.fill_of_length ((HeaderLayout.length_toBytes _ _).trans waits.header.symm)
      have sizeIsLength : pkt.header.size.toNat = pkt.body.length := consistent
      simp only [UDP.receive, isReading, UDP.headerReceived, Datagram.bytes, filled, UDP.m_tmpPktIn,
        HeaderLayout.ofBytes_toBytes, Option.some.injEq] at received
      split at received
      next positive =>
        have sizePositive := UInt32.lt_iff_toNat_lt.mp positive
        rw [← received]
        refine .announced fun noBody => ?_
        rw [noBody] at sizeIsLength
        simp [sizeIsLength] at sizePositive
      next notPositive =>
        have sizeZero : pkt.header.size.toNat = 0 := by
          have notPositive := mt UInt32.lt_iff_toNat_lt.mpr notPositive
          simpa using notPositive
        rw [← received]
        simp only [UDP.PushToIncomingQueue, UDP.ReadHeader, UDP.m_tmpPktIn,
          HeaderLayout.ofBytes_toBytes, List.nil_append]
        exact .alone (List.length_eq_zero_iff.mp (sizeIsLength.symm.trans sizeZero))
  | data pkt =>
      have isReading : channel.receiver.receiving = [.data] := by
        rw [waits.reading received, answers]
        rfl
      rcases waits.announced pkt.header answers with ⟨isHeader, room, -⟩
      have filled : UDP.fill channel.receiver.body pkt.body = pkt.body :=
        UDP.fill_of_length (consistent.symm.trans room.symm)
      simp only [UDP.m_tmpPktIn] at isHeader
      simp only [UDP.receive, isReading, UDP.dataReceived, Datagram.bytes, filled,
        UDP.PushToIncomingQueue, UDP.ReadHeader, UDP.m_tmpPktIn, isHeader, List.nil_append,
        Option.some.injEq] at received
      rw [← received]
      exact .data

theorem whole_step {action : Action T} (honest : channel.Honest) (waits : channel.Waits)
    (step : StepWhere (Step padding) Whole channel action next) :
    (∃ datagram receiver, datagram.pkt ∈ channel.passed ∧
      datagram.Answers channel.announced ∧ Receives channel.receiver datagram receiver ∧
      next = { channel with receiver, came := channel.came ++ [datagram] } ∧
      (channel.BodilessFirst action ↔
        (datagram.pkt.body = [] → ∀ earlier ∈ channel.came, earlier.pkt.body = []))) ∨
    (next.receiver = channel.receiver ∨
        next.receiver = { channel.receiver with receiving := [], socketOpen := false }) ∧
      next.came = channel.came ∧ (∀ pkt ∈ channel.passed, pkt ∈ next.passed) ∧
      channel.BodilessFirst action := by
  rcases step with ⟨step, whole⟩
  cases action with
  | SendPacket pkt =>
      rcases Option.ite_none_right_eq_some.mp step with ⟨-, isNext⟩
      cases isNext
      exact .inr ⟨.inl rfl, rfl, fun _ => List.mem_append_left _, trivial⟩
  | runPosted =>
      simp only [Step, UDPChannel.step] at step
      split at step
      · contradiction
      · rcases Option.map_eq_some_iff.mp step with ⟨sender, -, rfl⟩
        exact .inr ⟨.inl rfl, rfl, fun _ => id, trivial⟩
  | completeSend =>
      rcases Option.map_eq_some_iff.mp step with ⟨sender, -, rfl⟩
      exact .inr ⟨.inl rfl, rfl, fun _ => id, trivial⟩
  | failSend =>
      simp only [Step, UDPChannel.step] at step
      split at step
      · contradiction
      · cases step
        exact .inr ⟨.inl rfl, rfl, fun _ => id, trivial⟩
  | receive index length =>
      simp only [Step, UDPChannel.step] at step
      split at step
      · contradiction
      next datagram isSent =>
        rcases Option.map_eq_some_iff.mp step with ⟨receiver, received, rfl⟩
        rcases whole datagram isSent with ⟨longEnough, answers⟩
        have passed : datagram.pkt ∈ channel.passed := honest.holds _
          (.inr (.inr (List.mem_map_of_mem (List.mem_of_getElem? isSent))))
        have receives := waits.receives (honest.consistent _ passed) longEnough answers received
        refine .inl ⟨datagram, receiver, passed, answers, receives, rfl, ?_⟩
        simp only [BodilessFirst, isSent, Option.mem_def, Option.some.injEq, forall_eq']
  | failReceive =>
      simp only [Step, UDPChannel.step] at step
      split at step
      · contradiction
      next reading others waiting =>
        cases step
        refine .inr ⟨.inr ?_, rfl, fun _ => id, trivial⟩
        rcases waits.receiving with none | one
        · rw [waiting] at none
          contradiction
        · rw [(List.cons.inj (waiting.symm.trans one)).2]

theorem Waits.body_ne_nil {pkt : Packet T} (waits : channel.Waits) (consistent : pkt.Consistent)
    (answers : (Datagram.data pkt).Answers channel.announced) : pkt.body ≠ [] := by
  intro noBody
  have positive := (waits.announced pkt.header answers).2.2
  rw [consistent, noBody] at positive
  exact absurd positive (Nat.lt_irrefl 0)

/-- Nothing has come, and at most the read has ended. -/
theorem Waits.frame (waits : channel.Waits)
    (header : next.receiver.header = channel.receiver.header)
    (body : next.receiver.body = channel.receiver.body)
    (pushed : next.receiver.m_PktIn = channel.receiver.m_PktIn)
    (receiving : next.receiver.receiving = [] ∨
      next.receiver.receiving = channel.receiver.receiving)
    (came : next.came = channel.came) (grows : ∀ pkt ∈ channel.passed, pkt ∈ next.passed) :
    next.Waits := by
  have announced : next.announced = channel.announced := by
    rw [UDPChannel.announced, UDPChannel.announced, came]
  have m_tmpPktIn : next.receiver.m_tmpPktIn = channel.receiver.m_tmpPktIn := by
    rw [UDP.m_tmpPktIn, UDP.m_tmpPktIn, header, body]
  constructor
  · rw [header]
    exact waits.header
  · rcases receiving with none | same
    · exact .inl none
    · rw [same, announced]
      exact waits.receiving
  · rw [announced, m_tmpPktIn, body]
    exact waits.announced
  · rw [announced, body, came]
    exact waits.leftOver
  · rw [pushed]
    exact fun pkt member => (waits.pushed pkt member).imp_left (grows pkt)

theorem Waits.step {action : Action T} (honest : channel.Honest) (waits : channel.Waits)
    (step : StepWhere (Step padding) Whole channel action next) : next.Waits := by
  rcases whole_step padding honest waits step with
    ⟨datagram, receiver, passed, answers, receives, rfl, -⟩ | ⟨same, came, grows, -⟩
  · have isConsistent := honest.consistent _ passed
    have next := announced_snoc channel.came datagram channel.sender receiver channel.passed
    cases receives with
    | @announced padding pkt hasBody =>
        have isNext := next.trans (if_neg hasBody)
        constructor
        · exact HeaderLayout.length_toBytes _ _
        · exact .inr (by rw [isNext]; rfl)
        · intro header isAnnounced
          rw [isNext, Option.mem_some_iff] at isAnnounced
          rw [← isAnnounced]
          refine ⟨HeaderLayout.ofBytes_toBytes _ _, Packet.length_resize _ _, ?_⟩
          exact Nat.lt_of_lt_of_eq (List.length_pos_iff.mpr hasBody) isConsistent.symm
        · intro isNone
          rw [isNext] at isNone
          contradiction
        · exact waits.pushed
    | @alone padding pkt noBody =>
        have isNext := next.trans (if_pos noBody)
        constructor
        · exact HeaderLayout.length_toBytes _ _
        · exact .inr (by rw [isNext]; rfl)
        · intro header isAnnounced
          rw [isNext] at isAnnounced
          contradiction
        · intro _
          rw [List.forall_mem_append, List.forall_mem_singleton]
          exact (waits.leftOver answers).trans (and_iff_left noBody).symm
        · intro other member
          rcases List.mem_append.mp member with before | isNew
          · exact waits.pushed other before
          · rw [List.mem_singleton.mp isNew, consistent_leftOver_iff noBody isConsistent]
            by_cases left : channel.receiver.body = []
            · refine .inl ?_
              rw [left, ← noBody]
              exact passed
            · exact .inr left
    | @data pkt =>
        have hasBody := waits.body_ne_nil isConsistent answers
        constructor
        · exact waits.header
        · exact .inr (by rw [next]; rfl)
        · intro header isAnnounced
          rw [next] at isAnnounced
          contradiction
        · intro _
          refine iff_of_false hasBody fun allEmpty => hasBody ?_
          exact allEmpty (.data pkt) (List.mem_append_right _ List.mem_cons_self)
        · intro other member
          rcases List.mem_append.mp member with before | isNew
          · exact waits.pushed other before
          · rw [List.mem_singleton.mp isNew]
            exact .inl passed
  · rcases same with same | same
    · apply waits.frame (by rw [same]) (by rw [same]) (by rw [same]) _ came grows
      exact .inr (by rw [same])
    · apply waits.frame (by rw [same]) (by rw [same]) (by rw [same]) _ came grows
      exact .inl (by rw [same])

theorem deliversSent_step {action : Action T} (honest : channel.Honest) (waits : channel.Waits)
    (step : StepWhere (Step padding) Whole channel action next) :
    next.DeliversSent ↔ channel.DeliversSent ∧ channel.BodilessFirst action := by
  have honestNext := honest.step padding step.1
  rcases whole_step padding honest waits step with
    ⟨datagram, receiver, passed, answers, receives, rfl, bodiless⟩ | ⟨same, -, grows, bodiless⟩
  · have isConsistent := honest.consistent _ passed
    rw [bodiless]
    cases receives with
    | announced hasBody => exact (and_iff_left fun noBody => absurd noBody hasBody).symm
    | @alone padding pkt noBody =>
        have leftOver : (⟨pkt.header, channel.receiver.body⟩ : Packet T) ∈ channel.passed ↔
            channel.receiver.body = [] := by
          rw [← consistent_leftOver_iff noBody isConsistent]
          refine ⟨honest.consistent _, fun consistent => ?_⟩
          rw [(consistent_leftOver_iff noBody isConsistent).mp consistent, ← noBody]
          exact passed
        simp only [DeliversSent, List.forall_mem_append, List.forall_mem_singleton, leftOver,
          waits.leftOver answers, Datagram.pkt, noBody, true_implies]
    | @data pkt =>
        have hasBody := waits.body_ne_nil isConsistent answers
        simp only [DeliversSent, List.forall_mem_append, List.forall_mem_singleton]
        have isPassed : pkt ∈ channel.passed := passed
        rw [and_iff_left isPassed]
        exact (and_iff_left fun noBody => absurd noBody hasBody).symm
  · rw [and_iff_left bodiless]
    have kept : next.receiver.m_PktIn = channel.receiver.m_PktIn := by
      rcases same with same | same <;> rw [same]
    rw [DeliversSent, kept]
    constructor
    · intro delivers pkt member
      rcases waits.pushed pkt member with passed | inconsistent
      · exact passed
      · exact absurd (honestNext.consistent pkt (delivers pkt member)) inconsistent
    · exact fun delivers pkt member => grows pkt (delivers pkt member)

end Receiver

/-- Where datagrams come whole, each body after the header of its packet or of one with
the same command and size, and nothing of a packet without a body after something of one
with a body, the packets pushed are packets that were passed, whatever was lost, repeated
or reordered. Where only the last does not hold, one of them is not. -/
theorem pushed_were_passed [Inhabited T] (unused : HeaderLayout.Padding T)
    {channel : UDPChannel T} {actions : List (Action T)} :
    (Trace (StepWhere (Step padding) Matched) (connected unused) actions channel →
        ∀ pkt ∈ channel.receiver.m_PktIn, pkt ∈ channel.passed) ∧
      (Trace (StepWhere (Step padding) Whole) (connected unused) actions channel →
        (∀ pkt ∈ channel.receiver.m_PktIn, pkt ∈ channel.passed) →
        Trace (StepWhere (Step padding) Matched) (connected unused) actions channel) := by
  have always : ∀ current action next, Honest current ∧ Waits current →
      StepWhere (Step padding) Whole current action next → Honest next ∧ Waits (T := T) next :=
    fun _ _ _ ⟨honest, waits⟩ step => ⟨honest.step padding step.1, waits.step padding honest step⟩
  have exact_ : ∀ current action next, Honest current ∧ Waits current →
      StepWhere (Step padding) Whole current action next →
      (DeliversSent next ↔ DeliversSent current ∧ BodilessFirst (T := T) current action) :=
    fun _ _ _ ⟨honest, waits⟩ step => deliversSent_step padding honest waits step
  have start : (connected unused : UDPChannel T).DeliversSent := by
    intro pkt member
    simp [connected, UDP.connected, UDP.ReadHeader] at member
  have run : Trace (StepWhere (Step padding) Whole) (connected unused) actions channel →
      (channel.DeliversSent ↔
        Trace (StepWhere (StepWhere (Step padding) Whole) BodilessFirst) (connected unused)
          actions channel) :=
    fun trace => trace.stepWhere_iff always exact_
      ⟨honest_connected unused, waits_connected unused⟩ start
  constructor
  · intro trace
    have whole := trace.mono fun _ _ _ step => (⟨step.1, step.2.1⟩ : StepWhere _ Whole _ _ _)
    exact (run whole).mpr (trace.mono fun _ _ _ step => ⟨⟨step.1, step.2.1⟩, step.2.2⟩)
  · intro trace delivers
    exact ((run trace).mp delivers).mono fun _ _ _ step => ⟨step.1.1, step.1.2, step.2⟩

end Steps

/-- The body of the first `Ping` is lost: its header is followed by a second copy of the
body of the other one. -/
theorem pushed_were_passed_body_lost :
    let enter : Packet CMD := ⟨⟨.SelfEnterWorld, 0⟩, []⟩
    let first : Packet CMD := ⟨⟨.Ping, 2⟩, [7, 9]⟩
    let second : Packet CMD := ⟨⟨.Ping, 2⟩, [5, 5]⟩
    let actions : List (Action CMD) := [.SendPacket enter, .runPosted, .completeSend,
      .SendPacket first, .runPosted, .completeSend, .completeSend,
      .SendPacket second, .runPosted, .completeSend,
      .receive 0 8, .receive 3 8, .receive 4 2, .receive 1 8, .receive 4 2]
    ∃ channel : UDPChannel CMD,
      Trace (StepWhere (Step fun _ => (0 : UInt16)) Matched) (connected (0 : UInt16))
        actions channel ∧
      channel.receiver.m_PktIn = [enter, second, second] ∧
      ∀ pkt ∈ channel.receiver.m_PktIn, pkt ∈ channel.passed := by
  intro enter first second actions
  have runs : ∃ channel ∈ runSteps (stepWhere (step fun _ => (0 : UInt16)) Matched)
      (connected (0 : UInt16) : UDPChannel CMD) actions,
      channel.receiver.m_PktIn = [enter, second, second] := by
    decide
  rcases runs with ⟨channel, reaches, pushed⟩
  have trace := Trace.of_runStepsWhere reaches
  exact ⟨channel, trace, pushed, (pushed_were_passed _ _).1 trace⟩

/-- The body of the first packet is lost, and the header of the second is taken for it. -/
theorem header_taken_for_body :
    let first : Packet CMD := ⟨⟨.Ping, 2⟩, [7, 9]⟩
    let second : Packet CMD := ⟨⟨.Ping, 2⟩, [5, 5]⟩
    let actions : List (Action CMD) := [.SendPacket first, .runPosted, .completeSend,
      .completeSend, .SendPacket second, .runPosted, .receive 0 8, .receive 2 8]
    ∃ channel : UDPChannel CMD,
      Trace (Step fun _ => (0 : UInt16)) (connected (0 : UInt16)) actions channel ∧
      channel.passed = [first, second] ∧
      ∃ pkt ∈ channel.receiver.m_PktIn, pkt ∉ channel.passed := by
  intro first second actions
  have runs : ∃ channel ∈ runSteps (step fun _ => (0 : UInt16))
      (connected (0 : UInt16) : UDPChannel CMD) actions,
      channel.passed = [first, second] ∧
        ∃ pkt ∈ channel.receiver.m_PktIn, pkt ∉ channel.passed := by
    decide
  rcases runs with ⟨channel, reaches, passed, wrong⟩
  exact ⟨channel, Trace.of_run reaches, passed, wrong⟩

end UDPChannel

end GNL
