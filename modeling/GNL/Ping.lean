import GNL.Client.NetNode
import GNL.Server.Sent

/-! # What a ping measures

Both `PingServer`s stamp their packet with ticks of the clock, of which
`NetNode`'s are cut to whole milliseconds; the server subtracts the stamp from
its own time in milliseconds. The two agree where a tick is a millisecond and
where the stamp is zero.
-/

namespace GNL

namespace Client

/-- The packet `Client::PingServer` builds: `pkt << timeNow` copies the ticks the
time point holds. -/
def pingPacket (ticks : Int64) : Packet CMD :=
  let pkt : Packet CMD := { (default : Packet CMD) with header.cmdID := .Ping }
  pkt <<< ticks

def PingServer (client : ClientApp) (ticks : Int64) : ClientApp :=
  client.SendToServer (pingPacket ticks)

end Client

inductive Pinger
  | NetNode
  | Client
  deriving DecidableEq

namespace Pinger

def pingPacket (clock : SystemClock) (ticks : Int64) : Pinger → Packet CMD
  | NetNode => GNL.NetNode.pingPacket clock ticks
  | Client => GNL.Client.pingPacket ticks

def stamp (clock : SystemClock) (ticks : Int64) : Pinger → Int64
  | NetNode => clock.wholeMilliseconds ticks
  | Client => ticks

theorem pingPacket_eq (clock : SystemClock) (ticks : Int64) (pinger : Pinger) :
    pinger.pingPacket clock ticks =
      ({ (default : Packet CMD) with header.cmdID := .Ping } : Packet CMD) <<<
        pinger.stamp clock ticks := by
  cases pinger <;> rfl

/-- The stamp is zero: the packet was built at the epoch, or by `NetNode` less
than a millisecond from it. -/
def AtEpoch (clock : SystemClock) (ticks : Int64) : Pinger → Prop
  | NetNode => -clock.ticksPerMillisecond.toInt < ticks.toInt ∧
      ticks.toInt < clock.ticksPerMillisecond.toInt
  | Client => ticks.toInt = 0

end Pinger

section Arithmetic

theorem tdiv_mul_bounds (ticks : Int) {period : Int} (positive : 0 < period) :
    (0 ≤ ticks → 0 ≤ ticks.tdiv period * period ∧ ticks.tdiv period * period ≤ ticks) ∧
      (ticks ≤ 0 → ticks ≤ ticks.tdiv period * period ∧ ticks.tdiv period * period ≤ 0) := by
  have split := Int.tdiv_mul_add_tmod ticks period
  constructor
  · intro nonneg
    have rest := Int.tmod_nonneg period nonneg
    have product := Int.mul_nonneg (Int.tdiv_nonneg nonneg positive.le) positive.le
    omega
  · intro nonpos
    have flipped : 0 ≤ -ticks := by omega
    have rest := Int.tmod_nonneg period flipped
    have product := Int.mul_nonneg (Int.tdiv_nonneg flipped positive.le) positive.le
    rw [Int.neg_tmod] at rest
    rw [Int.neg_tdiv, Int.neg_mul] at product
    omega

theorem tdiv_eq_zero_iff {ticks period : Int} (positive : 0 < period) :
    ticks.tdiv period = 0 ↔ -period < ticks ∧ ticks < period := by
  rw [← Int.natAbs_eq_zero, Int.natAbs_tdiv]
  change ticks.natAbs / period.natAbs = 0 ↔ _
  rw [Nat.div_eq_zero_iff_lt (by omega)]
  omega

theorem tdiv_eq_self_iff {ticks period : Int} (positive : 0 < period) :
    ticks.tdiv period = ticks ↔ period = 1 ∨ ticks = 0 := by
  constructor
  · intro same
    by_contra neither
    have magnitude := congrArg Int.natAbs same
    rw [Int.natAbs_tdiv] at magnitude
    have smaller : ticks.natAbs / period.natAbs < ticks.natAbs :=
      Nat.div_lt_self (by omega) (by omega)
    exact smaller.ne magnitude
  · rintro (rfl | rfl)
    · exact Int.tdiv_one ticks
    · exact Int.zero_tdiv period

theorem toInt_sub_eq_iff {received stamp sent : Int64} (later : sent.toInt ≤ received.toInt) :
    (received - stamp).toInt = received.toInt - sent.toInt ↔
      stamp.toInt = sent.toInt ∧ received.toInt - sent.toInt < 2 ^ 63 := by
  have stampLower := stamp.le_toInt
  have stampUpper := stamp.toInt_lt
  have sentLower := sent.le_toInt
  have sentUpper := sent.toInt_lt
  constructor
  · intro exact
    have upper := (received - stamp).toInt_lt
    have congruent : (2 ^ 64 : Int) ∣
        (received - stamp).toInt - (received.toInt - stamp.toInt) := by
      rw [Int64.toInt_sub]
      exact Int.dvd_bmod_sub_self
    rw [exact] at upper congruent
    omega
  · rintro ⟨same, fits⟩
    rw [Int64.toInt_sub, same]
    apply Int.bmod_eq_of_le <;> omega

end Arithmetic

namespace SystemClock

variable (clock : SystemClock) (ticks : Int64)

theorem toInt_positive : 0 < clock.ticksPerMillisecond.toInt :=
  Int64.lt_iff_toInt_lt.mp clock.positive

theorem toInt_milliseconds :
    (clock.milliseconds ticks).toInt = ticks.toInt.tdiv clock.ticksPerMillisecond.toInt := by
  apply Int64.toInt_div_of_ne_right
  intro negative
  have positive := clock.toInt_positive
  rw [negative] at positive
  exact absurd positive (by decide)

theorem toInt_milliseconds_of_oneTick (oneTick : clock.ticksPerMillisecond.toInt = 1) :
    (clock.milliseconds ticks).toInt = ticks.toInt := by
  rw [toInt_milliseconds, oneTick, Int.tdiv_one]

theorem toInt_wholeMilliseconds :
    (clock.wholeMilliseconds ticks).toInt =
      ticks.toInt.tdiv clock.ticksPerMillisecond.toInt * clock.ticksPerMillisecond.toInt := by
  rw [wholeMilliseconds, Int64.toInt_mul, toInt_milliseconds]
  have bounds := tdiv_mul_bounds ticks.toInt clock.toInt_positive
  have lower := ticks.le_toInt
  have upper := ticks.toInt_lt
  apply Int.bmod_eq_of_le <;> omega

end SystemClock

theorem Pinger.toInt_stamp_eq_iff (pinger : Pinger) (clock : SystemClock) (ticks : Int64) :
    (pinger.stamp clock ticks).toInt = (clock.milliseconds ticks).toInt ↔
      clock.ticksPerMillisecond.toInt = 1 ∨ pinger.AtEpoch clock ticks := by
  have positive := clock.toInt_positive
  cases pinger with
  | NetNode =>
      rw [stamp, clock.toInt_wholeMilliseconds, clock.toInt_milliseconds, mul_right_eq_self₀,
        tdiv_eq_zero_iff positive, AtEpoch]
  | Client => rw [stamp, clock.toInt_milliseconds, eq_comm, tdiv_eq_self_iff positive, AtEpoch]

theorem Pinger.AtEpoch.milliseconds_eq_zero {pinger : Pinger} {clock : SystemClock}
    {ticks : Int64} (atEpoch : pinger.AtEpoch clock ticks) :
    (clock.milliseconds ticks).toInt = 0 := by
  rw [clock.toInt_milliseconds]
  cases pinger with
  | NetNode => exact (tdiv_eq_zero_iff clock.toInt_positive).mpr atEpoch
  | Client =>
      have zero : ticks.toInt = 0 := atEpoch
      rw [zero, Int.zero_tdiv]

namespace Server

variable {env : Environment} {server : Server} {conn : ConnRef}

theorem OnPacket_ping (env : Environment) (server : Server) (conn : ConnRef)
    {pkt : Packet CMD} {timeRec : Int64}
    (isPing : pkt.header.cmdID = .Ping) (body : pkt.body = StandardLayout.toBytes timeRec) :
    ∃ client echoed left, server.OnPacket env (some conn) pkt = .ok (client, echoed, left) ∧
      left.pings =
        server.pings ++ [env.clock.milliseconds (env.now server.tick) - timeRec] ∧
      echoed.header.cmdID = .Ping ∧ echoed.body = pkt.body ∧
      left.sent = server.sent ++
        if env.isOpen server.tick conn then [(conn, echoed)] else [] := by
  have ends : pkt.body = [] ++ StandardLayout.toBytes timeRec := body
  rcases Packet.extract_append ends with ⟨rest, extracted, restBody, sameCmd, -⟩
  let printed := { server with
    pings := server.pings ++ [env.clock.milliseconds (env.now server.tick) - timeRec] }
  have echoedBody : (rest <<< timeRec).body = pkt.body := by
    rw [Packet.body_insert, restBody, ends]
  have echoedCmd : (rest <<< timeRec).header.cmdID = .Ping := sameCmd.trans isPing
  have handles : ∀ client left,
      printed.SendToClient env (some conn) (rest <<< timeRec) = .ok (client, left) →
      server.OnPacket env (some conn) pkt = .ok (client, rest <<< timeRec, left) := by
    intro client left sends
    simp only [OnPacket, isPing, onPing, deref, extracted]
    change (printed.SendToClient env (some conn) (rest <<< timeRec) >>= _) = _
    rw [sends]
    rfl
  cases isOpen : env.isOpen printed.tick conn with
  | true =>
      have sends := SendToClient_of_open (rest <<< timeRec) isOpen
      exact ⟨_, _, _, handles _ _ sends, rfl, echoedCmd, echoedBody, rfl⟩
  | false =>
      have sends := SendToClient_of_closed (rest <<< timeRec) isOpen
      exact ⟨_, _, _, handles _ _ sends, rfl, echoedCmd, echoedBody, (List.append_nil _).symm⟩

/-- The server measures a ping sent at `sent` in whole milliseconds, and answers it
with the bytes it came with. -/
def PingMeasured (env : Environment) (server : Server) (conn : ConnRef) (pkt : Packet CMD)
    (sent : Int64) : Prop :=
  ∃ client echoed left, server.OnPacket env (some conn) pkt = .ok (client, echoed, left) ∧
    (∃ ping, left.pings = server.pings ++ [ping] ∧
      ping.toInt = (env.clock.milliseconds (env.now server.tick)).toInt -
        (env.clock.milliseconds sent).toInt ∧ 0 ≤ ping.toInt) ∧
    echoed.body = pkt.body ∧
    left.sent = server.sent ++ if env.isOpen server.tick conn then [(conn, echoed)] else []

theorem milliseconds_le (clock : SystemClock) {earlier later : Int64} (le : earlier ≤ later) :
    (clock.milliseconds earlier).toInt ≤ (clock.milliseconds later).toInt := by
  rw [clock.toInt_milliseconds, clock.toInt_milliseconds]
  exact Int.tdiv_le_tdiv clock.toInt_positive (Int64.le_iff_toInt_le.mp le)

theorem pingMeasured_iff_stamp (pinger : Pinger) {sent : Int64}
    (later : sent ≤ env.now server.tick) :
    PingMeasured env server conn (pinger.pingPacket env.clock sent) sent ↔
      (pinger.stamp env.clock sent).toInt = (env.clock.milliseconds sent).toInt ∧
        (env.clock.milliseconds (env.now server.tick)).toInt -
          (env.clock.milliseconds sent).toInt < 2 ^ 63 := by
  have inOrder := milliseconds_le env.clock later
  rw [← toInt_sub_eq_iff inOrder]
  have isPing : (pinger.pingPacket env.clock sent).header.cmdID = .Ping := by
    rw [pinger.pingPacket_eq]
    rfl
  have body : (pinger.pingPacket env.clock sent).body =
      StandardLayout.toBytes (pinger.stamp env.clock sent) := by
    rw [pinger.pingPacket_eq]
    rfl
  rcases OnPacket_ping env server conn isPing body with
    ⟨client, echoed, left, handles, printed, -, echoedBody, answered⟩
  constructor
  · rintro ⟨_, _, others, handlesToo, ⟨ping, printedToo, difference, -⟩, -⟩
    cases handles.symm.trans handlesToo
    have same := List.append_cancel_left (printed.symm.trans printedToo)
    cases same
    exact difference
  · intro difference
    refine ⟨client, echoed, left, handles, ⟨_, printed, difference, ?_⟩, echoedBody, answered⟩
    omega

/-- A ping is measured in whole milliseconds exactly when a tick of the clock is one
and the time between is not too long to count, or when the stamp is zero. -/
theorem ping_measured_iff (pinger : Pinger) (env : Environment) (server : Server)
    (conn : ConnRef) (sent : Int64) (later : sent ≤ env.now server.tick) :
    PingMeasured env server conn (pinger.pingPacket env.clock sent) sent ↔
      env.clock.ticksPerMillisecond.toInt = 1 ∧
          (env.now server.tick).toInt - sent.toInt < 2 ^ 63 ∨
        pinger.AtEpoch env.clock sent := by
  rw [pingMeasured_iff_stamp pinger later, pinger.toInt_stamp_eq_iff]
  constructor
  · rintro ⟨oneTick | atEpoch, fits⟩
    · simp only [env.clock.toInt_milliseconds_of_oneTick _ oneTick] at fits
      exact .inl ⟨oneTick, fits⟩
    · exact .inr atEpoch
  · rintro (⟨oneTick, fits⟩ | atEpoch)
    · refine ⟨.inl oneTick, ?_⟩
      simp only [env.clock.toInt_milliseconds_of_oneTick _ oneTick]
      exact fits
    · refine ⟨.inr atEpoch, ?_⟩
      rw [atEpoch.milliseconds_eq_zero, Int.sub_zero]
      exact Int64.toInt_lt _

theorem ping_measured_iff_seven_later :
    let env : Environment :=
      { Environment.calm with now := fun _ => 12, clock := ⟨1, by decide⟩ }
    let server := start 0 fun _ => 0
    PingMeasured env server 0 (Pinger.NetNode.pingPacket env.clock 5) 5 ↔
      env.clock.ticksPerMillisecond.toInt = 1 ∧
          (env.now server.tick).toInt - (5 : Int64).toInt < 2 ^ 63 ∨
        Pinger.NetNode.AtEpoch env.clock 5 := by
  intro env server
  exact ping_measured_iff .NetNode env server 0 5 (by decide)

/-- One millisecond after the packet was built the server prints a ping of minus
twenty seconds: it takes ticks of 100 ns for milliseconds. -/
theorem ping_in_ticks :
    let env : Environment := { Environment.calm with now := fun _ => 30000 }
    let server := start 0 fun _ => 0
    (20000 : Int64) ≤ env.now server.tick ∧
      (∃ client echoed left, server.OnPacket env (some 0)
        (Pinger.NetNode.pingPacket env.clock 20000) = .ok (client, echoed, left) ∧
          left.pings = [-19997]) ∧
      ¬PingMeasured env server 0 (Pinger.NetNode.pingPacket env.clock 20000) 20000 ∧
      ¬PingMeasured env server 0 (Pinger.Client.pingPacket env.clock 20000) 20000 := by
  intro env server
  have body : (Pinger.NetNode.pingPacket env.clock 20000).body =
      StandardLayout.toBytes (20000 : Int64) := by
    decide
  rcases OnPacket_ping env server 0 (by decide) body with
    ⟨client, echoed, left, handles, printed, -⟩
  refine ⟨by decide, ⟨client, echoed, left, handles, printed.trans (by decide)⟩, ?_, ?_⟩
  · rw [pingMeasured_iff_stamp .NetNode (by decide)]
    decide
  · rw [pingMeasured_iff_stamp .Client (by decide)]
    decide

end Server

end GNL
