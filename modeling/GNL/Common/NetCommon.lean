/-! # What every part of the code shares (`NetCommon.h`)

The faults the code can run into, and the clock it reads.
-/

namespace GNL

/-- What the code does that C++ gives no meaning to, or that ends the process. -/
inductive Fault
  /-- `operator >>` on a body shorter than the value it takes off. -/
  | outOfRange
  /-- A null `shared_ptr` dereferenced. -/
  | nullPointer
  /-- `front` or `pop_front` on an empty deque. -/
  | emptyQueue
  /-- `ReadString` scanning past the first byte of the body. -/
  | scanOutOfRange
  /-- `ReadString` copying so much into its local array that no terminator is left. -/
  | stringTooLong
  deriving DecidableEq, Repr

theorem toOption_eq_some_iff {result : Except Fault α} {value : α} :
    result.toOption = some value ↔ result = .ok value := by
  cases result <;> simp [Except.toOption]

theorem exists_of_map_eq_ok {f : α → β} {result : Except ε α} {value : β}
    (mapped : result.map f = .ok value) : ∃ source, result = .ok source ∧ f source = value := by
  cases result with
  | error fault => contradiction
  | ok source => exact ⟨source, rfl, Except.ok.inj mapped⟩

/-- `std::chrono::system_clock`, which counts a whole number of ticks in every
millisecond. -/
structure SystemClock where
  ticksPerMillisecond : Int64
  positive : 0 < ticksPerMillisecond

namespace SystemClock

def milliseconds (clock : SystemClock) (ticks : Int64) : Int64 :=
  ticks / clock.ticksPerMillisecond

/-- `time_point_cast<milliseconds>`, put back into a `system_clock::time_point`:
still a count of ticks, less what is short of a whole millisecond. -/
def wholeMilliseconds (clock : SystemClock) (ticks : Int64) : Int64 :=
  clock.milliseconds ticks * clock.ticksPerMillisecond

end SystemClock

end GNL
