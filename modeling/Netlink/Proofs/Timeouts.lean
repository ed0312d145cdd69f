import Mathlib.Algebra.Ring.Nat
import Netlink.Socket.Basic

/-!
# Time Limits Below a Microsecond

A limit is set in whole seconds and microseconds, and zero of both sets none: receives then wait
for ever. A duration is cut to whole microseconds. What is cut off is less than a microsecond, so
the time value is near the duration; but of a duration below a microsecond nothing is left, and
the value that remains is the one that sets no limit. From one microsecond on this does not
happen.

## Main results

* `Duration.tells_timeValue`: the time value is in the form of the kernel, and near.
* `Duration.timeValue_eq_unlimited_iff`: when no limit is left.
* `Socket.setReadTimeout_limits_iff`: **a limit is set exactly from one microsecond on.**
* `Socket.setReadTimeout_unlimited`: a nanosecond less than that is no limit.
-/

namespace Netlink

/-- The span of a duration in nanoseconds. -/
def Duration.inNanos (d : Duration) : Nat := 1000000000 * d.seconds.toNat + d.nanos

namespace TimeValue

/-- The span of a time value in nanoseconds. -/
def inNanos (t : TimeValue) : Int := 1000000000 * t.seconds.toInt + 1000 * t.micros.toInt

/-- The time value that sets no limit. -/
def unlimited : TimeValue := ⟨0, 0⟩

/-- A time value tells a duration: it is in the form that the kernel takes, and less than a
microsecond away from it. -/
structure Tells (t : TimeValue) (d : Duration) : Prop where
  seconds_nonneg : 0 ≤ t.seconds.toInt
  micros_nonneg : 0 ≤ t.micros.toInt
  micros_lt : t.micros.toInt < 1000000
  near : (t.inNanos - d.inNanos).natAbs < 1000

end TimeValue

namespace Duration

variable {d : Duration}

/-- Seconds that a signed word holds are kept. -/
theorem toInt_seconds_timeValue (hseconds : d.seconds.toNat < 2 ^ 63) :
    (timeValue (some d)).seconds.toInt = d.seconds.toNat := by
  have hbound : 2 * d.seconds.toBitVec.toNat < 2 ^ 64 := by
    rw [UInt64.toNat_toBitVec]
    omega
  exact BitVec.toInt_eq_toNat_of_lt hbound

/-- Microseconds are the whole thousands of the nanoseconds. -/
theorem toInt_micros_timeValue (d : Duration) :
    (timeValue (some d)).micros.toInt = d.nanos / 1000 := by
  have hnanos := d.nanos_lt
  have hbound : d.nanos / 1000 < 2 ^ 63 := by omega
  exact Int64.toInt_ofNat_of_lt hbound

/-- A duration is told to the kernel to within a microsecond, if its seconds are no more than the
kernel can hold. -/
theorem tells_timeValue (hseconds : d.seconds.toNat < 2 ^ 63) :
    (timeValue (some d)).Tells d := by
  have hs := toInt_seconds_timeValue hseconds
  have hm := d.toInt_micros_timeValue
  have hnanos := d.nanos_lt
  constructor
  · omega
  · omega
  · omega
  · rw [TimeValue.inNanos, inNanos, hs, hm]
    omega

/-- **No limit is left exactly of what is below a microsecond**, also where the seconds are
beyond a signed word. -/
theorem timeValue_eq_unlimited_iff (d : Duration) :
    timeValue (some d) = .unlimited ↔ d.inNanos < 1000 := by
  have hm := d.toInt_micros_timeValue
  have hnanos := d.nanos_lt
  constructor
  · intro h
    have hseconds : d.seconds.toInt64 = 0 := congrArg TimeValue.seconds h
    have hmicros : (timeValue (some d)).micros.toInt = 0 := by rw [h]; rfl
    have hzero : d.seconds.toNat = 0 := by
      have hword : d.seconds.toInt64.toUInt64 = (0 : Int64).toUInt64 := by rw [hseconds]
      rw [UInt64.toUInt64_toInt64] at hword
      rw [hword]
      rfl
    rw [inNanos]
    omega
  · intro h
    rw [inNanos] at h
    have hzero : d.seconds = 0 := UInt64.toNat_inj.1 (by rw [UInt64.toNat_zero]; omega)
    have hmicros : d.nanos / 1000 = 0 := by omega
    rw [timeValue, hzero, hmicros]
    rfl

end Duration

namespace Socket

/-- **A limit is set exactly from one microsecond on.** Of a duration with less than `2 ^ 63`
seconds, a time value is handed to the kernel that is in its form and less than a microsecond
away. It limits receives exactly if the duration is a microsecond or more. Otherwise all is as if
no limit had been asked for. -/
theorem setReadTimeout_limits_iff (s : Socket) (k : Kernel) {d : Duration}
    (hseconds : d.seconds.toNat < 2 ^ 63) :
    ∃ t : TimeValue,
      (s.setReadTimeout (some d) k).2.log = k.log ++ [.setsockopt s.descriptor 1 20 t] ∧
        t.Tells d ∧ (t ≠ .unlimited ↔ 1000 ≤ d.inNanos) ∧
        (d.inNanos < 1000 → s.setReadTimeout (some d) k = s.setReadTimeout none k) := by
  have hunlimited := d.timeValue_eq_unlimited_iff
  refine ⟨_, log_setReadTimeout s (some d) k, Duration.tells_timeValue hseconds, ?_, fun h => ?_⟩
  · rw [Ne, hunlimited, Nat.not_lt]
  · rw [setReadTimeout, setReadTimeout, hunlimited.2 h]
    rfl

/-- A microsecond is a limit, and so is the longest duration that a signed word of seconds
allows. -/
theorem setReadTimeout_limits_iff_bounds :
    (∃ t : TimeValue,
      (setReadTimeout ⟨3, .route⟩ (some { seconds := 0, nanos := 1000 }) {}).2.log
          = [.setsockopt 3 1 20 t] ∧
        t.Tells { seconds := 0, nanos := 1000 } ∧ t ≠ .unlimited) ∧
      ∃ t : TimeValue,
        (setReadTimeout ⟨3, .route⟩
            (some { seconds := 9223372036854775807, nanos := 999999999 }) {}).2.log
          = [.setsockopt 3 1 20 t] ∧
        t.Tells { seconds := 9223372036854775807, nanos := 999999999 } ∧ t ≠ .unlimited := by
  constructor
  · obtain ⟨t, hlog, htells, hlimited, -⟩ :=
      setReadTimeout_limits_iff ⟨3, .route⟩ {} (d := { seconds := 0, nanos := 1000 }) (by decide)
    exact ⟨t, hlog, htells, hlimited.2 (by decide)⟩
  · obtain ⟨t, hlog, htells, hlimited, -⟩ :=
      setReadTimeout_limits_iff ⟨3, .route⟩ {}
        (d := { seconds := 9223372036854775807, nanos := 999999999 }) (by decide)
    exact ⟨t, hlog, htells, hlimited.2 (by decide)⟩

/-- **A nanosecond less than a microsecond is no limit**, though it is more than nothing: the
kernel is told what it is told if no limit is asked for. -/
theorem setReadTimeout_unlimited :
    let d : Duration := { seconds := 0, nanos := 999 }
    0 < d.inNanos ∧ d.seconds.toNat < 2 ^ 63 ∧
      (setReadTimeout ⟨3, .route⟩ (some d) {}).2.log = [.setsockopt 3 1 20 .unlimited] ∧
      (setReadTimeout ⟨3, .route⟩ none {}).2.log = [.setsockopt 3 1 20 .unlimited] := by
  decide

end Socket

end Netlink
