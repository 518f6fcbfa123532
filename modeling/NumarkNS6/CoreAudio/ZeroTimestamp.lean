import NumarkNS6.CoreAudio.NS6AudioDriver
import NumarkNS6.Foundation.PeriodicClock
import Mathlib.Data.Rat.Floor

namespace NumarkNS6.CoreAudio

open Foundation.PeriodicClock

def sampleRate : ℕ := 44100

def zeroTimestampPeriodFrames : ℕ := 16384

/-- `mach_timebase_info`: a tick lasts `numer / denom` nanoseconds, which is less
than a period. -/
structure Timebase where
  numer : UInt32
  denom : UInt32
  numer_pos : 0 < numer.toNat
  denom_pos : 0 < denom.toNat
  short : numer.toNat * sampleRate < zeroTimestampPeriodFrames * (denom.toNat * 1000000000)

namespace Timebase

variable (tb : Timebase)

def rate : ℚ := (tb.numer.toNat : ℚ) * sampleRate / (tb.denom.toNat * 1000000000)

/-- `elapsedFrames`, in exact arithmetic where the source has `long double`. -/
def elapsedFrames (elapsed : UInt64) : ℚ :=
  (elapsed.toNat : ℚ) * tb.numer.toNat * sampleRate / (tb.denom.toNat * 1000000000)

def frame (elapsed : UInt64) : UInt64 :=
  UInt64.ofNat ⌊tb.elapsedFrames elapsed⌋₊ / 16384 * 16384

def frameTicks (frame : UInt64) : UInt64 :=
  UInt64.ofNat ⌊(frame.toNat : ℚ) * 1000000000 * tb.denom.toNat / (sampleRate * tb.numer.toNat)⌋₊

def Representable (elapsed : UInt64) : Prop := tb.elapsedFrames elapsed < 2 ^ 64

instance (elapsed : UInt64) : Decidable (tb.Representable elapsed) :=
  inferInstanceAs (Decidable (_ < _))

end Timebase

/-- What `zeroTimestamp` hands out. The sample time is a multiple of `2 ^ 14` below
`2 ^ 64`, which a `Float64` holds exactly. -/
structure ZeroTimestamp where
  sample : ℕ
  host : UInt64
  seed : UInt64
deriving DecidableEq

def elapsedSince (anchor now : UInt64) : UInt64 := if now ≥ anchor then now - anchor else 0

def Timebase.stamp (tb : Timebase) (now anchor seed : UInt64) : ZeroTimestamp :=
  let frame := tb.frame (elapsedSince anchor now)
  ⟨frame.toNat, anchor + tb.frameTicks frame, seed⟩

/-- `outputs` tells that none of the three pointers is null. -/
def zeroTimestamp (tb : Timebase) (device : AudioObjectID) (outputs : Bool) (now anchor seed : UInt64) :
    OSStatus × Option ZeroTimestamp :=
  if DriverState.validDevice device = false || !outputs then (.illegalOperation, none)
  else (.noErr, some (tb.stamp now anchor seed))

namespace Timebase

variable (tb : Timebase) {now anchor elapsed : UInt64}

theorem rate_pos : 0 < tb.rate := by
  have hn : (0 : ℚ) < tb.numer.toNat := Nat.cast_pos.mpr tb.numer_pos
  have hd : (0 : ℚ) < tb.denom.toNat := Nat.cast_pos.mpr tb.denom_pos
  unfold rate sampleRate
  positivity

theorem rate_lt_period : tb.rate < zeroTimestampPeriodFrames := by
  have hd : (0 : ℚ) < tb.denom.toNat * 1000000000 := by
    have := tb.denom_pos
    positivity
  rw [rate, div_lt_iff₀ hd]
  exact_mod_cast tb.short

theorem elapsedFrames_eq (elapsed : UInt64) : tb.elapsedFrames elapsed = elapsed.toNat * tb.rate := by
  rw [elapsedFrames, rate, mul_assoc, mul_div_assoc]

theorem frame_toNat (h : tb.Representable elapsed) :
    (tb.frame elapsed).toNat = beat tb.rate zeroTimestampPeriodFrames elapsed.toNat := by
  have hlt : ⌊tb.elapsedFrames elapsed⌋₊ < 2 ^ 64 := (Nat.floor_lt' (by decide)).mpr (by exact_mod_cast h)
  have hword : (UInt64.ofNat ⌊tb.elapsedFrames elapsed⌋₊).toNat = ⌊tb.elapsedFrames elapsed⌋₊ := by
    rw [UInt64.toNat_ofNat', Nat.mod_eq_of_lt hlt]
  have hdiv := Nat.div_mul_le_self ⌊tb.elapsedFrames elapsed⌋₊ 16384
  rw [frame, UInt64.toNat_mul, UInt64.toNat_div, hword, beat, ← elapsedFrames_eq]
  exact Nat.mod_eq_of_lt (lt_of_le_of_lt hdiv hlt)

theorem frameTicks_toNat (h : tb.Representable elapsed) :
    (tb.frameTicks (tb.frame elapsed)).toNat =
      arrival tb.rate (beat tb.rate zeroTimestampPeriodFrames elapsed.toNat) := by
  have hn : (tb.numer.toNat : ℚ) ≠ 0 := Nat.cast_ne_zero.mpr tb.numer_pos.ne'
  have hd : (tb.denom.toNat : ℚ) ≠ 0 := Nat.cast_ne_zero.mpr tb.denom_pos.ne'
  have hticks : ((tb.frame elapsed).toNat : ℚ) * 1000000000 * tb.denom.toNat /
      (sampleRate * tb.numer.toNat) = (tb.frame elapsed).toNat / tb.rate := by
    rw [rate, sampleRate]
    field_simp
  have hle := arrival_beat_le tb.rate_pos zeroTimestampPeriodFrames elapsed.toNat
  rw [frameTicks, hticks, frame_toNat tb h, UInt64.toNat_ofNat', ← arrival]
  exact Nat.mod_eq_of_lt (lt_of_le_of_lt hle elapsed.toNat_lt)

def periodTicks : ℚ := zeroTimestampPeriodFrames / tb.rate

theorem elapsedSince_toNat (anchor now : UInt64) :
    (elapsedSince anchor now).toNat = now.toNat - anchor.toNat := by
  unfold elapsedSince
  split
  · next h => exact UInt64.toNat_sub_of_le _ _ h
  · next h =>
    rw [ge_iff_le, UInt64.not_le, UInt64.lt_iff_toNat_lt] at h
    rw [Nat.sub_eq_zero_of_le h.le]
    rfl

variable {seed : UInt64} (h : tb.Representable (elapsedSince anchor now))

include h

theorem stamp_sample : (tb.stamp now anchor seed).sample =
    beat tb.rate zeroTimestampPeriodFrames (now.toNat - anchor.toNat) := by
  rw [← elapsedSince_toNat]
  exact tb.frame_toNat h

theorem stamp_host : (tb.stamp now anchor seed).host.toNat = anchor.toNat +
    arrival tb.rate (beat tb.rate zeroTimestampPeriodFrames (now.toNat - anchor.toNat)) := by
  have hle := arrival_beat_le tb.rate_pos zeroTimestampPeriodFrames (now.toNat - anchor.toNat)
  have hnow := now.toNat_lt
  have hanchor := anchor.toNat_lt
  rw [stamp, UInt64.toNat_add, frameTicks_toNat tb h, elapsedSince_toNat]
  exact Nat.mod_eq_of_lt (by omega)

theorem stamp_multiple : zeroTimestampPeriodFrames ∣ (tb.stamp now anchor seed).sample ∧
    (tb.stamp now anchor seed).sample / zeroTimestampPeriodFrames < 2 ^ 53 := by
  have hlt : (tb.stamp now anchor seed).sample < 2 ^ 64 :=
    (tb.frame (elapsedSince anchor now)).toNat_lt
  refine ⟨?_, ?_⟩
  · rw [stamp_sample tb h]
    exact dvd_beat _ _ _
  · rw [zeroTimestampPeriodFrames]
    omega

theorem stamp_notLate : (tb.stamp now anchor seed).host ≤ max now anchor := by
  have hle := arrival_beat_le tb.rate_pos zeroTimestampPeriodFrames (now.toNat - anchor.toNat)
  have hhost := @stamp_host tb now anchor seed h
  change _ ≤ if now ≤ anchor then anchor else now
  split
  · next hb =>
    rw [UInt64.le_iff_toNat_le] at hb ⊢
    omega
  · next hb =>
    rw [UInt64.le_iff_toNat_le] at hb ⊢
    omega

theorem stamp_recent (ha : anchor ≤ now) :
    (now.toNat : ℚ) - (tb.stamp now anchor seed).host.toNat < tb.periodTicks + 1 := by
  have hperiod : 0 < zeroTimestampPeriodFrames := by decide
  have hlt := lt_arrival_beat tb.rate_pos hperiod (now.toNat - anchor.toNat)
  rw [UInt64.le_iff_toNat_le] at ha
  rw [Nat.cast_sub ha] at hlt
  rw [stamp_host tb h, periodTicks]
  push_cast
  linarith

theorem stamp_mono {later seed' : UInt64} (h' : tb.Representable (elapsedSince anchor later))
    (hle : now ≤ later) :
    (tb.stamp now anchor seed).sample ≤ (tb.stamp later anchor seed').sample ∧
      (tb.stamp now anchor seed).host ≤ (tb.stamp later anchor seed').host ∧
      ((tb.stamp now anchor seed).sample = (tb.stamp later anchor seed').sample ↔
        (tb.stamp now anchor seed).host = (tb.stamp later anchor seed').host) := by
  have helapsed : now.toNat - anchor.toNat ≤ later.toNat - anchor.toNat :=
    Nat.sub_le_sub_right (UInt64.le_iff_toNat_le.mp hle) _
  have hbeat := beat_mono tb.rate_pos zeroTimestampPeriodFrames helapsed
  have hiff := arrival_eq_iff tb.rate_pos tb.rate_lt_period
    (dvd_beat tb.rate _ (now.toNat - anchor.toNat)) (dvd_beat tb.rate _ (later.toNat - anchor.toNat))
  rw [UInt64.le_iff_toNat_le, ← UInt64.toNat_inj, stamp_sample tb h, stamp_sample tb h',
    stamp_host tb h, stamp_host tb h']
  refine ⟨hbeat, Nat.add_le_add_left (arrival_mono tb.rate_pos hbeat) _, ?_⟩
  rw [Nat.add_left_cancel_iff, hiff]

end Timebase

end NumarkNS6.CoreAudio
