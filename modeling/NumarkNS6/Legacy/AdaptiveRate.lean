import NumarkNS6.Foundation.CarriedFraction
import NumarkNS6.Legacy.NS6ClockControl

namespace NumarkNS6.Legacy.NS6ClockControl

open Foundation.CarriedFraction

/-- The output rates in force at the milliseconds of the calls `ops`. -/
def rates (b : ClockBuild) (c : NS6ClockControl) : List Op → List UInt64
  | [] => []
  | .observe v :: ops => rates b (c.observe b v) ops
  | .nextMillisecond :: ops => c.outputRateMillihz b :: rates b (c.nextMillisecond b).2 ops

def sentFrames (b : ClockBuild) (c : NS6ClockControl) (ops : List Op) : ℕ :=
  ((packets b c ops).flatten.map UInt32.toNat).sum

variable {c : NS6ClockControl}

theorem spreadLoop_toNat {frames : UInt32} (n : ℕ) {accumulator : UInt32}
    (h : accumulator.toNat < 8) :
    (spreadLoop (frames / 8) (frames % 8) n accumulator).map UInt32.toNat =
      units 8 accumulator.toNat (List.replicate n frames.toNat) := by
  induction n generalizing accumulator with
  | zero => rfl
  | succ n ih =>
    have hbase : (frames / 8).toNat = frames.toNat / 8 := UInt32.toNat_div _ _
    have hrest : (frames % 8).toNat = frames.toNat % 8 := UInt32.toNat_mod _ _
    have hlt := frames.toNat_lt
    have hsum : (accumulator + frames % 8).toNat = accumulator.toNat + frames.toNat % 8 := by
      rw [UInt32.toNat_add, hrest]
      omega
    have hcarry : accumulator + frames % 8 ≥ 8 ↔ 8 ≤ accumulator.toNat + frames.toNat % 8 := by
      rw [ge_iff_le, UInt32.le_iff_toNat_le, hsum]
      rfl
    rw [spreadLoop, List.replicate_succ, units, carry]
    simp only [hcarry]
    split_ifs with hge
    · have hleft : (accumulator + frames % 8 - 8).toNat =
          accumulator.toNat + frames.toNat % 8 - 8 := by
        rw [UInt32.toNat_sub_of_le _ _ (hcarry.mpr hge), hsum]
        rfl
      have hone : (frames / 8 + 1).toNat = frames.toNat / 8 + 1 := by
        rw [UInt32.toNat_add, hbase, UInt32.toNat_one]
        omega
      rw [List.map_cons, hone, ih (by rw [hleft]; omega), hleft]
    · rw [List.map_cons, hbase, ih (by rw [hsum]; omega), hsum]

theorem spreadLoop_length (base remainder : UInt32) (n : ℕ) (accumulator : UInt32) :
    (spreadLoop base remainder n accumulator).length = n := by
  induction n generalizing accumulator with
  | zero => rfl
  | succ n ih =>
    rw [spreadLoop]
    split_ifs
    · rw [List.length_cons, ih]
    · rw [List.length_cons, ih]

/-- The packets of a millisecond add up to its frames, and differ by at most one. -/
theorem spread_exact (frames : UInt32) :
    ((spread frames).map UInt32.toNat).sum = frames.toNat ∧
      ∀ p ∈ spread frames, ∀ q ∈ spread frames, p.toNat ≤ q.toNat + 1 := by
  have hmap : (spread frames).map UInt32.toNat = units 8 0 (List.replicate 8 frames.toNat) :=
    spreadLoop_toNat 8 (by decide)
  obtain ⟨hsum, hparts⟩ := units_replicate (show 0 < 8 by decide) frames.toNat
  rw [← hmap] at hsum hparts
  refine ⟨hsum, fun p hp q hq ↦ ?_⟩
  have hp' := hparts _ (List.mem_map_of_mem hp)
  have hq' := hparts _ (List.mem_map_of_mem hq)
  omega

theorem outputRate_bounds (c : NS6ClockControl) :
    44000000 ≤ (c.outputRateMillihz .adaptive).toNat ∧
      (c.outputRateMillihz .adaptive).toNat ≤ 44100300 := by
  simp only [outputRateMillihz, ClockBuild.adaptive, if_true]
  generalize (if (c.locked && decide (c.rateMillihz ≠ 0)) = true then c.rateMillihz
    else nominalRateMillihz) = rate
  have hlow : rate < 44000000 ↔ rate.toNat < 44000000 := UInt64.lt_iff_toNat_lt
  have hhigh (r : UInt64) : r > maxOutputRateMillihz ↔ 44100300 < r.toNat := UInt64.lt_iff_toNat_lt
  simp only [hlow, hhigh]
  split_ifs with h₁ h₂ h₂
  · decide
  · decide
  · decide
  · exact ⟨Nat.not_lt.mp h₁, Nat.not_lt.mp h₂⟩

theorem rateFrames_toNat (h : c.adaptiveFractionMillionths.toNat < 1000000) :
    (c.rateFrames .adaptive).1.toNat =
        (carry 1000000 c.adaptiveFractionMillionths.toNat (c.outputRateMillihz .adaptive).toNat).1 ∧
      (c.rateFrames .adaptive).2.adaptiveFractionMillionths.toNat =
        (carry 1000000 c.adaptiveFractionMillionths.toNat
          (c.outputRateMillihz .adaptive).toNat).2 := by
  obtain ⟨hlow, hhigh⟩ := outputRate_bounds c
  generalize hrate : c.outputRateMillihz .adaptive = rate at *
  have hwhole : (rate / 1000000).toUInt32.toNat = rate.toNat / 1000000 := by
    rw [UInt64.toNat_toUInt32, UInt64.toNat_div]
    exact Nat.mod_eq_of_lt (by change rate.toNat / 1000000 < _; omega)
  have hpart : (rate % 1000000).toNat = rate.toNat % 1000000 := UInt64.toNat_mod _ _
  have hsum : (c.adaptiveFractionMillionths + rate % 1000000).toNat =
      c.adaptiveFractionMillionths.toNat + rate.toNat % 1000000 := by
    rw [UInt64.toNat_add, hpart]
    omega
  have hcarry : c.adaptiveFractionMillionths + rate % 1000000 ≥ 1000000 ↔
      1000000 ≤ c.adaptiveFractionMillionths.toNat + rate.toNat % 1000000 := by
    rw [ge_iff_le, UInt64.le_iff_toNat_le, hsum]
    rfl
  simp only [rateFrames, hrate, carry, hcarry]
  split_ifs with hge
  · refine ⟨?_, ?_⟩
    · rw [UInt32.toNat_add, hwhole, UInt32.toNat_one]
      omega
    · rw [UInt64.toNat_sub_of_le _ _ (hcarry.mpr hge), hsum]
      rfl
  · exact ⟨hwhole, hsum⟩

theorem rateFrames_bounds (h : c.adaptiveFractionMillionths.toNat < 1000000) :
    44 ≤ (c.rateFrames .adaptive).1.toNat ∧ (c.rateFrames .adaptive).1.toNat ≤ 45 := by
  obtain ⟨hlow, hhigh⟩ := outputRate_bounds c
  have hunit := carry_unit 1000000 c.adaptiveFractionMillionths.toNat
    (c.outputRateMillihz .adaptive).toNat
  rw [← (rateFrames_toNat h).1] at hunit
  omega

theorem clampFrames_rateFrames (h : c.adaptiveFractionMillionths.toNat < 1000000) :
    clampFrames (c.rateFrames .adaptive).1 = (c.rateFrames .adaptive).1 := by
  obtain ⟨hlow, hhigh⟩ := rateFrames_bounds h
  have h₁ : ¬ (c.rateFrames .adaptive).1 < 40 := by
    rw [UInt32.lt_iff_toNat_lt]
    change ¬ _ < 40
    omega
  have h₂ : ¬ (c.rateFrames .adaptive).1 > 48 := by
    rw [gt_iff_lt, UInt32.lt_iff_toNat_lt]
    change ¬ 48 < _
    omega
  simp only [clampFrames, if_neg h₁, if_neg h₂]

theorem framesPerMs_adaptive (h : c.adaptiveFractionMillionths.toNat < 1000000) :
    c.framesPerMs .adaptive = c.rateFrames .adaptive := by
  change (clampFrames (c.rateFrames .adaptive).1, (c.rateFrames .adaptive).2) = _
  rw [clampFrames_rateFrames h]

theorem nextMillisecond_adaptive (h : c.adaptiveFractionMillionths.toNat < 1000000) :
    c.nextMillisecond .adaptive = (spread (c.rateFrames .adaptive).1,
      { (c.rateFrames .adaptive).2 with
        sentTotal := c.sentTotal + (c.rateFrames .adaptive).1.toUInt64 }) := by
  have hsent : (c.rateFrames .adaptive).2.sentTotal = c.sentTotal := by
    simp only [rateFrames]
    split_ifs <;> rfl
  rw [nextMillisecond, framesPerMs_adaptive h, ← hsent]
  rfl

def account (c : NS6ClockControl) : UInt64 × UInt64 := (c.sentTotal, c.adaptiveFractionMillionths)

theorem account_enterWindow (c : NS6ClockControl) (v : UInt8) :
    (c.enterWindow v).account = c.account := by
  unfold enterWindow
  dsimp only
  split_ifs <;> rfl

theorem account_measureRate (c : NS6ClockControl) : c.measureRate.account = c.account := by
  unfold measureRate
  -- by `rfl` the new rate would be compared with the old one first
  split_ifs
  · rw [account, account]
  · rfl

theorem account_observe (c : NS6ClockControl) (v : UInt8) :
    (c.observe .adaptive v).account = c.account := by
  unfold observe
  split_ifs with hvalid hpattern
  · rfl
  · cases hpattern
  · exact (account_measureRate _).trans (account_enterWindow _ v)

theorem packets_nextMillisecond (b : ClockBuild) (c : NS6ClockControl) (ops : List Op) :
    sentFrames b c (.nextMillisecond :: ops) =
      ((c.nextMillisecond b).1.map UInt32.toNat).sum + sentFrames b (c.nextMillisecond b).2 ops := by
  simp only [sentFrames, packets, step, List.flatten_cons, List.map_append, List.sum_append]

/-- Along a run the rates come out as frames sent or are still carried. -/
theorem after_exact (h : c.adaptiveFractionMillionths.toNat < 1000000) (ops : List Op) :
    (c.after .adaptive ops).adaptiveFractionMillionths.toNat < 1000000 ∧
      1000000 * sentFrames .adaptive c ops +
          (c.after .adaptive ops).adaptiveFractionMillionths.toNat =
        c.adaptiveFractionMillionths.toNat + ((rates .adaptive c ops).map UInt64.toNat).sum ∧
      (c.after .adaptive ops).sentTotal = c.sentTotal + UInt64.ofNat (sentFrames .adaptive c ops) ∧
      sentFrames .adaptive c ops ≤ 45 * ops.length := by
  induction ops generalizing c with
  | nil => exact ⟨h, by simp [sentFrames, packets, after, rates], by simp [sentFrames, packets, after],
      Nat.zero_le _⟩
  | cons op ops ih =>
    cases op with
    | observe v =>
      obtain ⟨hsent, hfraction⟩ := Prod.mk.inj (account_observe c v)
      obtain ⟨hlt, hsum, htotal, hle⟩ := ih (c := c.observe .adaptive v) (by rw [hfraction]; exact h)
      rw [hfraction] at hsum
      rw [hsent] at htotal
      exact ⟨hlt, hsum, htotal, hle.trans (Nat.mul_le_mul_left _ (Nat.le_succ _))⟩
    | nextMillisecond =>
      obtain ⟨hframes, hcarried⟩ := rateFrames_toNat h
      have hmillisecond := nextMillisecond_adaptive h
      have hbound := (rateFrames_bounds h).2
      have hnext : (c.nextMillisecond .adaptive).2.adaptiveFractionMillionths.toNat =
          (carry 1000000 c.adaptiveFractionMillionths.toNat
            (c.outputRateMillihz .adaptive).toNat).2 := by
        rw [hmillisecond]
        exact hcarried
      have hpackets : ((c.nextMillisecond .adaptive).1.map UInt32.toNat).sum =
          (c.rateFrames .adaptive).1.toNat := by
        rw [hmillisecond]
        exact (spread_exact _).1
      have hexact := carry_exact 1000000 c.adaptiveFractionMillionths.toNat
        (c.outputRateMillihz .adaptive).toNat
      obtain ⟨hlt, hsum, htotal, hle⟩ := ih (c := (c.nextMillisecond .adaptive).2)
        (by rw [hnext]; exact carry_lt h _)
      rw [packets_nextMillisecond, hpackets]
      refine ⟨hlt, ?_, ?_, by rw [List.length_cons]; omega⟩
      · rw [hnext] at hsum
        change _ + ((c.after .adaptive (.nextMillisecond :: ops)).adaptiveFractionMillionths).toNat = _ at hsum
        rw [rates, List.map_cons, List.sum_cons, hframes]
        omega
      · change (c.after .adaptive (.nextMillisecond :: ops)).sentTotal = _ at htotal
        rw [htotal, hmillisecond, UInt64.ofNat_add, ← UInt64.add_assoc, UInt64.ofNat_uInt32ToNat]

theorem ofNat_sum_toNat (values : List UInt64) :
    UInt64.ofNat (values.map UInt64.toNat).sum = values.sum := by
  induction values with
  | nil => rfl
  | cons v values ih =>
    rw [List.map_cons, List.sum_cons, List.sum_cons, UInt64.ofNat_add, UInt64.ofNat_toNat, ih]

/-- From a control that starts over on, the frames sent are those the output
rates ask for: in the control's own arithmetic after every run, and as numbers
as long as the total has 64 bits. Every further millisecond is split evenly into eight
packets. -/
theorem adaptive_clock_exact (c : NS6ClockControl) (hc : c = init ∨ ∃ d, c = resetFeedback d)
    (ops : List Op) :
    1000000 * (c.after .adaptive ops).sentTotal +
        (c.after .adaptive ops).adaptiveFractionMillionths = (rates .adaptive c ops).sum ∧
      (ops.length < 2 ^ 58 → 1000000 * (c.after .adaptive ops).sentTotal.toNat +
        (c.after .adaptive ops).adaptiveFractionMillionths.toNat =
          ((rates .adaptive c ops).map UInt64.toNat).sum) ∧
      (c.after .adaptive ops).adaptiveFractionMillionths < 1000000 ∧
      clampFrames ((c.after .adaptive ops).rateFrames .adaptive).1 =
        ((c.after .adaptive ops).rateFrames .adaptive).1 ∧
      ((c.after .adaptive ops).nextMillisecond .adaptive).1.length = 8 ∧
      (((c.after .adaptive ops).nextMillisecond .adaptive).1.map UInt32.toNat).sum =
        ((c.after .adaptive ops).framesPerMs .adaptive).1.toNat ∧
      ∀ p ∈ ((c.after .adaptive ops).nextMillisecond .adaptive).1,
        ∀ q ∈ ((c.after .adaptive ops).nextMillisecond .adaptive).1, p.toNat ≤ q.toNat + 1 := by
  obtain ⟨hsent, hfraction⟩ : c.sentTotal = 0 ∧ c.adaptiveFractionMillionths = 0 := by
    rcases hc with rfl | ⟨d, rfl⟩ <;> exact ⟨rfl, rfl⟩
  have hstart : c.adaptiveFractionMillionths.toNat < 1000000 := by
    rw [hfraction]
    decide
  obtain ⟨hlt, hsum, htotal, hle⟩ := after_exact hstart ops
  rw [hfraction, UInt64.toNat_zero, Nat.zero_add] at hsum
  rw [hsent, UInt64.zero_add] at htotal
  refine ⟨?_, fun hshort ↦ ?_, UInt64.lt_iff_toNat_lt.mpr hlt, clampFrames_rateFrames hlt, ?_, ?_, ?_⟩
  · rw [← ofNat_sum_toNat, ← hsum, UInt64.ofNat_add, UInt64.ofNat_mul, UInt64.ofNat_toNat, htotal]
    rfl
  · rw [htotal, UInt64.toNat_ofNat_of_lt' (lt_of_le_of_lt hle (by change _ < 2 ^ 64; omega)), hsum]
  · rw [nextMillisecond_adaptive hlt]
    exact spreadLoop_length _ _ _ _
  · rw [nextMillisecond_adaptive hlt, framesPerMs_adaptive hlt]
    exact (spread_exact _).1
  · rw [nextMillisecond_adaptive hlt]
    exact (spread_exact _).2

/-- Ten milliseconds at the nominal rate. -/
theorem adaptive_clock_exact_ten_milliseconds :
    1000000 * (init.after .adaptive (List.replicate 10 .nextMillisecond)).sentTotal.toNat +
      (init.after .adaptive (List.replicate 10 .nextMillisecond)).adaptiveFractionMillionths.toNat =
        ((rates .adaptive init (List.replicate 10 .nextMillisecond)).map UInt64.toNat).sum :=
  (adaptive_clock_exact init (.inl rfl) (List.replicate 10 .nextMillisecond)).2.1 (by decide)

end NumarkNS6.Legacy.NS6ClockControl
