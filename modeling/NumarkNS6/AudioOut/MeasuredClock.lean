import NumarkNS6.AudioOut.ReferenceScheduler
import NumarkNS6.Foundation.RecentWindow

namespace NumarkNS6.AudioOut.AudioPacketPolicy

open AudioFeedbackPatternPolicy Foundation.CircularTable Foundation.RecentWindow
open ReferenceScheduler (Op policyStep after after_concat)

def observed (ops : List Op) : List UInt8 :=
  ops.filterMap fun
    | .observeFeedback v => if 42 ≤ v ∧ v ≤ 46 then some v else none
    | _ => none

def windowSum (values : List UInt8) : ℕ := ((latest feedbackWindowSize values).map UInt8.toNat).sum

/-- The window has the latest of the valid values, and sum and clock go with it. -/
structure Measures (p : AudioPacketPolicy) (sampleRateHz : UInt32) (values : List UInt8) :
    Prop where
  window : Recent p.feedbackWindow p.feedbackIndex p.feedbackCount values
  valid : ∀ v ∈ values, v ≤ maximumFrames
  sum : p.feedbackSum.toNat = windowSum values
  clock : p.measuredClockMilliHz.toNat =
    if values.length < feedbackWindowSize then sampleRateHz.toNat * 1000 else 25 * windowSum values

variable {p : AudioPacketPolicy} {sampleRateHz : UInt32} {values : List UInt8}

theorem sum_map_toNat_le {values : List UInt8} (h : ∀ v ∈ values, v ≤ maximumFrames) :
    (values.map UInt8.toNat).sum ≤ values.length * 46 := by
  induction values with
  | nil => exact le_rfl
  | cons v values ih =>
    have hv : v.toNat ≤ 46 := UInt8.le_iff_toNat_le.mp (h v List.mem_cons_self)
    have hrest := ih fun w hw ↦ h w (List.mem_cons_of_mem _ hw)
    rw [List.map_cons, List.sum_cons, List.length_cons]
    omega

theorem windowSum_le (h : ∀ v ∈ values, v ≤ maximumFrames) : windowSum values ≤ 40000 * 46 := by
  have hlatest : ∀ v ∈ latest feedbackWindowSize values, v ≤ maximumFrames :=
    fun v hv ↦ h v (List.mem_of_mem_drop hv)
  have hsum := sum_map_toNat_le hlatest
  have hlen := latest_length feedbackWindowSize values
  have hle : (latest feedbackWindowSize values).length ≤ 40000 := by
    rw [hlen]
    exact Nat.min_le_left _ _
  exact hsum.trans (Nat.mul_le_mul_right 46 hle)

theorem make_measures (sampleRateHz serviceIntervalsPerSecond : UInt32) :
    Measures (make sampleRateHz serviceIntervalsPerSecond) sampleRateHz [] where
  window := recent_nil _
  valid := List.forall_mem_nil _
  sum := rfl
  clock := by
    have hlt := sampleRateHz.toNat_lt
    have hfits : sampleRateHz.toNat * 1000 < 2 ^ 64 := by omega
    rw [if_pos (by decide), make, UInt64.toNat_mul, UInt32.toNat_toUInt64]
    exact Nat.mod_eq_of_lt hfits

theorem Measures.windowSum_concat (h : Measures p sampleRateHz values) (v : UInt8) :
    (p.feedbackCount = feedbackWindowSize →
      (p.feedbackWindow.read 0 p.feedbackIndex).toNat ≤ windowSum values) ∧
    windowSum (values ++ [v]) = (if p.feedbackCount = feedbackWindowSize then
      windowSum values - (p.feedbackWindow.read 0 p.feedbackIndex).toNat
      else windowSum values) + v.toNat :=
  h.window.sum_push (by decide) UInt8.toNat 0 v

theorem Measures.no_wrap (h : Measures p sampleRateHz values) :
    (p.feedbackCount = feedbackWindowSize →
      (p.feedbackWindow.read 0 p.feedbackIndex).toNat ≤ p.feedbackSum.toNat) ∧
    p.feedbackSum.toNat + 255 < 2 ^ 64 := by
  rw [h.sum]
  refine ⟨(h.windowSum_concat 0).1, ?_⟩
  have hle := windowSum_le h.valid
  omega

theorem Measures.measure_sum (h : Measures p sampleRateHz values) (v : UInt8) :
    (p.measure v).feedbackSum.toNat = windowSum (values ++ [v]) := by
  obtain ⟨hold, hfits⟩ := h.no_wrap
  have hbyte := v.toNat_lt
  rw [(h.windowSum_concat v).2, ← h.sum]
  by_cases hfull : p.feedbackCount = feedbackWindowSize
  · simp only [AudioPacketPolicy.measure, if_pos hfull]
    rw [UInt64.toNat_add, UInt64.toNat_sub_of_le, UInt8.toNat_toUInt64, UInt8.toNat_toUInt64]
    · exact Nat.mod_eq_of_lt (by omega)
    · rw [UInt64.le_iff_toNat_le, UInt8.toNat_toUInt64]
      exact hold hfull
  · simp only [AudioPacketPolicy.measure, if_neg hfull]
    rw [UInt64.toNat_add, UInt8.toNat_toUInt64]
    exact Nat.mod_eq_of_lt (by omega)

theorem Measures.measure (h : Measures p sampleRateHz values) {v : UInt8}
    (hv : v ≤ maximumFrames) : Measures (p.measure v) sampleRateHz (values ++ [v]) := by
  have hvalid : ∀ w ∈ values ++ [v], w ≤ maximumFrames :=
    List.forall_mem_append.mpr ⟨h.valid, List.forall_mem_singleton.mpr hv⟩
  have hwindow : Recent (p.measure v).feedbackWindow (p.measure v).feedbackIndex
      (p.measure v).feedbackCount (values ++ [v]) := h.window.push (by decide) v
  have hsum := h.measure_sum v
  refine ⟨hwindow, hvalid, hsum, ?_⟩
  have hclock : (p.measure v).measuredClockMilliHz =
      if (p.measure v).feedbackCount = feedbackWindowSize then
        (p.measure v).feedbackSum * 1000000 / 40000 else p.measuredClockMilliHz := rfl
  have hcount : (p.measure v).feedbackCount = feedbackWindowSize ↔
      ¬ (values ++ [v]).length < feedbackWindowSize := by
    rw [hwindow.count_eq, feedbackWindowSize]
    omega
  have hbound := windowSum_le hvalid
  rw [hclock]
  by_cases hopen : (values ++ [v]).length < feedbackWindowSize
  · rw [if_neg (fun hfull ↦ hcount.mp hfull hopen), if_pos hopen, h.clock, if_pos]
    rw [List.length_append, List.length_singleton] at hopen
    exact Nat.lt_of_succ_lt hopen
  · have hfits : windowSum (values ++ [v]) * 1000000 < 2 ^ 64 := by omega
    rw [if_pos (hcount.mpr hopen), if_neg hopen, UInt64.toNat_div, UInt64.toNat_mul, hsum]
    change windowSum (values ++ [v]) * 1000000 % 2 ^ 64 / 40000 = _
    rw [Nat.mod_eq_of_lt hfits]
    omega

def gauge (p : AudioPacketPolicy) : Table UInt8 40000 × UInt64 × ℕ × ℕ × UInt64 :=
  (p.feedbackWindow, p.feedbackSum, p.feedbackCount, p.feedbackIndex, p.measuredClockMilliHz)

theorem gauge_enqueue (p : AudioPacketPolicy) (feedback : UInt8) :
    (p.enqueue feedback).gauge = p.gauge := by
  unfold enqueue
  dsimp only
  split_ifs <;> rfl

theorem gauge_beginMillisecond (p : AudioPacketPolicy) : p.beginMillisecond.gauge = p.gauge := by
  unfold beginMillisecond
  split_ifs
  · split
    · unfold follow
      dsimp only
      split_ifs <;> rfl
    · rfl
  · rfl

theorem gauge_nextPacketFrames (p : AudioPacketPolicy) : p.nextPacketFrames.2.gauge = p.gauge := by
  unfold nextPacketFrames
  dsimp only
  split_ifs
  · exact gauge_beginMillisecond p
  · rfl
  · rfl
  · rfl

theorem Measures.congr (h : Measures p sampleRateHz values) {q : AudioPacketPolicy}
    (hgauge : q.gauge = p.gauge) : Measures q sampleRateHz values := by
  simp only [gauge, Prod.mk.injEq] at hgauge
  obtain ⟨hwindow, hsum, hcount, hindex, hclock⟩ := hgauge
  exact ⟨by rw [hwindow, hcount, hindex]; exact h.window, h.valid, by rw [hsum]; exact h.sum,
    by rw [hclock]; exact h.clock⟩

theorem Measures.step (h : Measures p sampleRateHz values) (op : Op) :
    Measures (policyStep p op).2 sampleRateHz (values ++ observed [op]) := by
  cases op with
  | observeFeedback v =>
    by_cases hv : 42 ≤ v ∧ v ≤ 46
    · have hone : observed [.observeFeedback v] = [v] := by simp [observed, hv]
      rw [hone, policyStep, observeFeedback, if_pos (show v ≥ minimumFrames ∧ v ≤ maximumFrames from hv)]
      exact (h.measure hv.2).congr (gauge_enqueue _ v)
    · have hnone : observed [.observeFeedback v] = [] := by simp [observed, hv]
      rw [hnone, List.append_nil, policyStep, observeFeedback,
        if_neg (show ¬ (v ≥ minimumFrames ∧ v ≤ maximumFrames) from hv)]
      exact h
  | observeInvalidFeedback =>
    rw [show observed [.observeInvalidFeedback] = [] from rfl, List.append_nil]
    exact h.congr (gauge_enqueue p 0)
  | nextPacketFrames =>
    rw [show observed [.nextPacketFrames] = [] from rfl, List.append_nil]
    exact h.congr (gauge_nextPacketFrames p)

theorem after_measures (h : Measures p sampleRateHz []) (ops : List Op) :
    Measures (after policyStep p ops) sampleRateHz (observed ops) := by
  induction ops using List.reverseRecOn with
  | nil => exact h
  | append_singleton ops op ih =>
    rw [after_concat, observed, List.filterMap_append]
    exact ih.step op

/-- The measured clock is the exact average over the last 40000 valid values,
whatever else is observed, dropped from the queue or consumed in between. -/
theorem measured_clock_exact {sampleRateHz serviceIntervalsPerSecond : UInt32}
    {p : AudioPacketPolicy} (h : construct sampleRateHz serviceIntervalsPerSecond = .ok p)
    (ops : List Op) :
    (after policyStep p ops).feedbackSum.toNat = windowSum (observed ops) ∧
    ((after policyStep p ops).feedbackCount = feedbackWindowSize →
      ((after policyStep p ops).feedbackWindow.read 0 (after policyStep p ops).feedbackIndex).toNat ≤
        (after policyStep p ops).feedbackSum.toNat) ∧
    (after policyStep p ops).feedbackSum.toNat + 255 < 2 ^ 64 ∧
    (after policyStep p ops).measuredClockMilliHz.toNat =
      (if (observed ops).length < feedbackWindowSize then sampleRateHz.toNat * 1000
        else 25 * windowSum (observed ops)) ∧
    (∀ others, observed others = observed ops →
      (after policyStep p others).measuredClockMilliHz = (after policyStep p ops).measuredClockMilliHz) ∧
    (after policyStep p ops).effectiveClockMilliHz.toNat =
      max 44100000 (min 44100300 (after policyStep p ops).measuredClockMilliHz.toNat) := by
  obtain ⟨-, -, rfl⟩ := construct_eq h
  have hstart := make_measures sampleRateHz serviceIntervalsPerSecond
  have hrun := after_measures hstart ops
  refine ⟨hrun.sum, hrun.no_wrap.1, hrun.no_wrap.2, hrun.clock, ?_, effectiveClockMilliHz_toNat _⟩
  intro others hsame
  have hother := (after_measures hstart others).clock
  rw [hsame, ← hrun.clock] at hother
  exact UInt64.toNat_inj.mp hother

/-- One value, an invalid one and a marker, with a packet in between. -/
theorem measured_clock_exact_first_value :
    construct 44100 8000 = .ok (make 44100 8000) ∧
      (after policyStep (make 44100 8000) [.observeFeedback 44, .observeFeedback 47,
        .nextPacketFrames, .observeInvalidFeedback]).feedbackSum.toNat = 44 := by
  refine ⟨rfl, ?_⟩
  rw [(measured_clock_exact (show construct 44100 8000 = .ok (make 44100 8000) from rfl) _).1]
  decide

end NumarkNS6.AudioOut.AudioPacketPolicy
