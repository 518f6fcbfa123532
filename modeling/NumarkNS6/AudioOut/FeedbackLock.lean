import NumarkNS6.AudioOut.ReferenceScheduler
import Mathlib.Data.List.DropRight

namespace NumarkNS6.AudioOut.AudioPacketPolicy

open AudioFeedbackPatternPolicy Foundation.CircularTable
open ReferenceScheduler (Op Simulates policyStep after after_concat make_simulates)

/-- The feedback byte a call takes from the queue. Only the first packet of a
millisecond takes one. -/
def taken (p : AudioPacketPolicy) : Op → List UInt8
  | .nextPacketFrames =>
    if p.serviceIntervalsPerSecond = 8000 ∧ p.patternIndex = 0 ∧ p.feedbackQueueCount ≠ 0 then
      [p.feedbackQueue.read 0 p.feedbackQueueRead]
    else []
  | .observeFeedback _ => []
  | .observeInvalidFeedback => []

def takenBy (p : AudioPacketPolicy) : List Op → List UInt8
  | [] => []
  | op :: ops => p.taken op ++ takenBy (policyStep p op).2 ops

theorem takenBy_concat (p : AudioPacketPolicy) (ops : List Op) (op : Op) :
    takenBy p (ops ++ [op]) = takenBy p ops ++ taken (after policyStep p ops) op := by
  induction ops generalizing p with
  | nil => simp [takenBy, after]
  | cons o ops ih =>
    rw [List.cons_append, takenBy, ih, takenBy, List.append_assoc]
    rfl

def validSince (tokens : List UInt8) : ℕ := (tokens.rtakeWhile (· ≠ 0)).length

/-- The tokens since the position the cursor is compared with: the start, or the
last marker, which is counted too. -/
def sinceReference (tokens : List UInt8) : ℕ :=
  if 0 ∈ tokens then validSince tokens + 1 else tokens.length

theorem validSince_valid (tokens : List UInt8) {v : UInt8} (hv : v ≠ 0) :
    validSince (tokens ++ [v]) = validSince tokens + 1 := by
  rw [validSince, List.rtakeWhile_concat_pos _ _ _ (by simpa using hv), List.length_append]
  rfl

theorem validSince_marker (tokens : List UInt8) : validSince (tokens ++ [0]) = 0 := by
  rw [validSince, List.rtakeWhile_concat_neg _ _ _ (by decide)]
  rfl

theorem sinceReference_valid (tokens : List UInt8) {v : UInt8} (hv : v ≠ 0) :
    sinceReference (tokens ++ [v]) = sinceReference tokens + 1 := by
  rw [sinceReference, sinceReference, validSince_valid tokens hv]
  by_cases h : (0 : UInt8) ∈ tokens
  · rw [if_pos h, if_pos (List.mem_append_left _ h)]
  · rw [if_neg h, if_neg (by simp [h, hv.symm]), List.length_append]
    rfl

theorem sinceReference_marker (tokens : List UInt8) : sinceReference (tokens ++ [0]) = 1 := by
  rw [sinceReference, if_pos (by simp), validSince_marker]

theorem sinceReference_le (tokens : List UInt8) : sinceReference tokens ≤ tokens.length := by
  induction tokens using List.reverseRecOn with
  | nil => exact le_rfl
  | append_singleton tokens v ih =>
    rw [List.length_append, List.length_singleton]
    by_cases hv : v = 0
    · rw [hv, sinceReference_marker]
      omega
    · rw [sinceReference_valid tokens hv]
      omega

/-- The cursor has gone eight places for each token taken, the reference stands
where it was at the last marker, and the lock is sixteen tokens behind it. -/
structure Observes (p : AudioPacketPolicy) (tokens : List UInt8) : Prop where
  cursor : p.patternHistoryCursor = packetsPerMillisecond * tokens.length % historySize
  reference : p.reacquisitionReference =
    packetsPerMillisecond * (tokens.length - sinceReference tokens) % historySize
  locked : p.patternLocked = true ↔ 16 ≤ sinceReference tokens

variable {p : AudioPacketPolicy} {tokens : List UInt8}

theorem cursor_eq_reference_iff {n d : ℕ} (h : d ≤ n) :
    packetsPerMillisecond * n % historySize = packetsPerMillisecond * (n - d) % historySize ↔
      16 ∣ d := by
  rw [packetsPerMillisecond, historySize]
  omega

theorem advance_cursor (n : ℕ) : (packetsPerMillisecond * n % historySize + packetsPerMillisecond) %
    historySize = packetsPerMillisecond * (n + 1) % historySize := by
  rw [packetsPerMillisecond, historySize]
  omega

theorem Observes.dropFeedback (h : Observes p tokens) : Observes p.dropFeedback tokens :=
  ⟨h.cursor, h.reference, h.locked⟩

theorem Observes.nominal (h : Observes p tokens) : Observes p.nominal tokens where
  cursor := by simpa only [AudioPacketPolicy.nominal] using h.cursor
  reference := by simpa only [AudioPacketPolicy.nominal] using h.reference
  locked := by simpa only [AudioPacketPolicy.nominal] using h.locked

theorem Observes.follow (h : Observes p tokens) (selected : Table UInt8 packetsPerMillisecond)
    {v : UInt8} (hv : v ≠ 0) : Observes (p.follow selected) (tokens ++ [v]) := by
  have hle := sinceReference_le (tokens ++ [v])
  have hcursor : (p.patternHistoryCursor + packetsPerMillisecond) % historySize =
      packetsPerMillisecond * (tokens ++ [v]).length % historySize := by
    rw [h.cursor, advance_cursor, List.length_append, List.length_singleton]
  have hreference : p.reacquisitionReference = packetsPerMillisecond *
      ((tokens ++ [v]).length - sinceReference (tokens ++ [v])) % historySize := by
    rw [h.reference, sinceReference_valid tokens hv, List.length_append, List.length_singleton,
      Nat.add_sub_add_right]
  have hlap : (p.patternHistoryCursor + packetsPerMillisecond) % historySize =
      p.reacquisitionReference ↔ 16 ∣ sinceReference tokens + 1 := by
    rw [hcursor, hreference, cursor_eq_reference_iff hle, sinceReference_valid tokens hv]
  have hlocked := h.locked
  unfold AudioPacketPolicy.follow record
  dsimp only
  split_ifs with hcase
  · refine ⟨hcursor, hreference, iff_of_true rfl ?_⟩
    rw [sinceReference_valid tokens hv]
    exact Nat.le_of_dvd (Nat.succ_pos _) (hlap.mp hcase)
  · refine ⟨hcursor, hreference, hlocked.trans ?_⟩
    rw [hlap] at hcase
    rw [sinceReference_valid tokens hv]
    omega

theorem Observes.predict (h : Observes p tokens) : Observes p.predict (tokens ++ [0]) where
  cursor := by
    simp only [AudioPacketPolicy.predict, record, h.cursor, advance_cursor, List.length_append,
      List.length_singleton]
  reference := by
    rw [sinceReference_marker, List.length_append, List.length_singleton, Nat.add_sub_cancel]
    exact h.cursor
  locked := by
    rw [sinceReference_marker]
    exact iff_of_false Bool.false_ne_true (by decide)

theorem waiting_byte {s : ReferenceScheduler} (h : Simulates p s)
    (hcount : p.feedbackQueueCount ≠ 0) :
    p.feedbackQueue.read 0 p.feedbackQueueRead = 0 ∨
      42 ≤ p.feedbackQueue.read 0 p.feedbackQueueRead ∧
        p.feedbackQueue.read 0 p.feedbackQueueRead ≤ 46 := by
  have hqueue := h.follows.queue
  have htokens := h.follows.tokens
  rw [h.follows.count] at hcount
  cases hw : s.waiting with
  | nil => exact absurd (congrArg List.length hw) hcount
  | cons t w =>
    rw [hw] at hqueue htokens
    have hread : p.feedbackQueue.read 0 p.feedbackQueueRead = t.code := hqueue.read_head
    rw [hread]
    cases t with
    | valid v => exact .inr (htokens _ List.mem_cons_self)
    | invalid => exact .inl rfl

theorem Observes.beginMillisecond {s : ReferenceScheduler} (h : Observes p tokens)
    (hs : Simulates p s) (hcount : p.feedbackQueueCount ≠ 0) :
    Observes p.beginMillisecond (tokens ++ [p.feedbackQueue.read 0 p.feedbackQueueRead]) := by
  rw [AudioPacketPolicy.beginMillisecond, if_pos hcount]
  obtain hbyte | hbyte := waiting_byte hs hcount
  · rw [hbyte]
    exact h.dropFeedback.predict
  · obtain ⟨selected, hbuild, -⟩ := ReferenceScheduler.build_inRange hbyte
    have hne : p.feedbackQueue.read 0 p.feedbackQueueRead ≠ 0 := by
      intro hzero
      rw [hzero] at hbyte
      exact absurd hbyte.1 (by decide)
    rw [hbuild]
    exact h.dropFeedback.follow selected hne

theorem Observes.enqueue (h : Observes p tokens) (feedback : UInt8) :
    Observes (p.enqueue feedback) tokens := by
  unfold AudioPacketPolicy.enqueue
  dsimp only
  split_ifs <;> exact ⟨h.cursor, h.reference, h.locked⟩

theorem Observes.step {s : ReferenceScheduler} (h : Observes p tokens) (hs : Simulates p s)
    (op : Op) : Observes (policyStep p op).2 (tokens ++ p.taken op) := by
  cases op with
  | observeFeedback v =>
    rw [taken, List.append_nil, policyStep, AudioPacketPolicy.observeFeedback]
    have hmeasure : Observes (p.measure v) tokens := ⟨h.cursor, h.reference, h.locked⟩
    split_ifs
    · exact hmeasure.enqueue v
    · exact h
  | observeInvalidFeedback =>
    rw [taken, List.append_nil]
    exact h.enqueue 0
  | nextPacketFrames =>
    have htake {q : AudioPacketPolicy} {ts : List UInt8} (hq : Observes q ts) :
        Observes q.takePacket.2 ts := ⟨hq.cursor, hq.reference, hq.locked⟩
    have hrate := hs.follows.rate
    rw [policyStep, AudioPacketPolicy.nextPacketFrames, if_pos hrate]
    by_cases hindex : p.patternIndex = 0
    · rw [if_pos hindex]
      by_cases hcount : p.feedbackQueueCount = 0
      · have hnone : p.taken .nextPacketFrames = [] := if_neg fun hall ↦ hall.2.2 hcount
        rw [hnone, List.append_nil, AudioPacketPolicy.beginMillisecond, if_neg (not_not.mpr hcount)]
        exact htake h.nominal
      · have hone : p.taken .nextPacketFrames = [p.feedbackQueue.read 0 p.feedbackQueueRead] :=
          if_pos ⟨hrate, hindex, hcount⟩
        rw [hone]
        exact htake (h.beginMillisecond hs hcount)
    · have hnone : p.taken .nextPacketFrames = [] := if_neg fun hall ↦ hindex hall.2.1
      rw [hnone, List.append_nil, if_neg hindex]
      exact htake h

theorem make_observes : Observes (make 44100 8000) [] where
  cursor := rfl
  reference := rfl
  locked := iff_of_false Bool.false_ne_true (by decide)

theorem taken_byte {s : ReferenceScheduler} (hs : Simulates p s) (op : Op) {t : UInt8}
    (ht : t ∈ p.taken op) : t = 0 ∨ 42 ≤ t ∧ t ≤ 46 := by
  cases op with
  | observeFeedback v => exact absurd ht (List.not_mem_nil)
  | observeInvalidFeedback => exact absurd ht (List.not_mem_nil)
  | nextPacketFrames =>
    rw [taken] at ht
    split_ifs at ht with hall
    · rw [List.mem_singleton.mp ht]
      exact waiting_byte hs hall.2.2
    · exact absurd ht (List.not_mem_nil)

/-- At every moment of every run the pattern is locked exactly when fifteen valid
values have been taken since the last marker, or sixteen if there was none. -/
theorem patternLocked_iff (ops : List Op) :
    (∀ t ∈ takenBy (make 44100 8000) ops, t = 0 ∨ 42 ≤ t ∧ t ≤ 46) ∧
      ((after policyStep (make 44100 8000) ops).patternLocked = true ↔
        if 0 ∈ takenBy (make 44100 8000) ops then
          15 ≤ validSince (takenBy (make 44100 8000) ops)
        else 16 ≤ (takenBy (make 44100 8000) ops).length) := by
  have hrun : Observes (after policyStep (make 44100 8000) ops) (takenBy (make 44100 8000) ops) ∧
      ∀ t ∈ takenBy (make 44100 8000) ops, t = 0 ∨ 42 ≤ t ∧ t ≤ 46 := by
    induction ops using List.reverseRecOn with
    | nil => exact ⟨make_observes, fun t ht ↦ absurd ht List.not_mem_nil⟩
    | append_singleton ops op ih =>
      have hs := make_simulates.after ops
      rw [after_concat, takenBy_concat]
      exact ⟨ih.1.step hs op, List.forall_mem_append.mpr ⟨ih.2, fun _ ↦ taken_byte hs op⟩⟩
  refine ⟨hrun.2, hrun.1.locked.trans ?_⟩
  rw [sinceReference]
  split_ifs <;> omega

end NumarkNS6.AudioOut.AudioPacketPolicy
