import NumarkNS6.Legacy.PolicyPort

namespace NumarkNS6.Legacy.NS6ClockControl

open Foundation.CircularTable

variable {c : NS6ClockControl} {values : List UInt8}

/-- The values that wait in the pattern queue, the oldest one first. -/
structure Waiting (c : NS6ClockControl) (values : List UInt8) : Prop where
  queue : c.patternQueue.Holds c.patternQueueRead.toNat values
  count : c.patternQueueCount.toNat = values.length
  bound : values.length ≤ 256
  read_lt : c.patternQueueRead.toNat < 256
  valid : ∀ v ∈ values, feedbackValueIsValid v = true

theorem Waiting.congr (h : Waiting c values) {c' : NS6ClockControl} (hc : c'.cadence = c.cadence) :
    Waiting c' values := by
  simp only [cadence, Prod.mk.injEq] at hc
  obtain ⟨hqueue, hread, hcount, -⟩ := hc
  refine ⟨?_, ?_, h.bound, ?_, h.valid⟩
  · rw [hqueue, hread]
    exact h.queue
  · rw [hcount]
    exact h.count
  · rw [hread]
    exact h.read_lt

theorem waiting_nil (h : c.patternQueueRead = 0) (h' : c.patternQueueCount = 0) : Waiting c [] where
  queue := .nil _ _
  count := by rw [h']; rfl
  bound := Nat.zero_le _
  read_lt := by rw [h]; decide
  valid v hv := absurd hv List.not_mem_nil

theorem Waiting.dropPattern {v : UInt8} (h : Waiting c (v :: values)) :
    Waiting c.dropPattern values := by
  have hcount := h.count
  have hbound := h.bound
  have hread := h.read_lt
  rw [List.length_cons] at hcount hbound
  have hnext : ((c.patternQueueRead + 1) % patternQueueCapacity).toNat =
      (c.patternQueueRead.toNat + 1) % 256 := by
    rw [UInt16.toNat_mod, UInt16.toNat_add, UInt16.toNat_one]
    change (c.patternQueueRead.toNat + 1) % 2 ^ 16 % 256 = _
    omega
  have hone : (1 : UInt16) ≤ c.patternQueueCount := by
    rw [UInt16.le_iff_toNat_le, hcount, UInt16.toNat_one]
    omega
  refine ⟨?_, ?_, Nat.le_of_succ_le hbound, ?_, ?_⟩
  · simp only [NS6ClockControl.dropPattern, hnext]
    exact (Table.Holds.tail h.queue).shift (Nat.mod_mod _ _).symm
  · simp only [NS6ClockControl.dropPattern]
    rw [UInt16.toNat_sub_of_le _ _ hone, hcount]
    rfl
  · simp only [NS6ClockControl.dropPattern, hnext]
    exact Nat.mod_lt _ (by decide)
  · intro u hu
    exact h.valid u (List.mem_cons_of_mem _ hu)

theorem Waiting.push (h : Waiting c values) (hroom : values.length < 256) {v : UInt8}
    (hv : feedbackValueIsValid v = true) :
    Waiting { c with
      patternQueue := c.patternQueue.write
        ((c.patternQueueRead + c.patternQueueCount) % patternQueueCapacity).toNat v
      patternQueueCount := c.patternQueueCount + 1 } (values ++ [v]) := by
  have hread := h.read_lt
  have hindex : ((c.patternQueueRead + c.patternQueueCount) % patternQueueCapacity).toNat % 256 =
      (c.patternQueueRead.toNat + values.length) % 256 := by
    rw [UInt16.toNat_mod, UInt16.toNat_add, h.count]
    change (c.patternQueueRead.toNat + values.length) % 2 ^ 16 % 256 % 256 = _
    omega
  have hwrite : c.patternQueue.write
      ((c.patternQueueRead + c.patternQueueCount) % patternQueueCapacity).toNat v =
      c.patternQueue.write (c.patternQueueRead.toNat + values.length) v := by
    simp only [Table.write, hindex]
  refine ⟨?_, ?_, ?_, hread, ?_⟩
  · rw [hwrite]
    exact h.queue.push hroom v
  · rw [UInt16.toNat_add, h.count, UInt16.toNat_one, List.length_append, List.length_singleton]
    omega
  · rw [List.length_append, List.length_singleton]
    omega
  · exact List.forall_mem_append.mpr ⟨h.valid, List.forall_mem_singleton.mpr hv⟩

theorem Waiting.queuePattern (h : Waiting c values) {v : UInt8} (hv : feedbackValueIsValid v = true) :
    ∃ values', Waiting (c.queuePattern v) values' := by
  unfold NS6ClockControl.queuePattern
  by_cases hfull : c.patternQueueCount = patternQueueCapacity
  · have hcount := h.count
    rw [hfull] at hcount
    cases values with
    | nil => cases hcount
    | cons oldest rest =>
      have hrest : rest.length < 256 := h.bound
      simp only [if_pos hfull]
      exact ⟨_, h.dropPattern.push hrest hv⟩
  · have hroom : values.length < 256 := by
      refine lt_of_le_of_ne h.bound fun heq ↦ hfull ?_
      rw [← UInt16.toNat_inj, h.count, heq]
      rfl
    simp only [if_neg hfull]
    exact ⟨_, h.push hroom hv⟩

theorem cadence_measureRate (c : NS6ClockControl) : c.measureRate.cadence = c.cadence := by
  unfold measureRate
  split_ifs
  · rw [cadence, cadence]
  · rfl

theorem Waiting.observe (h : Waiting c values) (b : ClockBuild) (v : UInt8) :
    ∃ values', Waiting (c.observe b v) values' := by
  unfold NS6ClockControl.observe
  by_cases hv : feedbackValueIsValid v = false
  · rw [if_pos hv]
    exact ⟨values, h⟩
  simp only [if_neg hv]
  have hwindow : Waiting (({ c with
      targetFramesPerMs := v
      requestedTotal := c.requestedTotal + v.toUInt64
      locked := true } : NS6ClockControl).enterWindow v) values :=
    h.congr ((cadence_enterWindow _ v).trans rfl)
  split_ifs
  · obtain ⟨values', h'⟩ := hwindow.queuePattern (Bool.eq_true_of_not_eq_false hv)
    exact ⟨values', h'.congr (cadence_measureRate _)⟩
  · exact ⟨values, hwindow.congr (cadence_measureRate _)⟩

theorem fixedFrames_eq (c : NS6ClockControl) : c.fixedFrames.1 = 44 ∨ c.fixedFrames.1 = 45 := by
  unfold fixedFrames
  simp only
  split_ifs
  · exact .inr rfl
  · exact .inl rfl

theorem Waiting.fixedFrames (h : Waiting c values) : Waiting c.fixedFrames.2 values := by
  unfold NS6ClockControl.fixedFrames
  simp only
  split_ifs
  · exact ⟨h.queue, h.count, h.bound, h.read_lt, h.valid⟩
  · exact ⟨h.queue, h.count, h.bound, h.read_lt, h.valid⟩

/-- The clock never asks the pattern table for a row it does not have. -/
theorem Waiting.patternFrames (h : Waiting c values) :
    (c.patternFrames.1 = 42 ∨ c.patternFrames.1 = 43 ∨ c.patternFrames.1 = 44 ∨
      c.patternFrames.1 = 45 ∨ c.patternFrames.1 = 46) ∧
      ∃ values', Waiting c.patternFrames.2 values' := by
  unfold NS6ClockControl.patternFrames
  by_cases hne : c.patternQueueCount ≠ 0
  · rw [if_pos hne]
    have hcount := h.count
    cases values with
    | nil => exact absurd (UInt16.toNat_inj.mp hcount) hne
    | cons v rest =>
      have hvalid := (valid_iff v).mp (h.valid v List.mem_cons_self)
      rw [h.queue.read_head]
      refine ⟨?_, rest, h.dropPattern⟩
      have hlow : 42 ≤ v.toNat := UInt8.le_iff_toNat_le.mp hvalid.1
      have hhigh : v.toNat ≤ 46 := UInt8.le_iff_toNat_le.mp hvalid.2
      simp only [← UInt32.toNat_inj, UInt8.toNat_toUInt32, UInt32.reduceToNat]
      omega
  · rw [if_neg hne]
    refine ⟨?_, values, h.fixedFrames⟩
    rcases c.fixedFrames_eq with h44 | h45
    · exact .inr (.inr (.inl h44))
    · exact .inr (.inr (.inr (.inl h45)))

theorem clampFrames_mem (frames : UInt32) : 40 ≤ (clampFrames frames).toNat ∧
    (clampFrames frames).toNat ≤ 48 := by
  unfold clampFrames
  simp only
  split_ifs with h₁ h₂ h₂
  · decide
  · decide
  · decide
  · rw [UInt32.not_lt, UInt32.le_iff_toNat_le] at h₁
    rw [gt_iff_lt, UInt32.not_lt, UInt32.le_iff_toNat_le] at h₂
    exact ⟨h₁, h₂⟩

structure Microframes (counts : List UInt32) : Prop where
  length : counts.length = 8
  all : (counts.all fun n ↦ n == 5 || n == 6) = true

theorem Microframes.count_eq {counts : List UInt32} (h : Microframes counts) {n : UInt32}
    (hn : n ∈ counts) : n = 5 ∨ n = 6 := by
  have hall := List.all_eq_true.mp h.all n hn
  rw [Bool.or_eq_true, beq_iff_eq, beq_iff_eq] at hall
  exact hall

theorem spread_microframes {frames : UInt32} (h : 40 ≤ frames.toNat ∧ frames.toNat ≤ 48) :
    Microframes (spread frames) := by
  obtain ⟨hlow, hhigh⟩ := h
  have hcases : frames = 40 ∨ frames = 41 ∨ frames = 42 ∨ frames = 43 ∨ frames = 44 ∨
      frames = 45 ∨ frames = 46 ∨ frames = 47 ∨ frames = 48 := by
    simp only [← UInt32.toNat_inj, UInt32.reduceToNat]
    omega
  rcases hcases with rfl | rfl | rfl | rfl | rfl | rfl | rfl | rfl | rfl
  all_goals exact ⟨rfl, rfl⟩

theorem rateFrames_cadence (c : NS6ClockControl) (b : ClockBuild) :
    (c.rateFrames b).2.cadence = c.cadence := by
  unfold rateFrames
  simp only
  split_ifs
  · rfl
  · rfl

theorem Waiting.sent (h : Waiting c values) (total : UInt64) :
    Waiting { c with sentTotal := total } values :=
  ⟨h.queue, h.count, h.bound, h.read_lt, h.valid⟩

/-- In every build, a millisecond has eight packets of five or six frames. -/
theorem Waiting.nextMillisecond (h : Waiting c values) (b : ClockBuild) :
    Microframes (c.nextMillisecond b).1 ∧ ∃ values', Waiting (c.nextMillisecond b).2 values' := by
  unfold NS6ClockControl.nextMillisecond NS6ClockControl.framesPerMs
  by_cases hpattern : b.usesPattern = true
  · simp only [if_pos hpattern]
    obtain ⟨hframes, values', h'⟩ := h.patternFrames
    refine ⟨?_, values', h'.sent _⟩
    obtain hf | hf | hf | hf | hf := hframes
    all_goals
      rw [hf]
      exact ⟨rfl, rfl⟩
  simp only [if_neg hpattern]
  by_cases hadaptive : b.adaptiveClock = true
  · simp only [if_pos hadaptive]
    have hrate : Waiting (c.rateFrames b).2 values := h.congr (rateFrames_cadence c b)
    exact ⟨spread_microframes (clampFrames_mem _), values, hrate.sent _⟩
  · simp only [if_neg hadaptive]
    refine ⟨?_, values, h.fixedFrames.sent _⟩
    rcases c.fixedFrames_eq with hf | hf
    all_goals
      rw [hf]
      exact ⟨rfl, rfl⟩

end NumarkNS6.Legacy.NS6ClockControl
