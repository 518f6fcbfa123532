import NumarkNS6.Legacy.NS6USB

namespace NumarkNS6.Legacy.NS6TransportShared

open Foundation NS6Transport TaggedRing

/-- From the reader on the ring holds the timeline, and nothing beyond its end is in
reach. The reader may have passed that end. -/
structure Spans (s : NS6TransportShared) (timeline : List Frame) : Prop where
  low : timeline.length ≤ s.highWater.toNat
  high : s.highWater.toNat ≤ max timeline.length s.readCursor.toNat
  near : timeline.length ≤ s.readCursor.toNat + 16384
  held : ∀ p : UInt64, s.readCursor.toNat ≤ p.toNat → p.toNat < timeline.length →
    s.lookup p = some (timeline.getD p.toNat silence)
  idle : s.initialized = false → timeline = [] ∧ s.readCursor = 0

variable {s : NS6TransportShared} {timeline : List Frame}

theorem Spans.init (memory : NS6TransportShared) : Spans memory.init [] where
  low := Nat.zero_le _
  high := Nat.zero_le _
  near := Nat.zero_le _
  held _ _ hp := absurd hp (Nat.not_lt_zero _)
  idle _ := ⟨rfl, rfl⟩

theorem Spans.begin (h : Spans s timeline) : Spans { s with initialized := true } timeline :=
  ⟨h.low, h.high, h.near, h.held, fun hinit ↦ Bool.noConfusion hinit⟩

theorem Spans.ordered (h : Spans s timeline) (hle : s.readCursor ≤ s.highWater) : Ordered s where
  cursor_le := hle
  near := by
    have hhigh := h.high
    have hnear := h.near
    omega
  idle hinit := by
    obtain ⟨rfl, hcursor⟩ := h.idle hinit
    have hhigh := h.high
    rw [hcursor] at hhigh ⊢
    exact UInt64.toNat_inj.mp (Nat.le_zero.mp hhigh).symm

theorem enqueue_behind (hlt : s.highWater < s.readCursor) (hinit : s.initialized = true)
    {count : UInt32} (hfit : s.readCursor.toNat + count.toNat < 2 ^ 64) (input : Option Bytes)
    (format : Option AudioStreamBasicDescription) :
    s.enqueue input count format = ({ s with highWater := s.readCursor }).enqueue input count format ∨
      ((s.enqueue input count format).1 = true → count = 0) ∧
        (s.enqueue input count format).2 = s := by
  cases format with
  | none => exact .inr ⟨fun h ↦ Bool.noConfusion h, rfl⟩
  | some f =>
    unfold enqueue enqueueAt
    dsimp only
    by_cases hbad : (input.isNone ∧ count ≠ 0) ∨ f.valid = false
    · rw [if_pos hbad]
      exact .inr ⟨fun h ↦ Bool.noConfusion h, rfl⟩
    by_cases hzero : count = 0
    · rw [if_neg hbad, if_pos hzero]
      exact .inr ⟨fun _ ↦ hzero, rfl⟩
    have hlt' := UInt64.lt_iff_toNat_lt.mp hlt
    have hend : ¬ s.highWater > 0xffffffffffffffff - count.toUInt64 := by
      rw [gt_max_sub_iff]
      omega
    have hend' : ¬ s.readCursor > 0xffffffffffffffff - count.toUInt64 := by
      rw [gt_max_sub_iff]
      omega
    have hself : ¬ s.readCursor < s.readCursor := UInt64.lt_irrefl _
    left
    simp only [if_neg hbad, if_neg hzero, if_neg hend, if_neg hend', hinit, if_true, if_pos hlt,
      if_neg hself]

/-- A block is put behind the last one, or at the reader if that is past it. -/
theorem Spans.append (h : Spans s timeline) (hle : s.readCursor ≤ s.highWater) (input : Option Bytes)
    {count : UInt32} (format : AudioStreamBasicDescription) (hcount : count ≠ 0)
    (hend : s.highWater.toNat + count.toNat < 2 ^ 64)
    (hroom : s.highWater.toNat + count.toNat ≤ s.readCursor.toNat + 16384) :
    Spans { ({ s with initialized := true } : NS6TransportShared).storeFrames
        (blockFrame (input.getD fun _ ↦ 0) format) s.highWater count.toNat with
      highWater := s.highWater + count.toUInt64 }
      (NS6USB.lay timeline s.readCursor.toNat (Fifo.block input count (some format))) := by
  obtain ⟨hcursor, -, hinit⟩ := storeFrames_fields
    (s := { s with initialized := true }) (blockFrame (input.getD fun _ ↦ 0) format)
    s.highWater count.toNat
  have hpos : count.toNat ≠ 0 := fun hz ↦ hcount (UInt32.toNat_inj.mp hz)
  have hblock := Fifo.block_length input count format
  have hne : Fifo.block input count (some format) ≠ [] := by
    intro hnil
    rw [hnil] at hblock
    exact hpos hblock.symm
  have hle' := UInt64.le_iff_toNat_le.mp hle
  have hlow := h.low
  have hhigh := h.high
  have hgap : timeline.length + (s.readCursor.toNat - timeline.length) = s.highWater.toNat := by omega
  rw [NS6USB.lay, if_neg hne]
  have hlength : (timeline ++ List.replicate (s.readCursor.toNat - timeline.length) silence ++
      Fifo.block input count (some format)).length = s.highWater.toNat + count.toNat := by
    rw [List.length_append, List.length_append, List.length_replicate, hblock, hgap]
  refine ⟨?_, ?_, ?_, ?_, ?_⟩
  · rw [hlength, toNat_add_count hend]
  · rw [hlength, toNat_add_count hend]
    exact le_max_left _ _
  · simp only [hcursor, hlength]
    exact hroom
  · intro p hp hp'
    simp only [hcursor] at hp
    rw [hlength] at hp'
    have hlookup := lookup_storeFrames (s := { s with initialized := true })
      (blockFrame (input.getD fun _ ↦ 0) format) s.highWater count.toNat hend.le
      (p := p) hp' (by omega)
    refine hlookup.trans ?_
    by_cases hold : p.toNat < s.highWater.toNat
    · have hlt : p.toNat < timeline.length := by omega
      rw [if_pos hold, List.append_assoc, List.getD_append _ _ _ _ hlt]
      exact h.held p hp hlt
    · have hnew : p.toNat - s.highWater.toNat < count.toNat := by omega
      have hbefore : (timeline ++ List.replicate (s.readCursor.toNat - timeline.length)
          silence).length = s.highWater.toNat := by
        rw [List.length_append, List.length_replicate, hgap]
      rw [if_neg hold, List.getD_append_right _ _ _ _ (by omega), hbefore, Fifo.block,
        List.getD_eq_getElem?_getD, List.getElem?_map, List.getElem?_range hnew]
      rfl
  · simp only [hinit]
    exact fun hfalse ↦ Bool.noConfusion hfalse

theorem Spans.enqueue_ordered (h : Spans s timeline) (hle : s.readCursor ≤ s.highWater)
    (input : Option Bytes) (count : UInt32) (format : Option AudioStreamBasicDescription) :
    Spans (s.enqueue input count format).2 (if (s.enqueue input count format).1 then
        NS6USB.lay timeline s.readCursor.toNat (Fifo.block input count format) else timeline) ∧
      (s.enqueue input count format).2.readCursor = s.readCursor := by
  have hempty : Fifo.block input 0 format = [] := by cases format <;> rfl
  obtain heq | heq | ⟨rfl, heq⟩ | ⟨f, rfl, hend, hroom, heq⟩ :=
    (h.ordered hle).enqueue_cases input count format
  · rw [heq]
    exact ⟨h, rfl⟩
  · rw [heq]
    exact ⟨h.begin, rfl⟩
  · rw [heq, hempty]
    exact ⟨h, rfl⟩
  · rw [heq]
    by_cases hcount : count = 0
    · subst hcount
      have hsame : s.highWater + UInt32.toUInt64 0 = s.highWater := UInt64.add_zero _
      simp only [hempty, hsame, if_true]
      exact ⟨h.begin, rfl⟩
    · exact ⟨h.append hle input f hcount hend hroom, (storeFrames_fields _ _ _).1⟩

theorem Spans.enqueue (h : Spans s timeline) (hbound : s.readCursor.toNat + 2 ^ 33 < 2 ^ 64)
    (input : Option Bytes) (count : UInt32) (format : Option AudioStreamBasicDescription) :
    Spans (s.enqueue input count format).2 (if (s.enqueue input count format).1 then
        NS6USB.lay timeline s.readCursor.toNat (Fifo.block input count format) else timeline) ∧
      (s.enqueue input count format).2.readCursor = s.readCursor := by
  by_cases hle : s.readCursor ≤ s.highWater
  · exact h.enqueue_ordered hle input count format
  have hlt := UInt64.not_le.mp hle
  have hlt' := UInt64.lt_iff_toNat_lt.mp hlt
  have hcount := count.toNat_lt
  have hinit : s.initialized = true := by
    by_contra hno
    obtain ⟨-, hzero⟩ := h.idle (Bool.eq_false_of_not_eq_true hno)
    rw [hzero] at hlt'
    exact absurd hlt' (Nat.not_lt_zero _)
  have hfit : s.readCursor.toNat + count.toNat < 2 ^ 64 := by omega
  obtain heq | ⟨htaken, heq⟩ := enqueue_behind hlt hinit hfit input format
  · have hmoved : Spans { s with highWater := s.readCursor } timeline := by
      have hlow := h.low
      exact ⟨by dsimp only; omega, le_max_right _ _, h.near, h.held, h.idle⟩
    rw [heq]
    exact hmoved.enqueue_ordered (UInt64.le_refl _) input count format
  · rw [heq]
    refine ⟨?_, rfl⟩
    split_ifs with hone
    · have hempty : Fifo.block input 0 format = [] := by cases format <;> rfl
      rw [htaken hone, hempty]
      exact h
    · exact h

section Reading

variable {cursor : UInt64} {phase step : ℚ}

theorem whole_toNat (hbound : cursor.toNat + ⌈phase⌉₊ < 2 ^ 64) :
    (UInt64.ofNat ⌊phase⌋₊).toNat = ⌊phase⌋₊ := by
  have hfloor := Nat.floor_le_ceil phase
  rw [UInt64.toNat_ofNat']
  exact Nat.mod_eq_of_lt (by omega)

theorem first_toNat (hbound : cursor.toNat + ⌈phase⌉₊ < 2 ^ 64) :
    (cursor + UInt64.ofNat ⌊phase⌋₊).toNat = cursor.toNat + ⌊phase⌋₊ := by
  have hfloor := Nat.floor_le_ceil phase
  rw [UInt64.toNat_add, whole_toNat hbound]
  exact Nat.mod_eq_of_lt (by omega)

theorem second_toNat (hphase : 0 ≤ phase) (hbound : cursor.toNat + ⌈phase⌉₊ < 2 ^ 64) :
    (cursor + UInt64.ofNat ⌊phase⌋₊ + if phase - (⌊phase⌋₊ : ℚ) > 0 then 1 else 0).toNat =
      cursor.toNat + ⌈phase⌉₊ := by
  have hone := Nat.ceil_le_floor_add_one phase
  obtain hbetween | hon := (Nat.floor_le hphase).lt_or_eq
  · have hceil := Nat.lt_ceil.mpr hbetween
    rw [if_pos (sub_pos.mpr hbetween), UInt64.toNat_add, first_toNat hbound, UInt64.toNat_one]
    omega
  · have hceil := Nat.ceil_le.mpr hon.ge
    have hfloor := Nat.floor_le_ceil phase
    rw [if_neg (by rw [← hon, Nat.floor_natCast, sub_self]; exact lt_irrefl 0), UInt64.add_zero,
      first_toNat hbound]
    omega

theorem ceil_natCast_add (n : ℕ) (hphase : 0 ≤ phase) : ⌈(n : ℚ) + phase⌉₊ = n + ⌈phase⌉₊ := by
  rw [add_comm, Nat.ceil_add_natCast hphase, add_comm]

theorem floor_natCast_add (n : ℕ) (hphase : 0 ≤ phase) : ⌊(n : ℚ) + phase⌋₊ = n + ⌊phase⌋₊ := by
  rw [add_comm, Nat.floor_add_natCast hphase, add_comm]

theorem Spans.go (h : Spans s timeline) (hphase : 0 ≤ phase)
    (hceil : ⌈(s.readCursor.toNat : ℚ) + phase⌉₊ < timeline.length) (n : ℕ) :
    s.dequeueLoop s.readCursor s.highWater step (n + 1) phase =
      { s.dequeueLoop s.readCursor s.highWater step n (phase + step) with
        frames := interpolate timeline (s.readCursor.toNat + phase) ::
          (s.dequeueLoop s.readCursor s.highWater step n (phase + step)).frames } := by
  rw [ceil_natCast_add _ hphase] at hceil
  have hhigh := s.highWater.toNat_lt
  have hlow := h.low
  have hnear := h.near
  have hfloor := Nat.floor_le_ceil phase
  have hbound : s.readCursor.toNat + ⌈phase⌉₊ < 2 ^ 64 := by omega
  have hfirst := first_toNat hbound
  have hsecond := second_toNat hphase hbound
  have hheld₁ := lookup_eq_some_iff.mp (h.held _ (by rw [hfirst]; omega) (by rw [hfirst]; omega))
  have hheld₂ := lookup_eq_some_iff.mp (h.held _ (by rw [hsecond]; omega) (by rw [hsecond]; omega))
  rw [hfirst] at hheld₁
  rw [hsecond] at hheld₂
  rw [dequeueLoop]
  simp only [whole_toNat hbound]
  rw [if_neg, if_neg, if_neg]
  · rw [hheld₁.2, hheld₂.2, interpolate, floor_natCast_add _ hphase, ceil_natCast_add _ hphase]
    congr 3
    push_cast
    ring
  · rw [not_or, not_not, not_not]
    exact ⟨hheld₁.1, hheld₂.1⟩
  · have hle : s.readCursor ≤ s.readCursor + UInt64.ofNat ⌊phase⌋₊ +
        if phase - (⌊phase⌋₊ : ℚ) > 0 then 1 else 0 := by
      rw [UInt64.le_iff_toNat_le, hsecond]
      omega
    rw [ge_iff_le, UInt64.not_le, UInt64.lt_iff_toNat_lt, UInt64.toNat_sub_of_le _ _ hle, hsecond]
    change s.readCursor.toNat + ⌈phase⌉₊ - s.readCursor.toNat < 16384
    omega
  · rw [ge_iff_le, UInt64.not_le, UInt64.lt_iff_toNat_lt, hsecond]
    omega

theorem Spans.stop (h : Spans s timeline) (hphase : 0 ≤ phase)
    (hbound : s.readCursor.toNat + ⌈phase⌉₊ < 2 ^ 64)
    (hceil : ¬ ⌈(s.readCursor.toNat : ℚ) + phase⌉₊ < timeline.length) (n : ℕ) :
    (s.dequeueLoop s.readCursor s.highWater step (n + 1) phase).frames = [] ∧
      (s.dequeueLoop s.readCursor s.highWater step (n + 1) phase).phase = phase := by
  rw [ceil_natCast_add _ hphase] at hceil
  have hhigh := h.high
  rw [dequeueLoop]
  simp only [whole_toNat hbound]
  rw [if_pos]
  · exact ⟨rfl, rfl⟩
  · rw [ge_iff_le, UInt64.le_iff_toNat_le, second_toNat hphase hbound]
    omega

/-- The loop delivers the timeline from the reader on, as far as it reaches. -/
theorem Spans.loop (h : Spans s timeline) (hphase : 0 ≤ phase) (hstep : 0 ≤ step) (n : ℕ)
    (hbound : (s.readCursor.toNat : ℚ) + phase + n * step + 1 < 2 ^ 64) : ∃ m ≤ n,
      (s.dequeueLoop s.readCursor s.highWater step n phase).frames = (List.range m).map
        (fun k : ℕ ↦ interpolate timeline (s.readCursor.toNat + (phase + k * step))) ∧
      (s.dequeueLoop s.readCursor s.highWater step n phase).phase = phase + m * step ∧
      (∀ k < m, ⌈(s.readCursor.toNat : ℚ) + (phase + k * step)⌉₊ < timeline.length) ∧
      (m < n → timeline.length ≤ ⌈(s.readCursor.toNat : ℚ) + (phase + m * step)⌉₊) := by
  induction n generalizing phase with
  | zero =>
    refine ⟨0, le_rfl, rfl, ?_, ?_, ?_⟩
    · rw [Nat.cast_zero, zero_mul, add_zero]
      rfl
    · intro k hk
      exact absurd hk (Nat.not_lt_zero k)
    · intro hlt
      exact absurd hlt (lt_irrefl 0)
  | succ n ih =>
    rw [Nat.cast_succ, add_mul, one_mul] at hbound
    have hrest : 0 ≤ (n : ℚ) * step := mul_nonneg (Nat.cast_nonneg n) hstep
    by_cases hceil : ⌈(s.readCursor.toNat : ℚ) + phase⌉₊ < timeline.length
    · obtain ⟨m, hm, hframes, hphase', harrived, hshort⟩ := ih (add_nonneg hphase hstep) (by linarith)
      have hshift (k : ℕ) : phase + step + k * step = phase + ((k + 1 : ℕ) : ℚ) * step := by
        push_cast
        ring
      simp only [hshift] at hframes hphase' harrived hshort
      refine ⟨m + 1, by omega, ?_, ?_, ?_, ?_⟩
      · rw [h.go hphase hceil, hframes, List.range_succ_eq_map, List.map_cons, List.map_map,
          Nat.cast_zero, zero_mul, add_zero]
        rfl
      · rw [h.go hphase hceil]
        exact hphase'
      · intro k hk
        cases k with
        | zero =>
          rw [Nat.cast_zero, zero_mul, add_zero]
          exact hceil
        | succ k => exact harrived k (by omega)
      · intro hlt
        exact hshort (by omega)
    · have hlast : s.readCursor.toNat + ⌈phase⌉₊ < 2 ^ 64 := by
        have hup := Nat.ceil_lt_add_one hphase
        have hcast : ((s.readCursor.toNat + ⌈phase⌉₊ : ℕ) : ℚ) < ((2 ^ 64 : ℕ) : ℚ) := by
          push_cast
          linarith
        exact_mod_cast hcast
      obtain ⟨hframes, hphase'⟩ := h.stop hphase hlast hceil n
      refine ⟨0, Nat.zero_le _, hframes, ?_, ?_, ?_⟩
      · rw [hphase', Nat.cast_zero, zero_mul, add_zero]
      · intro k hk
        exact absurd hk (Nat.not_lt_zero k)
      · intro _
        rw [Nat.cast_zero, zero_mul, add_zero]
        exact not_lt.mp hceil

structure Moved (s t : NS6TransportShared) (phase fraction : ℚ) : Prop where
  ring : t.toTaggedRing = s.toTaggedRing
  high : t.highWater = s.highWater
  initialized : t.initialized = s.initialized
  unit : 0 ≤ fraction ∧ fraction < 1
  position : t.readCursor.toNat + fraction = s.readCursor.toNat + phase

theorem moved_advance (hphase : 0 ≤ phase) (hbound : s.readCursor.toNat + phase + 1 < 2 ^ 64) :
    Moved s { s with readCursor := s.readCursor + UInt64.ofNat ⌊phase⌋₊ } phase
      (phase - (UInt64.ofNat ⌊phase⌋₊).toNat) := by
  have hceil : s.readCursor.toNat + ⌈phase⌉₊ < 2 ^ 64 := by
    have hup := Nat.ceil_lt_add_one hphase
    have hcast : ((s.readCursor.toNat + ⌈phase⌉₊ : ℕ) : ℚ) < ((2 ^ 64 : ℕ) : ℚ) := by
      push_cast
      linarith
    exact_mod_cast hcast
  have hfloor := Nat.floor_le hphase
  have hup := Nat.lt_floor_add_one phase
  refine ⟨rfl, rfl, rfl, ?_, ?_⟩
  · rw [whole_toNat hceil]
    exact ⟨by linarith, by linarith⟩
  · rw [first_toNat hceil, whole_toNat hceil]
    push_cast
    ring

theorem Moved.cursor_le {t : NS6TransportShared} {fraction : ℚ} (h : Moved s t phase fraction)
    (hphase : 0 ≤ phase) : s.readCursor.toNat ≤ t.readCursor.toNat := by
  have hlt : (s.readCursor.toNat : ℚ) < (t.readCursor.toNat + 1 : ℕ) := by
    have hfraction := h.unit.2
    have hposition := h.position
    push_cast
    linarith
  have hnat : s.readCursor.toNat < t.readCursor.toNat + 1 := by exact_mod_cast hlt
  omega

theorem Spans.moved (h : Spans s timeline) {t : NS6TransportShared} {fraction : ℚ}
    (hm : Moved s t phase fraction) (hphase : 0 ≤ phase) (hinit : s.initialized = true) :
    Spans t timeline := by
  have hle := hm.cursor_le hphase
  refine ⟨?_, ?_, ?_, ?_, ?_⟩
  · rw [hm.high]
    exact h.low
  · have hhigh := h.high
    rw [hm.high]
    omega
  · have hnear := h.near
    omega
  · intro p hp hp'
    rw [hm.ring]
    exact h.held p (hle.trans hp) hp'
  · intro hfalse
    rw [hm.initialized, hinit] at hfalse
    cases hfalse

/-- What `available` counts is what lies between the reader and the end of the timeline. -/
theorem Spans.availableLoop_eq (h : Spans s timeline) (n : ℕ) {count : UInt32}
    (hn : s.readCursor.toNat + count.toNat + n = timeline.length) (hcount : count.toNat + n ≤ 16384) :
    (s.availableLoop s.readCursor n count).toNat = count.toNat + n := by
  induction n generalizing count with
  | zero => rfl
  | succ n ih =>
    have hlt := s.highWater.toNat_lt
    have hlow := h.low
    have hposition : (s.readCursor + count.toUInt64).toNat = s.readCursor.toNat + count.toNat :=
      toNat_add_count (by omega)
    have htag := (lookup_eq_some_iff.mp
      (h.held (s.readCursor + count.toUInt64) (by omega) (by omega))).1
    have hsucc : (count + 1).toNat = count.toNat + 1 := by
      rw [UInt32.toNat_add]
      exact Nat.mod_eq_of_lt (by change count.toNat + 1 < 2 ^ 32; omega)
    rw [availableLoop]
    simp only [if_neg (not_not.mpr htag)]
    rw [ih (by omega) (by omega), hsucc]
    omega

theorem Spans.available_toNat (h : Spans s timeline) :
    s.available.toNat = timeline.length - s.readCursor.toNat := by
  have hlow := h.low
  have hhigh := h.high
  have hnear := h.near
  rw [available]
  by_cases hinit : s.initialized = false
  · rw [if_pos hinit, (h.idle hinit).1, List.length_nil, Nat.zero_sub]
    rfl
  rw [if_neg hinit]
  by_cases hend : s.highWater ≤ s.readCursor
  · have hend' := UInt64.le_iff_toNat_le.mp hend
    have hnone : timeline.length - s.readCursor.toNat = 0 := by omega
    rw [if_pos hend, hnone]
    rfl
  · have hlt := UInt64.lt_iff_toNat_lt.mp (UInt64.not_le.mp hend)
    have hsub : (s.highWater - s.readCursor).toNat = s.highWater.toNat - s.readCursor.toNat :=
      UInt64.toNat_sub_of_le _ _ (UInt64.le_of_lt (UInt64.not_le.mp hend))
    have hring : ringFrames.toNat = 16384 := rfl
    have hfits : ¬ s.highWater - s.readCursor > ringFrames := by
      rw [gt_iff_lt, UInt64.not_lt, UInt64.le_iff_toNat_le, hsub, hring]
      omega
    simp only [if_neg hend, if_neg hfits, hsub]
    have hall : s.readCursor.toNat + (0 : UInt32).toNat + (s.highWater.toNat - s.readCursor.toNat) =
        timeline.length := by
      rw [UInt32.toNat_zero]
      omega
    have hroom : (0 : UInt32).toNat + (s.highWater.toNat - s.readCursor.toNat) ≤ 16384 := by
      rw [UInt32.toNat_zero]
      omega
    rw [h.availableLoop_eq _ hall hroom, UInt32.toNat_zero]
    omega

end Reading

end NumarkNS6.Legacy.NS6TransportShared
