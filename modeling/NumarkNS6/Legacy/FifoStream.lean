import NumarkNS6.Legacy.NS6Transport
import Mathlib.Algebra.Order.Field.Basic
import Mathlib.Data.List.GetD
import Mathlib.Tactic.Linarith
import Mathlib.Tactic.Positivity
import Mathlib.Tactic.Ring

namespace NumarkNS6.Legacy.NS6TransportShared

open Foundation NS6Transport TaggedRing

variable {s : NS6TransportShared}

/-- A reader that is not ahead of its writer, on a timeline that has begun or stands at its start. -/
structure Ordered (s : NS6TransportShared) : Prop where
  cursor_le : s.readCursor ≤ s.highWater
  near : s.highWater.toNat ≤ s.readCursor.toNat + 16384
  idle : s.initialized = false → s.readCursor = s.highWater

theorem Ordered.start_eq (h : Ordered s) :
    (if s.initialized then s else s.startAt s.highWater) = { s with initialized := true } := by
  cases hinit : s.initialized with
  | true =>
    rw [if_pos rfl]
    cases s
    cases hinit
    rfl
  | false => rw [if_neg Bool.false_ne_true, startAt, ← h.idle hinit]

theorem storeFrames_fields (frames : ℕ → Frame) (t : UInt64) (n : ℕ) :
    (s.storeFrames frames t n).readCursor = s.readCursor ∧
      (s.storeFrames frames t n).highWater = s.highWater ∧
      (s.storeFrames frames t n).initialized = s.initialized := by
  induction n with
  | zero => exact ⟨rfl, rfl, rfl⟩
  | succ n ih =>
    rw [storeFrames, List.range_succ, List.foldl_append]
    exact ih

theorem Ordered.enqueueAt_eq (h : Ordered s) (input : Option Bytes) (t : UInt64) (count : UInt32)
    (format : AudioStreamBasicDescription) :
    s.enqueueAt input t count (some format) =
      if (input.isNone ∧ count ≠ 0) ∨ format.valid = false then (false, s)
      else if count = 0 then (true, s)
      else if 2 ^ 64 ≤ s.highWater.toNat + count.toNat then (false, s)
      else if s.readCursor.toNat + 16384 < s.highWater.toNat + count.toNat then
        (false, { s with initialized := true })
      else (true, { ({ s with initialized := true } : NS6TransportShared).storeFrames
          (blockFrame (input.getD fun _ ↦ 0) format) s.highWater count.toNat with
        highWater := s.highWater + count.toUInt64 }) := by
  rw [enqueueAt]
  dsimp only
  by_cases hbad : (input.isNone ∧ count ≠ 0) ∨ format.valid = false
  · rw [if_pos hbad, if_pos hbad]
  rw [if_neg hbad, if_neg hbad]
  by_cases hzero : count = 0
  · rw [if_pos hzero, if_pos hzero]
  rw [if_neg hzero, if_neg hzero]
  by_cases hend : 2 ^ 64 ≤ s.highWater.toNat + count.toNat
  · rw [if_pos ((gt_max_sub_iff _ _).mpr hend), if_pos hend]
  rw [if_neg (mt (gt_max_sub_iff _ _).mp hend), if_neg hend, h.start_eq]
  have hnotbehind : ¬ s.highWater < s.readCursor := UInt64.not_lt.mpr h.cursor_le
  have hpos : 0 < count.toNat := Nat.pos_of_ne_zero fun hz ↦ hzero (UInt32.toNat_inj.mp hz)
  have hcursor := UInt64.le_iff_toNat_le.mp h.cursor_le
  have hlast : ¬ s.highWater + count.toUInt64 ≤ s.readCursor := by
    rw [UInt64.le_iff_toNat_le, toNat_add_count (Nat.not_le.mp hend)]
    omega
  simp only [if_neg hnotbehind, if_neg hlast, UInt32.sub_zero]
  have hskip : s.highWater + UInt32.toUInt64 0 = s.highWater := UInt64.add_zero _
  have hdrop (source : Bytes) : source.drop ((0 : UInt32).toNat * format.bytesPerFrame.toNat) =
      source := by
    funext i
    simp [Bytes.drop]
  have hfar : ¬ s.highWater - s.readCursor > ringFrames := by
    have hnear := h.near
    rw [gt_iff_lt, UInt64.not_lt, UInt64.le_iff_toNat_le,
      UInt64.toNat_sub_of_le _ _ h.cursor_le]
    change s.highWater.toNat - s.readCursor.toNat ≤ 16384
    omega
  simp only [hskip, hdrop, hzero, hfar, false_or, room_iff h.cursor_le h.near]
  by_cases hroom : s.readCursor.toNat + 16384 < s.highWater.toNat + count.toNat
  · rw [if_pos hroom, if_pos hroom]
  · rw [if_neg hroom, if_neg hroom, raiseHighWater, if_pos]
    rw [gt_iff_lt, (storeFrames_fields _ _ _).2.1, UInt64.lt_iff_toNat_lt, toNat_add_count (Nat.not_le.mp hend)]
    dsimp only
    omega

theorem Ordered.enqueue_cases (h : Ordered s) (input : Option Bytes) (count : UInt32)
    (format : Option AudioStreamBasicDescription) :
    s.enqueue input count format = (false, s) ∨
      s.enqueue input count format = (false, { s with initialized := true }) ∨
      (count = 0 ∧ s.enqueue input count format = (true, s)) ∨
      ∃ f, format = some f ∧ s.highWater.toNat + count.toNat < 2 ^ 64 ∧
        s.highWater.toNat + count.toNat ≤ s.readCursor.toNat + 16384 ∧
        s.enqueue input count format =
          (true, { ({ s with initialized := true } : NS6TransportShared).storeFrames
              (blockFrame (input.getD fun _ ↦ 0) f) s.highWater count.toNat with
            highWater := s.highWater + count.toUInt64 }) := by
  cases format with
  | none => exact .inl rfl
  | some f =>
    rw [enqueue, h.enqueueAt_eq]
    by_cases hbad : (input.isNone ∧ count ≠ 0) ∨ f.valid = false
    · exact .inl (if_pos hbad)
    rw [if_neg hbad]
    by_cases hzero : count = 0
    · exact .inr (.inr (.inl ⟨hzero, if_pos hzero⟩))
    rw [if_neg hzero]
    by_cases hend : 2 ^ 64 ≤ s.highWater.toNat + count.toNat
    · exact .inl (if_pos hend)
    rw [if_neg hend]
    by_cases hroom : s.readCursor.toNat + 16384 < s.highWater.toNat + count.toNat
    · exact .inr (.inl (if_pos hroom))
    exact .inr (.inr (.inr ⟨f, rfl, not_le.mp hend, not_lt.mp hroom, if_neg hroom⟩))

/-- The ring holds the newest frames of a block and, as far as they reach, those before it. -/
theorem lookup_storeFrames (frames : ℕ → Frame) (t : UInt64) (n : ℕ)
    (hn : t.toNat + n ≤ 2 ^ 64) {p : UInt64} (hp : p.toNat < t.toNat + n)
    (hp' : t.toNat + n ≤ p.toNat + 16384) :
    (s.storeFrames frames t n).lookup p =
      if p.toNat < t.toNat then s.lookup p else some (frames (p.toNat - t.toNat)) := by
  induction n with
  | zero =>
    rw [if_pos (by omega)]
    rfl
  | succ n ih =>
    have hlast : (t + UInt64.ofNat n).toNat = t.toNat + n := toNat_add_ofNat (by omega)
    rw [storeFrames, List.range_succ, List.foldl_append]
    change ((s.storeFrames frames t n).toTaggedRing.store _ _).lookup p = _
    by_cases heq : p = t + UInt64.ofNat n
    · rw [heq, lookup_store_self, hlast, if_neg (by omega), Nat.add_sub_cancel_left]
    · have hne : p.toNat ≠ t.toNat + n := by
        rw [← hlast]
        exact fun he ↦ heq (UInt64.toNat_inj.mp he)
      have hslot : slot 16384 p ≠ slot 16384 (t + UInt64.ofNat n) := by
        intro hs
        exact heq (eq_of_slot_eq hs le_rfl (by omega) (by rw [hlast]; omega) (by rw [hlast]; omega))
      rw [lookup_store_of_slot_ne hslot]
      exact ih (by omega) (by omega) (by omega)

def interpolate (source : List Frame) (position : ℚ) : Frame :=
  interpolateFrame (source.getD ⌊position⌋₊ silence) (source.getD ⌈position⌉₊ silence)
    (position - ⌊position⌋₊)

def positions (length : ℕ) (step : ℚ) : ℕ :=
  if length = 0 then 0 else ⌊((length - 1 : ℕ) : ℚ) / step⌋₊ + 1

/-- The source interpolated as a whole at `0, step, 2 * step, ...`. -/
def resample (source : List Frame) (step : ℚ) : List Frame :=
  (List.range (positions source.length step)).map fun k : ℕ ↦ interpolate source (k * step)

theorem lt_positions_iff {step : ℚ} (hstep : 0 < step) (length k : ℕ) :
    k < positions length step ↔ ⌈(k : ℚ) * step⌉₊ < length := by
  rw [positions]
  split_ifs with hzero
  · simp only [hzero, Nat.not_lt_zero]
  · have hnonneg : (0 : ℚ) ≤ ((length - 1 : ℕ) : ℚ) / step := by positivity
    rw [Nat.lt_succ_iff, Nat.le_floor_iff hnonneg, le_div_iff₀ hstep, ← Nat.ceil_le]
    omega

theorem interpolate_append {source : List Frame} {position : ℚ} (h : ⌈position⌉₊ < source.length)
    (more : List Frame) : interpolate (source ++ more) position = interpolate source position := by
  have hfloor : ⌊position⌋₊ < source.length := (Nat.floor_le_ceil position).trans_lt h
  rw [interpolate, interpolate, List.getD_append _ _ _ _ hfloor, List.getD_append _ _ _ _ h]

def Holds (s : NS6TransportShared) (source : List Frame) : Prop :=
  ∀ p : UInt64, p.toNat < source.length → source.length ≤ p.toNat + 16384 →
    s.lookup p = some (source.getD p.toNat silence)

/-- The position one past a source that fills the timeline is not in the ring, although
its slot was marked with just that number before it was first written. -/
theorem Holds.lookup_end {source : List Frame} (h : Holds s source) {p : UInt64}
    (hp : p.toNat = source.length) (hfull : source.length = 2 ^ 64 - 1) : s.lookup p = none := by
  have hold : (p - 16384).toNat = p.toNat - 16384 := by
    rw [UInt64.toNat_sub_of_le]
    · rfl
    · rw [UInt64.le_iff_toNat_le]
      change 16384 ≤ p.toNat
      omega
  have hheld := h (p - 16384) (by omega) (by omega)
  refine lookup_eq_none_of_slot_eq hheld (slot_of_add_period (by omega)) ?_
  intro heq
  have := congrArg UInt64.toNat heq
  omega

section Loop

variable {source : List Frame} {cursor last : UInt64} {step phase : ℚ}

structure Pass (s : NS6TransportShared) (source : List Frame) (cursor last : UInt64) (phase : ℚ) :
    Prop where
  held : Holds s source
  last_eq : last.toNat = source.length
  near : source.length ≤ cursor.toNat + 16384
  nonneg : 0 ≤ phase
  reached : cursor.toNat + ⌊phase⌋₊ ≤ source.length

theorem Pass.whole_toNat (h : Pass s source cursor last phase) :
    (UInt64.ofNat ⌊phase⌋₊).toNat = ⌊phase⌋₊ := by
  have hlast := last.toNat_lt
  have hreached := h.reached
  rw [h.last_eq] at hlast
  rw [UInt64.toNat_ofNat']
  exact Nat.mod_eq_of_lt (by omega)

theorem Pass.first_toNat (h : Pass s source cursor last phase) :
    (cursor + UInt64.ofNat ⌊phase⌋₊).toNat = cursor.toNat + ⌊phase⌋₊ := by
  have hlast := last.toNat_lt
  have hreached := h.reached
  rw [h.last_eq] at hlast
  rw [UInt64.toNat_add, h.whole_toNat]
  exact Nat.mod_eq_of_lt (by omega)

theorem Pass.ceil_add (h : Pass s source cursor last phase) :
    ⌈(cursor.toNat : ℚ) + phase⌉₊ = cursor.toNat + ⌈phase⌉₊ := by
  rw [add_comm, Nat.ceil_add_natCast h.nonneg, add_comm]

theorem Pass.floor_add (h : Pass s source cursor last phase) :
    ⌊(cursor.toNat : ℚ) + phase⌋₊ = cursor.toNat + ⌊phase⌋₊ := by
  rw [add_comm, Nat.floor_add_natCast h.nonneg, add_comm]

theorem Pass.second_toNat (h : Pass s source cursor last phase)
    (hlt : cursor.toNat + ⌈phase⌉₊ < 2 ^ 64) :
    (cursor + UInt64.ofNat ⌊phase⌋₊ + if phase - (⌊phase⌋₊ : ℚ) > 0 then 1 else 0).toNat =
      cursor.toNat + ⌈phase⌉₊ := by
  have hfloor := Nat.floor_le_ceil phase
  have hone := Nat.ceil_le_floor_add_one phase
  obtain hbetween | hon := (Nat.floor_le h.nonneg).lt_or_eq
  · have hceil := Nat.lt_ceil.mpr hbetween
    rw [if_pos (sub_pos.mpr hbetween), UInt64.toNat_add, h.first_toNat, UInt64.toNat_one]
    omega
  · have hceil := Nat.ceil_le.mpr hon.ge
    rw [if_neg (by rw [← hon, Nat.floor_natCast, sub_self]; exact lt_irrefl 0), UInt64.add_zero,
      h.first_toNat]
    omega

theorem Pass.go (h : Pass s source cursor last phase)
    (hceil : ⌈(cursor.toNat : ℚ) + phase⌉₊ < source.length) (n : ℕ) :
    s.dequeueLoop cursor last step (n + 1) phase =
      { s.dequeueLoop cursor last step n (phase + step) with
        frames := interpolate source (cursor.toNat + phase) ::
          (s.dequeueLoop cursor last step n (phase + step)).frames } := by
  rw [h.ceil_add] at hceil
  have hlast := last.toNat_lt
  have hnear := h.near
  have hfloor := Nat.floor_le_ceil phase
  rw [h.last_eq] at hlast
  have hfirst := h.first_toNat
  have hsecond := h.second_toNat (by omega)
  have hheld₁ := lookup_eq_some_iff.mp (h.held _ (by rw [hfirst]; omega) (by rw [hfirst]; omega))
  have hheld₂ := lookup_eq_some_iff.mp (h.held _ (by rw [hsecond]; omega) (by rw [hsecond]; omega))
  rw [hfirst] at hheld₁
  rw [hsecond] at hheld₂
  rw [dequeueLoop]
  simp only [h.whole_toNat]
  rw [if_neg, if_neg, if_neg]
  · rw [hheld₁.2, hheld₂.2, interpolate, h.floor_add, h.ceil_add]
    congr 3
    push_cast
    ring
  · rw [not_or, not_not, not_not]
    exact ⟨hheld₁.1, hheld₂.1⟩
  · have hle : cursor ≤ cursor + UInt64.ofNat ⌊phase⌋₊ +
        if phase - (⌊phase⌋₊ : ℚ) > 0 then 1 else 0 := by
      rw [UInt64.le_iff_toNat_le, hsecond]
      omega
    rw [ge_iff_le, UInt64.not_le, UInt64.lt_iff_toNat_lt, UInt64.toNat_sub_of_le _ _ hle, hsecond]
    change cursor.toNat + ⌈phase⌉₊ - cursor.toNat < 16384
    omega
  · rw [ge_iff_le, UInt64.not_le, UInt64.lt_iff_toNat_lt, hsecond, h.last_eq]
    exact hceil

theorem Pass.stop (h : Pass s source cursor last phase)
    (hceil : ¬ ⌈(cursor.toNat : ℚ) + phase⌉₊ < source.length) (n : ℕ) :
    (s.dequeueLoop cursor last step (n + 1) phase).frames = [] ∧
      (s.dequeueLoop cursor last step (n + 1) phase).phase = phase := by
  rw [h.ceil_add] at hceil
  have hlast := last.toNat_lt
  have hreached := h.reached
  rw [h.last_eq] at hlast
  have hone := Nat.ceil_le_floor_add_one phase
  rw [dequeueLoop]
  simp only [h.whole_toNat]
  by_cases hwrap : cursor.toNat + ⌈phase⌉₊ < 2 ^ 64
  · rw [if_pos]
    · exact ⟨rfl, rfl⟩
    · rw [ge_iff_le, UInt64.le_iff_toNat_le, h.second_toNat hwrap, h.last_eq]
      omega
  · -- the second position wraps to zero; the first one is the end of the timeline
    have hnone := h.held.lookup_end (p := cursor + UInt64.ofNat ⌊phase⌋₊)
      (by rw [h.first_toNat]; omega) (by omega)
    have htag := lookup_eq_none_iff.mp hnone
    generalize cursor + UInt64.ofNat ⌊phase⌋₊ +
      (if phase - (⌊phase⌋₊ : ℚ) > 0 then 1 else 0) = second
    split_ifs
    · exact ⟨rfl, rfl⟩
    · exact ⟨rfl, rfl⟩
    · exact ⟨rfl, rfl⟩
    · next hboth => exact absurd (.inl htag) hboth

theorem Pass.next (h : Pass s source cursor last phase) (hs : 1 / 2 ≤ step) (hs' : step ≤ 3 / 2)
    (hceil : ⌈(cursor.toNat : ℚ) + phase⌉₊ < source.length) :
    Pass s source cursor last (phase + step) := by
  rw [h.ceil_add] at hceil
  have hnonneg := h.nonneg
  have hle := Nat.le_ceil phase
  have hfloor : ⌊phase + step⌋₊ < ⌈phase⌉₊ + 2 := by
    rw [Nat.floor_lt' (by omega)]
    push_cast
    linarith
  exact ⟨h.held, h.last_eq, h.near, by linarith, by omega⟩

/-- The loop delivers the source from its position on, as far as it has arrived. -/
theorem Pass.loop (h : Pass s source cursor last phase) (hs : 1 / 2 ≤ step) (hs' : step ≤ 3 / 2)
    (n : ℕ) : ∃ m ≤ n,
      (s.dequeueLoop cursor last step n phase).frames =
        (List.range m).map (fun k : ℕ ↦ interpolate source (cursor.toNat + (phase + k * step))) ∧
      (s.dequeueLoop cursor last step n phase).phase = phase + m * step ∧
      (∀ k < m, ⌈(cursor.toNat : ℚ) + (phase + k * step)⌉₊ < source.length) ∧
      Pass s source cursor last (phase + m * step) ∧
      (m < n → source.length ≤ ⌈(cursor.toNat : ℚ) + (phase + m * step)⌉₊) := by
  induction n generalizing phase with
  | zero =>
    refine ⟨0, le_rfl, rfl, ?_, ?_, ?_, ?_⟩
    · rw [Nat.cast_zero, zero_mul, add_zero]
      rfl
    · intro k hk
      exact absurd hk (Nat.not_lt_zero k)
    · rw [Nat.cast_zero, zero_mul, add_zero]
      exact h
    · intro hlt
      exact absurd hlt (lt_irrefl 0)
  | succ n ih =>
    by_cases hceil : ⌈(cursor.toNat : ℚ) + phase⌉₊ < source.length
    · obtain ⟨m, hm, hframes, hphase, harrived, hpass, hshort⟩ := ih (h.next hs hs' hceil)
      have hshift (k : ℕ) : phase + step + k * step = phase + ((k + 1 : ℕ) : ℚ) * step := by
        push_cast
        ring
      simp only [hshift] at hframes hphase harrived hpass hshort
      refine ⟨m + 1, by omega, ?_, ?_, ?_, hpass, ?_⟩
      · rw [h.go hceil, hframes, List.range_succ_eq_map, List.map_cons, List.map_map, Nat.cast_zero,
          zero_mul, add_zero]
        rfl
      · rw [h.go hceil]
        exact hphase
      · intro k hk
        cases k with
        | zero =>
          rw [Nat.cast_zero, zero_mul, add_zero]
          exact hceil
        | succ k => exact harrived k (by omega)
      · intro hlt
        exact hshort (by omega)
    · obtain ⟨hframes, hphase⟩ := h.stop hceil n
      refine ⟨0, Nat.zero_le _, hframes, ?_, ?_, ?_, ?_⟩
      · rw [hphase, Nat.cast_zero, zero_mul, add_zero]
      · intro k hk
        exact absurd hk (Nat.not_lt_zero k)
      · rw [Nat.cast_zero, zero_mul, add_zero]
        exact h
      · intro _
        rw [Nat.cast_zero, zero_mul, add_zero]
        exact not_lt.mp hceil

end Loop

structure Fifo where
  shared : NS6TransportShared
  readFraction : ℚ
  accepted : List Frame
  output : List Frame

namespace Fifo

inductive Call
  | enqueue (input : Option Bytes) (count : UInt32) (format : Option AudioStreamBasicDescription)
  | dequeue (outputFrames : UInt32)

def block (input : Option Bytes) (count : UInt32) : Option AudioStreamBasicDescription → List Frame
  | none => []
  | some format => (List.range count.toNat).map (blockFrame (input.getD fun _ ↦ 0) format)

def start (memory : NS6TransportShared) : Fifo := ⟨memory.init, 0, [], []⟩

def call (step : ℚ) (s : Fifo) : Call → Fifo
  | .enqueue input count format =>
    let r := s.shared.enqueue input count format
    { s with
      shared := r.2
      accepted := s.accepted ++ if r.1 then block input count format else [] }
  | .dequeue outputFrames =>
    let r := s.shared.dequeueResampled s.readFraction outputFrames step
    { s with shared := r.2.2.1, readFraction := r.2.2.2, output := s.output ++ r.1 }

def after (step : ℚ) (memory : NS6TransportShared) (calls : List Call) : Fifo :=
  calls.foldl (call step) (start memory)

/-- The ring has the newest frames of the stream, and the reader stands where
the frames delivered so far end. -/
structure Streams (step : ℚ) (s : Fifo) : Prop where
  high : s.shared.highWater.toNat = s.accepted.length
  cursor_le : s.shared.readCursor.toNat ≤ s.accepted.length
  near : s.accepted.length ≤ s.shared.readCursor.toNat + 16384
  idle : s.shared.initialized = false → s.accepted = []
  held : Holds s.shared s.accepted
  fraction : 0 ≤ s.readFraction ∧ s.readFraction < 1
  position : s.shared.readCursor.toNat + s.readFraction = s.output.length * step
  arrived : ∀ k < s.output.length, ⌈(k : ℚ) * step⌉₊ < s.accepted.length
  output : s.output = (List.range s.output.length).map fun k : ℕ ↦ interpolate s.accepted (k * step)

variable {step : ℚ} {s : Fifo}

theorem start_streams (memory : NS6TransportShared) : Streams step (start memory) where
  high := rfl
  cursor_le := le_rfl
  near := Nat.zero_le _
  idle _ := rfl
  held p hp _ := absurd hp (Nat.not_lt_zero _)
  fraction := ⟨le_rfl, zero_lt_one⟩
  position := by simp [start, NS6TransportShared.init]
  arrived k hk := absurd hk (Nat.not_lt_zero k)
  output := rfl

theorem Streams.ordered (h : Streams step s) : Ordered s.shared where
  cursor_le := by
    rw [UInt64.le_iff_toNat_le, h.high]
    exact h.cursor_le
  near := by
    rw [h.high]
    exact h.near
  idle hinit := by
    have hcursor := h.cursor_le
    have hhigh := h.high
    rw [h.idle hinit, List.length_nil] at hcursor hhigh
    rw [← UInt64.toNat_inj]
    omega

theorem Streams.begin (h : Streams step s) :
    Streams step { s with shared := { s.shared with initialized := true } } :=
  ⟨h.high, h.cursor_le, h.near, fun hinit ↦ Bool.noConfusion hinit, h.held, h.fraction, h.position,
    h.arrived, h.output⟩

theorem block_length (input : Option Bytes) (count : UInt32) (format : AudioStreamBasicDescription) :
    (block input count (some format)).length = count.toNat := by
  rw [block, List.length_map, List.length_range]

theorem Streams.append (h : Streams step s) (input : Option Bytes) {count : UInt32}
    (format : AudioStreamBasicDescription)
    (hend : s.shared.highWater.toNat + count.toNat < 2 ^ 64)
    (hroom : s.shared.highWater.toNat + count.toNat ≤ s.shared.readCursor.toNat + 16384) :
    Streams step { s with
      shared := { ({ s.shared with initialized := true } : NS6TransportShared).storeFrames
          (blockFrame (input.getD fun _ ↦ 0) format) s.shared.highWater count.toNat with
        highWater := s.shared.highWater + count.toUInt64 }
      accepted := s.accepted ++ block input count (some format) } := by
  obtain ⟨hcursor, -, hinit⟩ := storeFrames_fields
    (s := { s.shared with initialized := true }) (blockFrame (input.getD fun _ ↦ 0) format)
    s.shared.highWater count.toNat
  have hhigh := h.high
  have hlength : (s.accepted ++ block input count (some format)).length =
      s.accepted.length + count.toNat := by
    rw [List.length_append, block_length]
  have hle := h.cursor_le
  refine ⟨?_, ?_, ?_, ?_, ?_, h.fraction, ?_, ?_, ?_⟩
  · rw [hlength, toNat_add_count hend, hhigh]
  · simp only [hcursor, hlength]
    omega
  · simp only [hcursor, hlength]
    omega
  · simp only [hinit]
    exact fun hfalse ↦ Bool.noConfusion hfalse
  · intro p hp hp'
    rw [hlength] at hp hp'
    have hlookup := lookup_storeFrames (s := { s.shared with initialized := true })
      (blockFrame (input.getD fun _ ↦ 0) format) s.shared.highWater count.toNat hend.le
      (p := p) (by omega) (by omega)
    refine hlookup.trans ?_
    by_cases hold : p.toNat < s.accepted.length
    · rw [if_pos (by omega), List.getD_append _ _ _ _ hold]
      exact h.held p hold (by omega)
    · have hnew : p.toNat - s.accepted.length < count.toNat := by omega
      rw [if_neg (by omega), List.getD_append_right _ _ _ _ (not_lt.mp hold), hhigh, block,
        List.getD_eq_getElem?_getD, List.getElem?_map, List.getElem?_range hnew]
      rfl
  · simp only [hcursor]
    exact h.position
  · intro k hk
    rw [hlength]
    exact (h.arrived k hk).trans_le (Nat.le_add_right _ _)
  · conv_lhs => rw [h.output]
    refine List.map_congr_left fun k hk ↦ ?_
    exact (interpolate_append (h.arrived k (List.mem_range.mp hk)) _).symm

theorem Streams.enqueue (h : Streams step s) (input : Option Bytes) (count : UInt32)
    (format : Option AudioStreamBasicDescription) :
    Streams step (call step s (.enqueue input count format)) := by
  rw [call]
  obtain heq | heq | ⟨rfl, heq⟩ | ⟨f, rfl, hend, hroom, heq⟩ :=
    h.ordered.enqueue_cases input count format
  · rw [heq]
    simpa only [Bool.false_eq_true, if_false, List.append_nil] using h
  · rw [heq]
    simpa only [Bool.false_eq_true, if_false, List.append_nil] using h.begin
  · have hempty : block input 0 format = [] := by cases format <;> rfl
    rw [heq, hempty]
    simpa only [if_true, List.append_nil] using h
  · rw [heq]
    exact h.append input f hend hroom

theorem Streams.refused (h : Streams step s) (input : Option Bytes) (count : UInt32)
    (format : Option AudioStreamBasicDescription)
    (hrefused : (s.shared.enqueue input count format).1 = false) :
    (s.shared.enqueue input count format).2 = { s.shared with
      initialized := (s.shared.enqueue input count format).2.initialized } := by
  obtain heq | heq | ⟨-, heq⟩ | ⟨f, -, -, -, heq⟩ := h.ordered.enqueue_cases input count format
  · rw [heq]
  · rw [heq]
  · rw [heq] at hrefused
    cases hrefused
  · rw [heq] at hrefused
    cases hrefused

theorem Streams.position_add (h : Streams step s) (k : ℕ) :
    s.shared.readCursor.toNat + (s.readFraction + k * step) =
      ((s.output.length + k : ℕ) : ℚ) * step := by
  rw [← add_assoc, h.position]
  push_cast
  ring

theorem Streams.pass (h : Streams step s) :
    Pass s.shared s.accepted s.shared.readCursor s.shared.highWater s.readFraction where
  held := h.held
  last_eq := h.high
  near := h.near
  nonneg := h.fraction.1
  reached := by
    rw [Nat.floor_eq_zero.mpr h.fraction.2]
    exact h.cursor_le

theorem usableStep_eq (hs : 1 / 2 ≤ step) (hs' : step ≤ 3 / 2) : usableStep step = step := by
  rw [usableStep, if_neg]
  rw [not_or, not_lt, gt_iff_lt, not_lt]
  exact ⟨hs, hs'⟩

/-- A read goes on where the last one ended, and stops early only at the end of the stream. -/
theorem Streams.dequeue (h : Streams step s) (hs : 1 / 2 ≤ step) (hs' : step ≤ 3 / 2)
    (outputFrames : UInt32) : Streams step (call step s (.dequeue outputFrames)) ∧
      (s.shared.initialized = true →
        (call step s (.dequeue outputFrames)).output.length < s.output.length + outputFrames.toNat →
        s.accepted.length ≤ ⌈((call step s (.dequeue outputFrames)).output.length : ℚ) * step⌉₊) := by
  simp only [call, dequeueResampled]
  by_cases hidle : outputFrames = 0 ∨ s.shared.initialized = false
  · simp only [if_pos hidle, List.append_nil]
    refine ⟨h, ?_⟩
    intro hinit hshort
    rcases hidle with hzero | hfalse
    · rw [hzero, UInt32.toNat_zero] at hshort
      omega
    · rw [hfalse] at hinit
      cases hinit
  · simp only [if_neg hidle, usableStep_eq hs hs']
    obtain ⟨m, hm, hframes, hphase, harrived, hpass, hshort⟩ := h.pass.loop hs hs' outputFrames.toNat
    simp only [h.position_add] at hframes harrived hshort
    rw [hframes, hphase, hpass.whole_toNat]
    have hlength : (s.output ++ (List.range m).map fun k : ℕ ↦
        interpolate s.accepted (((s.output.length + k : ℕ) : ℚ) * step)).length =
        s.output.length + m := by
      rw [List.length_append, List.length_map, List.length_range]
    have hcursor := hpass.first_toNat
    have hreached := hpass.reached
    have hnear := h.near
    have hfloor := Nat.floor_le hpass.nonneg
    have hceil := Nat.lt_floor_add_one (s.readFraction + m * step)
    refine ⟨⟨h.high, ?_, ?_, h.idle, h.held, ⟨by linarith, by linarith⟩, ?_, ?_, ?_⟩, ?_⟩
    · simp only [hcursor]
      exact hreached
    · simp only [hcursor]
      omega
    · simp only [hcursor, hlength]
      rw [← h.position_add m]
      push_cast
      ring
    · intro k hk
      rw [hlength] at hk
      by_cases hold : k < s.output.length
      · exact h.arrived k hold
      · obtain ⟨j, rfl⟩ := Nat.exists_eq_add_of_le (not_lt.mp hold)
        exact harrived j (by omega)
    · simp only [hlength]
      rw [List.range_add, List.map_append, List.map_map, ← h.output]
      rfl
    · intro _ hless
      rw [hlength] at hless ⊢
      exact hshort (by omega)

section Steps

variable (hs : 1 / 2 ≤ step) (hs' : step ≤ 3 / 2)
include hs

theorem Streams.isPrefix (h : Streams step s) : s.output <+: resample s.accepted step := by
  have hstep : 0 < step := by linarith
  have hle : s.output.length ≤ positions s.accepted.length step := by
    by_contra hlt
    have hlast := h.arrived (positions s.accepted.length step) (not_le.mp hlt)
    exact absurd ((lt_positions_iff hstep _ _).mpr hlast) (lt_irrefl _)
  obtain ⟨more, hmore⟩ := Nat.exists_eq_add_of_le hle
  rw [resample, hmore, List.range_add, List.map_append, ← h.output]
  exact List.prefix_append _ _

include hs'

theorem after_streams (memory : NS6TransportShared) (calls : List Call) :
    Streams step (after step memory calls) := by
  induction calls using List.reverseRecOn with
  | nil => exact start_streams memory
  | append_singleton calls c ih =>
    rw [after, List.foldl_append]
    cases c with
    | enqueue input count format => exact ih.enqueue input count format
    | dequeue outputFrames => exact (ih.dequeue hs hs' outputFrames).1

/-- A read that falls short has delivered the whole interpolation of what has arrived. -/
theorem short_read_delivers_all (memory : NS6TransportShared) (calls : List Call)
    (outputFrames : UInt32) (hinit : (after step memory calls).shared.initialized = true)
    (hshort : (call step (after step memory calls) (.dequeue outputFrames)).output.length <
      (after step memory calls).output.length + outputFrames.toNat) :
    (call step (after step memory calls) (.dequeue outputFrames)).output =
      resample (after step memory calls).accepted step := by
  obtain ⟨h', hend⟩ := (after_streams hs hs' memory calls).dequeue hs hs' outputFrames
  refine (h'.isPrefix hs).eq_of_length_le ?_
  rw [resample, List.length_map, List.length_range]
  by_contra hlt
  have hmore := (lt_positions_iff (by linarith : 0 < step) _ _).mp (not_le.mp hlt)
  exact absurd hmore (not_lt.mpr (hend hinit hshort))

/-- The reader's output depends on the frames accepted and on nothing else: it is
as much as has been asked for of the one interpolation of the whole stream. -/
theorem fifo_reader_streams (memory : NS6TransportShared) (calls : List Call) :
    (after step memory calls).shared.readCursor ≤ (after step memory calls).shared.highWater ∧
      (after step memory calls).shared.highWater.toNat ≤
        (after step memory calls).shared.readCursor.toNat + 16384 ∧
      (∀ input count format,
        ((after step memory calls).shared.enqueue input count format).1 = false →
        ((after step memory calls).shared.enqueue input count format).2 =
          { (after step memory calls).shared with
            initialized := ((after step memory calls).shared.enqueue input count format).2.initialized }) ∧
      (after step memory calls).output <+: resample (after step memory calls).accepted step ∧
      ∀ memory' calls', (after step memory' calls').accepted = (after step memory calls).accepted →
        (after step memory' calls').output <+: (after step memory calls).output ∨
          (after step memory calls).output <+: (after step memory' calls').output := by
  have h := after_streams hs hs' memory calls
  refine ⟨h.ordered.cursor_le, h.ordered.near, h.refused, h.isPrefix hs, ?_⟩
  intro memory' calls' hsame
  have h' := (after_streams hs hs' memory' calls').isPrefix hs
  rw [hsame] at h'
  exact List.prefix_or_prefix_of_prefix h' (h.isPrefix hs)

end Steps

def twoBlocks : List Call :=
  let enqueue : Call := .enqueue (some fun i ↦ if i % 3 = 0 then UInt8.ofNat i else 0) 2
    (some ⟨0, 12, 4, 24⟩)
  [enqueue, .dequeue 4, enqueue, .dequeue 4]

theorem fifo_reader_streams_two_blocks :
    (after (3 / 2) zeroed twoBlocks).output.map (fun frame ↦ unpack24 (frame 0)) = [0, 6, 12] ∧
      (after (3 / 2) zeroed twoBlocks).output <+:
        resample (after (3 / 2) zeroed twoBlocks).accepted (3 / 2) :=
  ⟨by decide +kernel,
    (fifo_reader_streams (by norm_num) (by norm_num) zeroed twoBlocks).2.2.2.1⟩

end Fifo

end NumarkNS6.Legacy.NS6TransportShared
