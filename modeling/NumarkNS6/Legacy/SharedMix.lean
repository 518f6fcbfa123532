import NumarkNS6.Foundation.Runs
import NumarkNS6.Legacy.NS6Transport
import Mathlib.Tactic.Ring

namespace NumarkNS6.Legacy.NS6TransportShared

open Foundation Foundation.Runs NS6Transport TaggedRing

def framesAt (p : UInt64) (mixed : List (UInt64 × Frame)) : List Frame :=
  (mixed.filter (·.1 = p)).map (·.2)

def accumulate (frames : List Frame) : Frame := frames.foldl mixSamples silence

def heard (frames : List Frame) : Option Frame :=
  if frames = [] then none else some (accumulate frames)

variable {s : NS6TransportShared} {mixed : List (UInt64 × Frame)}

theorem heard_getD (frames : List Frame) : (heard frames).getD silence = accumulate frames := by
  rw [heard]
  split_ifs with hnil
  · rw [hnil]
    rfl
  · rfl

theorem heard_concat (frames : List Frame) (frame : Frame) :
    heard (frames ++ [frame]) = some (mixSamples (accumulate frames) frame) := by
  rw [heard, if_neg (List.append_ne_nil_of_right_ne_nil _ (List.cons_ne_nil _ _)), accumulate,
    List.foldl_append]
  rfl

theorem framesAt_append (p : UInt64) (mixed more : List (UInt64 × Frame)) :
    framesAt p (mixed ++ more) = framesAt p mixed ++ framesAt p more := by
  rw [framesAt, List.filter_append, List.map_append]
  rfl

theorem framesAt_self (p : UInt64) (frame : Frame) : framesAt p [(p, frame)] = [frame] := by
  simp [framesAt]

theorem framesAt_of_ne {p q : UInt64} (h : q ≠ p) (frame : Frame) : framesAt p [(q, frame)] = [] := by
  simp [framesAt, h]

/-- In the window from the cursor on, the ring holds what has been mixed since the
timeline began, and nothing else. -/
structure Sounds (s : NS6TransportShared) (mixed : List (UInt64 × Frame)) : Prop where
  cursor_le : s.readCursor.toNat ≤ s.highWater.toNat
  early : s.highWater.toNat ≤ 2 ^ 63 + 2 ^ 32
  held : ∀ p : UInt64, s.readCursor.toNat ≤ p.toNat → p.toNat < s.readCursor.toNat + 16384 →
    s.lookup p = heard (framesAt p mixed)
  near : ∀ c ∈ mixed, c.1.toNat < s.readCursor.toNat + 16384

theorem Sounds.mixFrame (h : Sounds s mixed) {p : UInt64} (hp : s.readCursor.toNat ≤ p.toNat)
    (hp' : p.toNat < s.readCursor.toNat + 16384) (frame : Frame) :
    Sounds (s.mixFrame p frame) (mixed ++ [(p, frame)]) := by
  rw [mixFrame_eq]
  refine ⟨h.cursor_le, h.early, ?_, ?_⟩
  · intro q hq hq'
    change (s.toTaggedRing.store p _).lookup q = _
    rw [framesAt_append]
    by_cases hqp : q = p
    · rw [hqp, lookup_store_self, h.held p hp hp', heard_getD, framesAt_self, heard_concat]
    · have hslot : slot 16384 q ≠ slot 16384 p :=
        fun hs ↦ hqp (eq_of_slot_eq hs hq hq' hp hp')
      rw [lookup_store_of_slot_ne hslot, framesAt_of_ne (Ne.symm hqp), List.append_nil]
      exact h.held q hq hq'
  · intro c hc
    rcases List.mem_append.mp hc with hc | hc
    · exact h.near c hc
    · rw [List.mem_singleton.mp hc]
      exact hp'

def placed (frames : ℕ → Frame) (t : UInt64) (n : ℕ) : List (UInt64 × Frame) :=
  (List.range n).map fun i ↦ (t + UInt64.ofNat i, frames i)

theorem placed_succ (frames : ℕ → Frame) (t : UInt64) (n : ℕ) :
    placed frames t (n + 1) = placed frames t n ++ [(t + UInt64.ofNat n, frames n)] := by
  rw [placed, List.range_succ, List.map_append]
  rfl

theorem Sounds.mixFrames (h : Sounds s mixed) (frames : ℕ → Frame) {t : UInt64} {n : ℕ}
    (ht : s.readCursor.toNat ≤ t.toNat) (hn : t.toNat + n ≤ s.readCursor.toNat + 16384) :
    Sounds (s.mixFrames frames t n) (mixed ++ placed frames t n) := by
  have hcursor := h.cursor_le
  have hearly := h.early
  induction n with
  | zero =>
    rw [placed, List.range_zero, List.map_nil, List.append_nil]
    exact h
  | succ n ih =>
    have hfields := (mixFrames_fields (s := s) frames t n).1
    have hpos : (t + UInt64.ofNat n).toNat = t.toNat + n := toNat_add_ofNat (by omega)
    rw [mixFrames_succ, placed_succ, ← List.append_assoc]
    refine (ih (by omega)).mixFrame ?_ ?_ _
    · rw [hfields, hpos]
      omega
    · rw [hfields, hpos]
      omega

theorem Sounds.raiseHighWater (h : Sounds s mixed) {last : UInt64}
    (hlast : last.toNat ≤ 2 ^ 63 + 2 ^ 32) : Sounds (s.raiseHighWater last) mixed := by
  have hcursor := h.cursor_le
  have hearly := h.early
  have hmax := raiseHighWater_toNat (s := s) last
  refine ⟨?_, ?_, ?_, ?_⟩
  · rw [hmax, raiseHighWater_eq]
    dsimp only
    omega
  · rw [hmax]
    omega
  · rw [raiseHighWater_eq]
    exact h.held
  · rw [raiseHighWater_eq]
    exact h.near

theorem Sounds.mixAligned (h : Sounds s mixed) (frames : ℕ → Frame) {t : UInt64} {count : UInt32}
    (ht : s.readCursor ≤ t) (hend : t.toNat + count.toNat ≤ 2 ^ 63 + 2 ^ 32) :
    Sounds (s.mixAligned frames t count).2
      (mixed ++ if (s.mixAligned frames t count).1 then placed frames t count.toNat else []) ∧
      (s.mixAligned frames t count).2.readCursor = s.readCursor ∧
      (s.mixAligned frames t count).2.initialized = s.initialized := by
  rw [mixAligned_eq ht]
  by_cases hfits : t.toNat < s.readCursor.toNat + 16384 ∧
      t.toNat + count.toNat ≤ s.readCursor.toNat + 16384
  · rw [if_pos hfits, if_pos rfl]
    obtain ⟨hcursor, -, hinit⟩ := mixFrames_fields (s := s) frames t count.toNat
    refine ⟨?_, ?_, ?_⟩
    · apply (h.mixFrames frames (UInt64.le_iff_toNat_le.mp ht) hfits.2).raiseHighWater
      rw [toNat_add_count (by omega)]
      exact hend
    · rw [raiseHighWater_eq]
      exact hcursor
    · rw [raiseHighWater_eq]
      exact hinit
  · rw [if_neg hfits, if_neg Bool.false_ne_true, List.append_nil]
    exact ⟨h, rfl, rfl⟩

theorem filter_placed_of_le {cursor t : UInt64} (frames : ℕ → Frame) {n : ℕ} (h : cursor ≤ t)
    (hn : t.toNat + n < 2 ^ 64) : (placed frames t n).filter (cursor ≤ ·.1) = placed frames t n := by
  rw [List.filter_eq_self]
  intro c hc
  obtain ⟨i, hi, rfl⟩ := List.mem_map.mp hc
  have hlt := List.mem_range.mp hi
  have hle := UInt64.le_iff_toNat_le.mp h
  rw [decide_eq_true_eq, UInt64.le_iff_toNat_le, toNat_add_ofNat (by omega)]
  omega

theorem filter_placed_of_end_le {cursor t : UInt64} (frames : ℕ → Frame) {n : ℕ}
    (h : t.toNat + n ≤ cursor.toNat) : (placed frames t n).filter (cursor ≤ ·.1) = [] := by
  rw [List.filter_eq_nil_iff]
  intro c hc
  obtain ⟨i, hi, rfl⟩ := List.mem_map.mp hc
  have hlt := List.mem_range.mp hi
  have hcursor := cursor.toNat_lt
  rw [decide_eq_true_eq, UInt64.le_iff_toNat_le, toNat_add_ofNat (by omega)]
  omega

theorem filter_placed_late {cursor t : UInt64} (frames : ℕ → Frame) {late n : ℕ}
    (hlate : t.toNat + late = cursor.toNat) (hn : t.toNat + (late + n) < 2 ^ 64) :
    (placed frames t (late + n)).filter (cursor ≤ ·.1) =
      placed (fun i ↦ frames (late + i)) cursor n := by
  have hsplit : placed frames t (late + n) =
      placed frames t late ++ placed (fun i ↦ frames (late + i)) cursor n := by
    rw [placed, List.range_add, List.map_append, List.map_map]
    congr 1
    refine List.map_congr_left fun i hi ↦ ?_
    have hlt := List.mem_range.mp hi
    have hposition : t + UInt64.ofNat (late + i) = cursor + UInt64.ofNat i := by
      rw [← UInt64.toNat_inj, toNat_add_ofNat (by omega), toNat_add_ofNat (by omega)]
      omega
    rw [Function.comp_apply, hposition]
  rw [hsplit, List.filter_append, filter_placed_of_end_le frames hlate.le, List.nil_append,
    filter_placed_of_le _ (UInt64.le_refl _) (by omega)]

theorem Sounds.mixOnTime (h : Sounds s mixed) (source : Bytes) {t : UInt64} {count : UInt32}
    (format : AudioStreamBasicDescription) (hend : t.toNat + count.toNat ≤ 2 ^ 63 + 2 ^ 32) :
    Sounds (s.mixOnTime source t count format).2
      (mixed ++ if (s.mixOnTime source t count format).1 then
        (placed (blockFrame source format) t count.toNat).filter
          ((s.mixOnTime source t count format).2.readCursor ≤ ·.1) else []) ∧
      (s.mixOnTime source t count format).2.initialized = s.initialized := by
  by_cases hlate : t < s.readCursor
  · have hlt := UInt64.lt_iff_toNat_lt.mp hlate
    by_cases hpast : t.toNat + count.toNat ≤ s.readCursor.toNat
    · rw [mixOnTime_past hpast hlate, if_pos rfl, filter_placed_of_end_le _ hpast, List.append_nil]
      exact ⟨h, rfl⟩
    · obtain ⟨rest, hrest, heq⟩ := mixOnTime_late source format hlate (Nat.not_le.mp hpast)
      have hsplit : count.toNat = s.readCursor.toNat - t.toNat + rest.toNat := by omega
      obtain ⟨hsounds, hcursor, hinit⟩ := h.mixAligned
        (fun i ↦ blockFrame source format (s.readCursor.toNat - t.toNat + i))
        (UInt64.le_refl s.readCursor)
        (show s.readCursor.toNat + rest.toNat ≤ 2 ^ 63 + 2 ^ 32 by omega)
      rw [heq, hcursor, hsplit, filter_placed_late _ (by omega) (by omega)]
      exact ⟨hsounds, hinit⟩
  · have hle := UInt64.not_lt.mp hlate
    rw [mixOnTime_ahead hle]
    obtain ⟨hsounds, hcursor, hinit⟩ := h.mixAligned (blockFrame source format) hle hend
    rw [hcursor, filter_placed_of_le _ hle (by omega)]
    exact ⟨hsounds, hinit⟩

/-- No slot is marked with a position of the window that begins at `t`. -/
def ClearAt (s : NS6TransportShared) (t : UInt64) : Prop :=
  ∀ j, ¬ (t.toNat ≤ (s.tags j).toNat ∧ (s.tags j).toNat < t.toNat + 16384)

theorem ClearAt.sounds {t : UInt64} (h : ClearAt s t) (ht : t.toNat < 2 ^ 63) (initialized : Bool) :
    Sounds { s with readCursor := t, highWater := t, initialized := initialized } [] := by
  refine ⟨le_rfl, by dsimp only; omega, ?_, fun c hc ↦ absurd hc List.not_mem_nil⟩
  intro p hp hp'
  refine lookup_eq_none_iff.mpr ?_
  intro htag
  apply h (slot 16384 p)
  rw [htag]
  exact ⟨hp, hp'⟩

def Low (s : NS6TransportShared) : Prop :=
  ∀ j, s.tags j = 0xffffffffffffffff ∨ (s.tags j).toNat < s.readCursor.toNat + 16384

theorem Low.mixFrame (h : s.Low) {p : UInt64} (hp : p.toNat < s.readCursor.toNat + 16384)
    (frame : Frame) : (s.mixFrame p frame).Low := by
  rw [mixFrame_eq]
  intro j
  change Function.update s.tags (slot 16384 p) p j = _ ∨
    (Function.update s.tags (slot 16384 p) p j).toNat < _
  by_cases hj : j = slot 16384 p
  · rw [hj, Function.update_self]
    exact .inr hp
  · rw [Function.update_of_ne hj]
    exact h j

theorem Low.mixFrames (h : s.Low) (frames : ℕ → Frame) {t : UInt64} {n : ℕ}
    (hn : t.toNat + n ≤ s.readCursor.toNat + 16384) : (s.mixFrames frames t n).Low := by
  induction n with
  | zero => exact h
  | succ n ih =>
    have hfields := (mixFrames_fields (s := s) frames t n).1
    rw [mixFrames_succ]
    apply (ih (by omega)).mixFrame
    rw [hfields, UInt64.toNat_add, UInt64.toNat_ofNat', Nat.add_mod_mod]
    have hmod := Nat.mod_le (t.toNat + n) (2 ^ 64)
    omega

theorem Low.mixAligned (h : s.Low) (frames : ℕ → Frame) {t : UInt64} (ht : s.readCursor ≤ t)
    (count : UInt32) : (s.mixAligned frames t count).2.Low := by
  rw [mixAligned_eq ht]
  split_ifs with hfits
  · rw [raiseHighWater_eq]
    exact h.mixFrames frames hfits.2
  · exact h

theorem Low.mixOnTime (h : s.Low) (source : Bytes) (t : UInt64) (count : UInt32)
    (format : AudioStreamBasicDescription) : (s.mixOnTime source t count format).2.Low := by
  rw [NS6TransportShared.mixOnTime]
  split_ifs with hlate
  · exact h
  · exact h.mixAligned _ (UInt64.le_refl _) _
  · exact h.mixAligned _ (UInt64.not_lt.mp hlate) _

theorem far_of_rebases {t : UInt64} (hlt : s.readCursor < t) (h : s.rebases t = true) :
    s.readCursor.toNat + 16384 ≤ t.toNat := by
  rw [rebases, Bool.and_eq_true, decide_eq_true_eq, distance, if_pos hlt, ge_iff_le,
    UInt64.le_iff_toNat_le, UInt64.toNat_sub_of_le _ _ (UInt64.le_of_lt hlt)] at h
  have hfar := h.1
  change 16384 ≤ t.toNat - s.readCursor.toNat at hfar
  omega

/-- The cursor passes positions that are held; a position new to the window has its
slot still marked with the one passed a turn before. -/
theorem Sounds.advance (h : Sounds s mixed) {m : ℕ}
    (hm : s.readCursor.toNat + m ≤ s.highWater.toNat)
    (hheld : ∀ k < m, ∃ frame, s.lookup (s.readCursor + UInt64.ofNat k) = some frame) :
    Sounds { s with readCursor := s.readCursor + UInt64.ofNat m } mixed := by
  have hearly := h.early
  have hcursor : (s.readCursor + UInt64.ofNat m).toNat = s.readCursor.toNat + m :=
    toNat_add_ofNat (by omega)
  refine ⟨?_, hearly, ?_, ?_⟩
  · dsimp only
    rw [hcursor]
    exact hm
  · dsimp only
    intro p hp hp'
    rw [hcursor] at hp hp'
    by_cases hold : p.toNat < s.readCursor.toNat + 16384
    · exact h.held p (by omega) hold
    · obtain ⟨k, hk⟩ := Nat.exists_eq_add_of_le (not_lt.mp hold)
      obtain ⟨frame, hframe⟩ := hheld k (by omega)
      have hposition : (s.readCursor + UInt64.ofNat k).toNat = s.readCursor.toNat + k :=
        toNat_add_ofNat (by omega)
      have hnone : s.lookup p = none := by
        refine lookup_eq_none_of_slot_eq hframe (slot_of_add_period (by omega)) ?_
        intro heq
        have := congrArg UInt64.toNat heq
        omega
      have hunheard : framesAt p mixed = [] := by
        rw [framesAt, List.map_eq_nil_iff, List.filter_eq_nil_iff]
        intro c hc hcp
        have hnear := h.near c hc
        rw [decide_eq_true_eq.mp hcp] at hnear
        omega
      rw [hunheard]
      exact hnone
  · dsimp only
    intro c hc
    have hnear := h.near c hc
    rw [hcursor]
    omega

/-- At whole positions the loop hands out what the ring holds, one position after the other. -/
theorem unitLoop {cursor : UInt64} (last : UInt64) (hcursor : cursor.toNat + 16384 < 2 ^ 64) (n : ℕ)
    {j : ℕ} (hj : j ≤ 16384) :
    ∃ m, (s.dequeueLoop cursor last 1 n j).phase = ((j + m : ℕ) : ℚ) ∧
      (s.dequeueLoop cursor last 1 n j).frames.length = m ∧ j + m ≤ 16384 ∧
      ∀ k < m, cursor.toNat + (j + k) < last.toNat ∧
        s.lookup (cursor + UInt64.ofNat (j + k)) =
          (s.dequeueLoop cursor last 1 n j).frames[k]? := by
  induction n generalizing j with
  | zero => exact ⟨0, rfl, rfl, hj, fun k hk ↦ absurd hk (Nat.not_lt_zero k)⟩
  | succ n ih =>
    have hwhole : (UInt64.ofNat j).toNat = j := by
      rw [UInt64.toNat_ofNat']
      exact Nat.mod_eq_of_lt (by omega)
    have hfirst : (cursor + UInt64.ofNat j).toNat = cursor.toNat + j := toNat_add_ofNat (by omega)
    have hcast : (j : ℚ) + 1 = ((j + 1 : ℕ) : ℚ) := by push_cast; rfl
    rw [dequeueLoop]
    simp only [Nat.floor_natCast, hwhole, sub_self, gt_iff_lt, lt_irrefl, if_false, UInt64.add_zero]
    have hstop : ∀ reason, ∃ m, (⟨[], j, reason⟩ : Dequeued).phase = ((j + m : ℕ) : ℚ) ∧
        (⟨[], j, reason⟩ : Dequeued).frames.length = m ∧ j + m ≤ 16384 ∧
        ∀ k < m, cursor.toNat + (j + k) < last.toNat ∧
          s.lookup (cursor + UInt64.ofNat (j + k)) = (⟨[], j, reason⟩ : Dequeued).frames[k]? :=
      fun _ ↦ ⟨0, rfl, rfl, hj, fun k hk ↦ absurd hk (Nat.not_lt_zero k)⟩
    split_ifs with hend hlimit htag
    · exact hstop _
    · exact hstop _
    · exact hstop _
    · rw [or_self, not_not] at htag
      have hlast := UInt64.lt_iff_toNat_lt.mp (UInt64.not_le.mp hend)
      rw [hfirst] at hlast
      have hle : cursor ≤ cursor + UInt64.ofNat j := by
        rw [UInt64.le_iff_toNat_le, hfirst]
        omega
      have hnear := UInt64.lt_iff_toNat_lt.mp (UInt64.not_le.mp hlimit)
      rw [UInt64.toNat_sub_of_le _ _ hle, hfirst] at hnear
      change cursor.toNat + j - cursor.toNat < 16384 at hnear
      obtain ⟨m, hphase, hlength, hbound, hframes⟩ := ih (j := j + 1) (by omega)
      rw [hcast, interpolateFrame_self]
      refine ⟨m + 1, ?_, ?_, by omega, ?_⟩
      · rw [hphase]
        push_cast
        ring
      · rw [List.length_cons, hlength]
      · intro k hk
        cases k with
        | zero => exact ⟨hlast, if_pos htag⟩
        | succ k =>
          have hnext := hframes k (by omega)
          rw [Nat.add_assoc j 1 k, Nat.add_comm 1 k] at hnext
          exact hnext

/-- The ring with all that has been mixed since the timeline was last begun. -/
structure Timeline where
  shared : NS6TransportShared
  readFraction : ℚ
  mixed : List (UInt64 × Frame)

namespace Timeline

inductive Call
  | mixAt (input : Option Bytes) (sampleTime : UInt64) (count : UInt32)
      (format : Option AudioStreamBasicDescription)
  | dequeue (capacity : UInt32)

def start (memory : NS6TransportShared) : Timeline := ⟨memory.init, 0, []⟩

def begins (shared : NS6TransportShared) (sampleTime : UInt64) : Bool :=
  !shared.initialized || shared.rebases sampleTime

/-- The log after a mix: begun anew if the timeline is, and with the frames that
were accepted and not late. -/
def logged (s : Timeline) (input : Option Bytes) (sampleTime : UInt64) (count : UInt32) :
    Option AudioStreamBasicDescription → List (UInt64 × Frame)
  | none => s.mixed
  | some format =>
    let r := s.shared.mixAt input sampleTime count (some format)
    if passes input sampleTime count format then
      (if begins s.shared sampleTime then [] else s.mixed) ++
        if r.1 then (placed (blockFrame (input.getD fun _ ↦ 0) format) sampleTime count.toNat).filter
          (r.2.readCursor ≤ ·.1) else []
    else s.mixed

def call (s : Timeline) : Call → Option Timeline
  | .mixAt input sampleTime count format =>
    if sampleTime.toNat < 2 ^ 63 then
      some { s with
        shared := (s.shared.mixAt input sampleTime count format).2
        mixed := s.logged input sampleTime count format }
    else none
  | .dequeue capacity =>
    let r := s.shared.dequeue s.readFraction capacity
    some { s with shared := r.2.2.1, readFraction := r.2.2.2 }

/-- A call that moves a timeline moves it to a window in which no slot is marked. -/
def Clean (s : Timeline) : Call → Prop
  | .mixAt input sampleTime count format => ∀ f, format = some f →
      passes input sampleTime count f = true → s.shared.initialized = true →
      s.shared.rebases sampleTime = true → s.shared.ClearAt sampleTime
  | .dequeue _ => True

structure Good (s : Timeline) : Prop where
  fraction : s.readFraction = 0
  fresh : s.shared.initialized = false → ∀ j, s.shared.tags j = 0xffffffffffffffff
  sounds : s.shared.initialized = true → Sounds s.shared s.mixed

variable {s : Timeline}

theorem start_good (memory : NS6TransportShared) : Good (start memory) where
  fraction := rfl
  fresh _ _ := rfl
  sounds h := Bool.noConfusion h

theorem Good.align (h : Good s) {t : UInt64} (ht : t.toNat < 2 ^ 63)
    (hclear : s.shared.initialized = true → s.shared.rebases t = true → s.shared.ClearAt t) :
    Sounds (s.shared.align t) (if begins s.shared t then [] else s.mixed) ∧
      (s.shared.align t).initialized = true := by
  obtain ⟨hinit, heq⟩ | ⟨hinit, hrebases, heq⟩ | ⟨hinit, hrebases, heq⟩ := align_cases s.shared t
  · have hfree : s.shared.ClearAt t := by
      intro j hj
      rw [h.fresh hinit j] at hj
      have hlt := hj.2
      change 2 ^ 64 - 1 < t.toNat + 16384 at hlt
      omega
    have hbegins : begins s.shared t = true := by rw [begins, hinit]; rfl
    rw [heq, hbegins, if_pos rfl]
    exact ⟨hfree.sounds ht true, rfl⟩
  · have hbegins : begins s.shared t = true := by rw [begins, hinit, hrebases]; rfl
    rw [heq, hbegins, if_pos rfl]
    exact ⟨(hclear hinit hrebases).sounds ht s.shared.initialized, hinit⟩
  · have hstays : begins s.shared t = false := by rw [begins, hinit, hrebases]; rfl
    rw [heq, hstays, if_neg Bool.false_ne_true]
    exact ⟨h.sounds hinit, hinit⟩

theorem Good.mixAt (h : Good s) (input : Option Bytes) {t : UInt64} (ht : t.toNat < 2 ^ 63)
    (count : UInt32) (format : Option AudioStreamBasicDescription)
    (hclean : Clean s (.mixAt input t count format)) :
    Good { s with
      shared := (s.shared.mixAt input t count format).2
      mixed := s.logged input t count format } := by
  cases format with
  | none => exact h
  | some f =>
    rw [logged]
    by_cases hpasses : passes input t count f = true
    · obtain ⟨hsounds, hinit⟩ := h.align ht (hclean f rfl hpasses)
      have hcount := count.toNat_lt
      obtain ⟨hmixed, hinit'⟩ := hsounds.mixOnTime (input.getD fun _ ↦ 0) f
        (show t.toNat + count.toNat ≤ 2 ^ 63 + 2 ^ 32 by omega)
      rw [if_pos hpasses, mixAt_of_passes hpasses]
      refine ⟨h.fraction, ?_, fun _ ↦ hmixed⟩
      dsimp only
      intro hfalse
      rw [hinit', hinit] at hfalse
      cases hfalse
    · rw [if_neg hpasses, mixAt_of_not_passes hpasses]
      exact h

/-- What a read does on a timeline that has begun: the frames are those the ring
holds from the cursor on, and the cursor passes them. -/
theorem Good.dequeue_frames (h : Good s) (hinit : s.shared.initialized = true) {capacity : UInt32}
    (hcapacity : capacity ≠ 0) :
    ∃ m ≤ 16384, (s.shared.dequeue s.readFraction capacity).1.length = m ∧
      (s.shared.dequeue s.readFraction capacity).2.2 =
        ({ s.shared with readCursor := s.shared.readCursor + UInt64.ofNat m }, 0) ∧
      ∀ k < m, s.shared.readCursor.toNat + k < s.shared.highWater.toNat ∧
        s.shared.lookup (s.shared.readCursor + UInt64.ofNat k) =
          (s.shared.dequeue s.readFraction capacity).1[k]? := by
  have hsounds := h.sounds hinit
  have hcursor := hsounds.cursor_le
  have hearly := hsounds.early
  obtain ⟨m, hphase, hlength, hbound, hframes⟩ := unitLoop (s := s.shared)
    s.shared.highWater (show s.shared.readCursor.toNat + 16384 < 2 ^ 64 by omega) capacity.toNat
    (Nat.zero_le 16384)
  simp only [Nat.zero_add, Nat.cast_zero] at hphase hlength hbound hframes
  have hgo : ¬ (capacity = 0 ∨ s.shared.initialized = false) := by
    rw [not_or, hinit]
    exact ⟨hcapacity, Bool.noConfusion⟩
  have hone : usableStep 1 = 1 := by
    rw [usableStep]
    exact if_neg (by norm_num)
  have hm : (UInt64.ofNat m).toNat = m := by
    rw [UInt64.toNat_ofNat']
    exact Nat.mod_eq_of_lt (by omega)
  simp only [NS6TransportShared.dequeue, dequeueResampled, if_neg hgo, hone, h.fraction, hphase,
    Nat.floor_natCast, hm, sub_self]
  exact ⟨m, hbound, hlength, rfl, hframes⟩

theorem Good.dequeue (h : Good s) (capacity : UInt32) :
    Good { s with
      shared := (s.shared.dequeue s.readFraction capacity).2.2.1
      readFraction := (s.shared.dequeue s.readFraction capacity).2.2.2 } := by
  by_cases hidle : capacity = 0 ∨ s.shared.initialized = false
  · rw [dequeue_idle hidle]
    exact h
  · obtain ⟨hcapacity, hinit⟩ := not_or.mp hidle
    have hinit := Bool.eq_true_of_not_eq_false hinit
    obtain ⟨m, hm, hlength, hafter, hframes⟩ := h.dequeue_frames hinit hcapacity
    have hle := (h.sounds hinit).cursor_le
    rw [hafter]
    refine ⟨rfl, h.fresh, fun _ ↦ (h.sounds hinit).advance ?_ ?_⟩
    · cases m with
      | zero => exact hle
      | succ m => exact (hframes m (Nat.lt_succ_self m)).1
    · intro k hk
      rw [(hframes k hk).2]
      exact ⟨_, List.getElem?_eq_getElem (by rw [hlength]; exact hk)⟩

theorem Good.call (h : Good s) {c : Call} {t : Timeline} (hcall : s.call c = some t)
    (hclean : Clean s c) : Good t := by
  cases c with
  | mixAt input sampleTime count format =>
    simp only [Timeline.call, Option.ite_none_right_eq_some, Option.some.injEq] at hcall
    obtain ⟨ht, rfl⟩ := hcall
    exact h.mixAt input ht count format hclean
  | dequeue capacity =>
    cases hcall
    exact h.dequeue capacity

section Forward

def Forward (s : Timeline) : Call → Prop
  | .mixAt _ sampleTime _ _ => s.shared.initialized = true → s.shared.rebases sampleTime = true →
      s.shared.readCursor < sampleTime
  | .dequeue _ => True

instance (s : Timeline) : (c : Call) → Decidable (Forward s c)
  | .mixAt .. => inferInstanceAs (Decidable (_ → _ → _))
  | .dequeue _ => .isTrue trivial

theorem Good.low_align (h : Good s) (hlow : s.shared.Low) {t : UInt64}
    (hforward : s.shared.initialized = true → s.shared.rebases t = true → s.shared.readCursor < t) :
    (s.shared.align t).Low := by
  obtain ⟨hinit, heq⟩ | ⟨hinit, hrebases, heq⟩ | ⟨-, -, heq⟩ := align_cases s.shared t
  · rw [heq]
    intro j
    exact .inl (h.fresh hinit j)
  · have hlt := UInt64.lt_iff_toNat_lt.mp (hforward hinit hrebases)
    rw [heq]
    intro j
    refine (hlow j).imp_right fun hj ↦ ?_
    dsimp only
    omega
  · rw [heq]
    exact hlow

theorem clean_of_low (hlow : s.shared.Low) {c : Call} {t : Timeline} (hcall : s.call c = some t)
    (hforward : Forward s c) : Clean s c := by
  cases c with
  | mixAt input sampleTime count format =>
    simp only [Timeline.call, Option.ite_none_right_eq_some] at hcall
    intro f hf hpasses hinit hrebases j hj
    have hlt := UInt64.lt_iff_toNat_lt.mp (hforward hinit hrebases)
    have hfar := far_of_rebases (hforward hinit hrebases) hrebases
    rcases hlow j with hfree | hbefore
    · rw [hfree] at hj
      have hmax := hj.2
      change 2 ^ 64 - 1 < sampleTime.toNat + 16384 at hmax
      omega
    · omega
  | dequeue capacity => exact trivial

theorem Good.low_call (h : Good s) (hlow : s.shared.Low) {c : Call} {t : Timeline}
    (hcall : s.call c = some t) (hforward : Forward s c) : t.shared.Low := by
  cases c with
  | mixAt input sampleTime count format =>
    simp only [Timeline.call, Option.ite_none_right_eq_some, Option.some.injEq] at hcall
    obtain ⟨ht, rfl⟩ := hcall
    cases format with
    | none => exact hlow
    | some f =>
      dsimp only
      by_cases hpasses : passes input sampleTime count f = true
      · rw [mixAt_of_passes hpasses]
        exact (h.low_align hlow hforward).mixOnTime _ _ _ _
      · rw [mixAt_of_not_passes hpasses]
        exact hlow
  | dequeue capacity =>
    cases hcall
    by_cases hidle : capacity = 0 ∨ s.shared.initialized = false
    · rw [dequeue_idle hidle]
      exact hlow
    · obtain ⟨hcapacity, hinit⟩ := not_or.mp hidle
      have hinit := Bool.eq_true_of_not_eq_false hinit
      obtain ⟨m, hm, -, hafter, -⟩ := h.dequeue_frames hinit hcapacity
      have hsounds := h.sounds hinit
      have hle := hsounds.cursor_le
      have hearly := hsounds.early
      dsimp only
      rw [hafter]
      intro j
      refine (hlow j).imp_right fun hj ↦ ?_
      dsimp only
      rw [toNat_add_ofNat (by omega)]
      omega

/-- As long as timelines move forward only, they move to clear windows. -/
theorem clean_of_forward {memory : NS6TransportShared} {calls : List Call}
    (hrun : Run call (start memory) calls s)
    (hforward : ∀ bs c cs u, calls = bs ++ c :: cs → Run call (start memory) bs u → Forward u c) :
    ∀ bs c cs u, calls = bs ++ c :: cs → Run call (start memory) bs u → Clean u c := by
  intro bs c cs u hcalls hu
  have hbefore : ∀ bs' c' cs' u', bs = bs' ++ c' :: cs' → Run call (start memory) bs' u' →
      Forward u' c' := by
    intro bs' c' cs' u' hbs
    apply hforward bs' c' (cs' ++ c :: cs) u'
    rw [hcalls, hbs, List.append_assoc, List.cons_append]
  have hinv : Good u ∧ u.shared.Low := hu.invariant_of (P := Forward)
    (I := fun u ↦ Good u ∧ u.shared.Low) ⟨start_good memory, fun _ ↦ .inl rfl⟩ hbefore
    fun _ _ _ hg hf hs ↦ ⟨hg.1.call hs (clean_of_low hg.2 hs hf), hg.1.low_call hg.2 hs hf⟩
  rw [hcalls] at hrun
  obtain ⟨v, hv⟩ := hrun.enabled hu
  exact clean_of_low hinv.2 hv (hforward bs c cs u hcalls hu)

end Forward

/-- As long as a timeline is moved to clear windows only, every frame read is what
has been mixed at its position since the timeline was last moved. -/
theorem mix_never_revives {memory : NS6TransportShared} {calls : List Call}
    (hrun : Run call (start memory) calls s)
    (hclean : ∀ bs c cs u, calls = bs ++ c :: cs → Run call (start memory) bs u → Clean u c)
    {capacity : UInt32} {k : ℕ} {frame : Frame}
    (hframe : (s.shared.dequeue s.readFraction capacity).1[k]? = some frame) :
    framesAt (s.shared.readCursor + UInt64.ofNat k) s.mixed ≠ [] ∧
      frame = accumulate (framesAt (s.shared.readCursor + UInt64.ofNat k) s.mixed) := by
  have hgood : Good s := hrun.invariant_of (P := Clean) (start_good memory) hclean
    fun _ _ _ hu hc hcall ↦ hu.call hcall hc
  have hidle : ¬ (capacity = 0 ∨ s.shared.initialized = false) := by
    intro hidle
    rw [dequeue_idle hidle] at hframe
    cases hframe
  obtain ⟨hcapacity, hinit⟩ := not_or.mp hidle
  have hinit := Bool.eq_true_of_not_eq_false hinit
  obtain ⟨m, hm, hlength, -, hframes⟩ := hgood.dequeue_frames hinit hcapacity
  have hk : k < m := by
    rw [← hlength]
    exact (List.getElem?_eq_some_iff.mp hframe).1
  have hsounds := hgood.sounds hinit
  have hle := hsounds.cursor_le
  have hearly := hsounds.early
  have hposition := toNat_add_ofNat (t := s.shared.readCursor) (i := k) (by omega)
  have hheld := hsounds.held (s.shared.readCursor + UInt64.ofNat k) (by omega) (by omega)
  rw [(hframes k hk).2, hframe, heard] at hheld
  split_ifs at hheld with hnil
  exact ⟨hnil, Option.some.inj hheld⟩

def oneFrame (value : UInt8) (sampleTime : UInt64) : Call :=
  .mixAt (some fun i ↦ if i = 0 then value else 0) sampleTime 1 (some ⟨0, 12, 4, 24⟩)

def movedOn : List Call := [oneFrame 5 0, oneFrame 6 0, .dequeue 1, oneFrame 9 20000]

theorem mix_never_revives_moved_on : ∃ s frame, Run call (start zeroed) movedOn s ∧
    (s.shared.dequeue s.readFraction 1).1[0]? = some frame ∧
    frame = accumulate (framesAt (s.shared.readCursor + UInt64.ofNat 0) s.mixed) := by
  obtain ⟨s, hs, hread⟩ := (Option.any_eq_true _ _).mp (show (movedOn.foldlM call (start zeroed)).any
    (fun s ↦ (s.shared.dequeue s.readFraction 1).1[0]?.isSome) = true by decide +kernel)
  obtain ⟨frame, hframe⟩ := Option.isSome_iff_exists.mp hread
  have hrun := Run.of_foldlM hs
  refine ⟨s, frame, hrun, hframe, (mix_never_revives hrun (clean_of_forward hrun ?_) hframe).2⟩
  exact Run.forall_of_all (by decide +kernel)

/-- The timeline moves on and back again to the position that was read first. -/
def movedBack : List Call :=
  [oneFrame 5 0, .dequeue 1, oneFrame 6 16385, .dequeue 1, oneFrame 7 0]

/-- The frame that is read is 12, of which 5 was mixed on the first timeline. -/
theorem backward_rebase_revives : ∃ s, Run call (start zeroed) movedBack s ∧
    (s.shared.dequeue s.readFraction 1).1.map (unpack24 <| · 0) = [12] ∧
    (framesAt s.shared.readCursor s.mixed).map (unpack24 <| · 0) = [7] ∧
    unpack24 (accumulate (framesAt s.shared.readCursor s.mixed) 0) = 7 := by
  obtain ⟨s, hs, hread⟩ := (Option.any_eq_true _ _).mp (show (movedBack.foldlM call (start zeroed)).any
    (fun s ↦ decide ((s.shared.dequeue s.readFraction 1).1.map (unpack24 <| · 0) = [12] ∧
      (framesAt s.shared.readCursor s.mixed).map (unpack24 <| · 0) = [7] ∧
      unpack24 (accumulate (framesAt s.shared.readCursor s.mixed) 0) = 7)) = true by decide +kernel)
  exact ⟨s, Run.of_foldlM hs, of_decide_eq_true hread⟩

end Timeline

end NumarkNS6.Legacy.NS6TransportShared
