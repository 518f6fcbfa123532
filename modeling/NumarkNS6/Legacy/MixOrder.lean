import NumarkNS6.Foundation.SaturatingSum
import NumarkNS6.Legacy.NS6Transport
import Mathlib.Data.List.Perm.Basic

namespace NumarkNS6.Legacy.NS6TransportShared

open Foundation NS6Transport TaggedRing SaturatingSum

structure Block where
  input : Option Bytes
  sampleTime : UInt64
  count : UInt32
  format : AudioStreamBasicDescription
  valid : format.valid = true
  present : input.isSome = true ∨ count = 0

namespace Block

variable (b : Block)

def frames : ℕ → Frame := blockFrame (b.input.getD fun _ ↦ 0) b.format

def covers (p : UInt64) : Prop :=
  b.sampleTime.toNat ≤ p.toNat ∧ p.toNat < b.sampleTime.toNat + b.count.toNat

instance (p : UInt64) : Decidable (b.covers p) := inferInstanceAs (Decidable (_ ∧ _))

def frameAt (p : UInt64) : Frame :=
  if b.covers p then b.frames (p.toNat - b.sampleTime.toNat) else silence

/-- The block lies in the window that begins at the cursor, and ends on the 64-bit timeline. -/
structure InWindow (cursor : UInt64) (b : Block) : Prop where
  after : cursor.toNat ≤ b.sampleTime.toNat
  before : b.sampleTime.toNat + b.count.toNat ≤ cursor.toNat + 16384
  ends : b.sampleTime.toNat + b.count.toNat < 2 ^ 64

theorem InWindow.of_covers {cursor p : UInt64} {b : Block} (h : b.InWindow cursor)
    (hp : b.covers p) : cursor.toNat ≤ p.toNat ∧ p.toNat < cursor.toNat + 16384 := by
  obtain ⟨hafter, hbefore, -⟩ := h
  obtain ⟨hle, hlt⟩ := hp
  omega

def last (b : Block) : ℕ := if b.count = 0 then 0 else b.sampleTime.toNat + b.count.toNat

end Block

def mix (s : NS6TransportShared) (b : Block) : NS6TransportShared :=
  (s.mixAt b.input b.sampleTime b.count (some b.format)).2

def mixAll (s : NS6TransportShared) (bs : List Block) : NS6TransportShared := bs.foldl mix s

/-- What is to be heard at a position of the window. -/
def held (s : NS6TransportShared) (p : UInt64) : Frame := (s.lookup p).getD silence

variable {s : NS6TransportShared} {b : Block} {p : UInt64}

theorem align_near {t : UInt64} (hinit : s.initialized = true) (hle : s.readCursor.toNat ≤ t.toNat)
    (hlt : t.toNat < s.readCursor.toNat + 16384) : s.align t = s := by
  have hdistance : (distance t s.readCursor).toNat < 16384 := by
    rw [distance]
    split_ifs with h
    · rw [UInt64.toNat_sub_of_le _ _ (UInt64.le_iff_toNat_le.mpr hle)]
      omega
    · rw [UInt64.toNat_sub_of_le _ _ (UInt64.not_lt.mp h)]
      omega
  obtain ⟨hfalse, -⟩ | ⟨-, hrebases, -⟩ | ⟨-, -, heq⟩ := align_cases s t
  · rw [hinit] at hfalse
    cases hfalse
  · rw [rebases, Bool.and_eq_true, decide_eq_true_eq, ge_iff_le, UInt64.le_iff_toNat_le] at hrebases
    exact absurd hrebases.1 (not_le.mpr hdistance)
  · exact heq

theorem mixAt_inWindow (hinit : s.initialized = true) (h : b.InWindow s.readCursor) :
    s.mixAt b.input b.sampleTime b.count (some b.format) =
      (true, if b.count = 0 then s else
        (s.mixFrames b.frames b.sampleTime b.count.toNat).raiseHighWater
          (b.sampleTime + b.count.toUInt64)) := by
  obtain ⟨hafter, hbefore, hlast⟩ := h
  by_cases hzero : b.count = 0
  · have hgood : ¬ ((b.input.isNone ∧ b.count ≠ 0) ∨ b.format.valid = false) := by
      rintro (⟨-, hne⟩ | hinvalid)
      · exact hne hzero
      · rw [b.valid] at hinvalid
        cases hinvalid
    rw [if_pos hzero, mixAt, if_neg hgood, if_pos hzero]
  · have hinput : b.input.isSome = true := b.present.resolve_right hzero
    have hcount : 0 < b.count.toNat := by
      apply Nat.pos_of_ne_zero
      intro h
      exact hzero (UInt32.toNat_inj.mp h)
    have hpasses : passes b.input b.sampleTime b.count b.format = true := by
      simp only [passes, hinput, b.valid, Bool.and_eq_true, bne_iff_ne, decide_eq_true_eq]
      refine ⟨⟨⟨trivial, trivial⟩, hzero⟩, UInt64.not_lt.mp ?_⟩
      rw [← gt_iff_lt, gt_max_sub_iff]
      omega
    have hle : s.readCursor ≤ b.sampleTime := UInt64.le_iff_toNat_le.mpr hafter
    rw [mixAt_of_passes hpasses, align_near hinit hafter (by omega),
      mixOnTime_ahead hle, mixAligned_eq hle, if_pos ⟨by omega, hbefore⟩, if_neg hzero]
    rfl

theorem mix_fields (hinit : s.initialized = true) (h : b.InWindow s.readCursor) :
    (s.mix b).readCursor = s.readCursor ∧ (s.mix b).initialized = true := by
  rw [mix, mixAt_inWindow hinit h]
  dsimp only
  split_ifs
  · exact ⟨rfl, hinit⟩
  · obtain ⟨hcursor, -, hinit'⟩ := mixFrames_fields (s := s) b.frames b.sampleTime b.count.toNat
    rw [raiseHighWater_eq]
    exact ⟨hcursor, hinit'.trans hinit⟩

theorem lookup_mixFrames (frames : ℕ → Frame) {t : UInt64} {n : ℕ}
    (ht : s.readCursor.toNat ≤ t.toNat) (hn : t.toNat + n ≤ s.readCursor.toNat + 16384)
    (hlast : t.toNat + n ≤ 2 ^ 64) (hp : s.readCursor.toNat ≤ p.toNat)
    (hp' : p.toNat < s.readCursor.toNat + 16384) :
    (s.mixFrames frames t n).lookup p =
      if t.toNat ≤ p.toNat ∧ p.toNat < t.toNat + n then
        some (mixSamples (s.held p) (frames (p.toNat - t.toNat)))
      else s.lookup p := by
  induction n with
  | zero =>
    rw [if_neg (by omega)]
    rfl
  | succ n ih =>
    have hposition : (t + UInt64.ofNat n).toNat = t.toNat + n := toNat_add_ofNat (by omega)
    rw [mixFrames_succ, mixFrame_eq]
    change ((s.mixFrames frames t n).toTaggedRing.store _ _).lookup p = _
    by_cases heq : p = t + UInt64.ofNat n
    · rw [← heq] at hposition ⊢
      rw [lookup_store_self, ih (by omega) (by omega), if_neg (by omega), if_pos (by omega),
        hposition, Nat.add_sub_cancel_left]
      rfl
    · have hne : p.toNat ≠ t.toNat + n := by
        rw [← hposition]
        exact fun he ↦ heq (UInt64.toNat_inj.mp he)
      have hslot : slot 16384 p ≠ slot 16384 (t + UInt64.ofNat n) := by
        intro hs
        exact heq (eq_of_slot_eq hs hp hp' (by omega) (by omega))
      rw [lookup_store_of_slot_ne hslot, ih (by omega) (by omega)]
      by_cases hin : t.toNat ≤ p.toNat ∧ p.toNat < t.toNat + n
      · rw [if_pos hin, if_pos (by omega)]
      · rw [if_neg hin, if_neg (by omega)]

theorem mixFrames_untouched (frames : ℕ → Frame) {t : UInt64} {n : ℕ} {j : Fin 16384}
    (h : ∀ i < n, slot 16384 (t + UInt64.ofNat i) ≠ j) :
    (s.mixFrames frames t n).tags j = s.tags j ∧ (s.mixFrames frames t n).cells j = s.cells j := by
  induction n with
  | zero => exact ⟨rfl, rfl⟩
  | succ n ih =>
    obtain ⟨htags, hcells⟩ := ih fun i hi ↦ h i (by omega)
    have hne : j ≠ slot 16384 (t + UInt64.ofNat n) := (h n (Nat.lt_succ_self n)).symm
    rw [mixFrames_succ, mixFrame_eq]
    refine ⟨?_, ?_⟩
    · rw [← htags]
      exact Function.update_of_ne hne _ _
    · rw [← hcells]
      exact Function.update_of_ne hne _ _

theorem lookup_mix (hinit : s.initialized = true) (h : b.InWindow s.readCursor)
    (hp : s.readCursor.toNat ≤ p.toNat) (hp' : p.toNat < s.readCursor.toNat + 16384) :
    (s.mix b).lookup p =
      if b.covers p then some (mixSamples (s.held p) (b.frameAt p)) else s.lookup p := by
  rw [mix, mixAt_inWindow hinit h]
  dsimp only
  by_cases hzero : b.count = 0
  · have hout : ¬ b.covers p := by
      rintro ⟨hle, hlt⟩
      rw [hzero] at hlt
      exact absurd hle (not_le.mpr hlt)
    rw [if_pos hzero, if_neg hout]
  · obtain ⟨hafter, hbefore, hlast⟩ := h
    rw [if_neg hzero, raiseHighWater_eq]
    refine (lookup_mixFrames b.frames hafter hbefore hlast.le hp hp').trans ?_
    by_cases hcovers : b.covers p
    · rw [if_pos hcovers, Block.frameAt, if_pos hcovers]
      exact if_pos hcovers
    · rw [if_neg hcovers]
      exact if_neg hcovers

theorem held_mix (hinit : s.initialized = true) (h : b.InWindow s.readCursor)
    (hp : s.readCursor.toNat ≤ p.toNat) (hp' : p.toNat < s.readCursor.toNat + 16384) :
    (s.mix b).held p = mixSamples (s.held p) (b.frameAt p) := by
  rw [held, lookup_mix hinit h hp hp']
  by_cases hcovers : b.covers p
  · rw [if_pos hcovers]
    rfl
  · rw [if_neg hcovers, Block.frameAt, if_neg hcovers, mixSamples_comm, mixSamples_silence]
    rfl

theorem mix_untouched (hinit : s.initialized = true) (h : b.InWindow s.readCursor) {j : Fin 16384}
    (hj : ∀ q, b.covers q → slot 16384 q ≠ j) :
    (s.mix b).tags j = s.tags j ∧ (s.mix b).cells j = s.cells j := by
  rw [mix, mixAt_inWindow hinit h]
  dsimp only
  split_ifs with hzero
  · exact ⟨rfl, rfl⟩
  · rw [raiseHighWater_eq]
    apply mixFrames_untouched b.frames
    intro i hi
    have hlast := h.ends
    have hposition : (b.sampleTime + UInt64.ofNat i).toNat = b.sampleTime.toNat + i :=
      toNat_add_ofNat (by omega)
    apply hj
    rw [Block.covers, hposition]
    omega

theorem highWater_mix (hinit : s.initialized = true) (h : b.InWindow s.readCursor) :
    (s.mix b).highWater.toNat = max s.highWater.toNat b.last := by
  rw [mix, mixAt_inWindow hinit h, Block.last]
  dsimp only
  split_ifs
  · exact (Nat.max_zero _).symm
  · rw [raiseHighWater_toNat, toNat_add_count h.ends,
      (mixFrames_fields (s := s) b.frames b.sampleTime b.count.toNat).2.1]

theorem unpack24_mixSamples (stored frame : Frame) (channel : Fin 4) :
    unpack24 (mixSamples stored frame channel) =
      add (-8388608) 8388607 (unpack24 (stored channel)) (unpack24 (frame channel)) := by
  have hsaturate (value : ℤ) : saturate24 value = max (-8388608) (min value 8388607) := by
    rw [saturate24]
    split_ifs
    · omega
    · omega
    · omega
  have hpack {value : ℤ} (h : -8388608 ≤ value ∧ value ≤ 8388607) :
      unpack24 (pack24 value) = value := by
    rw [unpack24, pack24, BitVec.toInt_ofInt]
    exact Int.bmod_eq_of_le (by omega) (by omega)
  rw [mixSamples, hsaturate, hpack (by omega)]
  rfl

structure Ready (s : NS6TransportShared) (bs : List Block) : Prop where
  initialized : s.initialized = true
  inWindow : ∀ b ∈ bs, b.InWindow s.readCursor

variable {bs ds : List Block}

theorem Ready.perm (h : s.Ready bs) (hperm : ds.Perm bs) : s.Ready ds :=
  ⟨h.initialized, fun b hb ↦ h.inWindow b (hperm.mem_iff.mp hb)⟩

theorem Ready.first (h : s.Ready (b :: bs)) : b.InWindow s.readCursor :=
  h.inWindow b List.mem_cons_self

theorem Ready.mix (h : s.Ready (b :: bs)) : (s.mix b).Ready bs := by
  obtain ⟨hcursor, hinit⟩ := mix_fields h.initialized h.first
  refine ⟨hinit, ?_⟩
  intro c hc
  rw [hcursor]
  exact h.inWindow c (List.mem_cons_of_mem b hc)

/-- At a position of the window the contributions of all blocks are added one after the other. -/
theorem Ready.held_mixAll (h : s.Ready bs) (hp : s.readCursor.toNat ≤ p.toNat)
    (hp' : p.toNat < s.readCursor.toNat + 16384) (channel : Fin 4) :
    unpack24 ((s.mixAll bs).held p channel) = total (-8388608) 8388607
      (unpack24 (s.held p channel)) (bs.map fun b ↦ unpack24 (b.frameAt p channel)) := by
  induction bs generalizing s with
  | nil => rfl
  | cons b bs ih =>
    have hcursor := (mix_fields h.initialized h.first).1
    rw [mixAll, List.foldl_cons, List.map_cons, total_cons, ← unpack24_mixSamples,
      ← held_mix h.initialized h.first hp hp']
    apply ih h.mix
    · rw [hcursor]
      exact hp
    · rw [hcursor]
      exact hp'

theorem Ready.isSome_lookup_mixAll (h : s.Ready bs) (hp : s.readCursor.toNat ≤ p.toNat)
    (hp' : p.toNat < s.readCursor.toNat + 16384) :
    ((s.mixAll bs).lookup p).isSome ↔ (s.lookup p).isSome ∨ ∃ b ∈ bs, b.covers p := by
  induction bs generalizing s with
  | nil =>
    constructor
    · exact .inl
    · rintro (hsome | ⟨b, hb, -⟩)
      · exact hsome
      · exact absurd hb List.not_mem_nil
  | cons b bs ih =>
    have hcursor := (mix_fields h.initialized h.first).1
    have hone : ((s.mix b).lookup p).isSome ↔ (s.lookup p).isSome ∨ b.covers p := by
      rw [lookup_mix h.initialized h.first hp hp']
      by_cases hcovers : b.covers p
      · rw [if_pos hcovers]
        exact ⟨fun _ ↦ .inr hcovers, fun _ ↦ rfl⟩
      · rw [if_neg hcovers]
        exact ⟨.inl, fun hor ↦ hor.resolve_right hcovers⟩
    rw [mixAll, List.foldl_cons, ← mixAll, ih h.mix (hcursor ▸ hp) (hcursor ▸ hp'), hone, or_assoc,
      List.exists_mem_cons_iff]

theorem Ready.tags_of_covers (h : s.Ready bs) (hb : b ∈ bs) (hp : b.covers p) :
    (s.mixAll bs).tags (slot 16384 p) = p := by
  obtain ⟨hcursor, hcursor'⟩ := (h.inWindow b hb).of_covers hp
  have hsome := (h.isSome_lookup_mixAll hcursor hcursor').mpr (.inr ⟨b, hb, hp⟩)
  obtain ⟨frame, hframe⟩ := Option.isSome_iff_exists.mp hsome
  exact (lookup_eq_some_iff.mp hframe).1

theorem Ready.mixAll_untouched (h : s.Ready bs) {j : Fin 16384}
    (hj : ∀ b ∈ bs, ∀ q, b.covers q → slot 16384 q ≠ j) :
    (s.mixAll bs).tags j = s.tags j ∧ (s.mixAll bs).cells j = s.cells j := by
  induction bs generalizing s with
  | nil => exact ⟨rfl, rfl⟩
  | cons b bs ih =>
    rw [List.forall_mem_cons] at hj
    obtain ⟨htags, hcells⟩ := mix_untouched h.initialized h.first hj.1
    obtain ⟨htags', hcells'⟩ := ih h.mix hj.2
    exact ⟨htags'.trans htags, hcells'.trans hcells⟩

theorem Ready.highWater_mixAll (h : s.Ready bs) :
    (s.mixAll bs).highWater.toNat = (bs.map Block.last).foldl max s.highWater.toNat := by
  induction bs generalizing s with
  | nil => rfl
  | cons b bs ih =>
    rw [List.map_cons, List.foldl_cons, ← highWater_mix h.initialized h.first]
    exact ih h.mix

theorem Ready.slot_cases (h : s.Ready bs) (j : Fin 16384) :
    (∃ q, s.readCursor.toNat ≤ q.toNat ∧ q.toNat < s.readCursor.toNat + 16384 ∧ slot 16384 q = j ∧
      ∀ ds, ds.Perm bs → (s.mixAll ds).tags j = q) ∨
    ∀ ds, ds.Perm bs → (s.mixAll ds).tags j = s.tags j ∧ (s.mixAll ds).cells j = s.cells j := by
  by_cases hj : ∃ b ∈ bs, ∃ q, b.covers q ∧ slot 16384 q = j
  · left
    obtain ⟨b, hb, q, hcovers, rfl⟩ := hj
    obtain ⟨hcursor, hcursor'⟩ := (h.inWindow b hb).of_covers hcovers
    refine ⟨q, hcursor, hcursor', rfl, ?_⟩
    intro ds hperm
    exact (h.perm hperm).tags_of_covers (hperm.mem_iff.mpr hb) hcovers
  · right
    intro ds hperm
    apply (h.perm hperm).mixAll_untouched
    intro b hb q hcovers hslot
    exact hj ⟨b, hperm.mem_iff.mp hb, q, hcovers, hslot⟩

theorem Ready.tags_perm (h : s.Ready bs) (hperm : ds.Perm bs) :
    (s.mixAll ds).tags = (s.mixAll bs).tags := by
  funext j
  rcases h.slot_cases j with ⟨q, -, -, -, htags⟩ | hsame
  · rw [htags ds hperm, htags bs (List.Perm.refl bs)]
  · rw [(hsame ds hperm).1, (hsame bs (List.Perm.refl bs)).1]

theorem Ready.highWater_perm (h : s.Ready bs) (hperm : ds.Perm bs) :
    (s.mixAll ds).highWater = (s.mixAll bs).highWater := by
  rw [← UInt64.toNat_inj, (h.perm hperm).highWater_mixAll, h.highWater_mixAll]
  apply (hperm.map Block.last).foldl_eq'
  intro m _ n _ k
  exact Nat.max_right_comm k m n

theorem held_of_tags (h : s.tags (slot 16384 p) = p) : s.held p = s.cells (slot 16384 p) := by
  rw [held, lookup_eq_some_iff.mpr ⟨h, rfl⟩]
  rfl

theorem Ready.cells_perm (h : s.Ready bs) (hperm : ds.Perm bs)
    (hheld : ∀ p : UInt64, s.readCursor.toNat ≤ p.toNat → p.toNat < s.readCursor.toNat + 16384 →
      (s.mixAll ds).held p = (s.mixAll bs).held p) : (s.mixAll ds).cells = (s.mixAll bs).cells := by
  funext j
  rcases h.slot_cases j with ⟨q, hq, hq', rfl, htags⟩ | hsame
  · rw [← held_of_tags (htags ds hperm), ← held_of_tags (htags bs (List.Perm.refl bs))]
    exact hheld q hq hq'
  · rw [(hsame ds hperm).2, (hsame bs (List.Perm.refl bs)).2]

theorem unpack24_inj {x y : BitVec 24} (h : unpack24 x = unpack24 y) : x = y := BitVec.toInt_inj.mp h

/-- Tags and high-water mark never depend on the order of the clients. The samples do
not either exactly if at every position and channel the contributions reach neither
end of the range in any order, or all have the same sign. -/
theorem mix_order_independent_iff (hinit : s.initialized = true)
    (hbs : ∀ b ∈ bs, b.InWindow s.readCursor) :
    (∀ ds, ds.Perm bs → (s.mixAll ds).tags = (s.mixAll bs).tags ∧
      (s.mixAll ds).highWater = (s.mixAll bs).highWater) ∧
    ((∀ ds, ds.Perm bs → (s.mixAll ds).cells = (s.mixAll bs).cells) ↔
      ∀ p : UInt64, s.readCursor.toNat ≤ p.toNat → p.toNat < s.readCursor.toNat + 16384 →
        ∀ channel, Steady (-8388608) 8388607 (unpack24 (s.held p channel))
          (bs.map fun b ↦ unpack24 (b.frameAt p channel))) := by
  have h : s.Ready bs := ⟨hinit, hbs⟩
  refine ⟨fun ds hperm ↦ ⟨h.tags_perm hperm, h.highWater_perm hperm⟩, ?_, ?_⟩
  · intro hcells p hp hp' channel
    apply (total_map_perm_iff _ bs (by norm_num) (unpack24_mem _)).mp
    intro ds hperm
    have hheld : (s.mixAll ds).held p = (s.mixAll bs).held p := by
      rw [held, lookup, hcells ds hperm, h.tags_perm hperm]
      rfl
    rw [← (h.perm hperm).held_mixAll hp hp', ← h.held_mixAll hp hp', hheld]
  · intro hsteady ds hperm
    apply h.cells_perm hperm
    intro p hp hp'
    funext channel
    apply unpack24_inj
    rw [(h.perm hperm).held_mixAll hp hp', h.held_mixAll hp hp']
    exact (hsteady p hp hp' channel).total_perm (unpack24_mem _) (hperm.map _)

section OneSample

def oneSample (low middle high : UInt8) : Block where
  input := some fun i ↦ if i % 3 = 0 then low else if i % 3 = 1 then middle else high
  sampleTime := 0
  count := 1
  format := ⟨0, 12, 4, 24⟩
  valid := rfl
  present := .inl rfl

theorem oneSample_inWindow (low middle high : UInt8) :
    (oneSample low middle high).InWindow (zeroed.init.startAt 0).readCursor :=
  ⟨Nat.le_refl 0, show 0 + 1 ≤ 0 + 16384 by decide, show 0 + 1 < 2 ^ 64 by decide⟩

theorem oneSample_frameAt_of_ne (low middle high : UInt8) (hp : p ≠ 0) :
    (oneSample low middle high).frameAt p = silence := by
  refine if_neg fun hcovers ↦ hp (UInt64.toNat_inj.mp ?_)
  exact Nat.lt_one_iff.mp hcovers.2

def loudest : Block := oneSample 0xff 0xff 0x7f

def quiet : Block := oneSample 5 0 0

def lowest : Block := oneSample 0 0 0x80

/-- Two samples with a sum beyond the range, both positive. -/
theorem mix_order_independent_both_positive :
    ((zeroed.init.startAt 0).mixAll [quiet, loudest]).cells =
      ((zeroed.init.startAt 0).mixAll [loudest, quiet]).cells := by
  refine (mix_order_independent_iff rfl ?_).2.mpr ?_ _ (List.Perm.swap loudest quiet [])
  · intro b hb
    simp only [List.mem_cons, List.not_mem_nil, or_false] at hb
    rcases hb with rfl | rfl
    · exact oneSample_inWindow _ _ _
    · exact oneSample_inWindow _ _ _
  · intro p _ _ channel
    right
    right
    by_cases hp : p = 0
    · rw [hp]
      revert channel
      decide +kernel
    · rw [List.map_cons, List.map_cons, loudest, quiet, oneSample_frameAt_of_ne _ _ _ hp,
        oneSample_frameAt_of_ne _ _ _ hp]
      rfl

/-- Twice the largest sample and then the lowest one is not the same as with the
lowest one in between. -/
theorem mix_order_matters :
    (zeroed.init.startAt 0).initialized = true ∧
      (∀ b ∈ [loudest, loudest, lowest], b.InWindow (zeroed.init.startAt 0).readCursor) ∧
      List.Perm [loudest, lowest, loudest] [loudest, loudest, lowest] ∧
      unpack24 (((zeroed.init.startAt 0).mixAll [loudest, loudest, lowest]).cells 0 0) = -1 ∧
      unpack24 (((zeroed.init.startAt 0).mixAll [loudest, lowest, loudest]).cells 0 0) = 8388606 := by
  refine ⟨rfl, ?_, (List.Perm.swap _ _ _).cons _, by decide +kernel, by decide +kernel⟩
  intro b hb
  simp only [List.mem_cons, List.not_mem_nil, or_false] at hb
  rcases hb with rfl | rfl | rfl
  · exact oneSample_inWindow _ _ _
  · exact oneSample_inWindow _ _ _
  · exact oneSample_inWindow _ _ _

end OneSample

end NumarkNS6.Legacy.NS6TransportShared
