import NumarkNS6.AudioOut.AudioOutputRing
import Mathlib.Tactic.Ring

namespace NumarkNS6.AudioOut.AudioOutputRing

open Foundation.CircularStore

variable {α : Type}

/-- What the constructor establishes and no operation changes. -/
structure Shape (ring : AudioOutputRing α) : Prop where
  capacity_pos : 0 < ring.capacityFrames.toNat
  capacity_le : ring.capacityFrames.toNat < 2 ^ 31
  channels_pos : 0 < ring.channels.toNat
  samples_length : ring.samples.length = ring.capacityFrames.toNat * ring.channels.toNat

theorem construct_ok [Zero α] {capacityFrames channels : UInt32} {ring : AudioOutputRing α}
    (h : construct capacityFrames channels = .ok ring) :
    Shape ring ∧ ring.capacityFrames = capacityFrames ∧ ring.channels = channels ∧
      ring.writeFrame = 0 ∧ ring.readFrame = 0 ∧ ring.readFraction = 0 := by
  unfold construct at h
  split_ifs at h with hbad
  cases h
  simp only [not_or, uint32Max] at hbad
  obtain ⟨hc, hle, hch, -⟩ := hbad
  have hpos (n : UInt32) (hn : ¬ n = 0) : 0 < n.toNat := by
    rw [Nat.pos_iff_ne_zero]
    exact fun h ↦ hn (UInt32.toNat.inj h)
  exact ⟨⟨hpos _ hc, by dsimp only; omega, hpos _ hch, List.length_replicate⟩,
    rfl, rfl, rfl, rfl, rfl⟩

theorem exists_construct [Zero α] {capacityFrames channels : UInt32} (hc : capacityFrames ≠ 0)
    (hlt : capacityFrames.toNat < 2 ^ 31) (hch : channels ≠ 0) :
    ∃ ring : AudioOutputRing α, construct capacityFrames channels = .ok ring := by
  have hpos : 0 < capacityFrames.toNat := Nat.pos_of_ne_zero fun h ↦ hc (UInt32.toNat.inj h)
  have hsize : 2 ^ 32 ≤ sizeMax / capacityFrames.toNat := by
    rw [Nat.le_div_iff_mul_le hpos, sizeMax]
    omega
  refine ⟨_, if_neg ?_⟩
  rintro (h | h | h | h)
  · exact hc h
  · rw [uint32Max] at h
    omega
  · exact hch h
  · exact absurd (channels.toNat_lt.trans_le hsize) (Nat.lt_asymm h)

section Counts

variable {ring : AudioOutputRing α} (hs : Shape ring)
include hs

theorem transfer_first (start count : UInt32) :
    (ring.transfer start count).firstFrames.toNat =
      min count.toNat (ring.capacityFrames.toNat - (start % ring.capacityFrames).toNat) := by
  have hlt : (start % ring.capacityFrames).toNat < ring.capacityFrames.toNat := by
    rw [UInt32.toNat_mod]
    exact Nat.mod_lt _ hs.capacity_pos
  rw [transfer, UInt32.toNat_min, UInt32.toNat_sub_of_le _ _ (UInt32.le_iff_toNat_le.mpr hlt.le)]

theorem transfer_remaining (start count : UInt32) :
    (ring.transfer start count).remainingFrames.toNat =
      count.toNat - (ring.transfer start count).firstFrames.toNat := by
  have hle : (ring.transfer start count).firstFrames ≤ count := by
    rw [UInt32.le_iff_toNat_le, transfer_first hs]
    exact Nat.min_le_left _ _
  exact UInt32.toNat_sub_of_le _ _ hle

theorem writeTransfer_count {W R : ℕ} (hRW : R ≤ W) (hW : W ≤ R + ring.capacityFrames.toNat)
    (frames : UInt32) :
    (ring.writeTransfer (UInt32.ofNat W) (UInt32.ofNat R) frames).count.toNat =
      min frames.toNat (R + ring.capacityFrames.toNat - W) := by
  have hcap := hs.capacity_le
  have hused := toNat_distance hRW (by omega)
  have hle : UInt32.ofNat W - UInt32.ofNat R ≤ ring.capacityFrames := by
    rw [UInt32.le_iff_toNat_le, hused]
    omega
  rw [writeTransfer, transfer, UInt32.toNat_min, UInt32.toNat_sub_of_le _ _ hle, hused]
  omega

theorem readTransfer_count {W R : ℕ} (hRW : R ≤ W) (hW : W ≤ R + ring.capacityFrames.toNat)
    (frames : UInt32) :
    (ring.readTransfer (UInt32.ofNat R) (UInt32.ofNat W) frames).count.toNat =
      min frames.toNat (W - R) := by
  have hcap := hs.capacity_le
  rw [readTransfer, transfer, UInt32.toNat_min, toNat_distance hRW (by omega)]

end Counts

/-- A transfer that starts at the unbounded frame index `start`. -/
structure Located (ring : AudioOutputRing α) (start : ℕ) (t : Transfer) : Prop where
  offset_eq : t.offset.toNat = start % ring.capacityFrames.toNat
  first_eq : t.firstFrames.toNat =
    min t.count.toNat (ring.capacityFrames.toNat - start % ring.capacityFrames.toNat)
  remaining_eq : t.remainingFrames.toNat = t.count.toNat - t.firstFrames.toNat

theorem located_transfer {ring : AudioOutputRing α} (hs : Shape ring)
    (hd : ring.capacityFrames.toNat ∣ 2 ^ 32) (start : ℕ) (count : UInt32) :
    Located ring start (ring.transfer (UInt32.ofNat start) count) := by
  have hslot := toNat_slot hd start
  exact ⟨hslot, by rw [transfer_first hs, hslot]; rfl, transfer_remaining hs _ _⟩

theorem located_word {ring : AudioOutputRing α} (hs : Shape ring) (start count : UInt32) :
    Located ring start.toNat (ring.transfer start count) := by
  have hslot : (start % ring.capacityFrames).toNat =
      start.toNat % ring.capacityFrames.toNat := UInt32.toNat_mod _ _
  exact ⟨hslot, by rw [transfer_first hs, hslot]; rfl, transfer_remaining hs _ _⟩

theorem Located.congr {ring ring' : AudioOutputRing α} {start : ℕ} {t : Transfer}
    (ht : Located ring start t) (h : ring'.capacityFrames = ring.capacityFrames) :
    Located ring' start t := by
  obtain ⟨h₁, h₂, h₃⟩ := ht
  exact ⟨by rw [h, h₁], by rw [h, h₂], h₃⟩

@[simp] theorem copyInRest_capacityFrames (ring : AudioOutputRing α) (t : Transfer) (source : List α) :
    (ring.copyInRest t source).capacityFrames = ring.capacityFrames := by
  unfold copyInRest
  split_ifs <;> rfl

@[simp] theorem copyInRest_channels (ring : AudioOutputRing α) (t : Transfer) (source : List α) :
    (ring.copyInRest t source).channels = ring.channels := by
  unfold copyInRest
  split_ifs <;> rfl

@[simp] theorem copyInRest_writeFrame (ring : AudioOutputRing α) (t : Transfer)
    (source : List α) : (ring.copyInRest t source).writeFrame = ring.writeFrame := by
  unfold copyInRest
  split_ifs <;> rfl

@[simp] theorem copyInRest_readFraction (ring : AudioOutputRing α) (t : Transfer)
    (source : List α) : (ring.copyInRest t source).readFraction = ring.readFraction := by
  unfold copyInRest
  split_ifs <;> rfl

@[simp] theorem copyInRest_readFrame (ring : AudioOutputRing α) (t : Transfer)
    (source : List α) : (ring.copyInRest t source).readFrame = ring.readFrame := by
  unfold copyInRest
  split_ifs <;> rfl

section Copies

variable {ring : AudioOutputRing α} {start : ℕ} {t : Transfer}

theorem position_mod (hs : Shape ring) (n : ℕ) :
    n * ring.channels.toNat % ring.samples.length =
      n % ring.capacityFrames.toNat * ring.channels.toNat := by
  rw [hs.samples_length, Nat.mul_mod_mul_right]

theorem Located.offset_samples (ht : Located ring start t) (hs : Shape ring) :
    ring.offsetSamples t = start * ring.channels.toNat % ring.samples.length := by
  rw [position_mod hs, offsetSamples, ht.offset_eq]

theorem Located.first_le (ht : Located ring start t) : t.firstFrames.toNat ≤ t.count.toNat := by
  rw [ht.first_eq]
  exact Nat.min_le_left _ _

theorem Located.first_fits (ht : Located ring start t) (hs : Shape ring) :
    start * ring.channels.toNat % ring.samples.length + ring.firstSamples t ≤
      ring.samples.length := by
  have hlt := Nat.mod_lt start hs.capacity_pos
  have hle : start % ring.capacityFrames.toNat + t.firstFrames.toNat ≤
      ring.capacityFrames.toNat := by
    rw [ht.first_eq]
    omega
  rw [position_mod hs, firstSamples, ← Nat.add_mul, hs.samples_length]
  exact Nat.mul_le_mul_right _ hle

theorem Located.rest_wraps (ht : Located ring start t) (hs : Shape ring)
    (hr : t.remainingFrames ≠ 0) :
    (start + t.firstFrames.toNat) * ring.channels.toNat % ring.samples.length = 0 := by
  have hlt := Nat.mod_lt start hs.capacity_pos
  have hr' : t.remainingFrames.toNat ≠ 0 := fun h ↦ hr (UInt32.toNat.inj h)
  have hfirst : t.firstFrames.toNat =
      ring.capacityFrames.toNat - start % ring.capacityFrames.toNat := by
    have h₁ := ht.first_eq
    have h₂ := ht.remaining_eq
    omega
  have hdvd : ring.capacityFrames.toNat ∣ start + t.firstFrames.toNat := by
    refine ⟨start / ring.capacityFrames.toNat + 1, ?_⟩
    have h := Nat.mod_add_div start ring.capacityFrames.toNat
    rw [hfirst, Nat.mul_add]
    omega
  rw [position_mod hs, Nat.mod_eq_zero_of_dvd hdvd, Nat.zero_mul]

theorem samples_split (ht : Located ring start t) :
    ring.firstSamples t + ring.remainingSamples t = t.count.toNat * ring.channels.toNat := by
  have h := ht.first_le
  rw [firstSamples, remainingSamples, ← Nat.add_mul, ht.remaining_eq, Nat.add_sub_cancel' h]

theorem Located.first_samples_le (ht : Located ring start t) :
    ring.firstSamples t ≤ t.count.toNat * ring.channels.toNat :=
  Nat.mul_le_mul_right _ ht.first_le

theorem Located.source_first (ht : Located ring start t) {source : List α}
    (hsource : t.count.toNat * ring.channels.toNat ≤ source.length) :
    (source.take (ring.firstSamples t)).length = ring.firstSamples t := by
  rw [List.length_take]
  exact Nat.min_eq_left (ht.first_samples_le.trans hsource)

theorem Located.source_rest (ht : Located ring start t) {source : List α}
    (hsource : t.count.toNat * ring.channels.toNat ≤ source.length) :
    ((source.drop (ring.firstSamples t)).take (ring.remainingSamples t)).length =
      ring.remainingSamples t := by
  have h := samples_split ht
  rw [List.length_take, List.length_drop]
  omega

theorem Located.source_split (ht : Located ring start t) (source : List α) :
    source.take (t.count.toNat * ring.channels.toNat) =
      source.take (ring.firstSamples t) ++
        (source.drop (ring.firstSamples t)).take (ring.remainingSamples t) := by
  rw [← samples_split ht, List.take_add]

theorem remainingSamples_eq_zero (h : t.remainingFrames = 0) : ring.remainingSamples t = 0 := by
  rw [remainingSamples, h]
  exact Nat.zero_mul _

theorem Located.rest_position (ht : Located ring start t) (hs : Shape ring)
    (hr : t.remainingFrames ≠ 0) :
    (start * ring.channels.toNat + ring.firstSamples t) % ring.samples.length = 0 := by
  rw [firstSamples, ← Nat.add_mul]
  exact ht.rest_wraps hs hr

theorem Located.count_fits (hs : Shape ring)
    (hcount : t.count.toNat ≤ ring.capacityFrames.toNat) :
    t.count.toNat * ring.channels.toNat ≤ ring.samples.length := by
  rw [hs.samples_length]
  exact Nat.mul_le_mul_right _ hcount

theorem Located.rest_fits (ht : Located ring start t) (hs : Shape ring)
    (hcount : t.count.toNat ≤ ring.capacityFrames.toNat) :
    ring.remainingSamples t ≤ ring.samples.length := by
  have h := Located.count_fits hs hcount
  have hsplit := samples_split ht
  omega

section CopyIn

variable {source : List α} (ht : Located ring start t) (hs : Shape ring)
  (hsource : t.count.toNat * ring.channels.toNat ≤ source.length)
include ht hs hsource

theorem copyInFirst_shape : Shape (ring.copyInFirst t source) := by
  refine ⟨hs.capacity_pos, hs.capacity_le, hs.channels_pos, ?_⟩
  have hfit := ht.first_fits hs
  simp only [copyInFirst]
  rw [splice_length, hs.samples_length]
  rwa [ht.offset_samples hs, ht.source_first hsource]

theorem copyInFirst_new :
    Holds (ring.copyInFirst t source).samples (start * ring.channels.toNat)
      (source.take (ring.firstSamples t)) := by
  have hfit := ht.first_fits hs
  simp only [copyInFirst, ht.offset_samples hs]
  apply holds_splice_new
  rwa [ht.source_first hsource]

theorem copyInFirst_old {q : ℕ} {ys : List α} (h : Holds ring.samples q ys)
    (hq : q + ys.length ≤ start * ring.channels.toNat)
    (hlap : (start + t.count.toNat) * ring.channels.toNat ≤ q + ring.samples.length) :
    Holds (ring.copyInFirst t source).samples q ys := by
  have hfit := ht.first_fits hs
  have hle := ht.first_samples_le
  rw [Nat.add_mul] at hlap
  simp only [copyInFirst, ht.offset_samples hs]
  apply h.splice_old _ hq
  · rw [ht.source_first hsource]
    omega
  · rwa [ht.source_first hsource]

variable (hcount : t.count.toNat ≤ ring.capacityFrames.toNat)
include hcount

theorem copyInRest_shape : Shape (ring.copyInRest t source) := by
  unfold copyInRest
  split_ifs with hr
  · refine ⟨hs.capacity_pos, hs.capacity_le, hs.channels_pos, ?_⟩
    simp only
    rw [splice_length, hs.samples_length]
    rw [ht.source_rest hsource, Nat.zero_add]
    exact ht.rest_fits hs hcount
  · exact hs

theorem copyInRest_old {q : ℕ} {ys : List α} (h : Holds ring.samples q ys)
    (hq : q + ys.length ≤ start * ring.channels.toNat + ring.firstSamples t)
    (hlap : (start + t.count.toNat) * ring.channels.toNat ≤ q + ring.samples.length) :
    Holds (ring.copyInRest t source).samples q ys := by
  unfold copyInRest
  split_ifs with hr
  · have hpos := ht.rest_position hs hr
    have hsplit := samples_split ht
    rw [Nat.add_mul] at hlap
    simp only
    rw [← hpos]
    apply h.splice_old _ hq
    · rw [ht.source_rest hsource]
      omega
    · rw [ht.source_rest hsource, hpos, Nat.zero_add]
      exact ht.rest_fits hs hcount
  · exact h

/-- Both segments together put the accepted part of the source in place. -/
theorem copyInRest_new
    (h : Holds ring.samples (start * ring.channels.toNat) (source.take (ring.firstSamples t))) :
    Holds (ring.copyInRest t source).samples (start * ring.channels.toNat)
      (source.take (t.count.toNat * ring.channels.toNat)) := by
  have hfirst := ht.source_first hsource
  have hold : Holds (ring.copyInRest t source).samples (start * ring.channels.toNat)
      (source.take (ring.firstSamples t)) := by
    apply copyInRest_old ht hs hsource hcount h
    · rw [hfirst]
    · rw [Nat.add_mul]
      exact Nat.add_le_add_left (Located.count_fits hs hcount) _
  rw [ht.source_split, holds_append, hfirst]
  refine ⟨hold, ?_⟩
  unfold copyInRest
  split_ifs with hr
  · have hpos := ht.rest_position hs hr
    simp only
    rw [← hpos]
    apply holds_splice_new
    rw [ht.source_rest hsource, hpos, Nat.zero_add]
    exact ht.rest_fits hs hcount
  · rw [remainingSamples_eq_zero (not_not.mp hr), List.take_zero]
    exact Holds.nil _ _

end CopyIn

theorem copyOutFirst_eq (ht : Located ring start t) (hs : Shape ring) {xs : List α}
    (h : Holds ring.samples (start * ring.channels.toNat) xs)
    (hxs : t.count.toNat * ring.channels.toNat ≤ xs.length) :
    ring.copyOutFirst t = xs.take (ring.firstSamples t) := by
  have hfirst := ht.source_first hxs
  have hfit := ht.first_fits hs
  have heq := (h.take (ring.firstSamples t)).slice_eq (by rwa [hfirst])
  rwa [hfirst, ← ht.offset_samples hs] at heq

theorem copyOutRest_eq (ht : Located ring start t) (hs : Shape ring) {xs : List α}
    (hcount : t.count.toNat ≤ ring.capacityFrames.toNat)
    (h : Holds ring.samples (start * ring.channels.toNat) xs)
    (hxs : t.count.toNat * ring.channels.toNat ≤ xs.length) :
    ring.copyOutRest t = (xs.drop (ring.firstSamples t)).take (ring.remainingSamples t) := by
  unfold copyOutRest
  split_ifs with hr
  · have hpos := ht.rest_position hs hr
    have hrest := ht.source_rest hxs
    have hdrop := (h.drop (ht.first_samples_le.trans hxs)).take (ring.remainingSamples t)
    have heq := hdrop.slice_eq (by
      rw [hrest, hpos, Nat.zero_add]
      exact ht.rest_fits hs hcount)
    rwa [hrest, hpos] at heq
  · rw [remainingSamples_eq_zero (not_not.mp hr), List.take_zero]

end Copies

def queued (ring : AudioOutputRing α) : ℕ := (ring.writeFrame - ring.readFrame).toNat

section WholeCalls

variable (ring : AudioOutputRing α) (source : List α) {frames : UInt32} (h₀ : frames ≠ 0)
include h₀

theorem write_capacityFrames :
    (ring.write (some source) frames).2.capacityFrames = ring.capacityFrames := by
  simp [write_eq _ _ h₀, storeWriteFrame, copyInFirst]

theorem write_channels : (ring.write (some source) frames).2.channels = ring.channels := by
  simp [write_eq _ _ h₀, storeWriteFrame, copyInFirst]

theorem write_readFrame : (ring.write (some source) frames).2.readFrame = ring.readFrame := by
  simp [write_eq _ _ h₀, storeWriteFrame, copyInFirst]

theorem write_readFraction :
    (ring.write (some source) frames).2.readFraction = ring.readFraction := by
  simp [write_eq _ _ h₀, storeWriteFrame, copyInFirst]

theorem write_writeFrame : (ring.write (some source) frames).2.writeFrame =
    ring.writeFrame + (ring.write (some source) frames).1 := by
  simp [write_eq _ _ h₀, storeWriteFrame]

theorem read_fields : (ring.read true frames).2.2 =
    { ring with readFrame := ring.readFrame + (ring.read true frames).1 } := by
  simp [read_eq _ h₀, storeReadFrame]

theorem read_count : (ring.read true frames).1.toNat = min frames.toNat ring.queued := by
  rw [read_eq _ h₀]
  simp only [readTransfer, transfer, UInt32.toNat_min, queued]

variable (hq : ring.queued ≤ ring.capacityFrames.toNat)
include hq

theorem write_count : (ring.write (some source) frames).1.toNat =
    min frames.toNat (ring.capacityFrames.toNat - ring.queued) := by
  rw [write_eq _ _ h₀]
  simp only [writeTransfer, transfer, UInt32.toNat_min]
  rw [UInt32.toNat_sub_of_le _ _ (UInt32.le_iff_toNat_le.mpr hq), queued]

variable {ring source} (hs : Shape ring)
include hs

theorem write_stores (hsource : source.length = frames.toNat * ring.channels.toNat) :
    Shape (ring.write (some source) frames).2 ∧
    Holds (ring.write (some source) frames).2.samples
      (ring.writeFrame.toNat * ring.channels.toNat)
      (source.take ((ring.write (some source) frames).1.toNat * ring.channels.toNat)) := by
  have hcount := write_count ring source h₀ hq
  rw [write_eq _ _ h₀] at hcount ⊢
  simp only at hcount ⊢
  generalize ht : ring.writeTransfer ring.writeFrame ring.readFrame frames = t at hcount ⊢
  have hloc : Located ring ring.writeFrame.toNat t := by
    rw [← ht, writeTransfer]
    exact located_word hs _ _
  have hle : t.count.toNat * ring.channels.toNat ≤ source.length := by
    rw [hsource, hcount]
    exact Nat.mul_le_mul_right _ (Nat.min_le_left _ _)
  have hcap : t.count.toNat ≤ ring.capacityFrames.toNat := by omega
  have hfirst := copyInFirst_shape hloc hs hle
  have hloc' : Located (ring.copyInFirst t source) ring.writeFrame.toNat t := hloc.congr rfl
  have hrest := copyInRest_shape hloc' hfirst hle hcap
  exact ⟨⟨hrest.1, hrest.2, hrest.3, hrest.4⟩,
    copyInRest_new hloc' hfirst hle hcap (copyInFirst_new hloc hs hle)⟩

theorem read_length : (ring.read true frames).2.1.length =
    (ring.read true frames).1.toNat * ring.channels.toNat := by
  have hcount := read_count ring h₀
  rw [read_eq _ h₀] at hcount ⊢
  simp only at hcount ⊢
  generalize ht : ring.readTransfer ring.readFrame ring.writeFrame frames = t at hcount ⊢
  have hloc : Located ring ring.readFrame.toNat t := by
    rw [← ht, readTransfer]
    exact located_word hs _ _
  have hfit := hloc.first_fits hs
  have hrest := hloc.rest_fits hs (by omega)
  rw [← hloc.offset_samples hs] at hfit
  rw [List.length_append, ← samples_split hloc, copyOutFirst, copyOutRest, slice,
    List.length_take, List.length_drop]
  split_ifs with hr
  · rw [slice, List.length_take, List.drop_zero]
    omega
  · rw [remainingSamples_eq_zero (not_not.mp hr), List.length_nil]
    omega

end WholeCalls

end NumarkNS6.AudioOut.AudioOutputRing
