import NumarkNS6.AudioOut.RingInterleaving

namespace NumarkNS6.AudioOut.RingCalls

open Foundation.CircularStore Foundation.Runs AudioOutputRing
open RingInterleaving (System Action)

variable {α : Type}

structure Calls (α : Type) where
  ring : AudioOutputRing α
  accepted : List α
  returned : List α

inductive Call (α : Type)
  | write (interleaved : Option (List α)) (frames : UInt32)
  | read (buffer : Bool) (frames : UInt32)

def start (ring : AudioOutputRing α) : Calls α := { ring, accepted := [], returned := [] }

def call (s : Calls α) : Call α → Option (Calls α)
  | .write none frames => some { s with ring := (s.ring.write none frames).2 }
  | .write (some source) frames =>
    if source.length ≠ frames.toNat * s.ring.channels.toNat then none
    else some { s with
      ring := (s.ring.write (some source) frames).2
      accepted := s.accepted ++ source.take
        ((s.ring.write (some source) frames).1.toNat * s.ring.channels.toNat) }
  | .read buffer frames => some { s with
      ring := (s.ring.read buffer frames).2.2
      returned := s.returned ++ (s.ring.read buffer frames).2.1 }

theorem call_write {s : Calls α} {source : List α} {frames : UInt32}
    (h : source.length = frames.toNat * s.ring.channels.toNat) :
    call s (.write (some source) frames) = some { s with
      ring := (s.ring.write (some source) frames).2
      accepted := s.accepted ++ source.take
        ((s.ring.write (some source) frames).1.toNat * s.ring.channels.toNat) } :=
  if_neg (not_not.mpr h)

/-- What came out, followed by what one more `read` of everything would
deliver, is exactly what went in. -/
def Lossless (s : Calls α) : Prop :=
  s.returned ++ (s.ring.read true (UInt32.ofNat uint32Max)).2.1 = s.accepted

def between (s : Calls α) (acceptedFrames returnedFrames : ℕ) : System α where
  ring := s.ring
  producer := .idle
  consumer := .idle
  accepted := s.accepted
  acceptedFrames := acceptedFrames
  returned := s.returned
  returnedFrames := returnedFrames

/-- A whole call is the interleaving in which the other thread stands still. -/
theorem call_interleaves {s s' : Calls α} {c : Call α} (h : call s c = some s') (W R : ℕ) :
    ∃ actions W' R', Run RingInterleaving.step (between s W R) actions (between s' W' R') := by
  cases c with
  | write interleaved frames =>
    cases interleaved with
    | none =>
      simp only [call, Option.some.injEq] at h
      subst h
      exact ⟨_, W, R, .one (a := .write none frames) rfl⟩
    | some source =>
      simp only [call, Option.ite_none_left_eq_some, not_not, Option.some.injEq] at h
      obtain ⟨hlen, rfl⟩ := h
      by_cases h₀ : frames = 0
      · subst h₀
        exact ⟨[], W, R, by simpa [AudioOutputRing.write] using Run.nil (between s W R)⟩
      · let t := s.ring.writeTransfer s.ring.writeFrame s.ring.readFrame frames
        refine ⟨[.write (some source) frames, .producer, .producer, .producer, .producer, .producer],
          W + t.count.toNat, R, .of_foldlM ?_⟩
        have hcall : RingInterleaving.step (between s W R) (.write (some source) frames) =
            some { between s W R with producer := .called source frames } := by
          simp only [RingInterleaving.step, RingInterleaving.callWrite, between, ne_eq, hlen,
            not_true_eq_false, if_false, h₀]
        rw [List.foldlM_cons, hcall, write_eq _ _ h₀]
        simp only [List.foldlM_cons, List.foldlM_nil, RingInterleaving.step,
          RingInterleaving.producerStep, Option.bind_eq_bind, Option.bind_some, between,
          copyInRest_channels]
        rfl
  | read buffer frames =>
    simp only [call, Option.some.injEq] at h
    subst h
    by_cases h₀ : buffer = false ∨ frames = 0
    · exact ⟨[], W, R, by simpa [AudioOutputRing.read, if_pos h₀] using Run.nil (between s W R)⟩
    · obtain ⟨hb, hf⟩ := not_or.mp h₀
      rw [Bool.not_eq_false] at hb
      subst hb
      let t := s.ring.readTransfer s.ring.readFrame s.ring.writeFrame frames
      refine ⟨[.read true frames, .consumer, .consumer, .consumer, .consumer, .consumer],
        W, R + t.count.toNat, .of_foldlM ?_⟩
      have hcall : RingInterleaving.step (between s W R) (.read true frames) =
          some { between s W R with consumer := .called frames } := by
        simp only [RingInterleaving.step, RingInterleaving.callRead, between, if_neg h₀]
      rw [List.foldlM_cons, hcall, read_eq _ hf]
      simp only [List.foldlM_cons, List.foldlM_nil, RingInterleaving.step,
        RingInterleaving.consumerStep, Option.bind_eq_bind, Option.bind_some, between]
      rfl

theorem run_inv {ring : AudioOutputRing α} (hs : Shape ring)
    (hd : ring.capacityFrames.toNat ∣ 2 ^ 32) (hw : ring.writeFrame = 0) (hr : ring.readFrame = 0)
    {calls : List (Call α)} {s : Calls α} (h : Run call (start ring) calls s) :
    ∃ W R, RingInterleaving.Inv (between s W R) := by
  refine h.invariant (I := fun s ↦ ∃ W R, RingInterleaving.Inv (between s W R))
    ⟨0, 0, RingInterleaving.initial_inv hs hd hw hr⟩ ?_
  rintro s c s' ⟨W, R, hinv⟩ hc
  obtain ⟨actions, W', R', hrun⟩ := call_interleaves hc W R
  exact ⟨W', R', hrun.invariant hinv RingInterleaving.step_inv⟩

theorem uint32Max_ne_zero : UInt32.ofNat uint32Max ≠ 0 := by decide

theorem lossless_of_inv {s : Calls α} {W R : ℕ} (h : RingInterleaving.Inv (between s W R)) :
    Lossless s := by
  have hcount := readTransfer_count h.stored.shape h.stored.order h.stored.room
    (UInt32.ofNat uint32Max)
  have hgrant := h.stored.grant (UInt32.ofNat uint32Max)
  rw [← h.stored.readIndex, ← h.stored.writeIndex] at hcount
  have hall : (UInt32.ofNat uint32Max).toNat = 2 ^ 32 - 1 := rfl
  have hcap := h.stored.shape.capacity_le
  have horder := h.stored.order
  have hroom := h.stored.room
  simp only [between] at hcount hcap horder hroom
  rw [Lossless, read_eq _ uint32Max_ne_zero]
  simp only
  have hout := hgrant.copyOut h.stored
  rw [← hgrant.copyOutFirst h.stored] at hout
  have hreturned := h.stored.returned_eq
  have hlength := h.stored.accepted_length
  simp only [between] at hout hreturned hlength
  have hle := Nat.mul_le_mul_right s.ring.channels.toNat horder
  rw [hout, hreturned, hcount, hall, Nat.min_eq_right (by omega), slice,
    List.take_of_length_le (i := (W - R) * s.ring.channels.toNat), List.take_append_drop]
  rw [List.length_drop, hlength, Nat.sub_mul]

/-! The word wrap at capacities that do not divide it. -/

section Wrap

variable (x y : α)

def roundTrip (ring : AudioOutputRing α) : List (Call α) :=
  [.write (some (List.replicate ring.channels.toNat x)) 1, .read true 1]

/-- Move both indices to the last word value, then queue a full ring of
frames across the wrap: one of `x`, the others of `y`. -/
def wrapCalls (ring : AudioOutputRing α) : List (Call α) :=
  (List.replicate uint32Max (roundTrip x ring)).flatten ++
    [.write (some (List.replicate ring.channels.toNat x)) 1,
     .write (some (List.replicate
       ((ring.capacityFrames - 1).toNat * ring.channels.toNat) y)) (ring.capacityFrames - 1)]

structure Empty (ring : AudioOutputRing α) (n : ℕ) (s : Calls α) : Prop where
  shape : Shape s.ring
  capacity : s.ring.capacityFrames = ring.capacityFrames
  channels : s.ring.channels = ring.channels
  writeIndex : s.ring.writeFrame = UInt32.ofNat n
  readIndex : s.ring.readFrame = UInt32.ofNat n
  accepted_length : s.accepted.length = n * ring.channels.toNat
  returned_length : s.returned.length = n * ring.channels.toNat

structure Single (ring : AudioOutputRing α) (n : ℕ) (s : Calls α) : Prop where
  shape : Shape s.ring
  capacity : s.ring.capacityFrames = ring.capacityFrames
  channels : s.ring.channels = ring.channels
  writeIndex : s.ring.writeFrame = UInt32.ofNat (n + 1)
  readIndex : s.ring.readFrame = UInt32.ofNat n
  accepted_eq : ∃ before, before.length = n * ring.channels.toNat ∧
    s.accepted = before ++ List.replicate ring.channels.toNat x
  returned_length : s.returned.length = n * ring.channels.toNat

variable {ring : AudioOutputRing α} {n : ℕ} {s : Calls α}

theorem Empty.queued_eq (h : Empty ring n s) : s.ring.queued = 0 := by
  rw [queued, h.writeIndex, h.readIndex, toNat_distance le_rfl (by omega), Nat.sub_self]

theorem Single.queued_eq (h : Single x ring n s) : s.ring.queued = 1 := by
  rw [queued, h.writeIndex, h.readIndex, toNat_distance (Nat.le_succ n) (by omega)]
  exact Nat.add_sub_cancel_left n 1

theorem Empty.write_one (h : Empty ring n s) :
    ∃ s', call s (.write (some (List.replicate ring.channels.toNat x)) 1) = some s' ∧
      Single x ring n s' := by
  have h₁ : (1 : UInt32) ≠ 0 := by decide
  have hq : s.ring.queued ≤ s.ring.capacityFrames.toNat := by rw [h.queued_eq]; exact Nat.zero_le _
  have hlen : (List.replicate ring.channels.toNat x).length =
      (1 : UInt32).toNat * s.ring.channels.toNat := by
    rw [List.length_replicate, h.channels]
    exact (Nat.one_mul _).symm
  have hcount : (s.ring.write (some (List.replicate ring.channels.toNat x)) 1).1 = 1 := by
    apply UInt32.toNat.inj
    rw [write_count _ _ h₁ hq, h.queued_eq]
    exact Nat.min_eq_left h.shape.capacity_pos
  obtain ⟨hshape, -⟩ := write_stores h₁ hq h.shape hlen
  have hcap := write_capacityFrames s.ring (List.replicate ring.channels.toNat x) h₁
  have hch := write_channels s.ring (List.replicate ring.channels.toNat x) h₁
  have hr := write_readFrame s.ring (List.replicate ring.channels.toNat x) h₁
  have hw := write_writeFrame s.ring (List.replicate ring.channels.toNat x) h₁
  rw [hcount, h.writeIndex] at hw
  refine ⟨_, call_write hlen, hshape, hcap.trans h.capacity, hch.trans h.channels,
    hw.trans (UInt32.ofNat_add n 1).symm, hr.trans h.readIndex, ⟨s.accepted, h.accepted_length, ?_⟩, h.returned_length⟩
  simp only [hcount]
  rw [List.take_of_length_le hlen.le]

theorem Single.read_one (h : Single x ring n s) :
    ∃ s', call s (.read true 1) = some s' ∧ Empty ring (n + 1) s' := by
  have h₁ : (1 : UInt32) ≠ 0 := by decide
  have hq : s.ring.queued ≤ s.ring.capacityFrames.toNat := by
    rw [h.queued_eq]
    exact h.shape.capacity_pos
  have hcount : (s.ring.read true 1).1 = 1 := by
    apply UInt32.toNat.inj
    rw [read_count _ h₁, h.queued_eq]
    rfl
  have hlen := read_length h₁ hq h.shape
  have hfields := read_fields s.ring h₁
  rw [hcount] at hlen hfields
  obtain ⟨before, hbefore, haccepted⟩ := h.accepted_eq
  refine ⟨_, rfl, ?_⟩
  rw [hfields]
  refine ⟨⟨h.shape.1, h.shape.2, h.shape.3, h.shape.4⟩, h.capacity, h.channels, h.writeIndex, ?_,
    ?_, ?_⟩
  · simp only [h.readIndex]
    exact (UInt32.ofNat_add n 1).symm
  · simp only [haccepted, List.length_append, hbefore, List.length_replicate, Nat.succ_mul]
  · simp only [List.length_append, hlen, h.returned_length, h.channels, Nat.succ_mul]
    exact congrArg _ (Nat.one_mul _)

theorem roundTrips (h : Empty ring 0 s) (n : ℕ) :
    ∃ s', Run call s (List.replicate n (roundTrip x ring)).flatten s' ∧ Empty ring n s' := by
  induction n with
  | zero => exact ⟨s, .nil s, h⟩
  | succ n ih =>
    obtain ⟨t, ht, he⟩ := ih
    obtain ⟨u, hu, hsingle⟩ := he.write_one x
    obtain ⟨v, hv, he'⟩ := hsingle.read_one
    refine ⟨v, ?_, he'⟩
    rw [List.replicate_succ', List.flatten_append]
    exact ht.trans (by simpa [roundTrip] using Run.cons hu (.one hv))

theorem drain_head {ring : AudioOutputRing α} (hs : Shape ring) (hq : 0 < ring.queued) :
    (ring.read true (UInt32.ofNat uint32Max)).2.1[0]? =
      ring.samples[ring.readFrame.toNat % ring.capacityFrames.toNat * ring.channels.toNat]? := by
  have hcount := read_count ring uint32Max_ne_zero
  rw [read_eq _ uint32Max_ne_zero] at hcount ⊢
  simp only at hcount ⊢
  generalize ht : ring.readTransfer ring.readFrame ring.writeFrame (UInt32.ofNat uint32Max) = t
    at hcount ⊢
  have hloc : Located ring ring.readFrame.toNat t := by
    rw [← ht, readTransfer]
    exact located_word hs _ _
  have hall : (UInt32.ofNat uint32Max).toNat = 2 ^ 32 - 1 := rfl
  have hlt := Nat.mod_lt ring.readFrame.toNat hs.capacity_pos
  have hcap := hs.capacity_le
  have hfirst : 0 < ring.firstSamples t :=
    Nat.mul_pos (by rw [hloc.first_eq, hcount, hall]; omega) hs.channels_pos
  have hslot := Nat.mul_lt_mul_of_pos_right hlt hs.channels_pos
  rw [← hs.samples_length] at hslot
  have hoffset : ring.offsetSamples t =
      ring.readFrame.toNat % ring.capacityFrames.toNat * ring.channels.toNat := by
    rw [offsetSamples, hloc.offset_eq]
  have hlen : 0 < (ring.copyOutFirst t).length := by
    rw [copyOutFirst, slice, List.length_take, List.length_drop, hoffset]
    omega
  rw [List.getElem?_append_left hlen, copyOutFirst, slice, List.getElem?_take_of_lt hfirst,
    List.getElem?_drop, hoffset, Nat.add_zero]

theorem wrap_slot_lt {c : ℕ} (hpos : 0 < c) (hd : ¬ c ∣ 2 ^ 32) : uint32Max % c + 1 < c := by
  have hlt := Nat.mod_lt uint32Max hpos
  by_contra hge
  apply hd
  have hmod := Nat.mod_add_div uint32Max c
  refine ⟨uint32Max / c + 1, ?_⟩
  rw [Nat.mul_add]
  unfold uint32Max at *
  omega

structure Overwritten (ring : AudioOutputRing α) (s : Calls α) : Prop where
  shape : Shape s.ring
  capacity : s.ring.capacityFrames = ring.capacityFrames
  channels : s.ring.channels = ring.channels
  readIndex : s.ring.readFrame.toNat = uint32Max
  queued : 0 < s.ring.queued
  slot : s.ring.samples[uint32Max % ring.capacityFrames.toNat * ring.channels.toNat]? = some y
  accepted : s.accepted[uint32Max * ring.channels.toNat]? = some x
  returned_length : s.returned.length = uint32Max * ring.channels.toNat

theorem Overwritten.not_lossless (h : Overwritten x y ring s) (hxy : x ≠ y) : ¬ Lossless s := by
  intro hlossless
  have hhead := drain_head h.shape h.queued
  rw [h.readIndex, h.capacity, h.channels, h.slot] at hhead
  have hat := h.accepted
  rw [← hlossless, List.getElem?_append_right h.returned_length.le, h.returned_length, Nat.sub_self,
    hhead] at hat
  exact hxy (Option.some.inj hat).symm

theorem Single.accepted_head (h : Single x ring n s) (hch : 0 < ring.channels.toNat) (ys : List α) :
    (s.accepted ++ ys)[n * ring.channels.toNat]? = some x := by
  obtain ⟨before, hbefore, haccepted⟩ := h.accepted_eq
  rw [haccepted, List.append_assoc, List.getElem?_append_right hbefore.le, hbefore, Nat.sub_self,
    List.getElem?_append_left (by rwa [List.length_replicate]), List.getElem?_replicate_of_lt hch]

/-- Filling the ring across the wrap starts over at slot zero, which is not where
the slot of the frame before it is followed up. -/
theorem Single.fill (h : Single x ring uint32Max s) (hd : ¬ ring.capacityFrames.toNat ∣ 2 ^ 32) :
    ∃ s', call s (.write (some (List.replicate
      ((ring.capacityFrames - 1).toNat * ring.channels.toNat) y)) (ring.capacityFrames - 1)) =
        some s' ∧ Overwritten x y ring s' := by
  have hpos : 0 < ring.capacityFrames.toNat := h.capacity ▸ h.shape.capacity_pos
  have hchannels : 0 < ring.channels.toNat := h.channels ▸ h.shape.channels_pos
  have hslot := wrap_slot_lt hpos hd
  have hsub : (ring.capacityFrames - 1).toNat = ring.capacityFrames.toNat - 1 :=
    UInt32.toNat_sub_of_le _ _ (UInt32.le_iff_toNat_le.mpr hpos)
  have h₀ : ring.capacityFrames - 1 ≠ 0 := by
    intro h₀
    rw [h₀] at hsub
    change 0 = _ at hsub
    omega
  have hq : s.ring.queued ≤ s.ring.capacityFrames.toNat := by
    rw [h.queued_eq, h.capacity]
    exact hpos
  generalize hys : List.replicate
    ((ring.capacityFrames - 1).toNat * ring.channels.toNat) y = ys
  have hlen : ys.length = (ring.capacityFrames - 1).toNat * s.ring.channels.toNat := by
    rw [← hys, List.length_replicate, h.channels]
  have hcount : (s.ring.write (some ys) (ring.capacityFrames - 1)).1 = ring.capacityFrames - 1 := by
    apply UInt32.toNat.inj
    rw [write_count _ _ h₀ hq, h.queued_eq, h.capacity, hsub, Nat.min_self]
  obtain ⟨hshape, hholds⟩ := write_stores h₀ hq h.shape hlen
  have hcap := (write_capacityFrames s.ring ys h₀).trans h.capacity
  have hch := (write_channels s.ring ys h₀).trans h.channels
  have hr := write_readFrame s.ring ys h₀
  have hw := write_writeFrame s.ring ys h₀
  rw [hcount] at hw hholds
  refine ⟨_, call_write hlen, hshape, hcap, hch, ?_, ?_, ?_, h.accepted_head x hchannels _,
    h.returned_length⟩
  · rw [hr, h.readIndex]
    rfl
  · have hword := ring.capacityFrames.toNat_lt
    rw [queued, hw, hr, h.writeIndex, h.readIndex, ofNat_add_word, hsub,
      toNat_distance (by omega) (by omega)]
    omega
  · have hi := Nat.mul_lt_mul_of_pos_right
      (show uint32Max % ring.capacityFrames.toNat < ring.capacityFrames.toNat - 1 by omega) hchannels
    have hle := Nat.mul_le_mul_right ring.channels.toNat (Nat.sub_le ring.capacityFrames.toNat 1)
    have hsize := hshape.samples_length
    rw [hcap, hch] at hsize
    have hzero : s.ring.writeFrame.toNat = 0 := by rw [h.writeIndex]; rfl
    rw [hzero, Nat.zero_mul, List.take_of_length_le hlen.le] at hholds
    have hheld := hholds (uint32Max % ring.capacityFrames.toNat * ring.channels.toNat)
      (by rwa [hlen, h.channels, hsub])
    rw [Nat.zero_add, Nat.mod_eq_of_lt (by omega), ← hys,
      List.getElem?_replicate_of_lt (by rwa [hsub])] at hheld
    exact hys ▸ hheld

end Wrap

/-- Queueing a full ring across the word wrap loses a frame whenever the wrap
is not a whole number of laps. -/
theorem wrap_loses [Zero α] {capacityFrames channels : UInt32} {ring : AudioOutputRing α}
    (hc : construct capacityFrames channels = .ok ring) (hd : ¬ capacityFrames.toNat ∣ 2 ^ 32)
    {x y : α} (hxy : x ≠ y) :
    ∃ s, Run call (start ring) (wrapCalls x y ring) s ∧ ¬ Lossless s := by
  obtain ⟨hs, rfl, rfl, hw, hr, -⟩ := construct_ok hc
  have hempty : Empty ring 0 (start ring) :=
    ⟨hs, rfl, rfl, hw, hr, by simp [start], by simp [start]⟩
  obtain ⟨t, ht, he⟩ := roundTrips x hempty uint32Max
  obtain ⟨u, hu, hsingle⟩ := he.write_one x
  obtain ⟨v, hv, hover⟩ := hsingle.fill x y hd
  exact ⟨v, ht.trans (.cons hu (.one hv)), hover.not_lossless x y hxy⟩

/-- The ring never loses, duplicates or reorders a frame exactly when its
capacity divides the range of the frame indices. -/
theorem lossless_iff_capacity_divides [Zero α] [Nontrivial α] {capacityFrames channels : UInt32}
    {ring : AudioOutputRing α} (hc : construct capacityFrames channels = .ok ring) :
    (∀ calls s, Run call (start ring) calls s → Lossless s) ↔ capacityFrames.toNat ∣ 2 ^ 32 := by
  constructor
  · intro h
    by_contra hd
    obtain ⟨x, y, hxy⟩ := exists_pair_ne α
    obtain ⟨s, hrun, hlost⟩ := wrap_loses hc hd hxy
    exact hlost (h _ s hrun)
  · rintro hd calls s hrun
    obtain ⟨hs, rfl, rfl, hw, hr, -⟩ := construct_ok hc
    obtain ⟨W, R, hinv⟩ := run_inv hs hd hw hr hrun
    exact lossless_of_inv hinv

theorem capacity_four_lossless : ∃ ring : AudioOutputRing ℚ, construct 4 2 = .ok ring ∧
    ∀ calls s, Run call (start ring) calls s → Lossless s :=
  ⟨_, rfl, (lossless_iff_capacity_divides (show construct 4 2 = .ok _ from rfl)).mpr (by decide)⟩

/-- The capacity the ring tests use loses a frame after `2 ^ 32` frames. -/
theorem capacity_three_loses : ∃ ring : AudioOutputRing ℚ, construct 3 1 = .ok ring ∧
    ∃ s, Run call (start ring) (wrapCalls 1 2 ring) s ∧ ¬ Lossless s :=
  ⟨_, rfl, wrap_loses (show construct 3 1 = .ok _ from rfl) (by decide) (by decide)⟩

end NumarkNS6.AudioOut.RingCalls
