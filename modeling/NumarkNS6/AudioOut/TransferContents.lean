import NumarkNS6.AudioOut.AudioOutTransferBatch
import NumarkNS6.AudioOut.PacketSizes

namespace NumarkNS6.AudioOut

open Foundation.CircularStore AudioPacketPolicy

namespace AudioOutputRing

variable {α : Type} [Zero α] [Add α] [Sub α] [Mul α] [RatCast α]
  {ring : AudioOutputRing α}

theorem resampledFrame_length (readFrame available : UInt32) (phase : ℚ) :
    (ring.resampledFrame readFrame available phase).length = ring.channels.toNat := by
  simp [resampledFrame]

theorem resampleLoop_shape (readFrame available : UInt32) (sourceStep : ℚ) (n : ℕ)
    (r : Resampled α)
    (h : r.interleaved.length = r.produced * ring.channels.toNat) :
    (ring.resampleLoop readFrame available sourceStep n r).produced ≤ r.produced + n ∧
      (ring.resampleLoop readFrame available sourceStep n r).interleaved.length =
        (ring.resampleLoop readFrame available sourceStep n r).produced * ring.channels.toNat := by
  induction n generalizing r with
  | zero => exact ⟨Nat.le_refl _, h⟩
  | succ n ih =>
    rw [resampleLoop]
    split
    · exact ⟨Nat.le_add_right _ _, h⟩
    · obtain ⟨hle, hlen⟩ := ih ⟨r.produced + 1, r.phase + sourceStep,
        r.interleaved ++ ring.resampledFrame readFrame available r.phase⟩ (by
          rw [List.length_append, h, resampledFrame_length, Nat.succ_mul])
      exact ⟨by rw [Nat.add_right_comm] at hle; exact hle, hlen⟩

theorem readResampled_shape (ring : AudioOutputRing α) (frames : UInt32) (sourceStep : ℚ) :
    (ring.readResampled true frames sourceStep).1 ≤ frames ∧
      (ring.readResampled true frames sourceStep).2.1.length =
        (ring.readResampled true frames sourceStep).1.toNat * ring.channels.toNat ∧
      (ring.readResampled true frames sourceStep).2.2.channels = ring.channels := by
  obtain ⟨hle, hlen⟩ := @resampleLoop_shape _ _ _ _ _ _ ring ring.readFrame
    (min (ring.writeFrame - ring.readFrame) ring.capacityFrames) (usableStep sourceStep)
    frames.toNat ⟨0, ring.readFraction, []⟩ (Nat.zero_mul _).symm
  simp only [readResampled, Bool.true_eq_false, false_and, if_false]
  generalize ring.resampleLoop _ _ _ _ _ = r at hle hlen
  rw [Nat.zero_add] at hle
  have hnat : (UInt32.ofNat r.produced).toNat = r.produced := by
    rw [UInt32.toNat_ofNat']
    exact Nat.mod_eq_of_lt (by have := frames.toNat_lt; omega)
  refine ⟨?_, ?_, trivial⟩
  · rw [UInt32.le_iff_toNat_le, hnat]
    exact hle
  · rw [hnat, hlen]

end AudioOutputRing

namespace AudioOutPacket

def bytesPerFrame : ℕ := 12

theorem packed_length (samples : List ℚ) :
    (samples.flatMap (pack ∘ quantise)).length = samples.length * bytesPerSample := by
  induction samples with
  | nil => rfl
  | cons x samples ih =>
    rw [List.flatMap_cons, List.length_append, ih, List.length_cons, Nat.succ_mul, Nat.add_comm]
    rfl

theorem draw_channels (ring : AudioOutputRing ℚ) (frames : UInt32) (sourceStep : ℚ) :
    (draw ring frames sourceStep).2.2.channels = ring.channels := by
  have hread := (ring.readResampled_shape frames sourceStep).2.2
  simp only [draw]
  split <;> exact hread

end AudioOutPacket

namespace AudioOutTransferBatch

open AudioOutPacket

/-- What one packet contributes to a transfer: the frames it is to carry, those
the ring cannot supply, and its bytes. -/
structure Part where
  frames : ℕ
  shortfall : ℕ
  bytes : List UInt8

structure Part.Sound (part : Part) : Prop where
  length : part.bytes.length = bytesPerFrame * part.frames
  shortfall_le : part.shortfall ≤ part.frames
  silent : part.bytes.drop (bytesPerFrame * (part.frames - part.shortfall)) =
    List.replicate (bytesPerFrame * part.shortfall) 0

def part (ring : AudioOutputRing ℚ) (policy : AudioPacketPolicy) : Part :=
  let next := policy.nextPacketFrames
  let sourceStep := next.2.sourceFramesPerOutputFrame ring.availableFrames
  let packet := (AudioOutPacket.build ring policy).2.1
  { frames := next.1.toNat
    shortfall := next.1.toNat - (ring.readResampled true next.1 sourceStep).1.toNat
    bytes := packet.bytes.take packet.byteCount }

def parts : ℕ → AudioOutputRing ℚ → AudioPacketPolicy → List Part
  | 0, _, _ => []
  | n + 1, ring, policy =>
    let built := AudioOutPacket.build ring policy
    part ring policy :: parts n built.2.2.1 built.2.2.2

structure Packed (ring : AudioOutputRing ℚ) (policy : AudioPacketPolicy)
    (built : UInt32 × AudioOutPacket × AudioOutputRing ℚ × AudioPacketPolicy) : Prop where
  frames : built.1.toNat = (part ring policy).frames
  byteCount : built.2.1.byteCount = (part ring policy).bytes.length
  missingFrames : built.2.1.missingFrames = UInt32.ofNat (part ring policy).shortfall
  channels : built.2.2.1.channels = AudioOutPacket.channels
  next : built.2.2.2 = policy.nextPacketFrames.2
  sound : (part ring policy).Sound

theorem sound_bytes {audio : List UInt8} {frames supplied : ℕ} (hle : supplied ≤ frames)
    (hmax : bytesPerFrame * frames ≤ AudioOutPacket.maxBytes)
    (haudio : audio.length = bytesPerFrame * supplied) :
    Part.Sound ⟨frames, frames - supplied,
      (audio ++ List.replicate (AudioOutPacket.maxBytes - audio.length) 0).take
        (bytesPerFrame * frames)⟩ := by
  have hfit : bytesPerFrame * supplied ≤ bytesPerFrame * frames := Nat.mul_le_mul_left _ hle
  have hbytes : (audio ++ List.replicate (AudioOutPacket.maxBytes - audio.length) 0).take
      (bytesPerFrame * frames) = audio ++ List.replicate (bytesPerFrame * (frames - supplied)) 0 := by
    rw [List.take_append, List.take_of_length_le (haudio.trans_le hfit), List.take_replicate, haudio,
      Nat.min_eq_left (Nat.sub_le_sub_right hmax _), Nat.mul_sub]
  refine ⟨?_, Nat.sub_le _ _, ?_⟩
  · rw [hbytes, List.length_append, haudio, List.length_replicate, ← Nat.mul_add,
      Nat.add_sub_cancel' hle]
  · rw [hbytes, Nat.sub_sub_self hle, ← haudio, List.drop_left]

theorem build_eq {ring : AudioOutputRing ℚ} {policy : AudioPacketPolicy}
    (hc : ring.channels = channels) (hf : policy.nextPacketFrames.1 ≤ maxFrames) :
    AudioOutPacket.build ring policy =
      let next := policy.nextPacketFrames
      let drawn := draw ring next.1 (next.2.sourceFramesPerOutputFrame ring.availableFrames)
      let packed := (drawn.2.1.take (drawn.1.toNat * channels.toNat)).flatMap (pack ∘ quantise)
      (next.1,
        { bytes := packed ++ List.replicate (AudioOutPacket.maxBytes - packed.length) 0
          byteCount := next.1.toNat * channels.toNat * bytesPerSample
          missingFrames := next.1 - drawn.1 },
        drawn.2.2, next.2) := by
  rw [AudioOutPacket.build, if_neg (not_not.mpr hc)]
  exact if_neg (UInt32.not_lt.mpr hf)

theorem build_packed {ring : AudioOutputRing ℚ} {policy : AudioPacketPolicy}
    (hc : ring.channels = channels) (hf : policy.nextPacketFrames.1 ≤ maxFrames) :
    Packed ring policy (AudioOutPacket.build ring policy) := by
  have hbuild := build_eq hc hf
  have hdraw := draw_channels ring policy.nextPacketFrames.1
    (policy.nextPacketFrames.2.sourceFramesPerOutputFrame ring.availableFrames)
  obtain ⟨hle, hlen, -⟩ := ring.readResampled_shape policy.nextPacketFrames.1
    (policy.nextPacketFrames.2.sourceFramesPerOutputFrame ring.availableFrames)
  have hmax : bytesPerFrame * policy.nextPacketFrames.1.toNat ≤ AudioOutPacket.maxBytes :=
    Nat.mul_le_mul_left 12 (UInt32.le_iff_toNat_le.mp hf)
  have hcount (n : ℕ) : n * channels.toNat * bytesPerSample = bytesPerFrame * n := by
    rw [Nat.mul_assoc, Nat.mul_comm]
    rfl
  have hsound : (part ring policy).Sound := by
    rw [part, hbuild]
    simp only [hcount]
    refine sound_bytes (UInt32.le_iff_toNat_le.mp hle) hmax ?_
    rw [packed_length, List.length_take, draw, hlen, hc, Nat.min_self, hcount]
  refine ⟨?_, ?_, ?_, ?_, ?_, hsound⟩
  · rw [hbuild]
    rfl
  · rw [hsound.length, hbuild]
    exact hcount _
  · rw [hbuild, part, ← UInt32.toNat_sub_of_le _ _ hle, UInt32.ofNat_toNat]
    rfl
  · rw [hbuild]
    exact hdraw.trans hc
  · rw [hbuild]

structure Assembled (batch : AudioOutTransferBatch) (ps : List Part) : Prop where
  storage : batch.bytes.length = AudioOutTransferBatch.maxBytes
  entries : batch.packetByteCounts.length = serviceIntervals
  counts : batch.packetByteCounts.take ps.length = ps.map fun part ↦ UInt16.ofNat part.bytes.length
  byteCount : batch.byteCount = (ps.map Part.bytes).flatten.length
  contents : batch.bytes.take batch.byteCount = (ps.map Part.bytes).flatten
  missingFrames : batch.missingFrames = UInt32.ofNat (ps.map Part.shortfall).sum

theorem assembled_empty : Assembled empty [] :=
  ⟨List.length_replicate, List.length_replicate, rfl, rfl, rfl, rfl⟩

theorem take_set_succ {α : Type} {xs : List α} {i : ℕ} (h : i < xs.length) (x : α) :
    (xs.set i x).take (i + 1) = xs.take i ++ [x] := by
  rw [List.take_add_one, List.take_set_of_le (Nat.le_refl i), List.getElem?_set_self h]
  rfl

theorem room {used size count : ℕ} (hused : used ≤ AudioOutPacket.maxBytes * count)
    (hsize : size ≤ AudioOutPacket.maxBytes) (hcount : count < serviceIntervals) :
    used + size ≤ AudioOutTransferBatch.maxBytes := by
  simp only [AudioOutTransferBatch.maxBytes, AudioOutPacket.maxBytes, serviceIntervals] at *
  omega

variable {batch : AudioOutTransferBatch} {ps : List Part} {ring : AudioOutputRing ℚ}
  {policy : AudioPacketPolicy}

theorem Assembled.append (h : Assembled batch ps) (hps : ps.length < serviceIntervals)
    (hroom : batch.byteCount + (part ring policy).bytes.length ≤ AudioOutTransferBatch.maxBytes)
    (hp : Packed ring policy (AudioOutPacket.build ring policy)) :
    Assembled (batch.append ps.length (AudioOutPacket.build ring policy).2.1)
      (ps ++ [part ring policy]) where
  storage := (splice_length (by rw [h.storage]; exact hroom)).trans h.storage
  entries := (List.length_set ..).trans h.entries
  counts := by
    rw [AudioOutTransferBatch.append, List.length_append, List.length_singleton,
      take_set_succ (by rw [h.entries]; exact hps), h.counts, hp.byteCount, List.map_append]
    rfl
  byteCount := by
    simp only [AudioOutTransferBatch.append, hp.byteCount, h.byteCount]
    simp
  contents := by
    have hstart : batch.byteCount ≤ batch.bytes.length := by
      rw [h.storage]
      omega
    have htake := @take_splice _ _ (part ring policy).bytes _ hstart
    simp only [AudioOutTransferBatch.append, hp.byteCount]
    rw [show (AudioOutPacket.build ring policy).2.1.bytes.take (part ring policy).bytes.length =
      (part ring policy).bytes by rw [← hp.byteCount]; rfl, htake, h.contents]
    simp
  missingFrames := by
    simp only [AudioOutTransferBatch.append, hp.missingFrames, h.missingFrames]
    simp [UInt32.ofNat_add]

theorem Assembled.buildLoop (h : Assembled batch ps) (hc : ring.channels = channels) {n : ℕ}
    (hn : ps.length + n = serviceIntervals)
    (hps : batch.byteCount ≤ AudioOutPacket.maxBytes * ps.length)
    (hframes : ∀ f ∈ (packetFrames n policy).1, 0 < f ∧ f ≤ maxFrames.toNat) :
    ∃ batch' ring', buildLoop n batch ring policy = (true, batch', ring', (packetFrames n policy).2) ∧
      ring'.channels = channels ∧ Assembled batch' (ps ++ parts n ring policy) ∧
      (parts n ring policy).map Part.frames = (packetFrames n policy).1 ∧
      ∀ part ∈ parts n ring policy, part.Sound := by
  induction n generalizing batch ps ring policy with
  | zero => exact ⟨batch, ring, rfl, hc, by rwa [parts, List.append_nil], rfl, nofun⟩
  | succ n ih =>
    obtain ⟨⟨hpos, hmax⟩, hrest⟩ := List.forall_mem_cons.mp hframes
    have hp := build_packed hc (UInt32.le_iff_toNat_le.mpr hmax)
    have hpart : (part ring policy).bytes.length ≤ AudioOutPacket.maxBytes := by
      rw [hp.sound.length]
      exact Nat.mul_le_mul_left 12 hmax
    have hnonzero : (AudioOutPacket.build ring policy).1 ≠ 0 := by
      intro h0
      have hzero := hp.frames
      rw [h0] at hzero
      exact absurd hzero.symm (Nat.ne_of_gt hpos)
    have hlt : ps.length < serviceIntervals := by omega
    have happend := h.append hlt (room hps hpart hlt) hp
    have hlength : (ps ++ [part ring policy]).length = ps.length + 1 := List.length_append
    have hused : (batch.append ps.length (AudioOutPacket.build ring policy).2.1).byteCount ≤
        AudioOutPacket.maxBytes * (ps ++ [part ring policy]).length := by
      rw [AudioOutTransferBatch.append, hp.byteCount, hlength, Nat.mul_succ]
      exact Nat.add_le_add hps hpart
    obtain ⟨batch', ring', hloop, hchannels, hall, hmap, hsound⟩ :=
      ih happend hp.channels (by omega) hused hrest
    have hindex : serviceIntervals - (n + 1) = ps.length := by omega
    rw [AudioOutTransferBatch.buildLoop, if_neg hnonzero, hindex, hp.next, hloop]
    refine ⟨batch', ring', rfl, hchannels, ?_, ?_, ?_⟩
    · rw [parts, hp.next]
      simpa only [List.append_assoc, List.singleton_append] using hall
    · rw [parts, hp.next, List.map_cons, hmap]
      rfl
    · rw [parts, hp.next]
      exact List.forall_mem_cons.mpr ⟨hp.sound, hsound⟩

theorem parts_length (n : ℕ) (ring : AudioOutputRing ℚ) (policy : AudioPacketPolicy) :
    (parts n ring policy).length = n := by
  induction n generalizing ring policy with
  | zero => rfl
  | succ n ih => rw [parts, List.length_cons, ih]

/-- A transfer the device can take, with every byte of it accounted for by the
parts of its packets. -/
structure Legal (batch : AudioOutTransferBatch) (ps : List Part) : Prop where
  packets : ps.length = serviceIntervals
  counts : batch.packetByteCounts = ps.map fun part ↦ UInt16.ofNat part.bytes.length
  sizes : ∀ count ∈ batch.packetByteCounts, count = 60 ∨ count = 72
  groups : ∀ g < 4, 42 ≤ ((slice ps (8 * g) 8).map Part.frames).sum ∧
    ((slice ps (8 * g) 8).map Part.frames).sum ≤ 46
  byteCount : batch.byteCount = (batch.packetByteCounts.map UInt16.toNat).sum
  bound : batch.byteCount ≤ AudioOutTransferBatch.maxBytes
  contents : batch.bytes.take batch.byteCount = (ps.map Part.bytes).flatten
  missingFrames : batch.missingFrames.toNat = (ps.map Part.shortfall).sum
  sound : ∀ part ∈ ps, part.Sound

theorem sum_map_le {α : Type} {xs : List α} {f : α → ℕ} {bound : ℕ} (h : ∀ x ∈ xs, f x ≤ bound) :
    (xs.map f).sum ≤ bound * xs.length := by
  induction xs with
  | nil => exact Nat.zero_le _
  | cons x xs ih =>
    obtain ⟨hx, hxs⟩ := List.forall_mem_cons.mp h
    rw [List.map_cons, List.sum_cons, List.length_cons, Nat.mul_succ, Nat.add_comm]
    exact Nat.add_le_add (ih hxs) hx

theorem legal_frames {blocks : List (List UInt8)} (h : ∀ b ∈ blocks, LegalMillisecond b) :
    ∀ f ∈ blocks.flatten.map UInt8.toNat, f = 5 ∨ f = 6 := by
  intro f hf
  obtain ⟨v, hv, rfl⟩ := List.mem_map.mp hf
  obtain ⟨b, hb, hvb⟩ := List.mem_flatten.mp hv
  obtain rfl | rfl := (h b hb).2.1 v hvb
  · exact .inl rfl
  · exact .inr rfl

theorem legal_groups {blocks : List (List UInt8)} (h : ∀ b ∈ blocks, LegalMillisecond b) {g : ℕ}
    (hg : g < blocks.length) : 42 ≤ (slice (blocks.flatten.map UInt8.toNat) (8 * g) 8).sum ∧
      (slice (blocks.flatten.map UInt8.toNat) (8 * g) 8).sum ≤ 46 := by
  have hslice : slice blocks.flatten (8 * g) 8 = blocks[g] :=
    slice_flatten (fun b hb ↦ (h b hb).1) (List.getElem?_eq_getElem hg)
  rw [slice, ← List.map_drop, ← List.map_take, ← slice, hslice]
  exact (h _ (List.getElem_mem hg)).2.2

theorem Part.Sound.sizes {part : Part} (h : part.Sound) (hf : part.frames = 5 ∨ part.frames = 6) :
    part.bytes.length = 60 ∨ part.bytes.length = 72 := by
  rw [h.length]
  exact hf.imp (congrArg (bytesPerFrame * ·)) (congrArg (bytesPerFrame * ·))

theorem Assembled.legal (h : Assembled batch ps) (hlen : ps.length = serviceIntervals)
    (hsound : ∀ part ∈ ps, part.Sound) {blocks : List (List UInt8)} (hfour : blocks.length = 4)
    (hblocks : ∀ b ∈ blocks, LegalMillisecond b)
    (hframes : ps.map Part.frames = blocks.flatten.map UInt8.toNat) : Legal batch ps := by
  have hfive : ∀ part ∈ ps, part.frames = 5 ∨ part.frames = 6 := by
    intro part hpart
    refine legal_frames hblocks _ ?_
    rw [← hframes]
    exact List.mem_map_of_mem hpart
  have hsizes : ∀ part ∈ ps, part.bytes.length = 60 ∨ part.bytes.length = 72 :=
    fun part hpart ↦ (hsound part hpart).sizes (hfive part hpart)
  have hcounts := h.counts
  rw [hlen, List.take_of_length_le h.entries.le] at hcounts
  have htotal : batch.byteCount = (ps.map fun part ↦ part.bytes.length).sum := by
    rw [h.byteCount, List.length_flatten, List.map_map]
    rfl
  refine ⟨hlen, hcounts, ?_, ?_, ?_, ?_, h.contents, ?_, hsound⟩
  · intro count hcount
    rw [hcounts] at hcount
    obtain ⟨part, hpart, rfl⟩ := List.mem_map.mp hcount
    exact (hsizes part hpart).imp (congrArg UInt16.ofNat) (congrArg UInt16.ofNat)
  · intro g hg
    have hgroup := legal_groups hblocks (hfour.symm ▸ hg)
    rwa [← hframes, slice, ← List.map_drop, ← List.map_take] at hgroup
  · rw [htotal, hcounts, List.map_map]
    refine congrArg List.sum (List.map_congr_left fun part hpart ↦ ?_)
    obtain hsize | hsize := hsizes part hpart <;> rw [Function.comp_apply, hsize] <;> rfl
  · have hle : batch.byteCount ≤ 72 * ps.length := by
      rw [htotal]
      exact sum_map_le fun part hpart ↦ by have := hsizes part hpart; omega
    rw [hlen] at hle
    exact hle.trans (by decide)
  · have hle : (ps.map Part.shortfall).sum ≤ 6 * ps.length := by
      refine sum_map_le fun part hpart ↦ ?_
      have := (hsound part hpart).shortfall_le
      have := hfive part hpart
      omega
    rw [hlen, serviceIntervals] at hle
    rw [h.missingFrames, UInt32.toNat_ofNat']
    exact Nat.mod_eq_of_lt (by omega)

/-- Between milliseconds a batch can be built, and leaves the policy between
milliseconds again. -/
theorem build_legal (h : Ready policy) (hc : ring.channels = channels) :
    (build ring policy).1 = true ∧
      Legal (build ring policy).2.1 (parts serviceIntervals ring policy) ∧
      (build ring policy).2.2.1.channels = channels ∧ Ready (build ring policy).2.2.2 := by
  obtain ⟨blocks, hfour, hlegal, hframes, hready⟩ := h.milliseconds 4
  have hcount : AudioFeedbackPatternPolicy.packetsPerMillisecond * 4 = serviceIntervals := rfl
  rw [hcount] at hframes hready
  have hlarge : ∀ f ∈ (packetFrames serviceIntervals policy).1, 0 < f ∧ f ≤ maxFrames.toNat := by
    intro f hf
    obtain rfl | rfl := legal_frames hlegal f (hframes ▸ hf) <;> decide
  obtain ⟨batch, ring', hbuild, hchannels, hbatch, hmap, hsound⟩ :=
    assembled_empty.buildLoop hc (Nat.zero_add _) (Nat.zero_le _) hlarge
  rw [build, hbuild]
  dsimp only
  exact ⟨rfl, hbatch.legal (parts_length _ _ _) hsound hfour hlegal (hmap.trans hframes), hchannels,
    hready⟩

theorem build_refused (policy : AudioPacketPolicy) (hc : ring.channels ≠ channels) :
    (build ring policy).2.2 = (ring, policy) := by
  have hpacket : AudioOutPacket.build ring policy = (0, AudioOutPacket.empty, ring, policy) :=
    if_pos hc
  rw [build, serviceIntervals, AudioOutTransferBatch.buildLoop, hpacket, if_pos rfl]

end AudioOutTransferBatch

end NumarkNS6.AudioOut
