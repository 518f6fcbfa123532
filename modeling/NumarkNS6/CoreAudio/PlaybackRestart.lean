import NumarkNS6.AudioOut.PacketOrigins
import NumarkNS6.AudioOut.TransferContents
import NumarkNS6.CoreAudio.NS6AudioDriver

namespace NumarkNS6.CoreAudio

open AudioOut Foundation.Runs Usb

def DriverState.opensHardware (s : DriverState) : DriverOp → Bool
  | .startIo device client _ =>
    validDevice device && s.hasClient device client && !s.anyActive &&
      ((s.lifecycle device).startIo client).1 ≠ .rejected
  | .monitorTick current present close _ =>
    let t := if s.session.isSome && !current then (s.stopHardware close).2 else s
    s.anyActive && t.session.isNone && present
  | _ => false

/-- What the output worker of the runtime is doing: there is none, it builds packets,
it has given up by itself, or it is being replaced, with the frames to drop once
they have been counted. -/
inductive Output
  | stopped
  | building
  | failed
  | recovering
  | dropping (frames : UInt32)
deriving DecidableEq

/-- What went into a packet, with the number of frames that had been accepted when
the restart of its worker began. -/
structure Packet where
  samples : List ℚ
  origins : List Origin
  mark : ℕ

/-- The driver, its output ring and whoever takes packets from it. `opening` is the
operation that is inside `startHardware`, `accepted` what the producer has written
so far, and `consumed` how many frames of it have left the ring. -/
structure Player where
  driver : DriverState
  opening : Option DriverOp
  ring : AudioOutputRing ℚ
  output : Output
  accepted : List ℚ
  acceptedFrames : ℕ
  consumed : ℕ
  mark : ℕ
  packets : List Packet

namespace Player

def outputRing : AudioOutputRing ℚ where
  capacityFrames := 16384
  channels := AudioOutPacket.channels
  samples := List.replicate 65536 0
  writeFrame := 0
  readFrame := 0
  readFraction := 0

def initial (host : Bool) (timestampAnchor : UInt64) : Player where
  driver := .initial host timestampAnchor
  opening := none
  ring := outputRing
  output := .stopped
  accepted := []
  acceptedFrames := 0
  consumed := 0
  mark := 0
  packets := []

def settle (s : Player) (op : DriverOp) : Player :=
  let driver := (s.driver.step op).2
  { s with
    driver
    opening := none
    output := if driver.runtime.isSome then s.output else .stopped }

def consume (s : Player) (ring : AudioOutputRing ℚ) : Player :=
  { s with ring, consumed := s.consumed + (ring.readFrame - s.ring.readFrame).toNat }

def draw (s : Player) (frames : UInt32) (sourceStep : ℚ) : Player :=
  let r := s.ring.readResampled true frames sourceStep
  { s.consume r.2.2 with
    packets := s.packets ++ [⟨r.2.1, s.ring.origins frames sourceStep s.consumed, s.mark⟩] }

def skip (s : Player) (frames : UInt32) (sourceStep : ℚ) : Player :=
  s.consume (s.ring.advanceResampled frames sourceStep)

inductive Action
  | driver (op : DriverOp)
  | enter (op : DriverOp)
  | leave
  | write (interleaved : List ℚ) (frames : UInt32)
  | draw (frames : UInt32) (sourceStep : ℚ)
  | skip (frames : UInt32) (sourceStep : ℚ)
  | fail
  | recover
  | count
  | drop

/-- The operations of the driver exclude each other. One that starts the hardware is
split, because two workers take packets before it is done, and by then a start is
counted, so the producer may write. A worker takes any number of frames at any
rate, in separate calls on the ring. -/
def step (s : Player) : Action → Option Player
  | .driver op =>
    if s.opening.isNone ∧ s.driver.opensHardware op = false then some (s.settle op) else none
  | .enter op =>
    if s.opening.isNone ∧ s.driver.opensHardware op = true then
      some { s with opening := some op, output := .building, mark := s.acceptedFrames }
    else none
  | .leave => s.opening.map s.settle
  | .write interleaved frames =>
    if (s.driver.anyActive ∨ s.opening.isSome) ∧
        interleaved.length = frames.toNat * s.ring.channels.toNat then
      let w := s.ring.write (some interleaved) frames
      some { s with
        ring := w.2
        accepted := s.accepted ++ interleaved.take (w.1.toNat * s.ring.channels.toNat)
        acceptedFrames := s.acceptedFrames + w.1.toNat }
    else none
  | .draw frames sourceStep =>
    if s.output = .building then some (s.draw frames sourceStep) else none
  | .skip frames sourceStep =>
    if s.output = .building then some (s.skip frames sourceStep) else none
  | .fail => if s.output = .building then some { s with output := .failed } else none
  | .recover =>
    if s.output = .failed then some { s with output := .recovering, mark := s.acceptedFrames }
    else none
  | .count =>
    if s.output = .recovering then some { s with output := .dropping s.ring.availableFrames } else none
  | .drop =>
    match s.output with
    | .dropping frames => some { s.skip frames 1 with output := .building }
    | _ => none

def Proper (s : Player) : Action → Prop
  | .enter _ => s.ring.availableFrames = 0
  | _ => True

instance (s : Player) : ∀ a, Decidable (s.Proper a)
  | .enter _ => inferInstanceAs (Decidable (s.ring.availableFrames = 0))
  | .driver _ | .leave | .write _ _ | .draw _ _ | .skip _ _ | .fail | .recover | .count | .drop =>
    .isTrue trivial

def properStep (s : Player) (a : Action) : Option Player := if s.Proper a then s.step a else none

end Player

/-- The packet is made of frames that were accepted after the restart began. -/
structure Packet.Fresh (accepted : List ℚ) (p : Packet) : Prop where
  samples : p.samples = p.origins.flatMap (Origin.frame accepted AudioOutPacket.channels.toNat)
  origins : ∀ o ∈ p.origins,
    (p.mark ≤ o.first ∧ o.first < accepted.length / AudioOutPacket.channels.toNat) ∧
    p.mark ≤ o.second ∧ o.second < accepted.length / AudioOutPacket.channels.toNat

theorem Packet.Fresh.append {accepted : List ℚ} {p : Packet} (h : p.Fresh accepted) (more : List ℚ) :
    p.Fresh (accepted ++ more) := by
  have hle : accepted.length / AudioOutPacket.channels.toNat ≤
      (accepted ++ more).length / AudioOutPacket.channels.toNat := by
    rw [List.length_append]
    exact Nat.div_le_div_right (Nat.le_add_right _ _)
  refine ⟨?_, fun o ho ↦ ?_⟩
  · rw [h.samples]
    refine List.flatMap_congr fun o ho ↦ ?_
    obtain ⟨hfirst, hsecond⟩ := h.origins o ho
    exact (Origin.frame_append hfirst.2 hsecond.2 more).symm
  · obtain ⟨hfirst, hsecond⟩ := h.origins o ho
    exact ⟨⟨hfirst.1, hfirst.2.trans_le hle⟩, hsecond.1, hsecond.2.trans_le hle⟩

def Output.Safe (mark consumed acceptedFrames : ℕ) : Output → Prop
  | .building => mark ≤ consumed
  | .dropping frames => mark ≤ consumed + frames.toNat ∧ consumed + frames.toNat ≤ acceptedFrames
  | _ => True

namespace Player

variable {s t u : Player}

structure Sound (s : Player) : Prop where
  keeps : s.ring.Keeps s.accepted s.acceptedFrames s.consumed
  channels : s.ring.channels = AudioOutPacket.channels
  fraction : 0 ≤ s.ring.readFraction ∧ s.ring.readFraction < 1
  marked : s.mark ≤ s.acceptedFrames

theorem outputRing_construct :
    AudioOutputRing.construct 16384 AudioOutPacket.channels = .ok outputRing := rfl

theorem sound_initial (host : Bool) (timestampAnchor : UInt64) :
    Sound (initial host timestampAnchor) where
  keeps := (RingInterleaving.initial_inv (AudioOutputRing.construct_ok outputRing_construct).1
    (by decide) rfl rfl).stored
  channels := rfl
  fraction := ⟨le_rfl, zero_lt_one⟩
  marked := Nat.le_refl 0

theorem Sound.available (h : Sound s) :
    s.consumed + s.ring.availableFrames.toNat = s.acceptedFrames := by
  have horder : s.consumed ≤ s.acceptedFrames := h.keeps.order
  rw [AudioOutputRing.availableFrames_toNat h.keeps.queued_le, h.keeps.queued]
  omega

theorem Sound.write (h : Sound s) {interleaved : List ℚ} {frames : UInt32}
    (hlen : interleaved.length = frames.toNat * s.ring.channels.toNat) :
    Sound { s with
      ring := (s.ring.write (some interleaved) frames).2
      accepted := s.accepted ++ interleaved.take
        ((s.ring.write (some interleaved) frames).1.toNat * s.ring.channels.toNat)
      acceptedFrames := s.acceptedFrames + (s.ring.write (some interleaved) frames).1.toNat } := by
  obtain ⟨-, hchannels, hfraction⟩ := h.keeps.write_count_le interleaved frames
  exact ⟨h.keeps.write hlen, hchannels.trans h.channels, hfraction ▸ h.fraction,
    h.marked.trans (Nat.le_add_right _ _)⟩

theorem Sound.consume (h : Sound s) {ring : AudioOutputRing ℚ} (ha : s.ring.Advanced ring) :
    Sound (s.consume ring) := by
  cases ha with
  | moved n fraction hle hf =>
    have havail := h.keeps.queued
    have horder : s.consumed ≤ s.acceptedFrames := h.keeps.order
    have hword : n < 2 ^ 32 := lt_of_le_of_lt hle (s.ring.writeFrame - s.ring.readFrame).toNat_lt
    have hdist : (s.ring.readFrame + UInt32.ofNat n - s.ring.readFrame).toNat = n := by
      rw [add_sub_cancel_left, UInt32.toNat_ofNat', Nat.mod_eq_of_lt hword]
    have hkeeps := h.keeps.consume (n := n) (by omega) fraction
    refine ⟨?_, h.channels, hf, h.marked⟩
    simp only [Player.consume, hdist]
    exact hkeeps

theorem Sound.step {a : Action} (h : Sound s) (ht : s.step a = some t) : Sound t := by
  cases a with
  | driver op =>
    obtain ⟨-, ⟨⟩⟩ := Option.ite_none_right_eq_some.mp ht
    exact ⟨h.keeps, h.channels, h.fraction, h.marked⟩
  | enter op =>
    obtain ⟨-, ⟨⟩⟩ := Option.ite_none_right_eq_some.mp ht
    exact ⟨h.keeps, h.channels, h.fraction, le_rfl⟩
  | leave =>
    obtain ⟨op, -, rfl⟩ := Option.map_eq_some_iff.mp ht
    exact ⟨h.keeps, h.channels, h.fraction, h.marked⟩
  | write interleaved frames =>
    obtain ⟨hguard, ⟨⟩⟩ := Option.ite_none_right_eq_some.mp ht
    exact h.write hguard.2
  | draw frames sourceStep =>
    obtain ⟨-, ⟨⟩⟩ := Option.ite_none_right_eq_some.mp ht
    have hsound := h.consume (s.ring.readResampled_advanced frames sourceStep)
    exact ⟨hsound.keeps, hsound.channels, hsound.fraction, hsound.marked⟩
  | skip frames sourceStep =>
    obtain ⟨-, ⟨⟩⟩ := Option.ite_none_right_eq_some.mp ht
    exact h.consume (s.ring.advanceResampled_advanced frames sourceStep)
  | fail =>
    obtain ⟨-, ⟨⟩⟩ := Option.ite_none_right_eq_some.mp ht
    exact ⟨h.keeps, h.channels, h.fraction, h.marked⟩
  | recover =>
    obtain ⟨-, ⟨⟩⟩ := Option.ite_none_right_eq_some.mp ht
    exact ⟨h.keeps, h.channels, h.fraction, le_rfl⟩
  | count =>
    obtain ⟨-, ⟨⟩⟩ := Option.ite_none_right_eq_some.mp ht
    exact ⟨h.keeps, h.channels, h.fraction, h.marked⟩
  | drop =>
    simp only [Player.step] at ht
    split at ht
    · next frames hd =>
      cases ht
      have hsound := h.consume (s.ring.advanceResampled_advanced frames 1)
      exact ⟨hsound.keeps, hsound.channels, hsound.fraction, hsound.marked⟩
    · cases ht

structure Inv (s : Player) : Prop extends Sound s where
  output : s.output.Safe s.mark s.consumed s.acceptedFrames
  packets : ∀ p ∈ s.packets, p.Fresh s.accepted

theorem Inv.safe_write (h : Inv s) (n : ℕ) :
    s.output.Safe s.mark s.consumed (s.acceptedFrames + n) := by
  have hsafe := h.output
  cases ho : s.output with
  | dropping frames =>
    rw [ho] at hsafe
    exact ⟨hsafe.1, hsafe.2.trans (Nat.le_add_right _ _)⟩
  | building => rwa [ho] at hsafe
  | stopped | failed | recovering => trivial

theorem Inv.safe_consume (h : Inv s) (hb : s.output = .building) (n : ℕ) :
    s.output.Safe s.mark (s.consumed + n) s.acceptedFrames := by
  have hsafe := h.output
  rw [hb] at hsafe ⊢
  exact hsafe.trans (Nat.le_add_right _ _)

theorem Inv.safe_settle (h : Inv s) (op : DriverOp) :
    (s.settle op).output.Safe s.mark s.consumed s.acceptedFrames := by
  rw [settle]
  dsimp only
  split
  · exact h.output
  · trivial

/-- The recovery drops every frame that was there when it began. -/
theorem Inv.safe_drop (h : Inv s) {frames : UInt32} (hd : s.output = .dropping frames) :
    s.mark ≤ (s.skip frames 1).consumed := by
  have hsafe := h.output
  rw [hd] at hsafe
  have hle : frames.toNat ≤ s.ring.availableFrames.toNat :=
    Nat.le_of_add_le_add_left (hsafe.2.trans h.available.ge)
  rw [skip, Player.consume, AudioOutputRing.advanceResampled_drop h.fraction hle, add_sub_cancel_left]
  exact hsafe.1

theorem Inv.fresh (h : Inv s) (hb : s.output = .building) (frames : UInt32) (sourceStep : ℚ) :
    Packet.Fresh s.accepted ⟨(s.ring.readResampled true frames sourceStep).2.1,
      s.ring.origins frames sourceStep s.consumed, s.mark⟩ := by
  obtain ⟨hsamples, horigins⟩ := h.keeps.readResampled frames sourceStep
  have hmark : s.mark ≤ s.consumed := by
    have hsafe := h.output
    rwa [hb] at hsafe
  have hcount : s.accepted.length / AudioOutPacket.channels.toNat = s.acceptedFrames := by
    have hlen : s.accepted.length = s.acceptedFrames * s.ring.channels.toNat :=
      h.keeps.accepted_length
    rw [hlen, h.channels]
    exact Nat.mul_div_cancel _ (by decide)
  rw [h.channels] at hsamples
  refine ⟨hsamples, fun o ho ↦ ?_⟩
  obtain ⟨hfirst, hsecond⟩ := horigins o ho
  rw [hcount]
  exact ⟨⟨hmark.trans hfirst.1, hfirst.2⟩, hmark.trans hsecond.1, hsecond.2⟩

theorem Inv.step {a : Action} (h : Inv s) (ht : s.properStep a = some t) : Inv t := by
  obtain ⟨hproper, ht⟩ := Option.ite_none_right_eq_some.mp ht
  have hsound := h.toSound.step ht
  cases a with
  | driver op =>
    obtain ⟨-, ⟨⟩⟩ := Option.ite_none_right_eq_some.mp ht
    exact ⟨hsound, h.safe_settle op, h.packets⟩
  | enter op =>
    obtain ⟨-, ⟨⟩⟩ := Option.ite_none_right_eq_some.mp ht
    have hempty : s.ring.availableFrames.toNat = 0 := congrArg UInt32.toNat hproper
    have havail := h.available
    rw [hempty] at havail
    exact ⟨hsound, havail.ge, h.packets⟩
  | leave =>
    obtain ⟨op, -, rfl⟩ := Option.map_eq_some_iff.mp ht
    exact ⟨hsound, h.safe_settle op, h.packets⟩
  | write interleaved frames =>
    obtain ⟨-, ⟨⟩⟩ := Option.ite_none_right_eq_some.mp ht
    exact ⟨hsound, h.safe_write _, fun p hp ↦ (h.packets p hp).append _⟩
  | draw frames sourceStep =>
    obtain ⟨hb, ⟨⟩⟩ := Option.ite_none_right_eq_some.mp ht
    exact ⟨hsound, h.safe_consume hb _, List.forall_mem_append.mpr
      ⟨h.packets, List.forall_mem_singleton.mpr (h.fresh hb frames sourceStep)⟩⟩
  | skip frames sourceStep =>
    obtain ⟨hb, ⟨⟩⟩ := Option.ite_none_right_eq_some.mp ht
    exact ⟨hsound, h.safe_consume hb _, h.packets⟩
  | fail | recover =>
    obtain ⟨-, ⟨⟩⟩ := Option.ite_none_right_eq_some.mp ht
    exact ⟨hsound, trivial, h.packets⟩
  | count =>
    obtain ⟨-, ⟨⟩⟩ := Option.ite_none_right_eq_some.mp ht
    exact ⟨hsound, ⟨h.marked.trans h.available.ge, h.available.le⟩, h.packets⟩
  | drop =>
    simp only [Player.step] at ht
    split at ht
    · next frames hd =>
      cases ht
      exact ⟨hsound, h.safe_drop hd, h.packets⟩
    · cases ht

theorem inv_of_run {host : Bool} {timestampAnchor : UInt64} {as : List Action}
    (h : Run properStep (initial host timestampAnchor) as s) : Inv s :=
  h.invariant ⟨sound_initial host timestampAnchor, trivial, nofun⟩ fun _ _ _ hs ht ↦ hs.step ht

/-- If the ring is empty whenever the hardware is started, every packet of every
worker is made of frames that were written after its restart began. -/
theorem fresh_of_run {host : Bool} {timestampAnchor : UInt64} {as : List Action}
    (h : Run properStep (initial host timestampAnchor) as s) :
    ∀ p ∈ s.packets, p.Fresh s.accepted :=
  (inv_of_run h).packets

/-- A worker that fails with frames in the ring is replaced while more are written. -/
def recovery : List Action :=
  [.driver (.addClient 2 (some ⟨7, 1, []⟩)), .enter (.startIo 2 7 (.allSucceed 1000)), .leave,
    .write (List.replicate 8 1) 2, .draw 1 1, .fail, .recover, .count,
    .write (List.replicate 4 (1 / 2)) 1, .drop, .draw 5 1, .skip 4 1]

theorem fresh_of_run_recovery :
    ∃ s, Run properStep (initial true 0) recovery s ∧
      s.packets.map Packet.samples = [List.replicate 4 1, List.replicate 4 (1 / 2)] ∧
      ∀ p ∈ s.packets, p.Fresh s.accepted := by
  have hrun : (recovery.foldlM properStep (initial true 0)).any fun s ↦
      s.packets.map Packet.samples = [List.replicate 4 1, List.replicate 4 (1 / 2)] := by
    decide +kernel
  obtain ⟨s, hfold, hsamples⟩ := (Option.any_eq_true _ _).mp hrun
  exact ⟨s, .of_foldlM hfold, of_decide_eq_true hsamples, fresh_of_run (.of_foldlM hfold)⟩

/-- The last client stops with frames in the ring, and a client starts again. -/
def reopening : List Action :=
  [.driver (.addClient 2 (some ⟨7, 1, []⟩)), .enter (.startIo 2 7 (.allSucceed 1000)), .leave,
    .write (List.replicate 8 1) 2, .driver (.stopIo 2 7 .success),
    .enter (.startIo 2 7 (.allSucceed 2000)), .draw 6 (199 / 200), .skip 3 (199 / 200),
    .leave]

/-- Nothing is written after the second start, and yet its worker plays. -/
theorem stale_after_reopening :
    ∃ s, Run step (initial true 0) reopening s ∧ s.driver.runtime.isSome ∧
      ∃ p ∈ s.packets, p.samples = List.replicate 12 1 ∧ p.mark = s.acceptedFrames ∧
        ¬ p.Fresh s.accepted := by
  have hrun : (reopening.foldlM step (initial true 0)).any fun s ↦
      s.driver.runtime.isSome ∧ ∃ p ∈ s.packets, p.samples = List.replicate 12 1 ∧
        p.mark = s.acceptedFrames ∧ ∃ o ∈ p.origins, o.first < p.mark := by
    decide +kernel
  obtain ⟨s, hfold, h⟩ := (Option.any_eq_true _ _).mp hrun
  obtain ⟨hruntime, p, hp, hsamples, hmark, o, ho, hlt⟩ := of_decide_eq_true h
  refine ⟨s, .of_foldlM hfold, hruntime, p, hp, hsamples, hmark, fun hfresh ↦ ?_⟩
  exact absurd (hfresh.origins o ho).1.1 (Nat.not_le.mpr hlt)

section Transfers

open AudioOutPacket (pack quantise)
open AudioOutTransferBatch (part parts)

def audio (drawn : List Packet) : List UInt8 :=
  (drawn.flatMap Packet.samples).flatMap (pack ∘ quantise)

structure Drew (s t : Player) (drawn : List Packet) : Prop where
  output : t.output = s.output
  accepted : t.accepted = s.accepted
  mark : t.mark = s.mark
  packets : t.packets = s.packets ++ drawn
  marked : ∀ p ∈ drawn, p.mark = s.mark

theorem draw_run (hb : s.output = .building) (frames : UInt32) (sourceStep : ℚ) :
    ∃ as t, Run properStep s as t ∧ t.ring = (AudioOutPacket.draw s.ring frames sourceStep).2.2 ∧
      Drew s t [⟨(AudioOutPacket.draw s.ring frames sourceStep).2.1,
        s.ring.origins frames sourceStep s.consumed, s.mark⟩] := by
  have hdraw : s.properStep (.draw frames sourceStep) = some (s.draw frames sourceStep) := if_pos hb
  by_cases hmissing : frames - (s.ring.readResampled true frames sourceStep).1 ≠ 0
  · have hskip (n : UInt32) : (s.draw frames sourceStep).properStep (.skip n sourceStep) =
        some ((s.draw frames sourceStep).skip n sourceStep) := if_pos hb
    refine ⟨_, _, (Run.one hdraw).snoc (hskip _), (if_pos hmissing).symm, ?_⟩
    exact ⟨rfl, rfl, rfl, rfl, List.forall_mem_singleton.mpr rfl⟩
  · refine ⟨_, _, .one hdraw, (if_neg hmissing).symm, ?_⟩
    exact ⟨rfl, rfl, rfl, rfl, List.forall_mem_singleton.mpr rfl⟩

theorem take_draw {ring : AudioOutputRing ℚ} (hc : ring.channels = AudioOutPacket.channels)
    (frames : UInt32) (sourceStep : ℚ) :
    (AudioOutPacket.draw ring frames sourceStep).2.1.take
        ((AudioOutPacket.draw ring frames sourceStep).1.toNat * AudioOutPacket.channels.toNat) =
      (AudioOutPacket.draw ring frames sourceStep).2.1 := by
  obtain ⟨-, hlen, -⟩ := ring.readResampled_shape frames sourceStep
  rw [hc] at hlen
  exact List.take_of_length_le hlen.le

theorem build_run (hb : s.output = .building) (hc : s.ring.channels = AudioOutPacket.channels)
    (policy : AudioPacketPolicy) :
    ∃ as t drawn, Run properStep s as t ∧ t.ring = (AudioOutPacket.build s.ring policy).2.2.1 ∧
      Drew s t drawn ∧ ∃ k, (AudioOutPacket.build s.ring policy).2.1.bytes =
        audio drawn ++ List.replicate k 0 := by
  by_cases hf : policy.nextPacketFrames.1 ≤ AudioOutPacket.maxFrames
  · obtain ⟨as, t, hrun, hring, hdrew⟩ := draw_run hb policy.nextPacketFrames.1
      (policy.nextPacketFrames.2.sourceFramesPerOutputFrame s.ring.availableFrames)
    rw [AudioOutTransferBatch.build_eq hc hf]
    refine ⟨as, t, _, hrun, hring, hdrew, ?_⟩
    simp only [audio, List.flatMap_singleton, take_draw hc]
    exact ⟨_, rfl⟩
  · have hbuild : AudioOutPacket.build s.ring policy =
        (0, AudioOutPacket.empty, s.ring, policy.nextPacketFrames.2) := by
      rw [AudioOutPacket.build, if_neg (not_not.mpr hc)]
      exact if_pos (UInt32.not_le.mp hf)
    rw [hbuild]
    exact ⟨[], s, [], .nil s, rfl, ⟨rfl, rfl, rfl, (List.append_nil _).symm, List.forall_mem_nil _⟩,
      AudioOutPacket.maxBytes, rfl⟩

/-- The next packets of a worker, with no writes in between, are fresh audio and silence. -/
theorem Inv.parts_fresh (h : Inv s) (hb : s.output = .building) (n : ℕ) (policy : AudioPacketPolicy) :
    ∀ part ∈ parts n s.ring policy, ∃ drawn k, part.bytes <+: audio drawn ++ List.replicate k 0 ∧
      ∀ p ∈ drawn, p.mark = s.mark ∧ p.Fresh s.accepted := by
  induction n generalizing s policy with
  | zero => exact nofun
  | succ n ih =>
    obtain ⟨as, t, drawn, hrun, hring, hdrew, k, hbytes⟩ := build_run hb h.channels policy
    have hinv : Inv t := hrun.invariant h fun _ _ _ hs ht ↦ hs.step ht
    rw [parts]
    refine List.forall_mem_cons.mpr ⟨⟨drawn, k, ?_, fun p hp ↦ ⟨hdrew.marked p hp, ?_⟩⟩, ?_⟩
    · rw [← hbytes]
      exact List.take_prefix _ _
    · rw [← hdrew.accepted]
      exact hinv.packets p (hdrew.packets ▸ List.mem_append_right _ hp)
    · rw [← hring, ← hdrew.mark, ← hdrew.accepted]
      exact ih hinv (hdrew.output.trans hb) _

/-- The same for a whole transfer of the worker. -/
theorem transfer_fresh {host : Bool} {timestampAnchor : UInt64} {as : List Action}
    (h : Run properStep (initial host timestampAnchor) as s) (hb : s.output = .building)
    (policy : AudioPacketPolicy) :
    ∀ part ∈ parts AudioOutTransferBatch.serviceIntervals s.ring policy,
      ∃ drawn k, part.bytes <+: audio drawn ++ List.replicate k 0 ∧
        ∀ p ∈ drawn, p.mark = s.mark ∧ p.Fresh s.accepted :=
  (inv_of_run h).parts_fresh hb _ policy

end Transfers

end Player

end NumarkNS6.CoreAudio
