import NumarkNS6.Foundation.Runs
import NumarkNS6.Legacy.PacketCadence
import NumarkNS6.Legacy.PacketPass

namespace NumarkNS6.Legacy

open Foundation.Runs NS6Transport NS6TransportShared

namespace NS6USB

theorem standIn_length (last : Option (Fin 4 → ℤ)) (missing : ℕ) :
    (standIn last missing).length = missing := by
  cases last with
  | none => exact List.length_replicate
  | some sample => rw [standIn, fade, List.length_map, List.length_range]

end NS6USB

structure Packet.Sized (p : Packet) : Prop where
  count : p.count = 5 ∨ p.count = 6
  received : p.received ≤ p.count
  length : p.frames.length = p.count
  step : 995 / 1000 ≤ p.step ∧ p.step ≤ 1005 / 1000

namespace NS6USB

variable {b : OutputBuild} {s t : NS6USB} {p : Packet}

theorem Passed.sized {count : UInt32} (h : Passed s t p count) (hcount : count = 5 ∨ count = 6) :
    p.Sized := by
  have hsize : p.count = 5 ∨ p.count = 6 := by
    rw [h.requested]
    exact hcount.imp (congrArg UInt32.toNat) (congrArg UInt32.toNat)
  obtain hsilent | hplays := h.body
  · refine ⟨hsize, ?_, hsilent.length, ?_⟩
    · rw [hsilent.received]
      exact Nat.zero_le _
    · rw [hsilent.step]
      norm_num
  · have hle : p.received ≤ p.count := by
      rw [h.requested, hplays.received]
      exact dequeueResampled_length_le _ _ _ _
    obtain ⟨last, hframes, -, -⟩ := hplays.frames
    refine ⟨hsize, hle, ?_, hplays.step⟩
    rw [hframes, List.length_append, standIn_length, ← hplays.received, ← h.requested]
    omega

structure Cadenced (s : NS6USB) : Prop where
  clock : ∃ values, s.clock.Waiting values
  counts : s.filling.length % 8 ≠ 0 → NS6ClockControl.Microframes s.millisecondFrames
  sized : ∀ p ∈ s.log, p.Sized
  transfers : ∀ transfer ∈ s.transfers, transfer.length = packets

theorem Cadenced.prepare (h : Cadenced s) (b : OutputBuild) (nowMs : UInt64) :
    (∃ values, ((s.checkFeedback nowMs).nextMillisecond b).clock.Waiting values) ∧
      NS6ClockControl.Microframes ((s.checkFeedback nowMs).nextMillisecond b).millisecondFrames := by
  obtain ⟨clock, resets, started, valid, hcheck, hclock⟩ := s.checkFeedback_eq nowMs
  have hwaiting : ∃ values, clock.Waiting values := by
    obtain rfl | rfl := hclock
    · exact h.clock
    · exact ⟨[], NS6ClockControl.waiting_nil rfl rfl⟩
  rw [hcheck, nextMillisecond]
  obtain ⟨values, hvalues⟩ := hwaiting
  by_cases hnew : s.filling.length % 8 = 0
  · obtain ⟨hcounts, hnext⟩ := hvalues.nextMillisecond b.clock
    rw [if_pos hnew]
    exact ⟨hnext, hcounts⟩
  · rw [if_neg hnew]
    exact ⟨⟨values, hvalues⟩, h.counts hnew⟩

theorem Cadenced.pass (h : Cadenced s) (b : OutputBuild) (nowMs : UInt64) :
    Cadenced (s.pass b nowMs) := by
  obtain ⟨hclock, hcounts⟩ := h.prepare b nowMs
  obtain ⟨p, hpassed, hpclock, hpcounts⟩ := s.pass_passed b nowMs
  rw [← hpclock] at hclock
  rw [← hpcounts] at hcounts
  have hmem : (s.pass b nowMs).millisecondFrames.getD (s.filling.length % 8) 0 ∈
      (s.pass b nowMs).millisecondFrames := by
    have hlt : s.filling.length % 8 < (s.pass b nowMs).millisecondFrames.length := by
      rw [hcounts.length]
      exact Nat.mod_lt _ (by decide)
    rw [List.getD_eq_getElem _ _ hlt]
    exact List.getElem_mem hlt
  refine ⟨hclock, fun _ ↦ hcounts, ?_, ?_⟩
  · rw [hpassed.log]
    exact List.forall_mem_append.mpr ⟨h.sized,
      List.forall_mem_singleton.mpr (hpassed.sized (hcounts.count_eq hmem))⟩
  · rw [hpassed.transfers]
    exact h.transfers

theorem Cadenced.aside (h : Cadenced s) (ha : Aside b s t) : Cadenced t := by
  refine ⟨?_, ?_, ?_, ?_⟩
  · obtain hclock | ⟨framesPerMs, hclock⟩ := ha.clock
    · rw [hclock]
      exact h.clock
    · obtain ⟨values, hvalues⟩ := h.clock
      rw [hclock]
      exact hvalues.observe b.clock framesPerMs
  · obtain ⟨hfilling, -⟩ | ⟨-, hfilling, -⟩ := ha.transfer
    · rw [hfilling, ha.millisecond]
      exact h.counts
    · rw [hfilling]
      intro hne
      exact absurd rfl hne
  · rw [ha.log]
    exact h.sized
  · obtain ⟨-, htransfers⟩ | ⟨hfull, -, htransfers⟩ := ha.transfer
    · rw [htransfers]
      exact h.transfers
    · rw [htransfers]
      exact List.forall_mem_append.mpr ⟨h.transfers, List.forall_mem_singleton.mpr hfull⟩

section Runs

variable {memory : NS6TransportShared} {awaiting : Bool} {last : Option (Fin 4 → ℤ)}
  {frames : UInt32} {as : List Action}

theorem start_cadenced : Cadenced (start memory awaiting last frames) where
  clock := ⟨[], NS6ClockControl.waiting_nil rfl rfl⟩
  counts hne := absurd rfl hne
  sized _ hp := absurd hp List.not_mem_nil
  transfers _ hp := absurd hp List.not_mem_nil

theorem run_cadenced (h : Run (step b) (start memory awaiting last frames) as s) : Cadenced s := by
  refine h.invariant start_cadenced ?_
  intro s a t hs hstep
  obtain ⟨nowMs, -, rfl⟩ | haside := step_cases hstep
  · exact hs.pass b nowMs
  · exact hs.aside haside

/-- The induction rule for runs of the output: what the packets of its passes keep, and
the actions in between, holds after every run. -/
theorem run_induction {I : NS6USB → Prop} (h : Run (step b) (start memory awaiting last frames) as s)
    (h₀ : I (start memory awaiting last frames))
    (hpass : ∀ s t p count, Cadenced s → I s → Passed s t p count → p.Sized → I t)
    (haside : ∀ s t, Cadenced s → I s → Aside b s t → I t) : I s := by
  induction h with
  | nil => exact h₀
  | @snoc u t as a hrun hstep ih =>
    have hcadenced := run_cadenced hrun
    have hcadenced' := run_cadenced (hrun.snoc hstep)
    obtain ⟨nowMs, -, rfl⟩ | ha := step_cases hstep
    · obtain ⟨p, hpassed, -, -⟩ := u.pass_passed b nowMs
      refine hpass u _ p _ hcadenced ih hpassed (hcadenced'.sized p ?_)
      rw [hpassed.log]
      exact List.mem_append_right _ (List.mem_singleton_self p)
    · exact haside u t hcadenced ih ha

/-- Whatever the clock measures and the queue has, every transfer that goes to the USB
stack consists of 32 packets of five or six frames, filled to the last byte, and fits
its buffer. -/
theorem transfers_fit_buffer (h : Run (step b) (start memory awaiting last frames) as s) :
    ∀ transfer ∈ s.transfers, transfer.length = packets ∧
      (∀ p ∈ transfer, (p.count = 5 ∨ p.count = 6) ∧ p.received ≤ p.count ∧
        p.frames.length = p.count ∧ p.frames.length * frameBytes ≤ maxPacket) ∧
      (transfer.flatMap Packet.frames).length * frameBytes ≤ packets * maxPacket := by
  intro transfer htransfer
  have hcadenced := run_cadenced h
  have hpackets : ∀ p ∈ transfer, p.Sized := by
    intro p hp
    exact hcadenced.sized p (List.mem_append_left _ (List.mem_flatten_of_mem htransfer hp))
  have hlength := hcadenced.transfers transfer htransfer
  have hsix : ∀ n ∈ transfer.map fun p ↦ p.frames.length, n ≤ 6 := by
    intro n hn
    obtain ⟨p, hp, rfl⟩ := List.mem_map.mp hn
    have hcount := (hpackets p hp).count
    rw [(hpackets p hp).length]
    omega
  have hsum := List.sum_le_card_nsmul _ 6 hsix
  rw [List.length_map, hlength] at hsum
  refine ⟨hlength, ?_, ?_⟩
  · intro p hp
    have hp := hpackets p hp
    refine ⟨hp.count, hp.received, hp.length, ?_⟩
    have hcount := hp.count
    rw [hp.length, frameBytes, maxPacket]
    omega
  · rw [List.length_flatMap]
    refine (Nat.mul_le_mul_right frameBytes hsum).trans ?_
    decide

end Runs

def adaptive : OutputBuild := ⟨.adaptive, false⟩

def idleTransfer : List Action := List.replicate packets (.pass 0) ++ [.finishFill]

theorem transfers_fit_buffer_idle : ∃ s transfer,
    Run (step adaptive) (start zeroed false none 0) idleTransfer s ∧ s.transfers = [transfer] ∧
      (transfer.map Packet.count).sum = 176 ∧
      (transfer.flatMap Packet.frames).length * frameBytes ≤ packets * maxPacket := by
  obtain ⟨s, hs, hsum⟩ := (Option.any_eq_true _ _).mp
    (show (idleTransfer.foldlM (step adaptive) (start zeroed false none 0)).any (fun s ↦
      decide (s.transfers.map (fun transfer ↦ (transfer.map Packet.count).sum) = [176])) = true by
        decide +kernel)
  obtain ⟨transfer, htransfer, htotal⟩ := List.map_eq_singleton_iff.mp (of_decide_eq_true hsum)
  have hrun := Run.of_foldlM hs
  have hmem : transfer ∈ s.transfers := by
    rw [htransfer]
    exact List.mem_singleton_self transfer
  exact ⟨s, transfer, hrun, htransfer, htotal, (transfers_fit_buffer hrun transfer hmem).2.2⟩

end NS6USB

def Packet.advance (p : Packet) : ℚ := if p.kind = .audio then p.count * p.step else 0

theorem Packet.Sized.mul_step_le {p : Packet} (h : p.Sized) : (p.count : ℚ) * p.step ≤ 7 := by
  have hstep := h.step.2
  obtain hcount | hcount := h.count
  · rw [hcount]
    push_cast
    linarith
  · rw [hcount]
    push_cast
    linarith

theorem Packet.Sized.missing_le {p : Packet} (h : p.Sized) : p.missing ≤ 6 := by
  have hcount := h.count
  unfold Packet.missing
  split_ifs
  · omega
  · omega

theorem Packet.Sized.received_eq {p : Packet} (h : p.Sized) (hkind : p.kind = .audio) (hfull : p.missing = 0) :
    p.received = p.count := by
  have hle := h.received
  rw [Packet.missing, if_pos hkind] at hfull
  omega

namespace NS6USB

def played (log : List Packet) : ℚ := (log.map Packet.advance).sum

theorem played_append (log : List Packet) (p : Packet) :
    played (log ++ [p]) = played log + p.advance := by
  rw [played, played, List.map_append, List.sum_append, List.map_singleton, List.sum_singleton]

theorem played_le {log : List Packet} (h : ∀ p ∈ log, p.Sized) : played log ≤ 7 * log.length := by
  have hseven : ∀ x ∈ log.map Packet.advance, x ≤ 7 := by
    intro x hx
    obtain ⟨p, hp, rfl⟩ := List.mem_map.mp hx
    unfold Packet.advance
    split_ifs
    · exact (h p hp).mul_step_le
    · norm_num
  have hsum := List.sum_le_card_nsmul _ 7 hseven
  rw [List.length_map, nsmul_eq_mul] at hsum
  rw [played]
  linarith

end NS6USB

/-- What the device hears of a packet: the timeline from the packet's position on, for as
long as there was any of it when the packet was made. -/
structure Packet.Heard (p : Packet) (timeline : List Frame) : Prop where
  frames : p.frames.take p.received = (List.range p.received).map
    fun k : ℕ ↦ interpolate timeline (p.position + k * p.step)
  reached : ∀ k < p.received, ⌈p.position + k * p.step⌉₊ < timeline.length
  starved : p.received < p.count → p.written ≤ ⌈p.position + p.received * p.step⌉₊
  queued : p.queued.toNat = p.written - ⌊p.position⌋₊

theorem Packet.Heard.append {p : Packet} {timeline : List Frame} (h : p.Heard timeline)
    (more : List Frame) : p.Heard (timeline ++ more) := by
  refine ⟨?_, ?_, h.starved, h.queued⟩
  · rw [h.frames]
    refine List.map_congr_left fun k hk ↦ ?_
    exact (interpolate_append (h.reached k (List.mem_range.mp hk)) more).symm
  · intro k hk
    have hlt := h.reached k hk
    rw [List.length_append]
    omega

theorem Packet.Heard.advance_lt {p : Packet} {timeline : List Frame} (h : p.Heard timeline) (hp : p.Sized)
    (hall : p.received = p.count) : p.position + p.count * p.step < timeline.length + 1 := by
  obtain ⟨m, hm⟩ : ∃ m, p.count = m + 1 := by
    refine Nat.exists_eq_succ_of_ne_zero ?_
    have hcount := hp.count
    omega
  have hreached := h.reached m (by omega)
  have hceil := Nat.le_ceil (p.position + m * p.step)
  have hcast : ((⌈p.position + m * p.step⌉₊ + 1 : ℕ) : ℚ) ≤ timeline.length := Nat.cast_le.mpr hreached
  have hstep := hp.step.2
  rw [hm]
  push_cast at hcast ⊢
  linarith

namespace NS6USB

variable {b : OutputBuild} {s t : NS6USB} {p : Packet}

theorem lay_of_le {timeline : List Frame} {cursor : ℕ} (h : cursor ≤ timeline.length)
    (block : List Frame) : lay timeline cursor block = timeline ++ block := by
  unfold lay
  split_ifs with hempty
  · rw [hempty, List.append_nil]
  · rw [Nat.sub_eq_zero_of_le h, List.replicate_zero, List.append_nil]

theorem exists_enqueue_timeline (s : NS6USB) (input : Option Bytes) (count : UInt32)
    (format : Option AudioStreamBasicDescription) :
    ∃ more, (s.enqueue input count format).timeline = s.timeline ++ more := by
  unfold enqueue lay
  simp only
  split_ifs
  · exact ⟨[], (List.append_nil _).symm⟩
  · exact ⟨_, List.append_assoc _ _ _⟩
  · exact ⟨[], (List.append_nil _).symm⟩

/-- The packets made so far follow the timeline without a gap. -/
structure Follows (s : NS6USB) : Prop where
  spans : Spans s.shared s.timeline
  unit : 0 ≤ s.readFraction ∧ s.readFraction < 1
  gate : s.shared.initialized = false →
    s.awaitingAudioPrefill = true ∨ s.outputPaused = true ∧ false ∉ s.pausing
  position : s.position = played s.log
  heard : ∀ n p, s.log[n]? = some p → p.kind = .audio →
    p.position = played (s.log.take n) ∧ p.Heard s.timeline

/-- The cursor cannot wrap around before 2 ^ 59 packets have been sent. -/
theorem Follows.cursor_le (h : Follows s) (hc : Cadenced s) :
    (s.shared.readCursor.toNat : ℚ) + s.readFraction ≤ 7 * s.log.length := by
  have hposition := h.position
  have hplayed := played_le hc.sized
  rw [NS6USB.position] at hposition
  linarith

theorem Follows.extend (h : Follows s) (hlog : t.log = s.log ++ [p]) (htimeline : t.timeline = s.timeline)
    (hp : p.kind = .audio → p.position = s.position ∧ p.Heard s.timeline) :
    ∀ n q, t.log[n]? = some q → q.kind = .audio →
      q.position = played (t.log.take n) ∧ q.Heard t.timeline := by
  intro n q hq hkind
  rw [hlog] at hq ⊢
  rw [htimeline]
  obtain ⟨hlt, hq⟩ | ⟨rfl, rfl⟩ := getElem?_concat_cases hq
  · rw [List.take_append_of_le_length hlt.le]
    exact h.heard n q hq hkind
  · rw [List.take_left, ← h.position]
    exact hp hkind

theorem Follows.silent (h : Follows s) {count : UInt32} (hpassed : Passed s t p count)
    (hsilent : Silent s t p) : Follows t := by
  refine ⟨?_, ?_, fun _ ↦ .inl hsilent.awaiting, ?_, ?_⟩
  · rw [hsilent.shared, hpassed.timeline]
    exact h.spans
  · rw [hsilent.fraction]
    exact h.unit
  · rw [hpassed.log, played_append, Packet.advance, if_neg hsilent.kind, add_zero, ← h.position, NS6USB.position,
      NS6USB.position, hsilent.shared, hsilent.fraction]
  · exact h.extend hpassed.log hpassed.timeline fun hkind ↦ absurd hkind hsilent.kind

theorem Follows.initialized (h : Follows s) {count : UInt32} (hpassed : Passed s t p count)
    (hplays : Plays s t p count) : s.shared.initialized = true := by
  by_contra hno
  have hfalse := Bool.eq_false_of_not_eq_true hno
  have hempty : s.shared.available = 0 := by rw [available, if_pos hfalse]
  cases hawaiting : s.awaitingAudioPrefill with
  | false =>
    obtain htrue | ⟨hpaused, -⟩ := h.gate hfalse
    · rw [hawaiting] at htrue
      cases htrue
    · exact hplays.playing hawaiting ⟨hpaused, hempty⟩
  | true =>
    have hfull := hplays.awaited hawaiting
    rw [hpassed.queued, hempty, hpassed.threshold] at hfull
    have htarget := UInt32.le_trans (le_startupPrefillFrames s.startupBufferFrames
      startupMinPrefillFrames NS6ClockControl.queueTargetFrames) hfull
    exact absurd htarget (by decide)

theorem Follows.plays (h : Follows s) {count : UInt32} (hpassed : Passed s t p count)
    (hplays : Plays s t p count) (hp : p.Sized)
    (hbound : (s.shared.readCursor.toNat : ℚ) + s.readFraction + 8 < 2 ^ 64) : Follows t := by
  have hinit := h.initialized hpassed hplays
  have hcount : count ≠ 0 := by
    rintro rfl
    have hsize := hp.count
    rw [hpassed.requested] at hsize
    exact absurd hsize (by decide)
  have hseven : (count.toNat : ℚ) * p.step ≤ 7 := by
    rw [← hpassed.requested]
    exact hp.mul_step_le
  obtain ⟨m, hm, hframes, hreach, hstop, hmoved⟩ :=
    h.spans.takePacket hinit h.unit.1 hcount hp.step (by linarith)
  have hreceived : p.received = m := by
    rw [hplays.received, hframes, List.length_map, List.length_range]
  have htaken := hplays.taken
  rw [Prod.ext_iff] at htaken
  obtain ⟨hshared, hfraction⟩ := htaken
  simp only at hshared hfraction
  rw [← hshared, ← hfraction] at hmoved
  have hphase : 0 ≤ s.readFraction + count.toNat * p.step := by
    have hnonneg : (0 : ℚ) ≤ count.toNat * p.step :=
      mul_nonneg (Nat.cast_nonneg _) (by linarith [hp.step.1])
    linarith [h.unit.1]
  have hplace : ∀ k : ℕ, p.position + k * p.step =
      s.shared.readCursor.toNat + (s.readFraction + k * p.step) := by
    intro k
    rw [hpassed.position, NS6USB.position, add_assoc]
  refine ⟨?_, hmoved.unit, ?_, ?_, ?_⟩
  · rw [hpassed.timeline]
    exact h.spans.moved hmoved hphase hinit
  · intro hfalse
    rw [hmoved.initialized, hinit] at hfalse
    cases hfalse
  · have hposition := hmoved.position
    have hbefore := h.position
    rw [NS6USB.position] at hbefore ⊢
    rw [hpassed.log, played_append, Packet.advance, if_pos hplays.kind, hpassed.requested,
      hposition]
    linarith
  · refine h.extend hpassed.log hpassed.timeline fun _ ↦ ⟨hpassed.position, ?_, ?_, ?_, ?_⟩
    · obtain ⟨last, hall, -, -⟩ := hplays.frames
      rw [hall, hplays.received, List.take_left, hframes, List.length_map, List.length_range]
      exact List.map_congr_left fun k _ ↦ by rw [hplace k]
    · intro k hk
      rw [hplace k]
      exact hreach k (hreceived ▸ hk)
    · intro hless
      rw [hpassed.requested, hreceived] at hless
      rw [hplace, hpassed.written, hreceived]
      exact hstop hless
    · have hfloor : ⌊p.position⌋₊ = s.shared.readCursor.toNat := by
        rw [hpassed.position, NS6USB.position, floor_natCast_add _ h.unit.1,
          Nat.floor_eq_zero.mpr h.unit.2, add_zero]
      rw [hfloor, hpassed.queued, hpassed.written]
      exact h.spans.available_toNat

theorem Follows.aside (h : Follows s) (ha : Aside b s t)
    (hbound : s.shared.readCursor.toNat + 2 ^ 33 < 2 ^ 64) : Follows t := by
  obtain ⟨hshared, htimeline⟩ | ⟨input, count, format, hshared, htimeline⟩ := ha.shared
  · refine ⟨?_, ?_, ?_, ?_, ?_⟩
    · rw [hshared, htimeline]
      exact h.spans
    · rw [ha.fraction]
      exact h.unit
    · rw [hshared]
      exact fun hfalse ↦ ha.gate (h.gate hfalse)
    · rw [ha.log, ← h.position, NS6USB.position, NS6USB.position, hshared, ha.fraction]
    · rw [ha.log, htimeline]
      exact h.heard
  · obtain ⟨hspans, hcursor⟩ := h.spans.enqueue hbound input count format
    refine ⟨?_, ?_, ?_, ?_, ?_⟩
    · rw [hshared, htimeline]
      exact hspans
    · rw [ha.fraction]
      exact h.unit
    · intro hfalse
      refine ha.gate (h.gate ?_)
      by_contra htrue
      have hkept := enqueue_initialized (Bool.eq_true_of_not_eq_false htrue) input count format
      rw [hshared] at hfalse
      exact absurd (hfalse.symm.trans hkept) Bool.false_ne_true
    · rw [ha.log, ← h.position, NS6USB.position, NS6USB.position, hshared, ha.fraction]
      exact congrArg (fun cursor : UInt64 ↦ (cursor.toNat : ℚ) + s.readFraction) hcursor
    · obtain ⟨more, hmore⟩ := s.exists_enqueue_timeline input count format
      rw [ha.log, htimeline, hmore]
      intro n p hp hkind
      obtain ⟨hposition, hheard⟩ := h.heard n p hp hkind
      exact ⟨hposition, hheard.append more⟩

section Runs

variable {memory : NS6TransportShared} {awaiting : Bool} {last : Option (Fin 4 → ℤ)}
  {frames : UInt32} {as : List Action}

theorem start_follows : Follows (start memory awaiting last frames) where
  spans := .init memory
  unit := ⟨le_rfl, zero_lt_one⟩
  gate _ := .inr ⟨rfl, List.not_mem_nil⟩
  position := by
    change ((0 : ℕ) : ℚ) + 0 = 0
    rw [Nat.cast_zero, add_zero]
  heard n p hp := by cases hp

theorem run_follows (h : Run (step b) (start memory awaiting last frames) as s)
    (hlen : s.log.length < 2 ^ 59) : Follows s := by
  refine run_induction (I := fun s ↦ s.log.length < 2 ^ 59 → Follows s) h (fun _ ↦ start_follows)
    ?_ ?_ hlen
  · intro s t p count hcadenced ih hpassed hsized hlen
    rw [hpassed.log, List.length_append, List.length_singleton] at hlen
    have hs := ih (by omega)
    obtain hsilent | hplays := hpassed.body
    · exact hs.silent hpassed hsilent
    · refine hs.plays hpassed hplays hsized ?_
      have hcursor := hs.cursor_le hcadenced
      have hcast : (s.log.length : ℚ) ≤ ((2 ^ 59 : ℕ) : ℚ) := Nat.cast_le.mpr (by omega)
      push_cast at hcast
      linarith
  · intro s t hcadenced ih ha hlen
    rw [ha.log] at hlen
    have hs := ih hlen
    refine hs.aside ha ?_
    have hcursor := hs.cursor_le hcadenced
    have hunit := hs.unit.1
    have hnat : s.shared.readCursor.toNat ≤ 7 * s.log.length := by
      have hcast : (s.shared.readCursor.toNat : ℚ) ≤ ((7 * s.log.length : ℕ) : ℚ) := by
        push_cast
        linarith
      exact_mod_cast hcast
    omega

/-- Within the first 2 ^ 59 packets, what the device hears is the timeline of the accepted
frames: each audio packet starts where the one before has ended, plays the timeline from
there at its own rate, and falls short only where nothing had been written yet. -/
theorem device_hears_timeline (h : Run (step b) (start memory awaiting last frames) as s)
    (hlen : s.log.length < 2 ^ 59) {n : ℕ} {p : Packet} (hp : s.log[n]? = some p)
    (hkind : p.kind = .audio) : p.position = played (s.log.take n) ∧ p.Heard s.timeline :=
  (run_follows h hlen).heard n p hp hkind

end Runs

def eightFrames : List Action :=
  [.enqueue (some fun i ↦ UInt8.ofNat i) 8 (some ⟨0, 12, 4, 24⟩), .pass 0, .pass 0]

theorem device_hears_timeline_short : ∃ s p,
    Run (step adaptive) (start zeroed false none 0) eightFrames s ∧ s.log[1]? = some p ∧
      p.received < p.count ∧ p.position = played (s.log.take 1) ∧ p.Heard s.timeline := by
  obtain ⟨s, hs, hlog⟩ := (Option.any_eq_true _ _).mp
    (show (eightFrames.foldlM (step adaptive) (start zeroed false none 0)).any (fun s ↦
      s.log.length == 2 && s.log[1]?.any fun p ↦ p.kind == .audio && decide (p.received < p.count)) =
        true by decide +kernel)
  rw [Bool.and_eq_true, beq_iff_eq, Option.any_eq_true] at hlog
  obtain ⟨hlength, p, hp, hshort⟩ := hlog
  rw [Bool.and_eq_true, beq_iff_eq] at hshort
  have hrun := Run.of_foldlM hs
  exact ⟨s, p, hrun, hp, of_decide_eq_true hshort.2,
    device_hears_timeline hrun (by rw [hlength]; decide) hp hshort.1⟩

/-- Behind a packet without audio the prefill is awaited, and has been wherever audio has
begun again. -/
structure Armed (s : NS6USB) : Prop where
  armed : ∀ p, s.log.getLast? = some p → p.kind ≠ .audio → s.awaitingAudioPrefill = true
  quiet : ∀ p ∈ s.log, NS6ClockControl.queueTargetFrames ≤ p.threshold ∧
    (p.kind ≠ .audio → p.queued < p.threshold)
  waited : ∀ n p q, s.log[n]? = some p → s.log[n + 1]? = some q → p.kind ≠ .audio →
    q.kind = .audio → q.threshold ≤ q.queued

theorem Armed.pass (h : Armed s) {count : UInt32} (hpassed : Passed s t p count) : Armed t := by
  have hsilent : p.kind ≠ .audio → Silent s t p := fun hkind ↦
    hpassed.body.resolve_right fun hplays ↦ hkind hplays.kind
  refine ⟨?_, ?_, ?_⟩
  · intro q hq hkind
    rw [hpassed.log, List.getLast?_concat, Option.some_inj] at hq
    subst hq
    exact (hsilent hkind).awaiting
  · rw [hpassed.log]
    refine List.forall_mem_append.mpr ⟨h.quiet, List.forall_mem_singleton.mpr ⟨?_, ?_⟩⟩
    · rw [hpassed.threshold]
      exact le_startupPrefillFrames _ _ _
    · intro hkind
      exact (hsilent hkind).queued
  · intro n q r hq hr hquiet hkind
    rw [hpassed.log] at hq hr
    obtain ⟨hlt, hr⟩ | ⟨hn, rfl⟩ := getElem?_concat_cases hr
    · rw [List.getElem?_append_left (by omega)] at hq
      exact h.waited n q r hq hr hquiet hkind
    · have hlast : s.log.getLast? = some q := by
        rw [List.getElem?_append_left (by omega)] at hq
        rw [List.getLast?_eq_getElem?, ← hn, Nat.add_sub_cancel]
        exact hq
      exact (hpassed.plays hkind).awaited (h.armed q hlast hquiet)

theorem Armed.aside (h : Armed s) (ha : Aside b s t) : Armed t := by
  refine ⟨?_, ?_, ?_⟩
  · rw [ha.log]
    intro p hp hkind
    exact ha.awaiting (h.armed p hp hkind)
  · rw [ha.log]
    exact h.quiet
  · rw [ha.log]
    exact h.waited

structure Accounted (s : NS6USB) : Prop where
  frames : s.underrunFrames = UInt64.ofNat (s.log.map Packet.missing).sum
  events : s.underrunEvents = UInt64.ofNat (s.log.countP fun p ↦ decide (0 < p.missing))
  burst : s.underrunMaxBurst.toNat = (s.log.map Packet.missing).foldl max 0

theorem Accounted.pass (h : Accounted s) {count : UInt32} (hpassed : Passed s t p count)
    (hp : p.missing ≤ 6) : Accounted t := by
  refine ⟨?_, ?_, ?_⟩
  · rw [hpassed.underrunFrames, hpassed.log, List.map_append, List.sum_append, List.map_singleton,
      List.sum_singleton, UInt64.ofNat_add, h.frames]
  · rw [hpassed.underrunEvents, hpassed.log, List.countP_append, UInt64.ofNat_add, h.events,
      List.countP_singleton]
    simp only [decide_eq_true_eq]
    split_ifs
    · rfl
    · rfl
  · have hsmall : (UInt64.ofNat p.missing).toNat = p.missing := by
      rw [UInt64.toNat_ofNat']
      exact Nat.mod_eq_of_lt (by omega)
    rw [hpassed.underrunMaxBurst, UInt64.toNat_max, hsmall, hpassed.log, List.map_append, List.foldl_append,
      h.burst]
    rfl

theorem Accounted.aside (h : Accounted s) (ha : Aside b s t) : Accounted t := by
  refine ⟨?_, ?_, ?_⟩
  · rw [ha.log, ha.underrunFrames]
    exact h.frames
  · rw [ha.log, ha.underrunEvents]
    exact h.events
  · rw [ha.log, ha.underrunMaxBurst]
    exact h.burst

section Runs

variable {memory : NS6TransportShared} {awaiting : Bool} {last : Option (Fin 4 → ℤ)}
  {frames : UInt32} {as : List Action}

/-- Silence is sent only while the queue holds less than playback waits for, which is
never below 4096 frames; and behind silence audio begins only once the queue holds that
much. -/
theorem audio_waits_for_prefill (h : Run (step b) (start memory awaiting last frames) as s) :
    (∀ p ∈ s.log, NS6ClockControl.queueTargetFrames ≤ p.threshold ∧
      (p.kind ≠ .audio → p.queued < p.threshold)) ∧
    ∀ n p q, s.log[n]? = some p → s.log[n + 1]? = some q → p.kind ≠ .audio → q.kind = .audio →
      q.threshold ≤ q.queued := by
  have harmed : Armed s := by
    refine run_induction h ⟨?_, ?_, ?_⟩ (fun _ _ _ _ _ hs hpassed _ ↦ hs.pass hpassed)
      (fun _ _ _ hs ha ↦ hs.aside ha)
    · intro p hp
      cases hp
    · intro p hp
      cases hp
    · intro n p q hp
      cases hp
  exact ⟨harmed.quiet, harmed.waited⟩

end Runs

def filled : NS6USB :=
  ((start zeroed true none 0).pass adaptive 0).enqueue (some fun _ ↦ 0) 4096 (some ⟨0, 12, 4, 24⟩)

def fillQueue : List Action :=
  [.pass 0, .enqueue (some fun _ ↦ 0) 4096 (some ⟨0, 12, 4, 24⟩)]

theorem step_pass (h : s.filling.length < packets) (b : OutputBuild) (nowMs : UInt64) :
    step b s (.pass nowMs) = some (s.pass b nowMs) := by
  rw [step, if_pos h]

theorem run_fillQueue : Run (step adaptive) (start zeroed true none 0) fillQueue filled :=
  .cons (step_pass (by decide) adaptive 0) (.cons rfl (.nil _))

theorem filled_available : filled.shared.available = 4096 := by
  have hlength : filled.log.length < 2 ^ 59 := by decide +kernel
  have haccepted : (((start zeroed true none 0).pass adaptive 0).shared.enqueue (some fun _ ↦ 0) 4096
      (some ⟨0, 12, 4, 24⟩)).1 = true := by decide +kernel
  have htimeline : filled.timeline = Fifo.block (some fun _ ↦ 0) 4096 (some ⟨0, 12, 4, 24⟩) := by
    have hempty : ((start zeroed true none 0).pass adaptive 0).timeline = [] := rfl
    have hzero : ((start zeroed true none 0).pass adaptive 0).shared.readCursor.toNat = 0 := rfl
    rw [filled, enqueue]
    simp only [haccepted, if_true]
    rw [hempty, hzero, lay_of_le (Nat.zero_le _), List.nil_append]
  have hcursor : filled.shared.readCursor.toNat = 0 := by decide +kernel
  have havailable := (run_follows run_fillQueue hlength).spans.available_toNat
  rw [htimeline, hcursor, Fifo.block, List.length_map, List.length_range] at havailable
  exact UInt32.toNat_inj.mp havailable

theorem audio_waits_for_prefill_filled : ∃ s q,
    Run (step adaptive) (start zeroed true none 0) (fillQueue ++ [.pass 0]) s ∧
      s.log[1]? = some q ∧ q.kind = .audio ∧ q.threshold ≤ q.queued := by
  obtain ⟨q, hpassed, -, -⟩ := filled.pass_passed adaptive 0
  have hrun : Run (step adaptive) (start zeroed true none 0) (fillQueue ++ [.pass 0])
      (filled.pass adaptive 0) := .snoc run_fillQueue (step_pass (by decide +kernel) adaptive 0)
  obtain ⟨hquiet, hwaited⟩ := audio_waits_for_prefill hrun
  have hlast : (filled.pass adaptive 0).log[filled.log.length]? = some q := by
    rw [hpassed.log]
    exact List.getElem?_concat_length
  have hlog : filled.log.length = 1 := by decide +kernel
  obtain ⟨p, hfirst, hkind⟩ := (Option.any_eq_true _ _).mp
    (show filled.log[0]?.any (fun p ↦ p.kind == .idle) = true by decide +kernel)
  rw [beq_iff_eq] at hkind
  have haudio : q.kind = .audio := by
    by_contra hsilent
    have hless := (hquiet q (List.mem_of_getElem? hlast)).2 hsilent
    rw [hpassed.queued, hpassed.threshold, filled_available] at hless
    exact absurd hless (by decide +kernel)
  rw [hlog] at hlast
  refine ⟨_, q, hrun, hlast, haudio, hwaited 0 p q ?_ hlast ?_ haudio⟩
  · rw [hpassed.log, List.getElem?_append_left (by omega)]
    exact hfirst
  · rw [hkind]
    exact PacketKind.noConfusion

section Runs

variable {memory : NS6TransportShared} {awaiting : Bool} {last : Option (Fin 4 → ℤ)}
  {frames : UInt32} {as : List Action}

theorem run_accounted (h : Run (step b) (start memory awaiting last frames) as s) : Accounted s :=
  run_induction h ⟨rfl, rfl, rfl⟩
    (fun _ _ _ _ _ hs hpassed hsized ↦ hs.pass hpassed hsized.missing_le)
    (fun _ _ _ hs ha ↦ hs.aside ha)

/-- Within the first 2 ^ 59 packets, the underrun counters are exact. -/
theorem underruns_accounted (h : Run (step b) (start memory awaiting last frames) as s)
    (hlen : s.log.length < 2 ^ 59) :
    s.underrunFrames.toNat = (s.log.map Packet.missing).sum ∧
      s.underrunEvents.toNat = (s.log.countP fun p ↦ decide (0 < p.missing)) ∧
      s.underrunMaxBurst.toNat = (s.log.map Packet.missing).foldl max 0 := by
  have haccounted := run_accounted h
  have hsix : ∀ n ∈ s.log.map Packet.missing, n ≤ 6 := by
    intro n hn
    obtain ⟨p, hp, rfl⟩ := List.mem_map.mp hn
    exact ((run_cadenced h).sized p hp).missing_le
  have hsum : (s.log.map Packet.missing).sum ≤ s.log.length * 6 := by
    have hle := List.sum_le_card_nsmul _ 6 hsix
    rw [List.length_map] at hle
    exact hle
  have hevents := List.countP_le_length (p := fun p : Packet ↦ decide (0 < p.missing)) (l := s.log)
  refine ⟨?_, ?_, haccounted.burst⟩
  · rw [haccounted.frames, UInt64.toNat_ofNat']
    exact Nat.mod_eq_of_lt (by omega)
  · rw [haccounted.events, UInt64.toNat_ofNat']
    exact Nat.mod_eq_of_lt (by omega)

end Runs

theorem underruns_accounted_short : ∃ s,
    Run (step adaptive) (start zeroed false none 0) eightFrames s ∧ s.underrunFrames.toNat = 3 ∧
      (s.log.map Packet.missing).sum = 3 := by
  obtain ⟨s, hs, hlog⟩ := (Option.any_eq_true _ _).mp
    (show (eightFrames.foldlM (step adaptive) (start zeroed false none 0)).any (fun s ↦
      s.log.length == 2 && s.underrunFrames == 3) = true by decide +kernel)
  rw [Bool.and_eq_true, beq_iff_eq, beq_iff_eq] at hlog
  obtain ⟨hlength, hframes⟩ := hlog
  have hrun := Run.of_foldlM hs
  have htotal : s.underrunFrames.toNat = 3 := by
    rw [hframes]
    rfl
  refine ⟨s, hrun, htotal, ?_⟩
  rw [← (underruns_accounted hrun (by rw [hlength]; decide)).1]
  exact htotal

end NS6USB

end NumarkNS6.Legacy
