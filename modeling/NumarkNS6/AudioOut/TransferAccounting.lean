import NumarkNS6.AudioOut.AudioOutWorker
import NumarkNS6.Foundation.SlotPool

namespace NumarkNS6.AudioOut.AudioOutWorker

open Foundation.SlotPool Usb

def Slot.Allocated (slot : Slot) : Prop := slot.data.isSome ∧ slot.frames.isSome

namespace Event

def Harmless : Event → Prop
  | modified _ held => held = false
  | _ => True

def Writes : Event → Prop
  | written _ _ => True
  | _ => False

def Ends : Event → Prop
  | written _ result | unwritten result => result ≠ .success
  | completed _ status => status ≠ .success
  | stopped => True
  | modified _ _ => False

def failed : Event → Bool
  | completed _ status => status ≠ .success
  | _ => false

end Event

namespace System

/-- `reserved` are the slots marked but not in the hands of the stack, and `owed`
counts the completions that have arrived and are not counted yet. Between calls
and callbacks there are none of either. -/
structure Inv (s : System) (reserved : List ℕ) (owed : ℕ) : Prop where
  tracks : Tracks s.worker.transferSlots.inUse (s.pending.map (·.slot) ++ reserved)
  flags : s.worker.transferSlots.inUse.length = AudioOutTransferSlots.slotCount
  slots : s.worker.slots.length = AudioOutTransferSlots.slotCount
  inFlight : s.worker.transferSlots.inFlight = UInt32.ofNat (s.pending.length + reserved.length)
  counted : s.worker.submitted = s.worker.completed + UInt64.ofNat (s.trace.countP Event.failed) +
    UInt64.ofNat (s.pending.length + owed)
  contents : ∀ t ∈ s.pending, s.worker.slots[t.slot]? = some t.buffers ∧ t.buffers.Allocated
  harmless : ∀ e ∈ s.trace, e.Harmless
  order : s.trace.Pairwise fun e e' ↦ e.Ends → ¬ e'.Writes
  running : s.worker.running = true → s.worker.initialized = true ∧ s.phase = .ready ∧
    (∀ e ∈ s.trace, ¬ e.Ends) ∧ ∀ slot ∈ s.worker.slots, slot.Allocated
  fresh : s.worker.initialized = false → s.pending = [] ∧ ∀ e ∈ s.trace, ¬ e.Ends
  opened : s.worker.initialized = true → s.handles.interface = true

variable {s : System} {reserved : List ℕ} {owed i : ℕ} {answers : Answers}

theorem Inv.halt (h : Inv s reserved owed) : Inv s.halt reserved owed :=
  { h with running := nofun }

theorem Inv.countFailure (h : Inv s reserved owed) : Inv s.countFailure reserved owed :=
  { h with }

theorem Inv.setRunLoop (h : Inv s reserved owed) (runLoop : Bool) :
    Inv (s.setRunLoop runLoop) reserved owed :=
  { h with }

theorem Inv.ret (h : Inv s reserved owed) (result : IOReturn) : Inv (s.ret result) reserved owed :=
  { h with
    running := fun hr ↦
      have ⟨hi, _, ht, ha⟩ := h.running hr
      ⟨hi, rfl, ht, ha⟩ }

theorem Inv.log {e : Event} {owed' : ℕ} (h : Inv s reserved owed')
    (hn : owed' = owed + if e.failed then 1 else 0) (hq : e.Harmless)
    (hw : e.Writes → ∀ e' ∈ s.trace, ¬ e'.Ends)
    (he : e.Ends → s.worker.running = false ∧ s.worker.initialized = true) :
    Inv (s.log e) reserved owed :=
  { h with
    counted := by
      have hc := h.counted
      simp only [System.log, List.countP_append, List.countP_singleton, hn, UInt64.ofNat_add] at hc ⊢
      rw [hc]
      ac_rfl
    harmless := List.forall_mem_append.mpr ⟨h.harmless, List.forall_mem_singleton.mpr hq⟩
    order := by
      refine List.pairwise_append.mpr ⟨h.order, List.pairwise_singleton _ _, ?_⟩
      intro e' he' e'' he'' hends hwrites
      exact hw (List.mem_singleton.mp he'' ▸ hwrites) e' he' hends
    running := fun hr ↦ by
      obtain ⟨hi, hp, ht, ha⟩ := h.running hr
      refine ⟨hi, hp, List.forall_mem_append.mpr ⟨ht, List.forall_mem_singleton.mpr ?_⟩, ha⟩
      intro hends
      exact Bool.false_ne_true ((he hends).1.symm.trans hr)
    fresh := fun hi ↦ by
      refine ⟨(h.fresh hi).1, List.forall_mem_append.mpr ⟨(h.fresh hi).2,
        List.forall_mem_singleton.mpr ?_⟩⟩
      intro hends
      exact Bool.false_ne_true (hi.symm.trans (he hends).2) }

theorem forall_mem_modify {α : Type} {P : α → Prop} {xs : List α} {f : α → α}
    (h : ∀ x ∈ xs, P x) (hf : ∀ x, P x → P (f x)) (i : ℕ) : ∀ x ∈ xs.modify i f, P x := by
  intro x hx
  obtain ⟨j, hj⟩ := List.getElem?_of_mem hx
  rw [List.getElem?_modify, Option.map_eq_map, Option.map_eq_some_iff] at hj
  obtain ⟨y, hy, rfl⟩ := hj
  have hP := h y (List.mem_of_getElem? hy)
  split
  · exact hf y hP
  · exact hP

theorem contents_modify (h : Inv s reserved owed) (hi : i ∉ s.pending.map (·.slot))
    (f : Slot → Slot) : ∀ t ∈ s.pending,
      (s.worker.slots.modify i f)[t.slot]? = some t.buffers ∧ t.buffers.Allocated := by
  intro t ht
  have hne : i ≠ t.slot := by
    intro heq
    exact hi (heq ▸ List.mem_map_of_mem ht)
  simpa [List.getElem?_modify, hne] using h.contents t ht

theorem Inv.modify {f : Slot → Slot} (h : Inv s reserved owed) (hi : i ∉ s.pending.map (·.slot))
    (hf : s.worker.running = true → ∀ slot, slot.Allocated → (f slot).Allocated) :
    Inv (s.modify i f) reserved owed := by
  have hholds : s.holds i = false := by
    rw [holds, List.any_eq_false]
    intro t ht heq
    exact hi (List.mem_map.mpr ⟨t, ht, beq_iff_eq.mp heq⟩)
  have hchanged : Inv { s with worker := { s.worker with slots := s.worker.slots.modify i f } }
      reserved owed :=
    { h with
      slots := (List.length_modify ..).trans h.slots
      contents := contents_modify h hi f
      running := fun hr ↦
        have ⟨hi, hp, ht, ha⟩ := h.running hr
        ⟨hi, hp, ht, forall_mem_modify ha (hf hr) i⟩ }
  exact hchanged.log rfl hholds nofun nofun

theorem Inv.release (h : Inv s [i] owed) : Inv (s.release i) [] owed := by
  have hmem : i ∈ s.pending.map (·.slot) ++ [i] := by simp
  have hlt : i < AudioOutTransferSlots.slotCount := h.flags ▸ h.tracks.lt hmem
  have hk : (s.pending.map (·.slot) ++ [i])[s.pending.length]? = some i := by simp
  have hdone := AudioOutTransferSlots.complete_of_used hlt ((h.tracks.mem i).mp hmem)
  have htracks := h.tracks.release hk
  rw [List.eraseIdx_append_of_length_le (by simp)] at htracks
  refine { h with tracks := ?_, flags := ?_, inFlight := ?_ }
  · simpa [System.release, hdone, AudioOutTransferSlots.mark] using htracks
  · simpa [System.release, hdone, AudioOutTransferSlots.mark] using h.flags
  · simp [System.release, hdone, AudioOutTransferSlots.mark, h.inFlight, UInt32.ofNat_add]

theorem release_halt (s : System) (i : ℕ) : (s.release i).halt = s.halt.release i := by
  simp only [System.release, System.halt, AudioOutTransferSlots.complete_stopAccepting]

/-- How a submission by a running worker can end. After a failure the worker is
as it should be once it is halted, which both callers see to. -/
inductive Submitted : IOReturn × System → Prop
  | accepted {s : System} (inv : Inv s [] 0) (running : s.worker.running = true) :
      Submitted (.success, s)
  | failed {result : IOReturn} {s : System} (failure : result ≠ .success) (inv : Inv s.halt [] 0)
      (initialized : s.worker.initialized = true) : Submitted (result, s)

theorem Inv.reserve (h : Inv s [] 0) {slot : Option ℕ} {t : System} (hr : s.reserve = (slot, t)) :
    Inv t slot.toList 0 ∧ t.worker.running = s.worker.running ∧
      t.worker.initialized = s.worker.initialized := by
  have hres := AudioOutTransferSlots.reserve_reserved s.worker.ring s.worker.packetPolicy h.flags
  rw [System.reserve] at hr
  generalize s.worker.transferSlots.reserve s.worker.ring s.worker.packetPolicy = r at hres hr
  cases hres with
  | refused hu hf =>
    cases hr
    exact ⟨{ h with
      tracks := hu ▸ h.tracks
      flags := hu ▸ h.flags
      inFlight := hf.trans h.inFlight }, rfl, rfl⟩
  | @granted _ _ _ i hfree hu hf =>
    cases hr
    refine ⟨{ h with tracks := ?_, flags := ?_, inFlight := ?_ }, rfl, rfl⟩
    · rw [hu]
      simpa using h.tracks.acquire hfree
    · rw [hu, List.length_set]
      exact h.flags
    · rw [hf, h.inFlight]
      simp [UInt32.ofNat_add]

theorem Inv.not_mem_reserved (h : Inv s [i] owed) : i ∉ s.pending.map (·.slot) := by
  intro hmem
  exact (List.nodup_append.mp h.tracks.nodup).2.2 i hmem i (List.mem_singleton_self i) rfl

theorem Inv.fill (h : Inv s [i] owed) (batch : AudioOutTransferBatch) :
    Inv (s.fill i batch) [i] owed ∧ (s.fill i batch).worker.running = s.worker.running ∧
      (s.fill i batch).worker.initialized = s.worker.initialized := by
  have hmod := @Inv.modify s [i] owed i (fun slot ↦
    { data := slot.data.map fun data ↦
        Foundation.CircularStore.splice data 0 (batch.bytes.take batch.byteCount)
      frames := slot.frames.map fun _ ↦ requests batch }) h h.not_mem_reserved (by
        intro _ slot hslot
        simpa [Slot.Allocated] using hslot)
  rw [System.fill]
  split
  · exact ⟨{ hmod with }, rfl, rfl⟩
  · exact ⟨hmod, rfl, rfl⟩

theorem Inv.accept (h : Inv s [i] 0) (hr : s.worker.running = true) :
    Inv (s.accept i) [] 0 := by
  have hlt : i < s.worker.slots.length := by
    rw [h.slots, ← h.flags]
    exact h.tracks.lt (by simp)
  have hslot : s.worker.slots[i]? = some (s.slot i) := by
    simp [System.slot, List.getD, List.getElem?_eq_getElem hlt]
  obtain ⟨hinit, -, -, halloc⟩ := h.running hr
  refine { h with tracks := ?_, inFlight := ?_, counted := ?_, contents := ?_, fresh := ?_ }
  · simpa [System.accept] using h.tracks
  · simpa [System.accept] using h.inFlight
  · have hc := h.counted
    simp only [System.accept, List.length_append, List.length_singleton] at hc ⊢
    rw [hc, add_assoc, Foundation.SlotWindow.ofNat_succ]
  · refine List.forall_mem_append.mpr ⟨h.contents, List.forall_mem_singleton.mpr ⟨hslot, ?_⟩⟩
    exact halloc _ (List.mem_of_getElem? hslot)
  · intro hi
    exact absurd (hi.symm.trans hinit) Bool.false_ne_true

theorem Inv.unsubmitted {e : Event} (h : Inv s [i] 0) (hr : s.worker.running = true)
    (hn : e.failed = false) (hq : e.Harmless) : Inv ((s.release i).log e).halt [] 0 := by
  have hlog : ((s.release i).log e).halt = (s.halt.release i).log e := by
    rw [← release_halt]
    rfl
  obtain ⟨hinit, -, htrace, -⟩ := h.running hr
  rw [hlog]
  exact h.halt.release.log (by rw [hn]; rfl) hq (fun _ ↦ htrace) fun _ ↦ ⟨rfl, hinit⟩

theorem Inv.submitSlot (h : Inv s [i] 0) (hr : s.worker.running = true) :
    Submitted (s.submitSlot answers i) := by
  have hinit := (h.running hr).1
  rw [System.submitSlot]
  split
  · exact .failed nofun (h.unsubmitted hr rfl trivial) hinit
  · next batch _ =>
    obtain ⟨hfill, hfr, hfi⟩ := h.fill batch
    simp only
    split_ifs with hbytes hoffset hresult
    · exact .failed nofun (h.unsubmitted hr rfl trivial) hinit
    · exact .failed nofun (hfill.unsubmitted (hfr.trans hr) rfl trivial) (hfi.trans hinit)
    · exact .failed hresult (hfill.unsubmitted (hfr.trans hr) rfl trivial) (hfi.trans hinit)
    · have hok : answers.writePipe i = .success := not_not.mp hresult
      have hlog : Inv ((s.fill i batch).log (.written i (answers.writePipe i))) [i] 0 :=
        hfill.log rfl trivial (fun _ ↦ (hfill.running (hfr.trans hr)).2.2.1)
          fun hends ↦ absurd hok hends
      exact .accepted (hlog.accept (hfr.trans hr)) (hfr.trans hr)

theorem Inv.submitNext (h : Inv s [] 0) (hr : s.worker.running = true) :
    Submitted (s.submitNext answers) := by
  obtain ⟨hinit, -, htrace, -⟩ := h.running hr
  rw [System.submitNext]
  simp only [hr, h.opened hinit, Bool.not_true, Bool.or_self, Bool.false_eq_true, if_false]
  cases hres : s.reserve with
  | mk slot t =>
    obtain ⟨hinv, htr, hti⟩ := h.reserve hres
    cases slot with
    | none =>
      refine .failed nofun ?_ (hti.trans hinit)
      exact hinv.halt.log rfl trivial (fun hw ↦ hw.elim) fun _ ↦ ⟨rfl, hti.trans hinit⟩
    | some i => exact hinv.submitSlot (htr.trans hr)

theorem Inv.resubmit (h : Inv s [] 0) : Inv (s.resubmit answers) [] 0 := by
  rw [System.resubmit]
  split
  · next hr =>
    have hsub := @Inv.submitNext s answers h hr
    generalize s.submitNext answers = r at hsub
    cases hsub with
    | accepted hinv _ => exact hinv
    | failed hne hinv _ =>
      rw [if_pos hne]
      exact { hinv with }
  · exact h

theorem Inv.arrive {k : ℕ} {t : Transfer} (h : Inv s [] 0) (hk : s.pending[k]? = some t)
    (c : Completion) : Inv (s.arrive k t c) [t.slot] 1 := by
  obtain ⟨hlt, rfl⟩ := List.getElem?_eq_some_iff.mp hk
  have hperm : (s.pending[k] :: s.pending.eraseIdx k).Perm s.pending := List.getElem_cons_eraseIdx_perm hlt
  have hslots : ((s.pending.eraseIdx k).map (·.slot) ++ [s.pending[k].slot]).Perm
      (s.pending.map (·.slot) ++ []) := by
    rw [List.append_nil]
    exact (List.perm_append_singleton _ _).trans (hperm.map _)
  have htracks := h.tracks.perm hslots
  have hnot : s.pending[k].slot ∉ (s.pending.eraseIdx k).map (·.slot) := by
    intro hmem
    exact (List.nodup_append.mp htracks.nodup).2.2 _ hmem _ (List.mem_singleton_self _) rfl
  have hlen : s.pending.length = (s.pending.eraseIdx k).length + 1 := hperm.length_eq.symm
  have hsmall : Inv { s with pending := s.pending.eraseIdx k } [s.pending[k].slot] 1 :=
    { h with
      tracks := htracks
      inFlight := h.inFlight.trans (by rw [hlen]; rfl)
      counted := h.counted.trans (by rw [hlen])
      contents := fun t ht ↦ h.contents t (List.mem_of_mem_eraseIdx ht)
      fresh := fun hi ↦ ⟨by rw [(h.fresh hi).1]; rfl, (h.fresh hi).2⟩ }
  refine { hsmall with slots := ?_, contents := contents_modify hsmall hnot _, running := ?_ }
  · exact (List.length_modify ..).trans h.slots
  · intro hr
    obtain ⟨hi, hp, ht, ha⟩ := h.running hr
    refine ⟨hi, hp, ht, forall_mem_modify ha ?_ _⟩
    intro slot hslot
    simpa [Slot.Allocated] using hslot

theorem Inv.countCompleted (h : Inv s [] 1) : Inv (s.countCompleted i) [] 0 := by
  have hc := h.counted
  refine @Inv.log _ [] 0 (.completed i .success) 0 { h with counted := ?_ } rfl trivial
    (fun hw ↦ hw.elim) fun hends ↦ (hends rfl).elim
  dsimp only
  rw [hc, ← Foundation.SlotWindow.ofNat_succ]
  ac_rfl

theorem Inv.didComplete (h : Inv s [i] 1) (hinit : s.worker.initialized = true) (status : IOReturn) :
    Inv (s.didComplete answers i status) [] 0 := by
  rw [System.didComplete]
  split
  · exact h.release.countCompleted.resubmit
  · next hfailed =>
    have hhalt : Inv (s.release i).countFailure.halt [] 1 := h.release.countFailure.halt
    refine @Inv.log _ [] 0 (.completed i _) 1 hhalt ?_ trivial (fun hw ↦ hw.elim)
      fun _ ↦ ⟨rfl, hinit⟩
    simp [Event.failed, hfailed]

theorem Inv.complete (h : Inv s [] 0) (k : ℕ) (c : Completion) :
    Inv (s.complete answers k c) [] 0 := by
  rw [System.complete]
  cases hk : s.pending[k]? with
  | none => exact h
  | some t =>
    refine (h.arrive hk c).didComplete ?_ c.status
    refine Bool.eq_true_of_not_eq_false fun hinit ↦ ?_
    rw [(h.fresh hinit).1] at hk
    exact absurd hk nofun

structure Idle (s t : System) : Prop where
  inv : Inv t [] 0
  pending : t.pending = []
  running : t.worker.running = false
  initialized : t.worker.initialized = s.worker.initialized
  handles : t.handles = s.handles
  phase : t.phase = s.phase

theorem Inv.idle (h : Inv s [] 0) (hp : s.pending = []) (hr : s.worker.running = false) : Idle s s :=
  ⟨h, hp, hr, rfl, rfl, rfl⟩

variable {t : System}

theorem Idle.modify (h : Idle s t) (i : ℕ) (f : Slot → Slot) : Idle s (t.modify i f) := by
  refine ⟨h.inv.modify ?_ ?_, h.pending, h.running, h.initialized, h.handles, h.phase⟩
  · rw [h.pending]
    exact List.not_mem_nil
  · intro hr
    exact absurd (h.running.symm.trans hr) Bool.false_ne_true

theorem releaseBuffers_of_modify {P : System → Prop}
    (hmodify : ∀ (s : System) (i : ℕ) (f : Slot → Slot), P s → P (s.modify i f)) (h : P s) :
    P (s.releaseBuffers answers).2 := by
  have hslot (r : IOReturn × System) (hr : P r.2) (i : ℕ) : P (releaseSlot answers i r).2 := by
    simp only [releaseSlot]
    split_ifs
    · exact hmodify _ i _ (hmodify _ i _ hr)
    · exact hmodify _ i _ hr
    · exact hmodify _ i _ hr
    · exact hr
  rw [releaseBuffers]
  split
  · exact h
  · exact List.foldlRecOn (motive := fun r ↦ P r.2) (b := (.success, s)) _ _ h fun r hr i _ ↦ hslot r hr i

theorem Idle.releaseBuffers (h : Idle s t) : Idle s (t.releaseBuffers answers).2 :=
  releaseBuffers_of_modify (fun _ i f h ↦ h.modify i f) h

theorem Inv.finishStop (h : Inv s [] 0) (hp : s.pending = []) (hr : s.worker.running = false)
    (result : IOReturn) (start : Option IOReturn) :
    Inv (s.finishStop answers result start) [] 0 := by
  rw [System.finishStop]
  refine (Idle.releaseBuffers (Inv.idle ?_ ?_ ?_)).inv.ret _ <;> split
  · exact { h with }
  · exact h
  all_goals assumption

theorem Inv.length_le (h : Inv s [] 0) : s.pending.length ≤ AudioOutTransferSlots.slotCount := by
  simpa only [List.append_nil, List.length_map, h.flags] using h.tracks.length_le

theorem Inv.inFlight_toNat (h : Inv s [] 0) :
    s.worker.transferSlots.inFlight.toNat = s.pending.length := by
  have hle := h.length_le
  rw [AudioOutTransferSlots.slotCount] at hle
  rw [h.inFlight, UInt32.toNat_ofNat']
  exact Nat.mod_eq_of_lt (by simp only [List.length_nil]; omega)

theorem Inv.pending_nil (h : Inv s [] 0) (hf : s.worker.transferSlots.inFlight = 0) :
    s.pending = [] := by
  rw [← List.length_eq_zero_iff, ← h.inFlight_toNat, hf]
  rfl

theorem Inv.stop (h : Inv s.halt [] 0) (hinit : s.worker.initialized = true)
    (start : Option IOReturn) : Inv (s.stop answers start) [] 0 := by
  have hlog : Inv (s.halt.log .stopped) [] 0 :=
    h.log rfl trivial (fun hw ↦ hw.elim) fun _ ↦ ⟨rfl, hinit⟩
  rw [System.stop]
  simp only [hinit, Bool.not_true, Bool.false_eq_true, if_false]
  split
  · exact { hlog with running := nofun }
  · next hidle =>
    refine hlog.finishStop (hlog.pending_nil ?_) rfl .success start
    by_contra hf
    exact hidle ⟨hf, hlog.opened hinit⟩

theorem Inv.submitAll (h : Inv s [] 0) (hr : s.worker.running = true) (n : ℕ) :
    Inv (s.submitAll answers n) [] 0 := by
  induction n generalizing s with
  | zero => exact h.ret .success
  | succ n ih =>
    have hsub := @Inv.submitNext s answers h hr
    rw [System.submitAll]
    generalize s.submitNext answers = r at hsub
    cases hsub with
    | accepted hinv hrun => exact ih hinv hrun
    | failed hne hinv hinit =>
      -- `start` stops the worker itself and may have to wait for the earlier transfers.
      rw [if_pos hne]
      refine Inv.stop ?_ ?_ _
      · exact hinv.countFailure
      · exact hinit

def Equipped (s : System) (j : ℕ) : Prop := ∀ slot, s.worker.slots[j]? = some slot → slot.Allocated

theorem equipped_create (s : System) (i : ℕ) (data : List UInt8) (frames : List IsocFrame) {j : ℕ}
    (h : j = i ∨ s.Equipped j) :
    ((s.modify i fun slot ↦ { slot with data := some data }).modify i fun slot ↦
      { slot with frames := some frames }).Equipped j := by
  intro slot hslot
  simp only [System.modify, System.log, List.modify_modify_eq, List.getElem?_modify,
    Option.map_eq_map, Option.map_eq_some_iff] at hslot
  obtain ⟨old, hold, rfl⟩ := hslot
  rcases eq_or_ne i j with rfl | hij
  · simp [Slot.Allocated]
  · rw [if_neg hij]
    exact h.resolve_left hij.symm old hold

theorem Idle.createBuffers {slots : List ℕ} (h : Idle s t) :
    Idle s (t.createBuffers answers slots).2 ∧
      ((t.createBuffers answers slots).1 = .success → ∀ j, j ∈ slots ∨ t.Equipped j →
        (t.createBuffers answers slots).2.Equipped j) := by
  induction slots generalizing t with
  | nil => exact ⟨h, fun _ j hj ↦ hj.resolve_left List.not_mem_nil⟩
  | cons i rest ih =>
    simp only [System.createBuffers]
    split_ifs with hdata hframes
    · exact ⟨h, fun hs ↦ absurd hs hdata⟩
    · exact ⟨h.modify i _, fun hs ↦ absurd hs hframes⟩
    · obtain ⟨hidle, hequipped⟩ := ih ((h.modify i _).modify i _)
      refine ⟨hidle, fun hs j hj ↦ hequipped hs j ?_⟩
      rw [List.mem_cons, or_right_comm] at hj
      exact hj.symm.imp_right (equipped_create t i _ _)

theorem Inv.launch (h : Inv s [] 0) (hinit : s.worker.initialized = false)
    (hopen : s.handles.interface = true) (hphase : s.phase = .ready)
    (hslots : ∀ slot ∈ s.worker.slots, slot.Allocated) : Inv s.launch [] 0 :=
  { h with
    running := fun _ ↦ ⟨rfl, hphase, (h.fresh hinit).2, hslots⟩
    fresh := nofun
    opened := fun _ ↦ hopen }

theorem Idle.abandonStart (h : Idle s t) (result : IOReturn) :
    Inv (t.abandonStart answers result) [] 0 :=
  (h.releaseBuffers.inv.setRunLoop false).ret result

theorem Inv.start (h : Inv s [] 0) (hphase : s.phase = .ready) : Inv (s.start answers) [] 0 := by
  rw [System.start]
  split
  · exact h.ret .notReady
  · next hguard =>
    simp only [not_or, Bool.not_eq_true, Bool.not_eq_false'] at hguard
    obtain ⟨hinit, hopen, -, -⟩ := hguard
    have hrun : s.worker.running = false := by
      by_contra hr
      exact Bool.false_ne_true (hinit.symm.trans (h.running (Bool.not_eq_false _ ▸ hr)).1)
    split
    · exact (h.setRunLoop false).ret .notReady
    · have hidle : Idle (s.setRunLoop true) (s.setRunLoop true) :=
        (h.setRunLoop true).idle (h.fresh hinit).1 hrun
      obtain ⟨hmade, hequipped⟩ := @Idle.createBuffers _ answers _
        (List.range AudioOutTransferSlots.slotCount) hidle
      simp only
      split_ifs with hresult
      · exact hmade.abandonStart _
      · exact hmade.abandonStart _
      · refine Inv.submitAll (hmade.inv.launch (hmade.initialized.trans hinit)
          (hmade.handles ▸ hopen) (hmade.phase.trans hphase) ?_) rfl _
        intro slot hslot
        obtain ⟨j, hj⟩ := List.getElem?_of_mem hslot
        have hlt := (List.getElem?_eq_some_iff.mp hj).1
        rw [hmade.inv.slots] at hlt
        exact hequipped (not_not.mp hresult) j (.inl (List.mem_range.mpr hlt)) slot hj

theorem Inv.step (h : Inv s [] 0) (a : Action) : Inv (s.step a) [] 0 := by
  cases a with
  | start answers =>
    rw [System.step]
    split
    · next hphase => exact h.start hphase
    · exact h
  | stop answers =>
    rw [System.step]
    split
    · by_cases hinit : s.worker.initialized = true
      · exact Inv.stop h.halt hinit none
      · simp only [System.stop, hinit, Bool.not_false, if_true]
        exact h.ret _
    · exact h
  | complete answers k c => exact h.complete k c
  | drained answers =>
    rw [System.step]
    split
    · exact h
    · next abort start hphase =>
      split
      · next hf =>
        refine h.finishStop (h.pending_nil hf) ?_ abort start
        by_contra hr
        exact absurd (hphase.symm.trans (h.running (by simpa using hr)).2.1) nofun
      · exact h
  | timeout =>
    rw [System.step]
    split
    · exact h
    · split
      · exact h.ret _
      · exact h
  | supply ring policy => exact { h with }

theorem inv_initial (handles : Handles) (ring : AudioOutputRing ℚ) (policy : AudioPacketPolicy) :
    Inv (initial handles ring policy) [] 0 where
  tracks := Tracks.none_held _
  flags := rfl
  slots := rfl
  inFlight := rfl
  counted := rfl
  contents := nofun
  harmless := nofun
  order := .nil
  running := nofun
  fresh _ := ⟨rfl, nofun⟩
  opened := nofun

theorem Inv.after (h : Inv s [] 0) (actions : List Action) : Inv (s.after actions) [] 0 := by
  induction actions generalizing s with
  | nil => exact h
  | cons a actions ih => exact ih (h.step a)

/-- The books of a worker between calls and callbacks: the slots marked in use are
those of the transfers the stack holds, each transfer in a slot of its own and
with its buffers as they were submitted; the counters add up; no buffer was
touched while the stack held it; and nothing was written after a failure or a stop. -/
structure Accounted (s : System) : Prop where
  inUse : ∀ i, s.worker.transferSlots.inUse[i]? = some true ↔ ∃ t ∈ s.pending, t.slot = i
  distinct : (s.pending.map (·.slot)).Nodup
  inFlight : s.worker.transferSlots.inFlight.toNat = s.pending.length
  bound : s.worker.transferSlots.inFlight ≤ 8
  submitted : s.worker.submitted = s.worker.completed +
    UInt64.ofNat (s.trace.countP Event.failed) + s.worker.transferSlots.inFlight.toUInt64
  buffers : ∀ t ∈ s.pending, s.worker.slots[t.slot]? = some t.buffers
  untouched : ∀ i held, .modified i held ∈ s.trace → held = false
  failStop : ∀ before e later, s.trace = before ++ e :: later → e.Ends → ∀ e' ∈ later, ¬ e'.Writes

theorem Inv.accounted (h : Inv s [] 0) : Accounted s where
  inUse i := by
    rw [← h.tracks.mem i, List.append_nil, List.mem_map]
  distinct := by simpa only [List.append_nil] using h.tracks.nodup
  inFlight := h.inFlight_toNat
  bound := by
    rw [UInt32.le_iff_toNat_le, h.inFlight_toNat]
    exact h.length_le
  submitted := by
    rw [h.counted, add_zero, ← h.inFlight_toNat, UInt64.ofNat_uInt32ToNat]
  buffers t ht := (h.contents t ht).1
  untouched i held hmem := h.harmless _ hmem
  failStop before e later htrace hends e' he' := by
    have horder := h.order
    rw [htrace, List.pairwise_append, List.pairwise_cons] at horder
    exact horder.2.1.1 e' he' hends

/-- Whatever the stack reports, in whatever order, and whatever fills the ring. -/
theorem accounted_of_run (handles : Handles) (ring : AudioOutputRing ℚ) (policy : AudioPacketPolicy)
    (actions : List Action) : Accounted ((initial handles ring policy).after actions) :=
  ((inv_initial handles ring policy).after actions).accounted

end System

end NumarkNS6.AudioOut.AudioOutWorker
