import NumarkNS6.AudioOut.TransferAccounting

namespace NumarkNS6.AudioOut.AudioOutWorker.System

open Usb (IOReturn)

variable {s t : System} {answers : Answers}

structure Kept (s t : System) : Prop where
  running : t.worker.running = s.worker.running
  transferSlots : t.worker.transferSlots = s.worker.transferSlots
  source : (t.worker.sourceAdded && t.worker.runLoop) = (s.worker.sourceAdded && s.worker.runLoop)

theorem releaseBuffers_kept (s : System) (answers : Answers) :
    Kept s (s.releaseBuffers answers).2 := by
  refine releaseBuffers_of_modify (P := Kept s) ?_ ⟨rfl, rfl, rfl⟩
  intro u i f h
  exact ⟨h.running, h.transferSlots, h.source⟩

theorem slot_modify (s : System) (i j : ℕ) (f : Slot → Slot)
    (hf : f ⟨none, none⟩ = ⟨none, none⟩) :
    (s.modify i f).slot j = if i = j then f (s.slot j) else s.slot j := by
  simp only [System.slot, System.modify, System.log,
    List.getD_eq_getElem?_getD, List.getElem?_modify]
  cases s.worker.slots[j]? with
  | none => simp [hf]
  | some slot => split_ifs <;> rfl

theorem releaseSlot_slot (answers : Answers) (i j : ℕ)
    (r : IOReturn × System) :
    (releaseSlot answers i r).2.slot j = if i = j then ⟨none, none⟩ else r.2.slot j := by
  unfold releaseSlot
  dsimp only
  generalize hu : (if (r.2.slot i).data.isSome then
    (r.1.firstFailure (answers.destroyBuffer (2 * i)),
      r.2.modify i fun slot ↦ { slot with data := none }) else r) = u
  have hdata : ∀ j, u.2.slot j = if i = j then { r.2.slot j with data := none } else r.2.slot j := by
    intro j
    subst hu
    split_ifs with hd hij hij
    · simp [slot_modify, hij]
    · simp [slot_modify, hij]
    · subst hij
      rw [Option.not_isSome_iff_eq_none.mp hd |>.symm]
    · rfl
  split_ifs with hf hij hij
  · simp [slot_modify, hij, hdata]
  · simp [slot_modify, hij, hdata]
  · subst hij
    have hnone : (u.2.slot i).frames = none := Option.not_isSome_iff_eq_none.mp hf
    rw [hdata, if_pos rfl] at hnone ⊢
    exact congrArg (Slot.mk none) hnone
  · rw [hdata, if_neg hij]

def Emptied (s : System) : Prop :=
  ∀ i < AudioOutTransferSlots.slotCount, s.slot i = ⟨none, none⟩

theorem foldl_releaseSlot_slot (answers : Answers) (l : List ℕ)
    (r : IOReturn × System) {j : ℕ} (hj : j ∈ l ∨ r.2.slot j = ⟨none, none⟩) :
    (l.foldl (fun r i ↦ releaseSlot answers i r) r).2.slot j = ⟨none, none⟩ := by
  induction l generalizing r with
  | nil => exact hj.resolve_left List.not_mem_nil
  | cons i rest ih =>
    apply ih
    rw [releaseSlot_slot]
    by_cases hij : i = j
    · exact .inr (if_pos hij)
    · rw [if_neg hij]
      refine hj.imp_left fun hmem ↦ ?_
      exact (List.mem_cons.mp hmem).resolve_left (Ne.symm hij)

theorem foldl_releaseSlot_emptied (answers : Answers) (l : List ℕ)
    (r : IOReturn × System) (hl : ∀ i ∈ l, r.2.slot i = ⟨none, none⟩) :
    l.foldl (fun r i ↦ releaseSlot answers i r) r = r := by
  induction l with
  | nil => rfl
  | cons i rest ih =>
    have hi : releaseSlot answers i r = r := by simp [releaseSlot, hl i List.mem_cons_self]
    rw [List.foldl_cons, hi]
    exact ih fun j hj ↦ hl j (List.mem_cons_of_mem i hj)

theorem releaseBuffers_emptied (hi : s.handles.interface = true) :
    Emptied (s.releaseBuffers answers).2 := by
  intro i hlt
  rw [System.releaseBuffers, hi]
  exact foldl_releaseSlot_slot _ _ _ (.inl (List.mem_range.mpr hlt))

theorem Emptied.releaseBuffers (h : Emptied s) (hi : s.handles.interface = true) :
    s.releaseBuffers answers = (.success, s) := by
  rw [System.releaseBuffers, hi]
  exact foldl_releaseSlot_emptied _ _ _ fun i hmem ↦ h i (List.mem_range.mp hmem)

theorem finishStop_kept (s : System) (answers : Answers) (abort : IOReturn)
    (start : Option IOReturn) :
    (s.finishStop answers abort start).worker.running = s.worker.running ∧
      (s.finishStop answers abort start).worker.transferSlots = s.worker.transferSlots := by
  unfold System.finishStop
  dsimp only
  split_ifs
  · have hkept := releaseBuffers_kept { s with worker := { s.worker with sourceAdded := false } } answers
    exact ⟨hkept.running, hkept.transferSlots⟩
  · have hkept := releaseBuffers_kept s answers
    exact ⟨hkept.running, hkept.transferSlots⟩

/-- What a `stop` of a worker that has been started leaves behind. -/
structure Drained (s : System) : Prop where
  inFlight : s.worker.transferSlots.inFlight = 0
  running : s.worker.running = false
  source : (s.worker.sourceAdded && s.worker.runLoop) = false
  emptied : Emptied s

theorem finishStop_drained (hr : s.worker.running = false)
    (hf : s.worker.transferSlots.inFlight = 0) (hi : s.handles.interface = true)
    (abort : IOReturn) (start : Option IOReturn) : Drained (s.finishStop answers abort start) := by
  obtain ⟨hrunning, hslots⟩ := finishStop_kept s answers abort start
  have hreleased : ((s.finishStop answers abort start).worker.sourceAdded &&
      (s.finishStop answers abort start).worker.runLoop) = false ∧
      Emptied (s.finishStop answers abort start) := by
    unfold System.finishStop
    dsimp only
    split_ifs with hsource
    · have hkept := releaseBuffers_kept { s with worker := { s.worker with sourceAdded := false } } answers
      exact ⟨hkept.source, releaseBuffers_emptied (s := { s with worker := _ }) hi⟩
    · have hkept := releaseBuffers_kept s answers
      exact ⟨hkept.source.trans (Bool.eq_false_iff.mpr hsource), releaseBuffers_emptied hi⟩
  exact ⟨(congrArg (·.inFlight) hslots).trans hf, hrunning.trans hr, hreleased.1, hreleased.2⟩

theorem stop_drained (h : System.Inv s [] 0)
    (hp : (s.stop answers none).phase = .ready) :
    (s.stop answers none).worker.initialized = false ∨ Drained (s.stop answers none) := by
  unfold System.stop at hp ⊢
  dsimp only at hp ⊢
  split_ifs at hp ⊢ with hinit hwait
  · exact .inl ((Bool.not_eq_true' _).mp hinit)
  · have hopen := h.opened (by simpa using hinit)
    have hidle : (s.halt.log .stopped).worker.transferSlots.inFlight = 0 := by
      by_contra hf
      exact hwait ⟨hf, hopen⟩
    exact .inr (finishStop_drained (s := s.halt.log .stopped) rfl hidle hopen _ _)

theorem Drained.stop (h : Drained s) (hi : s.worker.initialized = true → s.handles.interface = true) :
    (s.stop answers none).phase = .ready ∧ (s.stop answers none).result = .success := by
  unfold System.stop
  dsimp only
  split_ifs with hinit hwait
  · exact ⟨rfl, rfl⟩
  · exact absurd h.inFlight hwait.1
  · refine ⟨rfl, ?_⟩
    have hopen := hi (by simpa using hinit)
    have hempty : Emptied (s.halt.log .stopped) := h.emptied
    have hsource : ((s.halt.log .stopped).worker.sourceAdded && (s.halt.log .stopped).worker.runLoop)
      = false := h.source
    simp only [System.finishStop, hsource, Bool.false_eq_true, if_false]
    rw [hempty.releaseBuffers hopen]
    rfl

end NumarkNS6.AudioOut.AudioOutWorker.System
