import NumarkNS6.CoreAudio.NS6AudioDriver

namespace NumarkNS6.CoreAudio.DriverState

open Usb

/-- A property that everything the operations on started clients do to a state
keeps, apart from starting the hardware. -/
structure Transparent (P : DriverState → Prop) : Prop where
  lifecycle : ∀ t device l, P t → P (t.setLifecycle device l)
  addStart : ∀ t p, P t → P (t.updateClient p Client.addStart)
  dropStart : ∀ t p, P t → P (t.updateClient p Client.dropStart)
  sync : ∀ t, P t → P t.syncInputCapture
  notify : ∀ t device, P t → P (t.notifyRunningChanged device)
  stopHardware : ∀ t close, P t → P (t.stopHardware close).2

variable {P : DriverState → Prop} {s : DriverState} {device : AudioObjectID} {client : UInt32}

theorem Transparent.finishStop (hP : Transparent P) (h : P s) (transition : AudioIOTransition)
    (close : IOReturn) : P (s.finishStop device transition close).2 := by
  have hsync := hP.sync s h
  have hdown : P (if s.syncInputCapture.anyActive then (.success, s.syncInputCapture)
      else s.syncInputCapture.stopHardware close).2 := by
    split
    · exact hsync
    · exact hP.stopHardware _ close hsync
  unfold DriverState.finishStop
  simp only
  split
  · simp only
    generalize (if s.syncInputCapture.anyActive = true then (.success, s.syncInputCapture)
      else s.syncInputCapture.stopHardware close) = stopped at hdown ⊢
    split
    · exact hP.notify _ device hdown
    · exact hdown
  · exact hsync

theorem Transparent.startIo (hP : Transparent P) (h : P s) (hw : HardwareAnswers)
    (hopen : ∀ l, s.anyActive = false → P (s.setLifecycle device l) →
      P ((s.setLifecycle device l).startHardware true hw).2) :
    P (s.startIo device client hw).2 := by
  have hset : P (s.setLifecycle device ((s.lifecycle device).startIo client).2) :=
    hP.lifecycle s device _ h
  have hopened : P (if !s.anyActive then
      (s.setLifecycle device ((s.lifecycle device).startIo client).2).startHardware true hw
      else (.success, s.setLifecycle device ((s.lifecycle device).startIo client).2)).2 := by
    split
    · next hidle => exact hopen _ (by simpa using hidle) hset
    · exact hset
  unfold DriverState.startIo
  by_cases hd : validDevice device = false
  · rw [if_pos hd]
    exact h
  by_cases hc : s.hasClient device client = false
  · rw [if_neg hd, if_pos hc]
    exact h
  rw [if_neg hd, if_neg hc]
  simp only
  by_cases hrejected : ((s.lifecycle device).startIo client).1 = .rejected
  · rw [if_pos hrejected]
    exact hset
  rw [if_neg hrejected]
  generalize (if (!s.anyActive) = true then
    (s.setLifecycle device ((s.lifecycle device).startIo client).2).startHardware true hw
    else (.success, s.setLifecycle device ((s.lifecycle device).startIo client).2)) = opened
    at hopened ⊢
  have hstarted := hP.sync _ (hP.addStart opened.2 (isClient device client) hopened)
  split_ifs
  · exact hP.lifecycle _ device _ hopened
  · exact hP.notify _ device hstarted
  · exact hstarted

theorem Transparent.stopIo (hP : Transparent P) (h : P s) (close : IOReturn) :
    P (s.stopIo device client close).2 := by
  have hset : P (s.setLifecycle device ((s.lifecycle device).stopIo client).2) :=
    hP.lifecycle s device _ h
  unfold DriverState.stopIo
  split_ifs
  · exact h
  · exact h
  · simp only
    split
    · exact hset
    · exact hP.finishStop (hP.dropStart _ _ hset) _ close

theorem Transparent.removeClient (hP : Transparent P) (h : P s) (info : Option ClientInfo)
    (close : IOReturn) (hdrop : ∀ t slot clients, P t →
      P { clearActivity t slot with clients := clients }) :
    P (s.removeClient device close info).2 := by
  cases info with
  | none => exact h
  | some info =>
    simp only [DriverState.removeClient]
    split
    · exact h
    · cases s.clients.findIdx? (isClient device info.clientID) with
      | none => exact h
      | some i => exact hP.finishStop (hdrop _ _ _ (hP.lifecycle s device _ h)) _ close

theorem Transparent.monitorTick (hP : Transparent P) (h : P s) (current present : Bool)
    (close : IOReturn) (hw : HardwareAnswers) {Q : DriverState → Prop} (hkeep : ∀ t, P t → Q t)
    (hopen : ∀ t, s.anyActive = true → P t → Q (t.startHardware false hw).2) :
    Q (s.monitorTick current present close hw) := by
  unfold DriverState.monitorTick
  split
  · exact hkeep s h
  · next hactive =>
    have hdown : P (if s.session.isSome && !current then (s.stopHardware close).2 else s) := by
      split
      · exact hP.stopHardware s close h
      · exact h
    simp only
    generalize (if (s.session.isSome && !current) = true then (s.stopHardware close).2 else s) = t
      at hdown ⊢
    split
    · exact hopen t (by simpa using hactive) hdown
    · exact hkeep t hdown

end NumarkNS6.CoreAudio.DriverState
