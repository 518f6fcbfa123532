import NumarkNS6.CoreAudio.NS6AudioDriver

namespace NumarkNS6.CoreAudio.DriverState

open AudioClientLifecycle (maximumStarts starts_toNat starts_succ starts_pred)
open Foundation.SlotBag Usb

variable {s : DriverState} {device : AudioObjectID} {client : UInt32}

def other (device : AudioObjectID) : AudioObjectID :=
  if device = deviceObjectID then inputDeviceObjectID else deviceObjectID

def held (s : DriverState) : Multiset (AudioObjectID × UInt32) :=
  s.outputLifecycle.held.map (deviceObjectID, ·) + s.inputLifecycle.held.map (inputDeviceObjectID, ·)

def key (c : Client) : AudioObjectID × UInt32 := (c.device, c.id)

def starts (clients : List Client) : Multiset (AudioObjectID × UInt32) :=
  bag key (·.starts.toNat) clients

/-- The client table and the two lifecycles count the same starts. -/
structure Accounts (s : DriverState) : Prop where
  output : s.outputLifecycle.Valid
  input : s.inputLifecycle.Valid
  distinct : (s.clients.map key).Nodup
  balance : starts s.clients = s.held

/-- Session and runtime exist exactly while the driver runs. -/
structure Wired (s : DriverState) : Prop where
  session : s.session.isSome = s.running
  runtime : s.runtime.isSome = s.running
  worker : ∀ r, s.runtime = some r → r.joinable = true ∧ r.midiEnabled = true

structure Powered (s : DriverState) : Prop extends Wired s where
  active : s.running = true → s.anyActive = true
  capture : ∀ r, s.runtime = some r → r.inputEnabled = s.inputActive

section Lifecycles

theorem valid_cases (hd : validDevice device = true) :
    device = deviceObjectID ∨ device = inputDeviceObjectID := by
  simpa [validDevice] using hd

theorem validDevice_other (device : AudioObjectID) : validDevice (other device) = true := by
  unfold other
  split_ifs <;> decide

theorem other_ne (device : AudioObjectID) : other device ≠ device := by
  unfold other
  split_ifs with h
  · rw [h]
    decide
  · exact Ne.symm h

variable (s) (l : AudioDeviceLifecycle)

theorem lifecycle_setLifecycle : (s.setLifecycle device l).lifecycle device = l := by
  unfold lifecycle setLifecycle
  split_ifs <;> rfl

theorem lifecycle_setLifecycle_other :
    (s.setLifecycle device l).lifecycle (other device) = s.lifecycle (other device) := by
  unfold lifecycle setLifecycle other
  by_cases h : device = deviceObjectID
  · simp only [h, if_true]
    rfl
  · simp only [h, if_false, if_true]

theorem setLifecycle_self : s.setLifecycle device (s.lifecycle device) = s := by
  unfold lifecycle setLifecycle
  split_ifs <;> rfl

theorem setLifecycle_setLifecycle (m : AudioDeviceLifecycle) :
    (s.setLifecycle device m).setLifecycle device l = s.setLifecycle device l := by
  unfold setLifecycle
  split_ifs <;> rfl

@[simp]
theorem setLifecycle_clients : (s.setLifecycle device l).clients = s.clients := by
  unfold setLifecycle
  split_ifs <;> rfl

@[simp]
theorem setLifecycle_session : (s.setLifecycle device l).session = s.session := by
  unfold setLifecycle
  split_ifs <;> rfl

@[simp]
theorem setLifecycle_runtime : (s.setLifecycle device l).runtime = s.runtime := by
  unfold setLifecycle
  split_ifs <;> rfl

@[simp]
theorem setLifecycle_running : (s.setLifecycle device l).running = s.running := by
  unfold setLifecycle
  split_ifs <;> rfl

theorem held_split (hd : validDevice device = true) :
    s.held = (s.lifecycle device).held.map (device, ·) +
      (s.lifecycle (other device)).held.map (other device, ·) := by
  rcases valid_cases hd with rfl | rfl
  · rfl
  · exact add_comm _ _

theorem anyActive_split (hd : validDevice device = true) :
    s.anyActive = true ↔ (s.lifecycle device).activeStarts ≠ 0 ∨
      (s.lifecycle (other device)).activeStarts ≠ 0 := by
  have hsplit : s.anyActive = true ↔
      s.outputLifecycle.activeStarts ≠ 0 ∨ s.inputLifecycle.activeStarts ≠ 0 := by
    simp [anyActive, inputActive]
  rcases valid_cases hd with rfl | rfl
  · exact hsplit
  · exact hsplit.trans or_comm

end Lifecycles

theorem Accounts.lifecycle (h : Accounts s) (device : AudioObjectID) :
    (s.lifecycle device).Valid := by
  unfold DriverState.lifecycle
  split_ifs
  · exact h.output
  · exact h.input

theorem count_held (s : DriverState) (hd : validDevice device = true) :
    s.held.count (device, client) = (s.lifecycle device).held.count client := by
  have hinj : Function.Injective fun id : UInt32 ↦ (device, id) := fun _ _ h ↦ (Prod.mk.inj h).2
  have hother : (device, client) ∉ (s.lifecycle (other device)).held.map (other device, ·) := by
    rw [Multiset.mem_map]
    rintro ⟨_, _, he⟩
    exact other_ne device (Prod.mk.inj he).1
  rw [held_split s hd, Multiset.count_add, Multiset.count_map_eq_count' _ _ hinj,
    Multiset.count_eq_zero.2 hother, add_zero]

theorem mem_held_iff (s : DriverState) (hd : validDevice device = true) :
    (device, client) ∈ s.held ↔ client ∈ (s.lifecycle device).held := by
  rw [← Multiset.count_pos, count_held s hd, Multiset.count_pos]

def Started (s : DriverState) (device : AudioObjectID) : Prop :=
  ∃ c ∈ s.clients, c.device = device ∧ c.starts ≠ 0

theorem Accounts.started_iff (h : Accounts s) (hd : validDevice device = true) :
    s.Started device ↔ (s.lifecycle device).activeStarts ≠ 0 := by
  rw [ne_eq, (h.lifecycle device).activeStarts_eq_zero]
  constructor
  · rintro ⟨c, hc, rfl, h₀⟩ hzero
    obtain ⟨i, hi⟩ := List.mem_iff_getElem?.1 hc
    have hmem : (c.device, c.id) ∈ s.held :=
      h.balance ▸ mem_bag.2 ⟨i, c, hi, starts_toNat.2 h₀, rfl⟩
    rw [mem_held_iff s hd, hzero] at hmem
    exact Multiset.notMem_zero _ hmem
  · intro hne
    obtain ⟨client, hclient⟩ := Multiset.exists_mem_of_ne_zero hne
    have hmem := (mem_held_iff s hd).2 hclient
    rw [← h.balance, starts, mem_bag] at hmem
    obtain ⟨i, c, hi, h₀, hkey⟩ := hmem
    exact ⟨c, List.mem_of_getElem? hi, (Prod.mk.inj hkey).1, starts_toNat.1 h₀⟩

section Table

variable {clients : List Client} {p : Client → Bool} {i : ℕ} {c : Client}

theorem findIdx?_client (h : clients.findIdx? p = some i) : ∃ c, clients[i]? = some c ∧ p c = true := by
  obtain ⟨hi, hp, -⟩ := List.findIdx?_eq_some_iff_getElem.1 h
  exact ⟨_, List.getElem?_eq_getElem hi, hp⟩

theorem isClient_iff : isClient device client c = true ↔ key c = (device, client) := by
  simp [isClient, key]

theorem modify_client (hi : clients[i]? = some c) (f : Client → Client) :
    clients.modify i f = clients.set i (f c) := by
  obtain ⟨hlt, rfl⟩ := List.getElem?_eq_some_iff.1 hi
  rw [List.modify_eq_set_get f hlt]
  rfl

theorem map_modify_of_eq {β : Type} {g : Client → β} {f : Client → Client}
    (hf : ∀ c, g (f c) = g c) (clients : List Client) (i : ℕ) :
    (clients.modify i f).map g = clients.map g := by
  induction clients generalizing i with
  | nil => rw [List.modify_nil]
  | cons c clients ih =>
    cases i with
    | zero => simp only [List.modify_zero_cons, List.map_cons, hf]
    | succ i => simp only [List.modify_succ_cons, List.map_cons, ih]

theorem starts_modify (hi : clients[i]? = some c) (f : Client → Client) :
    starts (clients.modify i f) + Multiset.replicate c.starts.toNat (key c) =
      starts clients + Multiset.replicate (f c).starts.toNat (key (f c)) := by
  rw [modify_client hi]
  exact bag_set hi (f c)

theorem starts_addStart (hi : clients[i]? = some c) (hlt : c.starts ≠ maximumStarts) :
    starts (clients.modify i Client.addStart) = key c ::ₘ starts clients := by
  have hset := starts_modify hi Client.addStart
  simp only [Client.addStart, starts_succ hlt, Multiset.replicate_succ, Multiset.add_cons,
    ← Multiset.cons_add] at hset
  exact add_right_cancel hset

theorem starts_dropStart (hi : clients[i]? = some c) (h₀ : c.starts ≠ 0) :
    key c ::ₘ starts (clients.modify i Client.dropStart) = starts clients := by
  have hset := starts_modify hi Client.dropStart
  simp only [Client.dropStart, starts_pred h₀, Multiset.replicate_succ, Multiset.add_cons,
    ← Multiset.cons_add] at hset
  exact add_right_cancel hset

theorem swapRemove_perm (hi : clients[i]? = some c) : (c :: swapRemove clients i).Perm clients := by
  rcases List.eq_nil_or_concat clients with rfl | ⟨rest, last, rfl⟩
  · cases hi
  rw [List.concat_eq_append] at hi ⊢
  simp only [swapRemove, List.getLast?_concat]
  have hend : (last :: rest).Perm (rest ++ [last]) := (List.perm_append_singleton last rest).symm
  by_cases hlt : i < rest.length
  · rw [List.getElem?_append_left hlt, List.getElem?_eq_getElem hlt] at hi
    cases hi
    rw [List.set_append_left i last hlt, List.dropLast_concat]
    refine List.Perm.trans ?_ hend
    have hset := (List.set_perm_cons_eraseIdx hlt last).cons rest[i]
    exact hset.trans ((List.Perm.swap ..).trans ((List.getElem_cons_eraseIdx_perm hlt).cons last))
  · rw [not_lt] at hlt
    rw [List.getElem?_append_right hlt] at hi
    have hi₀ : i - rest.length = 0 := by
      by_contra hne
      rw [List.getElem?_eq_none (by simp only [List.length_singleton]; omega)] at hi
      cases hi
    rw [hi₀] at hi
    cases hi
    rw [List.set_append_right i _ hlt, hi₀, List.set_cons_zero, List.dropLast_concat]
    exact hend

theorem starts_swapRemove (hi : clients[i]? = some c) (hnd : (clients.map key).Nodup) :
    starts (swapRemove clients i) = (starts clients).filter (· ≠ key c) := by
  have hperm := swapRemove_perm hi
  have hsum : starts clients =
      Multiset.replicate c.starts.toNat (key c) + starts (swapRemove clients i) :=
    (hperm.map _).sum_eq.symm
  have hfresh := (List.nodup_cons.1 ((hperm.map key).nodup_iff.2 hnd)).1
  have hgone : ∀ k ∈ Multiset.replicate c.starts.toNat (key c), ¬ k ≠ key c :=
    fun k hk ↦ not_not.2 (Multiset.eq_of_mem_replicate hk)
  have hrest : ∀ k ∈ starts (swapRemove clients i), k ≠ key c := by
    rintro k hk rfl
    obtain ⟨j, d, hj, -, hkey⟩ := mem_bag.1 hk
    exact hfresh (hkey ▸ List.mem_map_of_mem (List.mem_of_getElem? hj))
  rw [hsum, Multiset.filter_add, Multiset.filter_eq_nil.2 hgone, Multiset.filter_eq_self.2 hrest,
    zero_add]

end Table

section Hardware

variable {hw : HardwareAnswers} {close : IOReturn} {reset : Bool}

theorem start_success {r : Runtime} {midiEnabled inputEnabled : Bool} {answer : IOReturn}
    (hr : r.joinable = false) (h : (r.start midiEnabled inputEnabled answer).1 = .success) :
    (r.start midiEnabled inputEnabled answer).2 = ⟨true, midiEnabled, inputEnabled⟩ := by
  simp only [Runtime.start, hr, Bool.false_eq_true, if_false] at h ⊢
  rw [h, decide_eq_true rfl]

theorem start_failure {r : Runtime} {midiEnabled inputEnabled : Bool} {answer : IOReturn}
    (hr : r.joinable = false) (h : (r.start midiEnabled inputEnabled answer).1 ≠ .success) :
    (r.start midiEnabled inputEnabled answer).2.joinable = false := by
  simp only [Runtime.start, hr, Bool.false_eq_true, if_false] at h ⊢
  exact decide_eq_false h

theorem stop_joinable (r : Runtime) : r.stop.2.joinable = false := by
  unfold Runtime.stop
  split_ifs with h
  · exact h
  · rfl

theorem startRuntime_success {inputActive : Bool}
    (h : (startRuntime inputActive hw).1 = .success) :
    (startRuntime inputActive hw).2 = ⟨true, true, inputActive⟩ := by
  have hidle : (if (Runtime.fresh.start false false hw.firstStart).1 = .success then
      (Runtime.fresh.start false false hw.firstStart).2.stop
      else Runtime.fresh.start false false hw.firstStart).2.joinable = false := by
    split_ifs with h₁
    · exact stop_joinable _
    · exact start_failure rfl h₁
  simp only [startRuntime] at h ⊢
  generalize (if (Runtime.fresh.start false false hw.firstStart).1 = .success then
    (Runtime.fresh.start false false hw.firstStart).2.stop
    else Runtime.fresh.start false false hw.firstStart) = stopped at hidle h ⊢
  split_ifs at h ⊢ with hresult
  · exact start_success hidle h
  · exact absurd h hresult

/-- What `startHardware` can do from a state without handles: leave it as it
was, or leave a started runtime behind. -/
inductive StartOutcome (s : DriverState) : IOReturn × DriverState → Prop
  | failed {result : IOReturn} (h : result ≠ .success) : StartOutcome s (result, s)
  | started (session : Session) (firmwareVersion : List UInt8) (anchor seed : UInt64) :
      StartOutcome s (.success, { s with
        session := some session
        runtime := some ⟨true, true, s.inputActive⟩
        firmwareVersion := firmwareVersion
        timestampAnchor := anchor
        timestampSeed := seed
        running := true })

theorem startHardware_outcome (hs : s.session = none) (hr : s.runtime = none) :
    StartOutcome s (s.startHardware reset hw) := by
  have hback {result : IOReturn} (h : result ≠ .success) :
      StartOutcome s (result, { s with runtime := none, session := none }) := by
    rw [show { s with runtime := none, session := none } = s by rw [← hs, ← hr]]
    exact .failed h
  have hclosed {result : IOReturn} (h : result ≠ .success) :
      StartOutcome s (result, { s with session := none }) := by
    rw [show { s with session := none } = s by rw [← hs]]
    exact .failed h
  unfold startHardware
  by_cases h₁ : hw.sessionAllocated = false
  · rw [if_pos h₁]
    exact hback (by decide)
  rw [if_neg h₁]
  cases hw.opened with
  | none => exact hback (by decide)
  | some result =>
    simp only
    split_ifs with h₂ h₃ h₄ h₅
    · exact hclosed h₂
    · exact hclosed h₃
    · exact hback (by decide)
    · exact hback h₅
    all_goals
      rw [startRuntime_success (not_not.1 h₅)]
      exact .started ..

theorem stopHardware_eq (s : DriverState) (close : IOReturn) :
    s.stopHardware close = (if s.session.isSome then close else .success,
      { s with runtime := none, session := none, running := false }) := by
  have hstop : ((s.runtime.map Runtime.stop).map Prod.fst).getD IOReturn.success = .success := by
    cases s.runtime with
    | none => rfl
    | some r =>
      simp only [Option.map_some, Option.getD_some, Runtime.stop]
      split_ifs <;> rfl
  simp only [stopHardware, hstop, ne_eq, not_true_eq_false, if_false]

end Hardware

theorem Accounts.congr {t : DriverState} (h : Accounts s)
    (ho : t.outputLifecycle = s.outputLifecycle) (hi : t.inputLifecycle = s.inputLifecycle)
    (hc : t.clients = s.clients) : Accounts t := by
  refine ⟨ho ▸ h.output, hi ▸ h.input, hc ▸ h.distinct, ?_⟩
  rw [hc, h.balance, held, held, ho, hi]

theorem Accounts.set (h : Accounts s) (hd : validDevice device = true) {l : AudioDeviceLifecycle}
    {clients : List Client} (hl : l.Valid) (hnd : (clients.map key).Nodup)
    (hb : starts clients = l.held.map (device, ·) +
      (s.lifecycle (other device)).held.map (other device, ·)) :
    Accounts { s.setLifecycle device l with clients := clients } := by
  have hbalance : starts clients = (s.setLifecycle device l).held := by
    rw [held_split _ hd, lifecycle_setLifecycle, lifecycle_setLifecycle_other]
    exact hb
  rcases valid_cases hd with rfl | rfl
  · exact ⟨hl, h.input, hnd, hbalance⟩
  · exact ⟨h.output, hl, hnd, hbalance⟩

theorem syncInputCapture_wired (h : Wired s) : Wired s.syncInputCapture := by
  refine ⟨h.session, Option.isSome_map.trans h.runtime, ?_⟩
  intro r hr
  obtain ⟨r', hr', rfl⟩ := Option.map_eq_some_iff.1 hr
  exact h.worker r' hr'

theorem Wired.sync (h : Wired s) (ha : s.running = true → s.anyActive = true) :
    Powered s.syncInputCapture := by
  refine ⟨syncInputCapture_wired h, ha, ?_⟩
  intro r hr
  obtain ⟨r', -, rfl⟩ := Option.map_eq_some_iff.1 hr
  rfl

theorem Powered.congr {t : DriverState} (h : Powered s) (hs : t.session = s.session)
    (hr : t.runtime = s.runtime) (hrun : t.running = s.running)
    (ho : t.outputLifecycle = s.outputLifecycle) (hi : t.inputLifecycle = s.inputLifecycle) :
    Powered t := by
  have hin : t.inputActive = s.inputActive := by rw [inputActive, inputActive, hi]
  have hany : t.anyActive = s.anyActive := by rw [anyActive, anyActive, ho, hin]
  refine ⟨⟨hs ▸ hrun ▸ h.session, hr ▸ hrun ▸ h.runtime, hr ▸ h.worker⟩, ?_, ?_⟩
  · rw [hany, hrun]
    exact h.active
  · rw [hin, hr]
    exact h.capture

/-- What `finishStop` can do: bring the capture flag up to date, or stop the
hardware because no client is left. -/
theorem finishStop_cases (s : DriverState) (device : AudioObjectID)
    (transition : AudioIOTransition) (close : IOReturn) : ∃ notified,
    ((transition = .lastClientStopped → s.anyActive = true) ∧
      (s.finishStop device transition close).2 =
        { s.syncInputCapture with notified := notified }) ∨
    (s.anyActive = false ∧ (s.finishStop device transition close).2 =
      { s with runtime := none, session := none, running := false, notified := notified }) := by
  have hnotify (t : DriverState) : ∃ notified, t.notifyRunningChanged device =
      { t with notified := notified } := by
    unfold notifyRunningChanged
    split_ifs
    · exact ⟨_, rfl⟩
    · exact ⟨t.notified, rfl⟩
  have hany : s.syncInputCapture.anyActive = s.anyActive := rfl
  simp only [finishStop, stopHardware_eq, hany]
  by_cases ht : transition = .lastClientStopped
  · rw [if_pos ht]
    cases ha : s.anyActive with
    | true =>
      obtain ⟨notified, hn⟩ := hnotify s.syncInputCapture
      exact ⟨notified, .inl ⟨fun _ ↦ rfl, by simpa using hn⟩⟩
    | false =>
      simp only [Bool.false_eq_true, if_false]
      generalize (if s.syncInputCapture.session.isSome = true then close else .success) = result
      by_cases hresult : result = .success
      · obtain ⟨notified, hn⟩ := hnotify { s with runtime := none, session := none, running := false }
        exact ⟨notified, .inr ⟨trivial, by rw [if_pos hresult]; exact hn⟩⟩
      · exact ⟨s.notified, .inr ⟨trivial, by rw [if_neg hresult]; rfl⟩⟩
  · rw [if_neg ht]
    exact ⟨s.notified, .inl ⟨fun h ↦ absurd h ht, rfl⟩⟩

section FinishStop

variable {transition : AudioIOTransition} {close : IOReturn}

theorem finishStop_accounts (h : Accounts s) :
    Accounts (s.finishStop device transition close).2 := by
  obtain ⟨notified, ⟨-, he⟩ | ⟨-, he⟩⟩ := finishStop_cases s device transition close <;>
    exact he ▸ h.congr rfl rfl rfl

theorem finishStop_powered (h : Wired s)
    (ha : transition ≠ .lastClientStopped → s.running = true → s.anyActive = true) :
    Powered (s.finishStop device transition close).2 := by
  obtain ⟨notified, ⟨hlast, he⟩ | ⟨-, he⟩⟩ := finishStop_cases s device transition close <;>
    rw [he]
  · refine (h.sync fun hrun ↦ ?_).congr rfl rfl rfl rfl rfl
    by_cases ht : transition = .lastClientStopped
    · exact hlast ht
    · exact ha ht hrun
  · exact ⟨⟨rfl, rfl, by simp⟩, by simp, by simp⟩

structure Kept (s t : DriverState) : Prop where
  session : t.session = s.session
  running : t.running = s.running
  runtime : t.runtime = s.runtime.map (·.setInputEnabled t.inputActive)

theorem finishStop_kept (ha : s.anyActive = true) :
    Kept s (s.finishStop device transition close).2 := by
  obtain ⟨notified, ⟨-, he⟩ | ⟨hidle, -⟩⟩ := finishStop_cases s device transition close
  · rw [he]
    exact ⟨rfl, rfl, rfl⟩
  · rw [ha] at hidle
    cases hidle

end FinishStop

structure Inv (s : DriverState) : Prop extends Accounts s, Powered s

theorem Inv.idle (h : Inv s) (ha : s.anyActive = false) :
    s.session = none ∧ s.runtime = none := by
  have hrun : s.running = false := by
    by_contra hr
    rw [h.active (Bool.eq_true_of_not_eq_false hr)] at ha
    cases ha
  refine ⟨Option.isNone_iff_eq_none.1 ?_, Option.isNone_iff_eq_none.1 ?_⟩
  · rw [← Option.not_isSome, h.session, hrun]
    rfl
  · rw [← Option.not_isSome, h.runtime, hrun]
    rfl

theorem kept_self (h : Inv s) : Kept s s := by
  refine ⟨rfl, rfl, ?_⟩
  cases hr : s.runtime with
  | none => rfl
  | some r =>
    rw [Option.map_some, Runtime.setInputEnabled, ← h.capture r hr]

theorem wired_setLifecycle (h : Wired s) (l : AudioDeviceLifecycle) :
    Wired (s.setLifecycle device l) :=
  ⟨by simpa using h.session, by simpa using h.runtime, by simpa using h.worker⟩

theorem anyActive_setLifecycle (hd : validDevice device = true) {l : AudioDeviceLifecycle}
    (hl : l.activeStarts ≠ 0) : (s.setLifecycle device l).anyActive = true :=
  (anyActive_split _ hd).2 (.inl (by rwa [lifecycle_setLifecycle]))

theorem anyActive_setLifecycle_other (hd : validDevice device = true) (l : AudioDeviceLifecycle)
    (ho : (s.lifecycle (other device)).activeStarts ≠ 0) :
    (s.setLifecycle device l).anyActive = true :=
  (anyActive_split _ hd).2 (.inr (by rwa [lifecycle_setLifecycle_other]))

section Add

theorem addClient_inv (h : Inv s) (device : AudioObjectID) (info : Option ClientInfo) :
    Inv (s.addClient device info).2 := by
  cases info with
  | none => exact h
  | some info =>
    simp only [addClient]
    by_cases hd : validDevice device = false
    · rwa [if_pos hd]
    by_cases hc : s.hasClient device info.clientID = true
    · rwa [if_neg hd, if_pos hc]
    by_cases hlen : s.clients.length = maximumClients
    · rwa [if_neg hd, if_neg hc, if_pos hlen]
    rw [if_neg hd, if_neg hc, if_neg hlen]
    cases s.activity.findIdx? (·.key = 0) with
    | none => exact h
    | some slot =>
      refine ⟨⟨h.output, h.input, ?_, ?_⟩, h.toPowered.congr rfl rfl rfl rfl rfl⟩
      · have hnew : (device, info.clientID) ∉ s.clients.map key := by
          intro hmem
          obtain ⟨c, hmem, hkey⟩ := List.mem_map.1 hmem
          exact hc (List.any_eq_true.2 ⟨c, hmem, isClient_iff.2 hkey⟩)
        rw [List.map_append]
        exact List.nodup_append.2 ⟨h.distinct, List.nodup_singleton _, by
          rintro k hk _ hk' rfl
          have hkey : k = (device, info.clientID) := List.mem_singleton.1 hk'
          exact hnew (hkey ▸ hk)⟩
      · have happend : starts (s.clients ++ [⟨device, info.clientID, info.processID, 0, slot,
            info.bundleID⟩]) = starts s.clients := by
          simp [starts, bag]
        exact happend.trans h.balance

end Add

theorem notify_inv (h : Inv s) (device : AudioObjectID) : Inv (s.notifyRunningChanged device) := by
  unfold notifyRunningChanged
  split_ifs
  · exact ⟨h.toAccounts.congr rfl rfl rfl, h.toPowered.congr rfl rfl rfl rfl rfl⟩
  · exact h

theorem updateClient_frame (s : DriverState) (p : Client → Bool) (f : Client → Client) :
    s.updateClient p f = { s with clients := (s.updateClient p f).clients } := by
  unfold updateClient
  split <;> rfl

theorem findClient (hc : s.hasClient device client = true) :
    ∃ i c, s.clients.findIdx? (isClient device client) = some i ∧ s.clients[i]? = some c ∧
      key c = (device, client) := by
  cases hi : s.clients.findIdx? (isClient device client) with
  | none =>
    obtain ⟨c, hmem, hp⟩ := List.any_eq_true.1 hc
    rw [List.findIdx?_eq_none_iff.1 hi c hmem] at hp
    cases hp
  | some i =>
    obtain ⟨c, hget, hp⟩ := findIdx?_client hi
    exact ⟨i, c, rfl, hget, isClient_iff.1 hp⟩

section Start

variable (h : Inv s) (hd : validDevice device = true) (hc : s.hasClient device client = true)
  {l : AudioDeviceLifecycle} (hv : l.Valid)
  (hlt : (s.lifecycle device).held.count client < maximumStarts.toNat)
  (hheld : l.held = client ::ₘ (s.lifecycle device).held)
include h hd hc hv hlt hheld

theorem Accounts.startIo :
    Accounts ((s.setLifecycle device l).updateClient (isClient device client) Client.addStart) := by
  obtain ⟨i, c, hi, hget, hkey⟩ := findClient hc
  have hmax : c.starts ≠ maximumStarts := by
    intro hmax
    have hle : c.starts.toNat ≤ (starts s.clients).count (key c) :=
      @le_count_bag _ _ key (·.starts.toNat) _ _ _ _ hget
    rw [hkey, h.balance, count_held s hd, hmax] at hle
    omega
  have hnd : ((s.clients.modify i Client.addStart).map key).Nodup := by
    rw [map_modify_of_eq (f := Client.addStart) (g := key) fun _ ↦ rfl]
    exact h.distinct
  have hbalance : starts (s.clients.modify i Client.addStart) = l.held.map (device, ·) +
      (s.lifecycle (other device)).held.map (other device, ·) := by
    rw [starts_addStart hget hmax, h.balance, held_split s hd, hheld, hkey, Multiset.map_cons,
      Multiset.cons_add]
  simpa only [updateClient, setLifecycle_clients, hi] using h.toAccounts.set hd hv hnd hbalance

/-- The successful end of `startIo`, in a state that differs from the one after
the lifecycle's step only in its hardware. -/
theorem startIo_finish {t : DriverState} (hw : Wired t)
    (ho : t.outputLifecycle = (s.setLifecycle device l).outputLifecycle)
    (hi : t.inputLifecycle = (s.setLifecycle device l).inputLifecycle)
    (hcl : t.clients = s.clients) :
    Inv (t.updateClient (isClient device client) Client.addStart).syncInputCapture := by
  have hacc := Accounts.startIo h hd hc hv hlt hheld
  have hactive : l.activeStarts ≠ 0 := by
    rw [ne_eq, hv.activeStarts_eq_zero, hheld]
    exact Multiset.cons_ne_zero
  obtain ⟨i, c, hfind, -, -⟩ := findClient hc
  simp only [updateClient, setLifecycle_clients, hfind] at hacc
  simp only [updateClient, hcl, hfind]
  refine ⟨hacc.congr ho hi rfl, Wired.sync ⟨hw.session, hw.runtime, hw.worker⟩ fun _ ↦ ?_⟩
  have hany : (s.setLifecycle device l).anyActive = true := anyActive_setLifecycle hd hactive
  rwa [anyActive, inputActive, ← ho, ← hi] at hany

end Start

inductive StartIOOutcome (s : DriverState) : OSStatus × DriverState → Prop
  | failed {status : OSStatus} (h : status ≠ .noErr) : StartIOOutcome s (status, s)
  | started {t : DriverState} (h : Inv t) : StartIOOutcome s (.noErr, t)

theorem startIo_outcome (h : Inv s) (device : AudioObjectID) (client : UInt32)
    (hw : HardwareAnswers) : StartIOOutcome s (s.startIo device client hw) := by
  have hfinish {t : DriverState} (ht : Inv t) (b : Prop) [Decidable b] :
      StartIOOutcome s (.noErr, if b then t.notifyRunningChanged device else t) := by
    split_ifs
    · exact .started (notify_inv ht device)
    · exact .started ht
  unfold startIo
  by_cases hd : validDevice device = false
  · rw [if_pos hd]
    exact .failed (by decide)
  by_cases hc : s.hasClient device client = false
  · rw [if_neg hd, if_pos hc]
    exact .failed (by decide)
  rw [if_neg hd, if_neg hc]
  rw [Bool.not_eq_false] at hd hc
  obtain ⟨hv, ⟨hrej, hsame⟩ | ⟨hne, hlt, hheld, hundo⟩⟩ := (h.lifecycle device).startIo client
  · simp only [hrej, if_true, hsame, setLifecycle_self]
    exact .failed (by decide)
  simp only [hne, if_false]
  generalize ((s.lifecycle device).startIo client).2 = l at hv hheld hundo ⊢
  cases ha : s.anyActive with
  | true =>
    simp only [Bool.not_true, Bool.false_eq_true, if_false, ne_eq, not_true_eq_false]
    exact hfinish (startIo_finish h hd hc hv hlt hheld (wired_setLifecycle h.toWired l) rfl rfl
      (setLifecycle_clients s l)) _
  | false =>
    obtain ⟨hs, hr⟩ := h.idle ha
    have houtcome : StartOutcome (s.setLifecycle device l)
        ((s.setLifecycle device l).startHardware true hw) :=
      startHardware_outcome (by rwa [setLifecycle_session]) (by rwa [setLifecycle_runtime])
    simp only [Bool.not_false, if_true]
    generalize (s.setLifecycle device l).startHardware true hw = opened at houtcome ⊢
    cases houtcome with
    | failed hresult =>
      simp only [ne_eq, hresult, not_false_eq_true, if_true, lifecycle_setLifecycle,
        setLifecycle_setLifecycle, hundo, setLifecycle_self]
      exact .failed (by rw [OSStatus.ofIOReturn, if_neg hresult]; exact OSStatus.noConfusion)
    | started session firmwareVersion anchor seed =>
      simp only [ne_eq, not_true_eq_false, if_false]
      refine hfinish ?_ _
      refine startIo_finish h hd hc hv hlt hheld ?_ rfl rfl (setLifecycle_clients s l)
      exact ⟨rfl, rfl, by simp⟩

structure Released (s : DriverState) (device : AudioObjectID) (t : DriverState) : Prop where
  inv : Inv t
  kept : s.Started (other device) → Kept s t

theorem Released.refl (h : Inv s) (device : AudioObjectID) : Released s device s :=
  ⟨h, fun _ ↦ kept_self h⟩

/-- The common end of `stopIo` and `removeClient`, from the lifecycle's step and
the change of the client table on. -/
theorem released_finish (h : Inv s) (hd : validDevice device = true) {l : AudioDeviceLifecycle}
    {transition : AudioIOTransition} {clients : List Client} {activity : List ActivitySlot}
    (close : IOReturn)
    (hacc : Accounts { s.setLifecycle device l with clients := clients, activity := activity })
    (ha : transition ≠ .lastClientStopped → s.running = true →
      (s.setLifecycle device l).anyActive = true) :
    Released s device (finishStop { s.setLifecycle device l with
      clients := clients, activity := activity } device transition close).2 := by
  have hwired : Wired (s.setLifecycle device l) := wired_setLifecycle h.toWired l
  refine ⟨⟨finishStop_accounts hacc, finishStop_powered ?_ ?_⟩, fun hstarted ↦ ?_⟩
  · exact ⟨hwired.session, hwired.runtime, hwired.worker⟩
  · intro hnot hrun
    exact ha hnot ((setLifecycle_running s l).symm.trans hrun)
  · have hother : (s.lifecycle (other device)).activeStarts ≠ 0 :=
      (h.toAccounts.started_iff (validDevice_other device)).1 hstarted
    obtain ⟨hs, hrun, hr⟩ := @finishStop_kept
      { s.setLifecycle device l with clients := clients, activity := activity } device transition
      close (anyActive_setLifecycle_other hd l hother)
    exact ⟨by simpa using hs, by simpa using hrun, by simpa using hr⟩

theorem Accounts.stopIo (h : Inv s) (hd : validDevice device = true) {l : AudioDeviceLifecycle}
    (hv : l.Valid) (hheld : client ::ₘ l.held = (s.lifecycle device).held) :
    Accounts ((s.setLifecycle device l).updateClient
      (fun c ↦ isClient device client c && c.starts ≠ 0) Client.dropStart) := by
  have hheld' : s.held = (device, client) ::ₘ (l.held.map (device, ·) +
      (s.lifecycle (other device)).held.map (other device, ·)) := by
    rw [held_split s hd, ← hheld, Multiset.map_cons, Multiset.cons_add]
  have hmem : (device, client) ∈ starts s.clients := by
    rw [h.balance, hheld']
    exact Multiset.mem_cons_self _ _
  cases hi : s.clients.findIdx? (fun c ↦ isClient device client c && c.starts ≠ 0) with
  | none =>
    obtain ⟨j, c, hj, h₀, hkey⟩ := mem_bag.1 hmem
    have hp := List.findIdx?_eq_none_iff.1 hi c (List.mem_of_getElem? hj)
    simp [isClient_iff.2 hkey, starts_toNat.1 h₀] at hp
  | some i =>
    obtain ⟨c, hget, hp⟩ := findIdx?_client hi
    simp only [Bool.and_eq_true, decide_eq_true_eq] at hp
    obtain ⟨hkey, h₀⟩ := hp
    rw [isClient_iff] at hkey
    have hnd : ((s.clients.modify i Client.dropStart).map key).Nodup := by
      rw [map_modify_of_eq (f := Client.dropStart) (g := key) fun _ ↦ rfl]
      exact h.distinct
    have hbalance : starts (s.clients.modify i Client.dropStart) = l.held.map (device, ·) +
        (s.lifecycle (other device)).held.map (other device, ·) := by
      have hdrop := starts_dropStart hget h₀
      rw [h.balance, hheld', hkey] at hdrop
      exact (Multiset.cons_inj_right _).1 hdrop
    simpa only [updateClient, setLifecycle_clients, hi] using h.toAccounts.set hd hv hnd hbalance

theorem stopIo_released (h : Inv s) (device : AudioObjectID) (client : UInt32)
    (close : IOReturn) : Released s device (s.stopIo device client close).2 := by
  unfold stopIo
  by_cases hd : validDevice device = false
  · rw [if_pos hd]
    exact .refl h device
  by_cases hc : s.hasClient device client = false
  · rw [if_neg hd, if_pos hc]
    exact .refl h device
  rw [if_neg hd, if_neg hc]
  rw [Bool.not_eq_false] at hd hc
  obtain ⟨hv, ⟨-, hsame⟩ | ⟨hne, hheld, hlast⟩⟩ := (h.lifecycle device).stopIo client
  · simp only [hsame, if_true, setLifecycle_self]
    exact .refl h device
  simp only [hne, if_false]
  have hacc := Accounts.stopIo h hd hv hheld
  rw [updateClient_frame] at hacc ⊢
  refine released_finish h hd close hacc fun hnot _ ↦ ?_
  exact anyActive_setLifecycle hd fun h₀ ↦ hnot (hlast.2 h₀)

theorem Accounts.removeClient (h : Inv s) (hd : validDevice device = true)
    {l : AudioDeviceLifecycle} (hv : l.Valid)
    (hheld : l.held = (s.lifecycle device).held.filter (· ≠ client)) {i : ℕ} {c : Client}
    (hi : s.clients[i]? = some c) (hkey : key c = (device, client)) :
    Accounts { s.setLifecycle device l with clients := swapRemove s.clients i } := by
  have hnd : ((swapRemove s.clients i).map key).Nodup := by
    have hperm := (swapRemove_perm hi).map key
    exact (List.nodup_cons.1 (hperm.nodup_iff.2 h.distinct)).2
  refine h.toAccounts.set hd hv hnd ?_
  have hother : ∀ k ∈ (s.lifecycle (other device)).held.map (other device, ·),
      k ≠ (device, client) := by
    rintro k hk rfl
    obtain ⟨_, _, he⟩ := Multiset.mem_map.1 hk
    exact other_ne device (Prod.mk.inj he).1
  rw [starts_swapRemove hi h.distinct, h.balance, hkey, held_split s hd, Multiset.filter_add,
    Multiset.filter_eq_self.2 hother, Multiset.filter_map, hheld]
  congr 2
  refine Multiset.filter_congr fun id _ ↦ ?_
  simp

theorem removeClient_released (h : Inv s) (device : AudioObjectID) (info : Option ClientInfo)
    (close : IOReturn) : Released s device (s.removeClient device close info).2 := by
  cases info with
  | none => exact .refl h device
  | some info =>
    simp only [removeClient]
    by_cases hd : validDevice device = false
    · rw [if_pos hd]
      exact .refl h device
    rw [if_neg hd]
    rw [Bool.not_eq_false] at hd
    cases hi : s.clients.findIdx? (isClient device info.clientID) with
    | none => exact .refl h device
    | some i =>
      obtain ⟨c, hget, hp⟩ := findIdx?_client hi
      obtain ⟨hv, hremoved⟩ := (h.lifecycle device).removeClient info.clientID
      have hheld : ((s.lifecycle device).removeClient info.clientID).2.held =
          (s.lifecycle device).held.filter (· ≠ info.clientID) := by
        rcases hremoved with ⟨hmem, he⟩ | ⟨-, hheld, -⟩
        · rw [he]
          refine (Multiset.filter_eq_self.2 ?_).symm
          rintro id hid rfl
          exact hmem hid
        · exact hheld
      have hacc := Accounts.removeClient h hd hv hheld hget (isClient_iff.1 hp)
      have hclients : ((s.setLifecycle device
          ((s.lifecycle device).removeClient info.clientID).2).clearActivity
          ((s.clients[i]?.map Client.activitySlot).getD 0)).clients = s.clients :=
        setLifecycle_clients s _
      simp only [hclients]
      refine released_finish h hd close (hacc.congr rfl rfl rfl) fun hnot hrun ↦ ?_
      rcases hremoved with ⟨-, he⟩ | ⟨-, -, hlast⟩
      · rw [he, setLifecycle_self]
        exact h.active hrun
      · exact anyActive_setLifecycle hd fun h₀ ↦ hnot (hlast.2 h₀)

theorem monitorTick_inv (h : Inv s) (current present : Bool) (close : IOReturn)
    (hw : HardwareAnswers) : Inv (s.monitorTick current present close hw) := by
  unfold monitorTick
  by_cases ha : s.anyActive = false
  · rwa [if_pos ha]
  rw [if_neg ha]
  rw [Bool.not_eq_false] at ha
  have hdown : Inv (if (s.session.isSome && !current) = true then (s.stopHardware close).2 else s) ∧
      (if (s.session.isSome && !current) = true then (s.stopHardware close).2 else s).anyActive =
        true := by
    split_ifs
    · rw [stopHardware_eq]
      exact ⟨⟨h.toAccounts.congr rfl rfl rfl, ⟨rfl, rfl, by simp⟩, by simp, by simp⟩, ha⟩
    · exact ⟨h, ha⟩
  simp only
  generalize (if (s.session.isSome && !current) = true then (s.stopHardware close).2 else s) = t
    at hdown ⊢
  obtain ⟨ht, hat⟩ := hdown
  by_cases hn : (t.session.isNone && present) = true
  · rw [if_pos hn]
    have hs : t.session = none := Option.isNone_iff_eq_none.1 (Bool.and_eq_true_iff.1 hn).1
    have hrun : t.running = false := by rw [← ht.session, hs]; rfl
    have hr : t.runtime = none := by
      rw [← Option.isNone_iff_eq_none, ← Option.not_isSome, ht.runtime, hrun]
      rfl
    have houtcome := @startHardware_outcome t hw false hs hr
    generalize t.startHardware false hw = opened at houtcome ⊢
    cases houtcome with
    | failed => exact ht
    | started session firmwareVersion anchor seed =>
      refine ⟨ht.toAccounts.congr rfl rfl rfl, ⟨rfl, rfl, by simp⟩, fun _ ↦ hat, ?_⟩
      rintro r ⟨⟩
      rfl
  · rwa [if_neg hn]

theorem initial_inv (host : Bool) (timestampAnchor : UInt64) : Inv (initial host timestampAnchor) := by
  have hfresh : AudioDeviceLifecycle.fresh.held = 0 :=
    (AudioClientLifecycle.valid_fresh.activeStarts_eq_zero).1 rfl
  refine ⟨⟨AudioClientLifecycle.valid_fresh, AudioClientLifecycle.valid_fresh, List.nodup_nil, ?_⟩,
    ⟨rfl, rfl, by simp [initial]⟩, by simp [initial], by simp [initial]⟩
  simp only [held, initial, hfresh, Multiset.map_zero, add_zero]
  rfl

theorem step_inv (h : Inv s) (op : DriverOp) : Inv (s.step op).2 := by
  cases op with
  | addClient device info => exact addClient_inv h device info
  | removeClient device info close => exact (removeClient_released h device info close).inv
  | startIo device client hw =>
    have houtcome := startIo_outcome h device client hw
    simp only [step]
    generalize s.startIo device client hw = result at houtcome ⊢
    cases houtcome with
    | failed => exact h
    | started ht => exact ht
  | stopIo device client close => exact (stopIo_released h device client close).inv
  | monitorTick current present close hw => exact monitorTick_inv h current present close hw

def after (s : DriverState) (ops : List DriverOp) : DriverState :=
  ops.foldl (fun s op ↦ (s.step op).2) s

theorem after_inv (h : Inv s) (ops : List DriverOp) : Inv (s.after ops) := by
  induction ops generalizing s with
  | nil => exact h
  | cons op ops ih => exact ih (step_inv h op)

/-- The lifetime of the hardware the two devices share: its handles live and die
together and only while a client is started, the runtime captures exactly while
an input client is started, releasing the clients of one device does not stop
the other, and a failed start changes nothing. -/
structure Lifetime (s : DriverState) : Prop where
  together : s.session.isSome = s.running ∧ s.runtime.isSome = s.running
  started : s.running = true → s.Started deviceObjectID ∨ s.Started inputDeviceObjectID
  capture : ∀ r, s.runtime = some r →
    r.inputEnabled = decide (s.inputLifecycle.activeStarts ≠ 0)
  stopIo : ∀ device client close, s.Started (other device) →
    Kept s (s.stopIo device client close).2
  removeClient : ∀ device info close, s.Started (other device) →
    Kept s (s.removeClient device close info).2
  startIo : ∀ device client hw, (s.startIo device client hw).1 ≠ .noErr →
    (s.startIo device client hw).2 = s

theorem Inv.lifetime (h : Inv s) : Lifetime s := by
  have hout := h.toAccounts.started_iff (show validDevice deviceObjectID = true from rfl)
  have hin := h.toAccounts.started_iff (show validDevice inputDeviceObjectID = true from rfl)
  refine ⟨⟨h.session, h.runtime⟩, fun hrun ↦ ?_, h.capture, ?_, ?_, ?_⟩
  · rw [hout, hin]
    exact (anyActive_split s (show validDevice deviceObjectID = true from rfl)).1 (h.active hrun)
  · exact fun device client close ↦ (stopIo_released h device client close).kept
  · exact fun device info close ↦ (removeClient_released h device info close).kept
  · intro device client hw herror
    have houtcome := startIo_outcome h device client hw
    generalize s.startIo device client hw = result at houtcome herror ⊢
    cases houtcome with
    | failed => rfl
    | started => exact absurd rfl herror

/-- Whatever the hosts and the hardware do. -/
theorem lifetime_of_run (host : Bool) (timestampAnchor : UInt64) (ops : List DriverOp) :
    Lifetime ((initial host timestampAnchor).after ops) :=
  (after_inv (initial_inv host timestampAnchor) ops).lifetime

example : ((initial true 0).after [.addClient 2 (some ⟨7, 1, []⟩), .startIo 2 7
    ⟨true, some .success, .success, true, .success, .success, .success, .success, [], 9⟩]).running =
    true := by decide

end NumarkNS6.CoreAudio.DriverState
