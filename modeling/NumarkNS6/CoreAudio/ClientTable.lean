import NumarkNS6.CoreAudio.DriverLifetime
import NumarkNS6.CoreAudio.DriverRules
import NumarkNS6.CoreAudio.StartMultiset
import NumarkNS6.Foundation.SlotPool

namespace NumarkNS6.CoreAudio.DriverState

open AudioClientLifecycle (maximumStarts)
open Foundation.SlotPool Usb

variable {s t u : DriverState} {device : AudioObjectID} {client : UInt32}

def registration (c : Client) : (AudioObjectID × UInt32) × ℕ := (key c, c.activitySlot)

def used (activity : List ActivitySlot) : List Bool := activity.map (·.key ≠ 0)

/-- The activity slots in use are those of the registered clients and carry their keys. -/
structure Table (s : DriverState) : Prop where
  devices : ∀ c ∈ s.clients, validDevice c.device = true
  size : s.activity.length = maximumClients
  slots : Tracks (used s.activity) (s.clients.map Client.activitySlot)
  keys : ∀ c ∈ s.clients,
    s.activity[c.activitySlot]?.map ActivitySlot.key = some (activityKey c.device c.id)

section Frame

structure Same (s t : DriverState) : Prop where
  clients : t.clients.map registration = s.clients.map registration
  activity : t.activity = s.activity

theorem Same.refl (s : DriverState) : Same s s := ⟨rfl, rfl⟩

theorem Same.ite {p : Prop} [Decidable p] (h : Same s t) (h' : Same s u) :
    Same s (if p then t else u) := by
  split_ifs
  · exact h
  · exact h'

theorem Same.mem (h : Same s t) {c : Client} (hc : c ∈ t.clients) :
    ∃ d ∈ s.clients, d.device = c.device ∧ d.id = c.id ∧ d.activitySlot = c.activitySlot := by
  have hmem : registration c ∈ s.clients.map registration := h.clients ▸ List.mem_map_of_mem hc
  obtain ⟨d, hd, he⟩ := List.mem_map.mp hmem
  obtain ⟨hkey, hslot⟩ := Prod.mk.inj he
  obtain ⟨hdevice, hid⟩ := Prod.mk.inj hkey
  exact ⟨d, hd, hdevice, hid, hslot⟩

theorem Same.slots (h : Same s t) :
    t.clients.map Client.activitySlot = s.clients.map Client.activitySlot := by
  have hmap := congrArg (List.map Prod.snd) h.clients
  rwa [List.map_map, List.map_map] at hmap

theorem Table.congr (h : Table s) (hs : Same s t) : Table t := by
  refine ⟨fun c hc ↦ ?_, hs.activity ▸ h.size, hs.activity ▸ hs.slots ▸ h.slots, fun c hc ↦ ?_⟩
  · obtain ⟨d, hd, hdevice, -, -⟩ := hs.mem hc
    exact hdevice ▸ h.devices d hd
  · obtain ⟨d, hd, hdevice, hid, hslot⟩ := hs.mem hc
    rw [hs.activity, ← hdevice, ← hid, ← hslot]
    exact h.keys d hd

theorem setLifecycle_same (device : AudioObjectID) (s : DriverState) (l : AudioDeviceLifecycle) :
    Same s (s.setLifecycle device l) := by
  unfold setLifecycle
  exact .ite ⟨rfl, rfl⟩ ⟨rfl, rfl⟩

theorem updateClient_same (s : DriverState) (p : Client → Bool) {f : Client → Client}
    (hf : ∀ c, registration (f c) = registration c) : Same s (s.updateClient p f) := by
  unfold updateClient
  cases s.clients.findIdx? p with
  | none => exact .refl s
  | some i => exact ⟨map_modify_of_eq hf s.clients i, rfl⟩

theorem notifyRunningChanged_same (s : DriverState) (device : AudioObjectID) :
    Same s (s.notifyRunningChanged device) := by
  unfold notifyRunningChanged
  exact .ite ⟨rfl, rfl⟩ (.refl s)

theorem startHardware_same (s : DriverState) (reset : Bool) (hw : HardwareAnswers) :
    Same s (s.startHardware reset hw).2 := by
  unfold startHardware
  by_cases h₁ : hw.sessionAllocated = false
  · rw [if_pos h₁]
    exact ⟨rfl, rfl⟩
  rw [if_neg h₁]
  cases hw.opened with
  | none => exact ⟨rfl, rfl⟩
  | some result =>
    simp only
    split_ifs <;> exact ⟨rfl, rfl⟩

theorem stopHardware_same (s : DriverState) (close : IOReturn) :
    Same s (s.stopHardware close).2 := by
  rw [stopHardware_eq]
  exact ⟨rfl, rfl⟩

theorem table_transparent : Transparent Table where
  lifecycle t device l h := h.congr (setLifecycle_same device t l)
  addStart t p h := h.congr (updateClient_same t p fun _ ↦ rfl)
  dropStart t p h := h.congr (updateClient_same t p fun _ ↦ rfl)
  sync _ h := h.congr ⟨rfl, rfl⟩
  notify t device h := h.congr (notifyRunningChanged_same t device)
  stopHardware t close h := h.congr (stopHardware_same t close)

end Frame

theorem activityKey_ne_zero (hd : validDevice device = true) (id : UInt32) :
    activityKey device id ≠ 0 := by
  intro h
  have hhigh := (UInt64.or_eq_zero_iff.mp h).1
  rcases valid_cases hd with rfl | rfl
  · exact absurd hhigh (by decide)
  · exact absurd hhigh (by decide)

theorem used_set (activity : List ActivitySlot) (i : ℕ) (a : ActivitySlot) :
    used (activity.set i a) = (used activity).set i (a.key ≠ 0) := List.map_set

theorem used_get {activity : List ActivitySlot} {i : ℕ} {b : Bool} :
    (used activity)[i]? = some b ↔ ∃ a, activity[i]? = some a ∧ decide (a.key ≠ 0) = b := by
  rw [used, List.getElem?_map, Option.map_eq_some_iff]

theorem Table.length_le (h : Table s) : s.clients.length ≤ maximumClients := by
  have hle := h.slots.length_le
  rw [used, List.length_map, List.length_map, h.size] at hle
  exact hle

theorem Table.free (h : Table s) (hlen : s.clients.length ≠ maximumClients) :
    ∃ i, s.activity.findIdx? (·.key = 0) = some i := by
  have hlt : (s.clients.map Client.activitySlot).length < (used s.activity).length := by
    rw [used, List.length_map, List.length_map, h.size]
    exact lt_of_le_of_ne h.length_le hlen
  obtain ⟨i, hi⟩ := h.slots.exists_free hlt
  obtain ⟨a, ha, hkey⟩ := used_get.mp hi
  cases hfind : s.activity.findIdx? (·.key = 0) with
  | some j => exact ⟨j, rfl⟩
  | none =>
    have hno := List.findIdx?_eq_none_iff.mp hfind a (List.mem_of_getElem? ha)
    simp_all

theorem Table.add (h : Table s) (hd : validDevice device = true) (info : ClientInfo) {slot : ℕ}
    (hfind : s.activity.findIdx? (·.key = 0) = some slot) : Table { s with
      clients := s.clients ++ [⟨device, info.clientID, info.processID, 0, slot, info.bundleID⟩]
      activity := s.activity.set slot ⟨activityKey device info.clientID, 0, 0, 0⟩ } := by
  obtain ⟨hlt, hzero, -⟩ := List.findIdx?_eq_some_iff_getElem.mp hfind
  have hfree : (used s.activity)[slot]? = some false :=
    used_get.mpr ⟨_, List.getElem?_eq_getElem hlt, by simpa using hzero⟩
  have hslots := h.slots.acquire hfree
  refine ⟨?_, List.length_set.trans h.size, ?_, ?_⟩
  · exact List.forall_mem_append.mpr ⟨h.devices, by simpa using hd⟩
  · rw [used_set, List.map_append, decide_eq_true (activityKey_ne_zero hd info.clientID)]
    exact hslots
  · refine List.forall_mem_append.mpr ⟨fun c hc ↦ ?_, ?_⟩
    · have hne : slot ≠ c.activitySlot := by
        rintro rfl
        have hused := (h.slots.mem _).mp (List.mem_map_of_mem hc)
        rw [hfree] at hused
        cases hused
      rw [List.getElem?_set_ne hne]
      exact h.keys c hc
    · simp [hlt]

theorem addClient_table (h : Table s) (device : AudioObjectID) (info : Option ClientInfo) :
    Table (s.addClient device info).2 := by
  cases info with
  | none => exact h
  | some info =>
    simp only [addClient]
    by_cases hd : validDevice device = false
    · rwa [if_pos hd]
    rw [if_neg hd]
    split_ifs
    · exact h
    · exact h
    · cases hfind : s.activity.findIdx? (·.key = 0) with
      | none => exact h
      | some slot => exact h.add (by simpa using hd) info hfind

theorem modify_key (activity : List ActivitySlot) (slot : ℕ) :
    used (activity.modify slot fun a ↦ { a with key := 0 }) = (used activity).set slot false := by
  induction activity generalizing slot with
  | nil => cases slot <;> rfl
  | cons a rest ih =>
    cases slot with
    | zero => simp [used]
    | succ slot =>
      simp only [used, List.modify_succ_cons, List.map_cons, List.set_cons_succ] at ih ⊢
      rw [ih]

/-- A removed client takes its key with it, and the client moved into its place keeps its own. -/
theorem Table.remove (h : Table s) {i : ℕ} {c : Client} (hi : s.clients[i]? = some c)
    (l : AudioDeviceLifecycle) : Table { (s.setLifecycle device l).clearActivity c.activitySlot with
      clients := swapRemove s.clients i } := by
  have hset := setLifecycle_same device s l
  have hactivity : ((s.setLifecycle device l).clearActivity c.activitySlot).activity =
      s.activity.modify c.activitySlot fun a ↦ { a with key := 0 } := by
    rw [clearActivity, hset.activity]
  have hperm := swapRemove_perm hi
  have hmem : ∀ d ∈ swapRemove s.clients i, d ∈ s.clients :=
    fun d hd ↦ hperm.subset (List.mem_cons_of_mem c hd)
  have hslot : (s.clients.map Client.activitySlot)[i]? = some c.activitySlot := by
    rw [List.getElem?_map, hi]
    rfl
  have herase : ((swapRemove s.clients i).map Client.activitySlot).Perm
      ((s.clients.map Client.activitySlot).eraseIdx i) := by
    obtain ⟨hlt, he⟩ := List.getElem?_eq_some_iff.mp hslot
    have hcons := List.getElem_cons_eraseIdx_perm hlt
    rw [he] at hcons
    exact ((hperm.map Client.activitySlot).trans hcons.symm).cons_inv
  have hslots := (h.slots.release hslot).perm herase
  refine ⟨fun d hd ↦ h.devices d (hmem d hd), ?_, ?_, fun d hd ↦ ?_⟩
  · rw [hactivity, List.length_modify]
    exact h.size
  · rw [hactivity, modify_key]
    exact hslots
  · have hne : c.activitySlot ≠ d.activitySlot := by
      have hnodup := (hperm.map Client.activitySlot).nodup_iff.mpr h.slots.nodup
      exact fun he ↦ (List.nodup_cons.mp hnodup).1 (he ▸ List.mem_map_of_mem hd)
    rw [hactivity, List.getElem?_modify_ne _ _ hne]
    exact h.keys d (hmem d hd)

theorem removeClient_table (h : Table s) (device : AudioObjectID) (close : IOReturn)
    (info : Option ClientInfo) : Table (s.removeClient device close info).2 := by
  cases info with
  | none => exact h
  | some info =>
    simp only [removeClient]
    by_cases hd : validDevice device = false
    · rwa [if_pos hd]
    rw [if_neg hd]
    cases hi : s.clients.findIdx? (isClient device info.clientID) with
    | none => exact h
    | some i =>
      obtain ⟨c, hget, -⟩ := findIdx?_client hi
      have hclients (l : AudioDeviceLifecycle) (slot : ℕ) :
          ((s.setLifecycle device l).clearActivity slot).clients = s.clients :=
        setLifecycle_clients s l
      simp only [hget, Option.map_some, Option.getD_some, hclients]
      exact table_transparent.finishStop (h.remove hget _) _ close

theorem step_table (h : Table s) (op : DriverOp) : Table (s.step op).2 := by
  cases op with
  | addClient device info => exact addClient_table h device info
  | removeClient device info close => exact removeClient_table h device close info
  | startIo device client hw =>
    exact table_transparent.startIo h hw fun _ _ ht ↦ ht.congr (startHardware_same _ _ _)
  | stopIo device client close => exact table_transparent.stopIo h close
  | monitorTick current present close hw =>
    exact table_transparent.monitorTick h current present close hw (fun _ ht ↦ ht)
      fun _ _ ht ↦ ht.congr (startHardware_same _ _ _)

theorem after_table (h : Table s) (ops : List DriverOp) : Table (s.after ops) := by
  induction ops generalizing s with
  | nil => exact h
  | cons op ops ih => exact ih (step_table h op)

theorem initial_table (host : Bool) (timestampAnchor : UInt64) :
    Table (initial host timestampAnchor) := by
  have hused : used (initial host timestampAnchor).activity =
      List.replicate maximumClients false := List.map_replicate
  refine ⟨by simp [initial], List.length_replicate, ?_, by simp [initial]⟩
  rw [hused]
  exact Tracks.none_held maximumClients

/-- The three places that know the clients agree: the client array, the key slots
that I/O finds by key, and the starts the lifecycles hold. -/
structure ClientTable (s : DriverState) : Prop where
  distinct : (s.clients.map fun c ↦ (c.device, c.id)).Nodup
  size : s.clients.length ≤ 64
  slots : (s.clients.map Client.activitySlot).Nodup
  keys : ∀ (i : ℕ) (k : UInt64), k ≠ 0 ∧ s.activity[i]?.map ActivitySlot.key = some k ↔
    ∃ c ∈ s.clients, c.activitySlot = i ∧ activityKey c.device c.id = k
  starts : ∀ c ∈ s.clients, c.starts.toNat = (s.lifecycle c.device).held.count c.id
  registered : ∀ device, validDevice device = true → ∀ id ∈ (s.lifecycle device).held,
    s.hasClient device id = true
  addClient : ∀ device info, validDevice device = true →
    s.hasClient device info.clientID = false →
    ((s.addClient device (some info)).1 ≠ .noErr ↔ s.clients.length = 64)
  startIo : ∀ device client, validDevice device = true → s.hasClient device client = true →
    ((s.lifecycle device).startIo client).1 = .rejected →
    (s.lifecycle device).held.count client = 2 ^ 32 - 1

theorem Accounts.count_starts (h : Accounts s) {c : Client} (hc : c ∈ s.clients)
    (hd : validDevice c.device = true) :
    c.starts.toNat = (s.lifecycle c.device).held.count c.id := by
  rw [← count_held s hd, ← h.balance]
  exact (@Foundation.SlotBag.count_bag_of_nodup _ _ key (·.starts.toNat) _ c _ h.distinct hc).symm

theorem Accounts.registered (h : Accounts s) (hd : validDevice device = true)
    (hid : client ∈ (s.lifecycle device).held) : s.hasClient device client = true := by
  rw [← mem_held_iff s hd, ← h.balance] at hid
  obtain ⟨i, c, hi, -, hkey⟩ := Foundation.SlotBag.mem_bag.mp hid
  exact List.any_eq_true.mpr ⟨c, List.mem_of_getElem? hi, isClient_iff.mpr hkey⟩

/-- Sixty-four slots are enough for the registered clients of one device, so a
start of one of them finds a slot. -/
theorem Inv.startIo_rejected (h : Inv s) (hlen : s.clients.length ≤ maximumClients)
    (hd : validDevice device = true) (hc : s.hasClient device client = true)
    (hr : ((s.lifecycle device).startIo client).1 = .rejected) :
    (s.lifecycle device).held.count client = maximumStarts.toNat := by
  have hvalid := h.lifecycle device
  have hrep : AudioDeviceLifecycle.Represents (s.lifecycle device)
      (AudioClientLifecycle.Valid.starts hvalid) := ⟨hvalid, rfl⟩
  rcases (hrep.implements.rejected client).mp hr with hcount | hcard
  · exact hcount
  · exfalso
    have hsub : insert client ((s.lifecycle device).held.toFinset.erase client) ⊆
        ((s.clients.map key).toFinset.filter (·.1 = device)).image Prod.snd := by
      intro id hid
      have hreg : s.hasClient device id = true := by
        rcases Finset.mem_insert.mp hid with rfl | hid
        · exact hc
        · exact h.toAccounts.registered hd (Multiset.mem_toFinset.mp (Finset.mem_of_mem_erase hid))
      obtain ⟨c, hmem, hp⟩ := List.any_eq_true.mp hreg
      have hkey := isClient_iff.mp hp
      refine Finset.mem_image.mpr ⟨(device, id), Finset.mem_filter.mpr ⟨?_, rfl⟩, rfl⟩
      exact List.mem_toFinset.mpr (hkey ▸ List.mem_map_of_mem hmem)
    have hle := calc
      (insert client ((s.lifecycle device).held.toFinset.erase client)).card
          ≤ _ := Finset.card_le_card hsub
      _ ≤ _ := Finset.card_image_le
      _ ≤ (s.clients.map key).toFinset.card := Finset.card_filter_le _ _
      _ ≤ (s.clients.map key).length := List.toFinset_card_le _
    rw [Finset.card_insert_of_notMem (Finset.notMem_erase client _), List.length_map] at hle
    have hcard' : ((s.lifecycle device).held.toFinset.erase client).card = 64 := hcard
    have hmax : maximumClients = 64 := rfl
    omega

theorem Table.addClient_refused (h : Table s) (hd : validDevice device = true) (info : ClientInfo)
    (hc : s.hasClient device info.clientID = false) :
    (s.addClient device (some info)).1 ≠ .noErr ↔ s.clients.length = maximumClients := by
  by_cases hlen : s.clients.length = maximumClients
  · simp [addClient, hd, hc, hlen]
  · obtain ⟨i, hi⟩ := h.free hlen
    simp [addClient, hd, hc, hlen, hi]

theorem Table.keys_iff (h : Table s) (i : ℕ) (k : UInt64) :
    k ≠ 0 ∧ s.activity[i]?.map ActivitySlot.key = some k ↔
      ∃ c ∈ s.clients, c.activitySlot = i ∧ activityKey c.device c.id = k := by
  constructor
  · rintro ⟨hk, hget⟩
    obtain ⟨a, ha, rfl⟩ := Option.map_eq_some_iff.mp hget
    have hused : (used s.activity)[i]? = some true := used_get.mpr ⟨a, ha, decide_eq_true hk⟩
    obtain ⟨c, hc, rfl⟩ := List.mem_map.mp ((h.slots.mem i).mpr hused)
    exact ⟨c, hc, rfl, Option.some.inj ((h.keys c hc).symm.trans hget)⟩
  · rintro ⟨c, hc, rfl, rfl⟩
    exact ⟨activityKey_ne_zero (h.devices c hc) c.id, h.keys c hc⟩

theorem Table.clientTable (ht : Table s) (h : Inv s) : ClientTable s where
  distinct := h.distinct
  size := ht.length_le
  slots := ht.slots.nodup
  keys := ht.keys_iff
  starts c hc := h.toAccounts.count_starts hc (ht.devices c hc)
  registered _ hd _ hid := h.toAccounts.registered hd hid
  addClient _ info hd hc := ht.addClient_refused hd info hc
  startIo _ _ hd hc hr := h.startIo_rejected ht.length_le hd hc hr

/-- The tables agree after every sequence of calls, whatever the hardware answers
and whatever the monitor does in between. -/
theorem clientTable_of_run (host : Bool) (timestampAnchor : UInt64) (ops : List DriverOp) :
    ClientTable ((initial host timestampAnchor).after ops) :=
  (after_table (initial_table host timestampAnchor) ops).clientTable
    (after_inv (initial_inv host timestampAnchor) ops)

end NumarkNS6.CoreAudio.DriverState
