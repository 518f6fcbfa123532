import NumarkNS6.CoreAudio.DriverLifetime
import NumarkNS6.CoreAudio.DriverRules
import NumarkNS6.CoreAudio.ZeroTimestamp
import NumarkNS6.Foundation.Runs

namespace NumarkNS6.CoreAudio

open Foundation.Runs Usb

namespace DriverState

variable {s t u : DriverState} {device : AudioObjectID}

/-- What an operation can do to anchor and seed: the anchor moves only when the
seed does and no client was started. -/
inductive Reclocked (s t : DriverState) : Prop
  | same (anchor : t.timestampAnchor = s.timestampAnchor) (seed : t.timestampSeed = s.timestampSeed)
  | reconnected (anchor : t.timestampAnchor = s.timestampAnchor)
      (seed : t.timestampSeed = s.timestampSeed + 1)
  | restarted (idle : s.anyActive = false) (seed : t.timestampSeed = s.timestampSeed + 1)

structure SameClock (s t : DriverState) : Prop where
  anchor : t.timestampAnchor = s.timestampAnchor
  seed : t.timestampSeed = s.timestampSeed

theorem SameClock.refl (s : DriverState) : SameClock s s := ⟨rfl, rfl⟩

theorem SameClock.trans (h : SameClock s t) (h' : SameClock t u) : SameClock s u :=
  ⟨h'.anchor.trans h.anchor, h'.seed.trans h.seed⟩

theorem SameClock.ite {p : Prop} [Decidable p] (h : SameClock s t) (h' : SameClock s u) :
    SameClock s (if p then t else u) := by
  split_ifs
  · exact h
  · exact h'

theorem SameClock.reclocked (h : SameClock s t) : Reclocked s t := .same h.anchor h.seed

theorem Reclocked.trans (h : Reclocked s t) (h' : SameClock t u) : Reclocked s u := by
  cases h with
  | same ha hs => exact .same (h'.anchor.trans ha) (h'.seed.trans hs)
  | reconnected ha hs => exact .reconnected (h'.anchor.trans ha) (h'.seed.trans hs)
  | restarted hidle hs => exact .restarted hidle (h'.seed.trans hs)

theorem setLifecycle_clock (device : AudioObjectID) (s : DriverState) (l : AudioDeviceLifecycle) :
    SameClock s (s.setLifecycle device l) := by
  unfold setLifecycle
  exact .ite ⟨rfl, rfl⟩ ⟨rfl, rfl⟩

theorem notifyRunningChanged_clock (s : DriverState) (device : AudioObjectID) :
    SameClock s (s.notifyRunningChanged device) := by
  unfold notifyRunningChanged
  exact .ite ⟨rfl, rfl⟩ (.refl s)

theorem updateClient_clock (s : DriverState) (p : Client → Bool) (f : Client → Client) :
    SameClock s (s.updateClient p f) := by
  unfold updateClient
  split <;> exact ⟨rfl, rfl⟩

theorem stopHardware_clock (s : DriverState) (close : IOReturn) :
    SameClock s (s.stopHardware close).2 := by
  rw [stopHardware_eq]
  exact ⟨rfl, rfl⟩

theorem startHardware_clock (s : DriverState) (reset : Bool) (hw : HardwareAnswers) :
    SameClock s (s.startHardware reset hw).2 ∨
      (s.startHardware reset hw).2.timestampSeed = s.timestampSeed + 1 ∧
        (reset = false → (s.startHardware reset hw).2.timestampAnchor = s.timestampAnchor) := by
  unfold startHardware
  by_cases h₁ : hw.sessionAllocated = false
  · rw [if_pos h₁]
    exact .inl ⟨rfl, rfl⟩
  rw [if_neg h₁]
  cases hw.opened with
  | none => exact .inl ⟨rfl, rfl⟩
  | some result =>
    simp only
    by_cases h₂ : result ≠ .success
    · rw [if_pos h₂]
      exact .inl ⟨rfl, rfl⟩
    by_cases h₃ : hw.inputMode ≠ .success
    · rw [if_neg h₂, if_pos h₃]
      exact .inl ⟨rfl, rfl⟩
    by_cases h₄ : hw.runtimeAllocated = false
    · rw [if_neg h₂, if_neg h₃, if_pos h₄]
      exact .inl ⟨rfl, rfl⟩
    rw [if_neg h₂, if_neg h₃, if_neg h₄]
    split
    · exact .inl ⟨rfl, rfl⟩
    · refine .inr ⟨rfl, ?_⟩
      rintro rfl
      rfl

theorem addClient_clock (s : DriverState) (device : AudioObjectID) (info : Option ClientInfo) :
    SameClock s (s.addClient device info).2 := by
  cases info with
  | none => exact .refl s
  | some info =>
    simp only [addClient]
    split_ifs
    · exact .refl s
    · exact .refl s
    · exact .refl s
    · split <;> exact ⟨rfl, rfl⟩

theorem transparent_of_clock {P : DriverState → Prop} (hP : ∀ t u, P t → SameClock t u → P u) :
    Transparent P where
  lifecycle t device l h := hP t _ h (setLifecycle_clock device t l)
  addStart t p h := hP t _ h (updateClient_clock t p _)
  dropStart t p h := hP t _ h (updateClient_clock t p _)
  sync t h := hP t _ h ⟨rfl, rfl⟩
  notify t device h := hP t _ h (notifyRunningChanged_clock t device)
  stopHardware t close h := hP t _ h (stopHardware_clock t close)

theorem step_reclocked (s : DriverState) (op : DriverOp) : Reclocked s (s.step op).2 := by
  have hself := SameClock.refl s
  have hP : Transparent (SameClock s) := transparent_of_clock fun _ _ h h' ↦ h.trans h'
  have hQ : Transparent (Reclocked s) := transparent_of_clock fun _ _ h h' ↦ h.trans h'
  cases op with
  | addClient device info => exact (addClient_clock s device info).reclocked
  | removeClient device info close =>
    exact (hP.removeClient hself info close fun _ _ _ h ↦ h.trans ⟨rfl, rfl⟩).reclocked
  | startIo device client hw =>
    refine hQ.startIo hself.reclocked hw fun l hidle _ ↦ ?_
    have hset := setLifecycle_clock device s l
    rcases startHardware_clock (s.setLifecycle device l) true hw with hsame | ⟨hseed, -⟩
    · exact (hset.trans hsame).reclocked
    · exact .restarted hidle (hseed.trans (congrArg (· + 1) hset.seed))
  | stopIo device client close => exact (hP.stopIo hself close).reclocked
  | monitorTick current present close hw =>
    refine hP.monitorTick hself current present close hw (fun _ h ↦ h.reclocked) fun t _ ht ↦ ?_
    rcases startHardware_clock t false hw with hsame | ⟨hseed, hanchor⟩
    · exact (ht.trans hsame).reclocked
    · exact .reconnected ((hanchor rfl).trans ht.anchor) (hseed.trans (congrArg (· + 1) ht.seed))

end DriverState

def Timebase.mhz24 : Timebase := ⟨125, 3, by decide, by decide, by decide⟩

structure TimestampCall where
  device : AudioObjectID
  read : ℕ
  now : UInt64
  anchor : Option UInt64

structure TimestampResult where
  device : AudioObjectID
  read : ℕ
  now : UInt64
  anchor : UInt64
  stamp : ZeroTimestamp

/-- The driver with the calls of `zeroTimestamp` that run beside its operations.
`readings` are the values the host clock has shown to them. -/
structure Timekeeper where
  driver : DriverState
  readings : List UInt64
  calls : List TimestampCall
  results : List TimestampResult

namespace Timekeeper

inductive Action
  | driver (op : DriverOp)
  | enter (device : AudioObjectID) (outputs : Bool) (now : UInt64)
  | loadAnchor (i : ℕ)
  | finish (i : ℕ)

/-- A call is made only while a client is started, which the last client to stop
waits for, and the host clock does not run backwards. The operations take the
driver's mutex and touch anchor and seed in one store each, so that a call can be
between any two of its loads when one happens. -/
def step (tb : Timebase) (s : Timekeeper) : Action → Option Timekeeper
  | .driver op =>
    if (s.calls.isEmpty || (s.driver.step op).2.anyActive) ∧
        s.driver.timestampSeed.toNat + 1 < 2 ^ 64 then
      some { s with driver := (s.driver.step op).2 }
    else none
  | .enter device outputs now =>
    if s.driver.anyActive = false then none
    else if DriverState.validDevice device = false || !outputs then some s
    else if s.readings.all (· ≤ now) then
      some { s with
        readings := s.readings ++ [now]
        calls := s.calls ++ [⟨device, s.readings.length, now, none⟩] }
    else none
  | .loadAnchor i =>
    match s.calls[i]? with
    | some ⟨device, read, now, none⟩ =>
      if tb.Representable (elapsedSince s.driver.timestampAnchor now) then
        some { s with calls := s.calls.set i ⟨device, read, now, some s.driver.timestampAnchor⟩ }
      else none
    | _ => none
  | .finish i =>
    match s.calls[i]? with
    | some ⟨device, read, now, some anchor⟩ =>
      some { s with
        calls := s.calls.eraseIdx i
        results := s.results ++
          [⟨device, read, now, anchor, tb.stamp now anchor s.driver.timestampSeed⟩] }
    | _ => none

def initial (host : Bool) (timestampAnchor : UInt64) : Timekeeper :=
  ⟨.initial host timestampAnchor, [], [], []⟩

variable {tb : Timebase} {s t : Timekeeper}

/-- The readings so far belong to the calls and results, one each; a loaded anchor
is the current one; and a result of the current seed has the current anchor. -/
structure Inv (tb : Timebase) (s : Timekeeper) : Prop where
  active : s.calls ≠ [] → s.driver.anyActive = true
  clock : s.readings.Pairwise (· ≤ ·)
  reads : (s.calls.map (·.read) ++ s.results.map (·.read)).Nodup
  calls : ∀ c ∈ s.calls, s.readings[c.read]? = some c.now ∧ DriverState.validDevice c.device ∧
    ∀ anchor, c.anchor = some anchor → anchor = s.driver.timestampAnchor ∧
      tb.Representable (elapsedSince anchor c.now)
  results : ∀ r ∈ s.results, s.readings[r.read]? = some r.now ∧ DriverState.validDevice r.device ∧
    tb.Representable (elapsedSince r.anchor r.now) ∧
    r.stamp = tb.stamp r.now r.anchor r.stamp.seed ∧
    (r.stamp.seed < s.driver.timestampSeed ∨
      r.stamp.seed = s.driver.timestampSeed ∧ r.anchor = s.driver.timestampAnchor)
  agree : ∀ r ∈ s.results, ∀ r' ∈ s.results, r.stamp.seed = r'.stamp.seed → r.anchor = r'.anchor

theorem Inv.read_lt (h : Inv tb s) {read : ℕ}
    (hmem : read ∈ s.calls.map (·.read) ++ s.results.map (·.read)) : read < s.readings.length := by
  rcases List.mem_append.mp hmem with hmem | hmem
  · obtain ⟨c, hc, rfl⟩ := List.mem_map.mp hmem
    exact (List.getElem?_eq_some_iff.mp (h.calls c hc).1).1
  · obtain ⟨r, hr, rfl⟩ := List.mem_map.mp hmem
    exact (List.getElem?_eq_some_iff.mp (h.results r hr).1).1

theorem lt_succ_seed {seed : UInt64} (h : seed.toNat + 1 < 2 ^ 64) : seed < seed + 1 := by
  rw [UInt64.lt_iff_toNat_lt, UInt64.toNat_add]
  change seed.toNat < (seed.toNat + 1) % 2 ^ 64
  rw [Nat.mod_eq_of_lt h]
  exact Nat.lt_succ_self _

/-- An operation of the driver keeps loaded anchors current, because the anchor
moves only while no call is in progress, and puts results with another anchor
behind the seed. -/
theorem Inv.driver (h : Inv tb s) {op : DriverOp}
    (hactive : s.calls ≠ [] → (s.driver.step op).2.anyActive = true)
    (hseed : s.driver.timestampSeed.toNat + 1 < 2 ^ 64) :
    Inv tb { s with driver := (s.driver.step op).2 } := by
  have hclock := s.driver.step_reclocked op
  generalize (s.driver.step op).2 = d at hactive hclock ⊢
  have hlt := lt_succ_seed hseed
  have hbehind {r : TimestampResult} (hr : r ∈ s.results) :
      r.stamp.seed < s.driver.timestampSeed + 1 := by
    rcases (h.results r hr).2.2.2.2 with hold | ⟨hcurrent, -⟩
    · exact UInt64.lt_trans hold hlt
    · exact hcurrent ▸ hlt
  refine ⟨hactive, h.clock, h.reads, fun c hc ↦ ?_, fun r hr ↦ ?_, h.agree⟩
  · obtain ⟨hread, hdevice, hanchor⟩ := h.calls c hc
    refine ⟨hread, hdevice, fun anchor ha ↦ ?_⟩
    obtain ⟨hcurrent, hrep⟩ := hanchor anchor ha
    refine ⟨?_, hrep⟩
    cases hclock with
    | same hsame => exact hcurrent.trans hsame.symm
    | reconnected hsame => exact hcurrent.trans hsame.symm
    | restarted hidle =>
      exact absurd (hidle.symm.trans (h.active (List.ne_nil_of_mem hc))) Bool.false_ne_true
  · obtain ⟨hread, hdevice, hrep, hstamp, hold⟩ := h.results r hr
    refine ⟨hread, hdevice, hrep, hstamp, ?_⟩
    cases hclock with
    | same ha hs => rwa [ha, hs]
    | reconnected _ hs => exact .inl (hs ▸ hbehind hr)
    | restarted _ hs => exact .inl (hs ▸ hbehind hr)

theorem Inv.enter (h : Inv tb s) (ha : s.driver.anyActive = true) {device : AudioObjectID}
    (hdevice : DriverState.validDevice device) {now : UInt64} (hnow : ∀ t ∈ s.readings, t ≤ now) :
    Inv tb { s with
      readings := s.readings ++ [now]
      calls := s.calls ++ [⟨device, s.readings.length, now, none⟩] } := by
  have hkeep {read : ℕ} {t : UInt64} (hread : s.readings[read]? = some t) :
      (s.readings ++ [now])[read]? = some t := by
    rw [List.getElem?_append_left (List.getElem?_eq_some_iff.mp hread).1, hread]
  refine ⟨fun _ ↦ ha, ?_, ?_, ?_, fun r hr ↦ ?_, h.agree⟩
  · refine List.pairwise_append.mpr ⟨h.clock, List.pairwise_singleton _ _, fun t ht t' ht' ↦ ?_⟩
    exact List.mem_singleton.mp ht' ▸ hnow t ht
  · have hnew : s.readings.length ∉ s.calls.map (·.read) ++ s.results.map (·.read) :=
      fun hmem ↦ Nat.lt_irrefl _ (h.read_lt hmem)
    rw [List.map_append, List.map_singleton, List.append_assoc, List.singleton_append]
    exact List.nodup_middle.mpr (List.nodup_cons.mpr ⟨hnew, h.reads⟩)
  · refine List.forall_mem_append.mpr ⟨fun c hc ↦ ?_, List.forall_mem_singleton.mpr ⟨?_, hdevice, nofun⟩⟩
    · exact ⟨hkeep (h.calls c hc).1, (h.calls c hc).2⟩
    · exact List.getElem?_concat_length
  · exact ⟨hkeep (h.results r hr).1, (h.results r hr).2⟩

theorem Inv.loadAnchor (h : Inv tb s) {i read : ℕ} {device : AudioObjectID} {now : UInt64}
    (hi : s.calls[i]? = some ⟨device, read, now, none⟩)
    (hrep : tb.Representable (elapsedSince s.driver.timestampAnchor now)) :
    Inv tb { s with
      calls := s.calls.set i ⟨device, read, now, some s.driver.timestampAnchor⟩ } := by
  obtain ⟨hlt, hget⟩ := List.getElem?_eq_some_iff.mp hi
  have hmem := List.mem_of_getElem? hi
  obtain ⟨hread, hdevice, -⟩ := h.calls _ hmem
  have hreads : (s.calls.set i ⟨device, read, now, some s.driver.timestampAnchor⟩).map (·.read) =
      s.calls.map (·.read) := by
    have hself : (s.calls.map (·.read)).set i (s.calls.get ⟨i, hlt⟩).read = s.calls.map (·.read) := by
      rw [← List.map_set, List.get_eq_getElem, List.set_getElem_self]
    rw [List.map_set]
    rwa [List.get_eq_getElem, hget] at hself
  refine ⟨fun _ ↦ h.active (List.ne_nil_of_mem hmem), h.clock, ?_, fun c hc ↦ ?_, h.results, h.agree⟩
  · rw [hreads]
    exact h.reads
  · rcases List.mem_or_eq_of_mem_set hc with hc | rfl
    · exact h.calls c hc
    · refine ⟨hread, hdevice, ?_⟩
      rintro _ ⟨⟩
      exact ⟨rfl, hrep⟩

theorem Inv.finish (h : Inv tb s) {i read : ℕ} {device : AudioObjectID} {now anchor : UInt64}
    (hi : s.calls[i]? = some ⟨device, read, now, some anchor⟩) :
    Inv tb { s with
      calls := s.calls.eraseIdx i
      results := s.results ++
        [⟨device, read, now, anchor, tb.stamp now anchor s.driver.timestampSeed⟩] } := by
  obtain ⟨hlt, hget⟩ := List.getElem?_eq_some_iff.mp hi
  obtain ⟨hread, hdevice, hanchor⟩ := h.calls _ (List.mem_of_getElem? hi)
  obtain ⟨hcurrent, hrep⟩ := hanchor anchor rfl
  have hperm : ((s.calls.eraseIdx i).map (·.read) ++ (s.results.map (·.read) ++ [read])).Perm
      (s.calls.map (·.read) ++ s.results.map (·.read)) := by
    have hcalls := (List.getElem_cons_eraseIdx_perm hlt).map (·.read)
    rw [hget] at hcalls
    refine .trans ?_ (hcalls.append_right _)
    rw [← List.append_assoc]
    exact List.perm_append_singleton _ _
  have hsame {r : TimestampResult} (hr : r ∈ s.results)
      (heq : r.stamp.seed = s.driver.timestampSeed) : r.anchor = anchor := by
    rcases (h.results r hr).2.2.2.2 with hold | ⟨-, ha⟩
    · exact absurd heq (UInt64.ne_of_lt hold)
    · exact ha.trans hcurrent.symm
  refine ⟨fun hne ↦ ?_, h.clock, ?_, fun c hc ↦ h.calls c (List.mem_of_mem_eraseIdx hc), ?_, ?_⟩
  · exact h.active (List.ne_nil_of_mem (List.mem_of_getElem? hi))
  · rw [List.map_append]
    exact hperm.nodup_iff.mpr h.reads
  · refine List.forall_mem_append.mpr ⟨h.results, List.forall_mem_singleton.mpr ?_⟩
    exact ⟨hread, hdevice, hrep, rfl, .inr ⟨rfl, hcurrent⟩⟩
  · refine List.forall_mem_append.mpr ⟨fun r hr ↦ ?_, List.forall_mem_singleton.mpr ?_⟩
    · exact List.forall_mem_append.mpr ⟨h.agree r hr, List.forall_mem_singleton.mpr (hsame hr)⟩
    · refine List.forall_mem_append.mpr ⟨fun r hr heq ↦ ?_, List.forall_mem_singleton.mpr fun _ ↦ rfl⟩
      exact (hsame hr heq.symm).symm

theorem inv_initial (tb : Timebase) (host : Bool) (timestampAnchor : UInt64) :
    Inv tb (initial host timestampAnchor) :=
  ⟨fun h ↦ absurd rfl h, .nil, .nil, nofun, nofun, nofun⟩

theorem Inv.step {a : Action} (h : Inv tb s) (ht : s.step tb a = some t) : Inv tb t := by
  cases a with
  | driver op =>
    obtain ⟨⟨hactive, hseed⟩, ⟨⟩⟩ := Option.ite_none_right_eq_some.mp ht
    refine h.driver (fun hne ↦ ?_) hseed
    rwa [List.isEmpty_eq_false_iff.mpr hne, Bool.false_or] at hactive
  | enter device outputs now =>
    simp only [Timekeeper.step] at ht
    split_ifs at ht with hactive hbad hnow
    · cases ht
      exact h
    · cases ht
      have hdevice : DriverState.validDevice device := by grind
      exact h.enter (Bool.eq_true_of_not_eq_false hactive) hdevice fun t ht' ↦
        of_decide_eq_true (List.all_eq_true.mp hnow t ht')
  | loadAnchor i =>
    simp only [Timekeeper.step] at ht
    split at ht
    · next hi =>
      obtain ⟨hrep, ⟨⟩⟩ := Option.ite_none_right_eq_some.mp ht
      exact h.loadAnchor hi hrep
    · cases ht
  | finish i =>
    simp only [Timekeeper.step] at ht
    split at ht
    · next hi =>
      cases ht
      exact h.finish hi
    · cases ht

/-- What the results of a run owe to the host. The readings of the host clock
tell which of two calls read it later, also when it showed the same value. -/
structure Contract (tb : Timebase) (readings : List UInt64) (results : List TimestampResult) :
    Prop where
  clock : readings.Pairwise (· ≤ ·)
  reads : (results.map (·.read)).Nodup
  read : ∀ r ∈ results, readings[r.read]? = some r.now
  answer : ∀ r ∈ results,
    zeroTimestamp tb r.device true r.now r.anchor r.stamp.seed = (.noErr, some r.stamp)
  multiple : ∀ r ∈ results, zeroTimestampPeriodFrames ∣ r.stamp.sample ∧
    r.stamp.sample / zeroTimestampPeriodFrames < 2 ^ 53
  notLate : ∀ r ∈ results, r.stamp.host ≤ max r.now r.anchor
  recent : ∀ r ∈ results, r.anchor ≤ r.now →
    (r.now.toNat : ℚ) - r.stamp.host.toNat < tb.periodTicks + 1
  ordered : ∀ r ∈ results, ∀ r' ∈ results, r.stamp.seed = r'.stamp.seed → r.read < r'.read →
    r.stamp.sample ≤ r'.stamp.sample ∧ r.stamp.host ≤ r'.stamp.host ∧
      (r.stamp.sample = r'.stamp.sample ↔ r.stamp.host = r'.stamp.host)

theorem Inv.contract (h : Inv tb s) : Contract tb s.readings s.results where
  clock := h.clock
  reads := (List.nodup_append.mp h.reads).2.1
  read r hr := (h.results r hr).1
  answer r hr := by
    obtain ⟨-, hdevice, -, hstamp, -⟩ := h.results r hr
    rw [zeroTimestamp, hdevice, ← hstamp]
    rfl
  multiple r hr := by
    obtain ⟨-, -, hrep, hstamp, -⟩ := h.results r hr
    rw [hstamp]
    exact tb.stamp_multiple hrep
  notLate r hr := by
    obtain ⟨-, -, hrep, hstamp, -⟩ := h.results r hr
    rw [hstamp]
    exact tb.stamp_notLate hrep
  recent r hr ha := by
    obtain ⟨-, -, hrep, hstamp, -⟩ := h.results r hr
    rw [hstamp]
    exact tb.stamp_recent hrep ha
  ordered r hr r' hr' hseed hlt := by
    obtain ⟨hread, -, hrep, hstamp, -⟩ := h.results r hr
    obtain ⟨hread', -, hrep', hstamp', -⟩ := h.results r' hr'
    have hanchor := h.agree r hr r' hr' hseed
    obtain ⟨hr₁, hnow⟩ := List.getElem?_eq_some_iff.mp hread
    obtain ⟨hr₂, hnow'⟩ := List.getElem?_eq_some_iff.mp hread'
    have hle : r.now ≤ r'.now := by
      rw [← hnow, ← hnow']
      exact List.pairwise_iff_getElem.mp h.clock _ _ hr₁ hr₂ hlt
    rw [hanchor] at hrep hstamp
    rw [hstamp, hstamp']
    exact tb.stamp_mono hrep hrep' hle

/-- Every run of the driver with calls of `zeroTimestamp` beside it keeps the
clock contract. -/
theorem contract_of_run {host : Bool} {timestampAnchor : UInt64} {as : List Action}
    (h : Run (step tb) (initial host timestampAnchor) as s) : Contract tb s.readings s.results :=
  (h.invariant (inv_initial tb host timestampAnchor) fun _ _ _ hs ht ↦ hs.step ht).contract

/-- The first call has loaded the anchor when the controller is reopened, and
returns the new seed with it. -/
theorem contract_reopened_between_loads :
    ∃ s, Run (step .mhz24) (initial true 0)
        [.driver (.addClient 2 (some ⟨7, 1, []⟩)), .driver (.startIo 2 7 (.allSucceed 1000)),
          .enter 2 true 9000000, .loadAnchor 0,
          .driver (.monitorTick false true .success (.allSucceed 9000001)), .enter 2 true 18000000,
          .finish 0, .loadAnchor 0, .finish 0] s ∧
      s.results.map (·.stamp) = [⟨16384, 8917462, 3⟩, ⟨32768, 17833925, 3⟩] ∧
      Contract .mhz24 s.readings s.results := by
  have hrun : ([Action.driver (.addClient 2 (some ⟨7, 1, []⟩)),
      .driver (.startIo 2 7 (.allSucceed 1000)), .enter 2 true 9000000, .loadAnchor 0,
      .driver (.monitorTick false true .success (.allSucceed 9000001)), .enter 2 true 18000000,
      .finish 0, .loadAnchor 0, .finish 0].foldlM (step .mhz24) (initial true 0)).any fun s ↦
      s.results.map (·.stamp) = [⟨16384, 8917462, 3⟩, ⟨32768, 17833925, 3⟩] := by
    decide +kernel
  obtain ⟨s, hfold, hstamps⟩ := (Option.any_eq_true _ _).mp hrun
  exact ⟨s, .of_foldlM hfold, of_decide_eq_true hstamps, contract_of_run (.of_foldlM hfold)⟩

end Timekeeper

end NumarkNS6.CoreAudio
