import NumarkNS6.CoreAudio.AudioDeviceLifecycle
import NumarkNS6.Foundation.BoundedMultiset
import NumarkNS6.Foundation.Runs

namespace NumarkNS6.CoreAudio

open Foundation Foundation.Runs Foundation.SlotBag

inductive LifecycleOp
  | startIo (clientID : UInt32)
  | stopIo (clientID : UInt32)
  | removeClient (clientID : UInt32)

/-- What a device lifecycle is for: the starts its clients hold, at most
`2 ^ 32 - 1` for a client and for at most sixty-four clients. -/
abbrev Starts : Type :=
  BoundedMultiset UInt32 AudioClientLifecycle.maximumStarts.toNat AudioClientLifecycle.clientCapacity

namespace Starts

def ended (rest : Starts) : AudioIOTransition × Starts :=
  (if rest.elems = 0 then .lastClientStopped else .clientStoppedStillActive, rest)

def step (m : Starts) : LifecycleOp → AudioIOTransition × Starts
  | .startIo clientID =>
    if h : m.Full clientID then (.rejected, m)
    else (if m.elems = 0 then .firstClientStarted else .additionalClientStarted, m.add clientID h)
  | .stopIo clientID =>
    if clientID ∈ m.elems then ended (m.remove clientID) else (.clientNotActive, m)
  | .removeClient clientID =>
    if clientID ∈ m.elems then ended (m.removeAll clientID) else (.clientNotActive, m)

def run (m : Starts) : List LifecycleOp → List AudioIOTransition × Starts
  | [] => ([], m)
  | op :: ops => ((m.step op).1 :: (run (m.step op).2 ops).1, (run (m.step op).2 ops).2)

end Starts

namespace AudioClientLifecycle

variable {l : AudioClientLifecycle} {clientID : UInt32}

theorem Valid.distinct (h : l.Valid) :
    l.held.toFinset.card = l.clients.countP (·.starts.toNat ≠ 0) := h.separated.card_toFinset

theorem Valid.distinct_le (h : l.Valid) : l.held.toFinset.card ≤ clientCapacity := by
  rw [h.distinct, ← h.length]
  exact List.countP_le_length

theorem Valid.count_le (h : l.Valid) (clientID : UInt32) :
    l.held.count clientID ≤ maximumStarts.toNat := by
  by_cases hmem : clientID ∈ l.held
  · obtain ⟨i, c, hc⟩ := mem_held.mp hmem
    rw [h.count_held hc]
    exact Nat.le_of_lt_succ c.starts.toNat_lt
  · rw [Multiset.count_eq_zero.mpr hmem]
    exact Nat.zero_le _

def Valid.starts (h : l.Valid) : Starts := ⟨l.held, h.count_le, h.distinct_le⟩

theorem Valid.full_of_not_mem (h : l.Valid) (hmem : clientID ∉ l.held) :
    h.starts.Full clientID ↔ ∀ c ∈ l.clients, c.starts ≠ 0 := by
  have hcount : l.held.count clientID ≠ maximumStarts.toNat := by
    rw [Multiset.count_eq_zero.mpr hmem]
    decide
  have herase : l.held.toFinset.erase clientID = l.held.toFinset :=
    Finset.erase_eq_of_notMem (by rwa [Multiset.mem_toFinset])
  have hfull : h.starts.Full clientID ↔
      l.clients.countP (·.starts.toNat ≠ 0) = l.clients.length := by
    simp only [BoundedMultiset.Full, Valid.starts, hcount, false_or, herase, h.distinct, h.length]
  rw [hfull, List.countP_eq_length]
  simp only [decide_eq_true_eq, starts_toNat]

/-- The scan of `start` finds no slot exactly if the bounded multiset has no room. -/
theorem Valid.start_refused (h : l.Valid) (clientID : UInt32) :
    (l.start clientID).1 = false ↔ h.starts.Full clientID := by
  rcases start_cases l clientID with ⟨i, c, hc, hmax, hs⟩ | ⟨i, c, hc, hmax, hs⟩ |
    ⟨hmem, i, c, hi, h₀, hs⟩ | ⟨hmem, hfull, hs⟩ <;> rw [hs]
  · refine iff_of_true rfl (.inl ?_)
    exact (h.count_held hc).trans (congrArg UInt32.toNat hmax)
  · refine iff_of_false (by simp) ?_
    rintro (hcount | hcard)
    · exact hmax (UInt32.toNat.inj ((h.count_held hc).symm.trans hcount))
    · have hmem : clientID ∈ l.held.toFinset :=
        Multiset.mem_toFinset.mpr (mem_held.mpr ⟨i, c, hc⟩)
      have hless := Finset.card_erase_lt_of_mem hmem
      have hle := h.distinct_le
      simp only [Valid.starts] at hcard
      omega
  · refine iff_of_false (by simp) fun hfull ↦ ?_
    exact (h.full_of_not_mem hmem).mp hfull c (List.mem_of_getElem? hi) h₀
  · exact iff_of_true rfl ((h.full_of_not_mem hmem).mpr hfull)

end AudioClientLifecycle

namespace AudioDeviceLifecycle

open AudioClientLifecycle (Counts Client)

def step (d : AudioDeviceLifecycle) : LifecycleOp → AudioIOTransition × AudioDeviceLifecycle
  | .startIo clientID => d.startIo clientID
  | .stopIo clientID => d.stopIo clientID
  | .removeClient clientID => d.removeClient clientID

def run (d : AudioDeviceLifecycle) : List LifecycleOp → List AudioIOTransition × AudioDeviceLifecycle
  | [] => ([], d)
  | op :: ops => ((d.step op).1 :: (run (d.step op).2 ops).1, (run (d.step op).2 ops).2)

/-- The slots hold the starts `m` and nothing else. -/
structure Represents (d : AudioDeviceLifecycle) (m : Starts) : Prop where
  valid : d.Valid
  held : d.held = m.elems

variable {d : AudioDeviceLifecycle} {m : Starts}

theorem Represents.starts (h : Represents d m) : AudioClientLifecycle.Valid.starts h.valid = m :=
  BoundedMultiset.ext h.held

theorem Represents.idle (h : Represents d m) : d.activeStarts = 0 ↔ m.elems = 0 := by
  rw [h.valid.activeStarts_eq_zero, h.held]

theorem Represents.startIo (h : Represents d m) (clientID : UInt32) :
    (d.startIo clientID).1 = (m.step (.startIo clientID)).1 ∧
      Represents (d.startIo clientID).2 (m.step (.startIo clientID)).2 := by
  have hrefused := AudioClientLifecycle.Valid.start_refused h.valid clientID
  rw [h.starts] at hrefused
  obtain ⟨hv, ⟨hf, hl⟩ | ⟨ht, -, hheld⟩⟩ := AudioClientLifecycle.Valid.start h.valid clientID
  · have hfull := hrefused.mp hf
    simp only [AudioDeviceLifecycle.startIo, hf, hl, Starts.step, dif_pos hfull, if_true]
    exact ⟨trivial, h⟩
  · have hfull : ¬ m.Full clientID := by
      rw [← hrefused, ht]
      decide
    have hidle : d.clients.activeStarts = 0 ↔ m.elems = 0 := h.idle
    simp only [AudioDeviceLifecycle.startIo, ht, Bool.true_eq_false, if_false, Starts.step,
      dif_neg hfull, hidle]
    exact ⟨trivial, hv, hheld.trans (congrArg (clientID ::ₘ ·) h.held)⟩

theorem stopped_represents {result : Bool × AudioClientLifecycle} {rest : Starts}
    (ht : result.1 = true) (h : Represents ⟨result.2⟩ rest) :
    (stopped result).1 = (Starts.ended rest).1 ∧ Represents (stopped result).2 rest := by
  have hidle : result.2.activeStarts = 0 ↔ rest.elems = 0 := h.idle
  simp only [stopped, ht, Bool.true_eq_false, if_false, hidle, Starts.ended]
  exact ⟨trivial, h⟩

theorem Represents.stopIo (h : Represents d m) (clientID : UInt32) :
    (d.stopIo clientID).1 = (m.step (.stopIo clientID)).1 ∧
      Represents (d.stopIo clientID).2 (m.step (.stopIo clientID)).2 := by
  have helems : d.clients.held = m.elems := h.held
  obtain ⟨hv, ⟨hmem, hs⟩ | ⟨ht, hheld⟩⟩ := AudioClientLifecycle.Valid.stop h.valid clientID
  · rw [helems] at hmem
    simp only [Starts.step, if_neg hmem, AudioDeviceLifecycle.stopIo, hs]
    exact ⟨rfl, h⟩
  · rw [helems] at hheld
    have hmem : clientID ∈ m.elems := hheld ▸ Multiset.mem_cons_self _ _
    simp only [Starts.step, if_pos hmem]
    refine stopped_represents ht ⟨hv, ?_⟩
    change (d.clients.stop clientID).2.held = m.elems.erase clientID
    rw [← hheld, Multiset.erase_cons_head]

theorem Represents.removeClient (h : Represents d m) (clientID : UInt32) :
    (d.removeClient clientID).1 = (m.step (.removeClient clientID)).1 ∧
      Represents (d.removeClient clientID).2 (m.step (.removeClient clientID)).2 := by
  have helems : d.clients.held = m.elems := h.held
  obtain ⟨hv, ⟨hmem, hs⟩ | ⟨hmem, ht, hheld⟩⟩ :=
    AudioClientLifecycle.Valid.removeClient h.valid clientID <;> rw [helems] at hmem
  · simp only [Starts.step, if_neg hmem, AudioDeviceLifecycle.removeClient, hs]
    exact ⟨rfl, h⟩
  · simp only [Starts.step, if_pos hmem]
    refine stopped_represents ht ⟨hv, ?_⟩
    exact hheld.trans (by rw [helems]; rfl)

/-- One call on the slots is one step of the bounded multiset. -/
theorem Represents.step (h : Represents d m) (op : LifecycleOp) :
    (d.step op).1 = (m.step op).1 ∧ Represents (d.step op).2 (m.step op).2 := by
  cases op with
  | startIo clientID => exact h.startIo clientID
  | stopIo clientID => exact h.stopIo clientID
  | removeClient clientID => exact h.removeClient clientID

theorem Represents.run (h : Represents d m) (ops : List LifecycleOp) :
    (d.run ops).1 = (m.run ops).1 ∧ Represents (d.run ops).2 (m.run ops).2 := by
  induction ops generalizing d m with
  | nil => exact ⟨rfl, h⟩
  | cons op ops ih =>
    obtain ⟨htransition, hnext⟩ := h.step op
    obtain ⟨htransitions, hlast⟩ := ih hnext
    exact ⟨congrArg₂ List.cons htransition htransitions, hlast⟩

theorem fresh_represents : Represents fresh .empty :=
  ⟨AudioClientLifecycle.valid_fresh, (AudioClientLifecycle.valid_fresh.activeStarts_eq_zero).mp rfl⟩

def mark : AudioIOTransition → Option Bool
  | .firstClientStarted => some true
  | .lastClientStopped => some false
  | _ => none

def active (m : Starts) : Bool := m.elems ≠ 0

theorem mark_ended {rest : Starts} (h : m.elems ≠ 0) :
    mark (Starts.ended rest).1 = edge (active m) (active rest) := by
  by_cases hrest : rest.elems = 0
  · simp [Starts.ended, hrest, mark, edge, h, active]
  · simp [Starts.ended, hrest, mark, edge, h, active]

theorem mark_step (m : Starts) (op : LifecycleOp) :
    mark (m.step op).1 = edge (active m) (active (m.step op).2) := by
  have hsome {clientID : UInt32} (h : clientID ∈ m.elems) : m.elems ≠ 0 :=
    fun h₀ ↦ Multiset.notMem_zero clientID (h₀ ▸ h)
  cases op with
  | startIo clientID =>
    by_cases hfull : m.Full clientID
    · simp [Starts.step, hfull, mark, edge]
    · have hnew : (m.add clientID hfull).elems ≠ 0 := Multiset.cons_ne_zero
      by_cases h₀ : m.elems = 0
      · simp [Starts.step, hfull, mark, edge, hnew, h₀, active]
      · simp [Starts.step, hfull, mark, edge, hnew, h₀, active]
  | stopIo clientID =>
    by_cases hmem : clientID ∈ m.elems
    · simp only [Starts.step, if_pos hmem]
      exact mark_ended (hsome hmem)
    · simp [Starts.step, hmem, mark, edge]
  | removeClient clientID =>
    by_cases hmem : clientID ∈ m.elems
    · simp only [Starts.step, if_pos hmem]
      exact mark_ended (hsome hmem)
    · simp [Starts.step, hmem, mark, edge]

theorem marks_alternate (m : Starts) (ops : List LifecycleOp) :
    Alternates (!active m) ((m.run ops).1.filterMap mark) := by
  induction ops generalizing m with
  | nil => trivial
  | cons op ops ih =>
    have hcons : (m.run (op :: ops)).1.filterMap mark =
        (edge (active m) (active (m.step op).2)).toList ++
          ((m.step op).2.run ops).1.filterMap mark := by
      rw [← mark_step, Starts.run, List.filterMap_cons]
      cases mark (m.step op).1 <;> rfl
    rw [hcons]
    exact alternates_edge (ih _)

def Refused (transition : AudioIOTransition) : Prop :=
  transition = .rejected ∨ transition = .clientNotActive

/-- What the slots, the total and the results of calls owe to the starts `m`. -/
structure Implements (d : AudioDeviceLifecycle) (m : Starts) : Prop where
  slot_unique : ∀ clientID i j c e, d.clients.Counts clientID i c → d.clients.Counts clientID j e →
    i = j
  slot_count : ∀ clientID i c, d.clients.Counts clientID i c → m.elems.count clientID = c.starts.toNat
  slot_exists : ∀ clientID, clientID ∈ m.elems ↔ ∃ i c, d.clients.Counts clientID i c
  total : d.activeStarts.toNat = m.elems.card
  rejected : ∀ clientID, (d.startIo clientID).1 = .rejected ↔
    m.elems.count clientID = 2 ^ 32 - 1 ∨ (m.elems.toFinset.erase clientID).card = 64
  stopNotActive : ∀ clientID, (d.stopIo clientID).1 = .clientNotActive ↔ clientID ∉ m.elems
  removeNotActive : ∀ clientID, (d.removeClient clientID).1 = .clientNotActive ↔ clientID ∉ m.elems
  unchanged : ∀ op, Refused (d.step op).1 → (d.step op).2 = d
  last : ∀ op, (d.step op).1 = .lastClientStopped ↔
    d.activeStarts ≠ 0 ∧ (d.step op).2.activeStarts = 0

theorem ended_ne (rest : Starts) :
    (Starts.ended rest).1 ≠ .rejected ∧ (Starts.ended rest).1 ≠ .clientNotActive := by
  by_cases hrest : rest.elems = 0
  · simp [Starts.ended, hrest]
  · simp [Starts.ended, hrest]

theorem step_rejected (m : Starts) (clientID : UInt32) :
    (m.step (.startIo clientID)).1 = .rejected ↔ m.Full clientID := by
  by_cases hfull : m.Full clientID
  · simp [Starts.step, hfull]
  · by_cases h₀ : m.elems = 0
    · simp [Starts.step, hfull, h₀]
    · simp [Starts.step, hfull, h₀]

theorem step_notActive (m : Starts) (clientID : UInt32) :
    ((m.step (.stopIo clientID)).1 = .clientNotActive ↔ clientID ∉ m.elems) ∧
      ((m.step (.removeClient clientID)).1 = .clientNotActive ↔ clientID ∉ m.elems) := by
  by_cases hmem : clientID ∈ m.elems
  · simp [Starts.step, hmem, ended_ne]
  · simp [Starts.step, hmem]

theorem Valid.unchanged (h : d.Valid) (op : LifecycleOp) (hr : Refused (d.step op).1) :
    (d.step op).2 = d := by
  have hstopped (result : Bool × AudioClientLifecycle) (ht : result.1 = true) :
      ¬ Refused (stopped result).1 := by
    simp only [stopped, ht, Bool.true_eq_false, if_false]
    split_ifs <;> simp [Refused]
  cases op with
  | startIo clientID =>
    obtain ⟨-, ⟨-, hsame⟩ | ⟨hne, -⟩⟩ := h.startIo clientID
    · exact hsame
    · refine absurd hr ?_
      have hstart : (d.startIo clientID).1 ≠ .clientNotActive := by
        unfold AudioDeviceLifecycle.startIo
        simp only
        split_ifs <;> simp
      exact not_or.mpr ⟨hne, hstart⟩
  | stopIo clientID =>
    obtain ⟨-, ⟨-, hsame⟩ | ⟨ht, -⟩⟩ := AudioClientLifecycle.Valid.stop h clientID
    · simp only [AudioDeviceLifecycle.step, AudioDeviceLifecycle.stopIo, stopped_snd, hsame]
    · exact absurd hr (hstopped _ ht)
  | removeClient clientID =>
    obtain ⟨-, ⟨-, hsame⟩ | ⟨-, ht, -⟩⟩ := AudioClientLifecycle.Valid.removeClient h clientID
    · simp only [AudioDeviceLifecycle.step, AudioDeviceLifecycle.removeClient, stopped_snd, hsame]
    · exact absurd hr (hstopped _ ht)

theorem Represents.last (h : Represents d m) (op : LifecycleOp) :
    (d.step op).1 = .lastClientStopped ↔ d.activeStarts ≠ 0 ∧ (d.step op).2.activeStarts = 0 := by
  obtain ⟨htransition, hnext⟩ := h.step op
  have hmark : (m.step op).1 = .lastClientStopped ↔ mark (m.step op).1 = some false := by
    cases (m.step op).1 <;> simp [mark]
  rw [htransition, hmark, mark_step, ne_eq, h.idle, hnext.idle]
  by_cases h₀ : m.elems = 0 <;> by_cases h₁ : (m.step op).2.elems = 0 <;>
    simp [edge, active, h₀, h₁]

theorem Represents.implements (h : Represents d m) : Implements d m where
  slot_unique _ _ _ _ _ hc he := (AudioClientLifecycle.Valid.counts_inj h.valid hc he).symm
  slot_count _ _ _ hc := h.held ▸ AudioClientLifecycle.Valid.count_held h.valid hc
  slot_exists _ := h.held ▸ AudioClientLifecycle.mem_held
  total := h.held ▸ AudioClientLifecycle.Valid.total h.valid
  rejected clientID := (h.startIo clientID).1 ▸ step_rejected m clientID
  stopNotActive clientID := (h.stopIo clientID).1 ▸ (step_notActive m clientID).1
  removeNotActive clientID := (h.removeClient clientID).1 ▸ (step_notActive m clientID).2
  unchanged := Valid.unchanged h.valid
  last := h.last

/-- Whatever is called, the sixty-four slots implement the bounded multiset of
starts, and first starts and last stops take turns. -/
theorem implements_of_run (ops : List LifecycleOp) :
    (fresh.run ops).1 = (Starts.run .empty ops).1 ∧
      Implements (fresh.run ops).2 (Starts.run .empty ops).2 ∧
      Alternates true ((fresh.run ops).1.filterMap mark) := by
  obtain ⟨htransitions, hrep⟩ := fresh_represents.run ops
  exact ⟨htransitions, hrep.implements, htransitions ▸ marks_alternate .empty ops⟩

example : (fresh.run [.startIo 0, .startIo 7, .stopIo 0, .stopIo 0, .removeClient 7, .startIo 7]).1 =
    [.firstClientStarted, .additionalClientStarted, .clientStoppedStillActive, .clientNotActive,
      .lastClientStopped, .firstClientStarted] := by decide

end AudioDeviceLifecycle

end NumarkNS6.CoreAudio
