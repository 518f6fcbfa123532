import NumarkNS6.AudioOut.ReferenceScheduler
import Mathlib.Algebra.Ring.Nat

namespace NumarkNS6.AudioOut

open AudioFeedbackPatternPolicy AudioPacketPolicy Foundation.CircularTable

/-- The packets of a millisecond as the device can take them. -/
def LegalMillisecond (packets : List UInt8) : Prop :=
  packets.length = packetsPerMillisecond ∧ (∀ v ∈ packets, v = 5 ∨ v = 6) ∧
    42 ≤ (packets.map UInt8.toNat).sum ∧ (packets.map UInt8.toNat).sum ≤ 46

instance : DecidablePred LegalMillisecond := fun packets ↦
  have : Decidable (∀ v ∈ packets, v = 5 ∨ v = 6) := List.decidableBAll _ packets
  inferInstanceAs (Decidable (_ ∧ _ ∧ _ ∧ _))

theorem patterns_legal : ∀ selected ∈ patterns, LegalMillisecond selected.cells := by
  have hall : ∀ cells ∈ patterns.map (·.cells), LegalMillisecond cells := by decide
  exact fun selected h ↦ hall _ (List.mem_map_of_mem h)

namespace ReferenceScheduler

theorem pattern_legal {v : UInt8} (h : 42 ≤ v ∧ v ≤ 46) : LegalMillisecond (pattern v) := by
  obtain ⟨selected, hbuild, hcells⟩ := build_inRange h
  rw [hcells]
  unfold build at hbuild
  split at hbuild
  · cases hbuild
  · exact patterns_legal selected (List.mem_of_getElem? hbuild)

theorem initialBlock_legal : ∀ k < 16, LegalMillisecond (initialBlock k) := by decide

variable {s : ReferenceScheduler}

theorem predicted_legal {driven : List (List UInt8)} (h : ∀ b ∈ driven, LegalMillisecond b) :
    LegalMillisecond (predicted driven) := by
  rw [predicted]
  split
  · next hlong =>
    have hlt : driven.length - 16 < driven.length := by omega
    rw [List.getD_eq_getElem?_getD, List.getElem?_eq_getElem hlt]
    exact h _ (List.getElem_mem hlt)
  · next hshort => exact initialBlock_legal _ (Nat.not_le.mp hshort)

/-- Whatever waits, the next millisecond is a legal one. -/
theorem millisecond_legal (ht : ∀ t ∈ s.waiting, t.InRange)
    (hd : ∀ b ∈ s.driven, LegalMillisecond b) :
    LegalMillisecond s.millisecond.1 ∧ ∀ b ∈ s.millisecond.2.driven, LegalMillisecond b := by
  cases hw : s.waiting with
  | nil =>
    rw [millisecond_nil hw]
    refine ⟨pattern_legal ?_, hd⟩
    split <;> decide
  | cons t w =>
    rw [millisecond_cons hw]
    have hdrive {packets : List UInt8} (hp : LegalMillisecond packets) :
        ∀ b ∈ s.driven ++ [packets], LegalMillisecond b :=
      List.forall_mem_append.mpr ⟨hd, List.forall_mem_singleton.mpr hp⟩
    cases t with
    | valid v =>
      have hp := pattern_legal (ht (.valid v) (hw ▸ List.mem_cons_self))
      exact ⟨hp, hdrive hp⟩
    | invalid => exact ⟨predicted_legal hd, hdrive (predicted_legal hd)⟩

def take : ℕ → ReferenceScheduler → List ℕ × ReferenceScheduler
  | 0, s => ([], s)
  | n + 1, s =>
    let r := take n s.nextPacket.2
    (s.nextPacket.1.toNat :: r.1, r.2)

theorem take_rest (packets : List UInt8) (s : ReferenceScheduler) (h : s.rest = packets) :
    take packets.length s = (packets.map UInt8.toNat, { s with rest := [] }) := by
  induction packets generalizing s with
  | nil =>
    cases s
    cases h
    rfl
  | cons v packets ih =>
    have hnext : s.nextPacket = (v.toUInt32, { s with rest := packets }) := by
      rw [nextPacket, h]
    rw [List.length_cons, take, hnext, ih _ rfl]
    rfl

theorem take_millisecond (h : s.rest = []) (hlen : s.millisecond.1.length = packetsPerMillisecond) :
    take packetsPerMillisecond s =
      (s.millisecond.1.map UInt8.toNat, { s.millisecond.2 with rest := [] }) := by
  rw [← hlen]
  cases hm : s.millisecond.1 with
  | nil => rw [hm] at hlen; cases hlen
  | cons v packets =>
    have hnext : s.nextPacket = (v.toUInt32, { s.millisecond.2 with rest := packets }) := by
      rw [nextPacket, h]
      simp only [hm, List.headD_cons, List.tail_cons]
    rw [List.length_cons, take, hnext, take_rest packets _ rfl]
    rfl

end ReferenceScheduler

namespace AudioPacketPolicy

open ReferenceScheduler (Simulates)

def packetFrames : ℕ → AudioPacketPolicy → List ℕ × AudioPacketPolicy
  | 0, p => ([], p)
  | n + 1, p =>
    let r := packetFrames n p.nextPacketFrames.2
    (p.nextPacketFrames.1.toNat :: r.1, r.2)

theorem packetFrames_add (m n : ℕ) (p : AudioPacketPolicy) :
    packetFrames (m + n) p = ((packetFrames m p).1 ++ (packetFrames n (packetFrames m p).2).1,
      (packetFrames n (packetFrames m p).2).2) := by
  induction m generalizing p with
  | zero => rw [Nat.zero_add]; rfl
  | succ m ih => rw [Nat.succ_add, packetFrames, ih]; rfl

variable {p : AudioPacketPolicy} {s : ReferenceScheduler}

theorem simulates_packetFrames (h : Simulates p s) (n : ℕ) :
    (packetFrames n p).1 = (s.take n).1 ∧ Simulates (packetFrames n p).2 (s.take n).2 := by
  induction n generalizing p s with
  | zero => exact ⟨rfl, h⟩
  | succ n ih =>
    obtain ⟨hout, hnext⟩ := h.nextPacket
    obtain ⟨hrest, hlast⟩ := ih hnext
    rw [packetFrames, ReferenceScheduler.take, hout, hrest]
    exact ⟨rfl, hlast⟩

/-- A policy between two milliseconds, with nothing but legal ones in its history. -/
def Ready (p : AudioPacketPolicy) : Prop :=
  ∃ s, Simulates p s ∧ s.rest = [] ∧ ∀ b ∈ s.driven, LegalMillisecond b

theorem make_ready : Ready (make 44100 8000) :=
  ⟨.initial, ReferenceScheduler.make_simulates, rfl, nofun⟩

theorem Ready.observe (h : Ready p) (op : ReferenceScheduler.Op)
    (hop : op ≠ .nextPacketFrames) : Ready (ReferenceScheduler.policyStep p op).2 := by
  obtain ⟨s, hs, hrest, hdriven⟩ := h
  refine ⟨(s.step op).2, (hs.step op).2, ?_⟩
  cases op with
  | observeFeedback v =>
    simp only [ReferenceScheduler.step]
    split
    · exact ⟨hrest, hdriven⟩
    · exact ⟨hrest, hdriven⟩
  | observeInvalidFeedback => exact ⟨hrest, hdriven⟩
  | nextPacketFrames => exact absurd rfl hop

theorem Ready.millisecond (h : Ready p) :
    ∃ packets, LegalMillisecond packets ∧
      (packetFrames packetsPerMillisecond p).1 = packets.map UInt8.toNat ∧
      Ready (packetFrames packetsPerMillisecond p).2 := by
  obtain ⟨s, hs, hrest, hdriven⟩ := h
  obtain ⟨hlegal, hdriven'⟩ := ReferenceScheduler.millisecond_legal hs.follows.tokens hdriven
  have htake := ReferenceScheduler.take_millisecond hrest hlegal.1
  obtain ⟨hframes, hlast⟩ := simulates_packetFrames hs packetsPerMillisecond
  rw [htake] at hframes hlast
  exact ⟨_, hlegal, hframes, _, hlast, rfl, hdriven'⟩

theorem Ready.milliseconds (h : Ready p) (n : ℕ) :
    ∃ blocks : List (List UInt8), blocks.length = n ∧ (∀ b ∈ blocks, LegalMillisecond b) ∧
      (packetFrames (packetsPerMillisecond * n) p).1 = blocks.flatten.map UInt8.toNat ∧
      Ready (packetFrames (packetsPerMillisecond * n) p).2 := by
  induction n generalizing p with
  | zero => exact ⟨[], rfl, nofun, rfl, h⟩
  | succ n ih =>
    obtain ⟨packets, hlegal, hframes, hready⟩ := h.millisecond
    obtain ⟨blocks, hlen, hblocks, hrest, hlast⟩ := ih hready
    have hsplit : packetsPerMillisecond * (n + 1) =
        packetsPerMillisecond + packetsPerMillisecond * n := by
      rw [Nat.mul_succ, Nat.add_comm]
    rw [hsplit, packetFrames_add, hframes, hrest, ← List.map_append]
    exact ⟨packets :: blocks, by rw [List.length_cons, hlen],
      List.forall_mem_cons.mpr ⟨hlegal, hblocks⟩, rfl, hlast⟩

end AudioPacketPolicy

end NumarkNS6.AudioOut
