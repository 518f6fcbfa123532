import NumarkNS6.AudioOut.PacketSizes
import Mathlib.Algebra.Order.Field.Rat
import Mathlib.Tactic.Linarith

namespace NumarkNS6.AudioOut.AudioPacketPolicy

open AudioFeedbackPatternPolicy
open ReferenceScheduler (Simulates pattern)

def totalFrames (n : ℕ) (p : AudioPacketPolicy) : ℕ := (packetFrames n p).1.sum

theorem totalFrames_add (m n : ℕ) (p : AudioPacketPolicy) :
    totalFrames (m + n) p = totalFrames m p + totalFrames n (packetFrames m p).2 := by
  rw [totalFrames, packetFrames_add, List.sum_append]
  rfl

theorem packetFrames_add_snd (m n : ℕ) (p : AudioPacketPolicy) :
    (packetFrames (m + n) p).2 = (packetFrames n (packetFrames m p).2).2 := by
  rw [packetFrames_add]

section Accumulator

/-! Service rates other than 8000: the remainder of the division is carried from
packet to packet. -/

/-- A policy that has been asked for `due` frames times the service rate. -/
structure Paced (p : AudioPacketPolicy) (rate service due : ℕ) : Prop where
  service_eq : p.serviceIntervalsPerSecond.toNat = service
  positive : 0 < service
  other : service ≠ 8000
  whole : p.wholeFrames.toNat = rate / service
  remainder : p.remainderFrames.toNat = rate % service
  fits : rate < 2 ^ 32
  phase : p.phase.toNat = due % service

variable {p : AudioPacketPolicy} {rate service due : ℕ}

theorem Paced.nextPacketFrames (h : Paced p rate service due) :
    due / service + p.nextPacketFrames.1.toNat = (due + rate) / service ∧
      Paced p.nextPacketFrames.2 rate service (due + rate) := by
  have hservice := h.service_eq
  have hlt : service < 2 ^ 32 := hservice ▸ p.serviceIntervalsPerSecond.toNat_lt
  have hphase : p.phase.toNat < service := h.phase ▸ Nat.mod_lt _ h.positive
  have hrem : p.remainderFrames.toNat < service := h.remainder ▸ Nat.mod_lt _ h.positive
  have hother : p.serviceIntervalsPerSecond ≠ 8000 := by
    intro he
    rw [he] at hservice
    exact h.other hservice.symm
  have hsum : (p.phase + p.remainderFrames.toUInt64).toNat = due % service + rate % service := by
    rw [UInt64.toNat_add, UInt32.toNat_toUInt64, Nat.mod_eq_of_lt (by omega), h.phase, h.remainder]
  have hcarry : p.phase + p.remainderFrames.toUInt64 ≥ p.serviceIntervalsPerSecond.toUInt64 ↔
      service ≤ due % service + rate % service := by
    rw [ge_iff_le, UInt64.le_iff_toNat_le, hsum, UInt32.toNat_toUInt64, hservice]
  have hquotient := Nat.add_div (a := due) (b := rate) h.positive
  have hmod := Nat.mod_lt due h.positive
  have hmod' := Nat.mod_lt rate h.positive
  have hnext := Nat.add_mod_eq_ite (k := service) (m := due) (n := rate)
  rw [AudioPacketPolicy.nextPacketFrames, if_neg hother]
  dsimp only
  by_cases hdue : service ≤ due % service + rate % service
  · rw [if_pos (hcarry.mpr hdue)]
    rw [if_pos hdue] at hquotient
    have htwo : 2 ≤ service := by omega
    have hhalf : rate / service ≤ rate / 2 := Nat.div_le_div_left htwo (by decide)
    have hfits := h.fits
    have hone : (p.wholeFrames + 1).toNat = rate / service + 1 := by
      rw [UInt32.toNat_add, h.whole]
      exact Nat.mod_eq_of_lt (by change rate / service + 1 < 2 ^ 32; omega)
    refine ⟨by rw [hone, hquotient, Nat.add_assoc], { h with phase := ?_ }⟩
    have hphase' : (p.phase + p.remainderFrames.toUInt64 -
        p.serviceIntervalsPerSecond.toUInt64).toNat = due % service + rate % service - service := by
      rw [UInt64.toNat_sub_of_le _ _ (hcarry.mpr hdue), hsum, UInt32.toNat_toUInt64, hservice]
    rw [hphase', hnext, if_pos hdue]
  · rw [if_neg (fun hge ↦ hdue (hcarry.mp hge))]
    rw [if_neg hdue, Nat.add_zero] at hquotient
    refine ⟨by rw [h.whole, hquotient], { h with phase := ?_ }⟩
    rw [hsum, hnext, if_neg hdue]

theorem Paced.total (h : Paced p rate service due) (n : ℕ) :
    due / service + totalFrames n p = (due + n * rate) / service := by
  induction n generalizing p due with
  | zero => simp [totalFrames, packetFrames]
  | succ n ih =>
    obtain ⟨hpacket, hnext⟩ := h.nextPacketFrames
    have hrest := ih hnext
    rw [Nat.add_assoc due, Nat.add_comm rate, ← Nat.succ_mul] at hrest
    rw [← hrest, ← hpacket, Nat.add_assoc]
    rfl

theorem make_paced {sampleRateHz serviceIntervalsPerSecond : UInt32}
    (hservice : serviceIntervalsPerSecond ≠ 0) (hother : serviceIntervalsPerSecond ≠ 8000) :
    Paced (make sampleRateHz serviceIntervalsPerSecond) sampleRateHz.toNat
      serviceIntervalsPerSecond.toNat 0 where
  service_eq := rfl
  positive := Nat.pos_of_ne_zero fun h ↦ hservice (UInt32.toNat_inj.mp h)
  other h := hother (UInt32.toNat_inj.mp h)
  whole := UInt32.toNat_div _ _
  remainder := UInt32.toNat_mod _ _
  fits := sampleRateHz.toNat_lt
  phase := (Nat.zero_mod _).symm

end Accumulator

section Nominal

/-! 8000 service intervals and no feedback: patterns of 44 frames, and of 45 in
every tenth millisecond. -/

/-- Between two milliseconds, after `k` of them and with no feedback waiting. -/
def Nominal (p : AudioPacketPolicy) (k : ℕ) : Prop :=
  ∃ s, Simulates p s ∧ s.waiting = [] ∧ s.rest = [] ∧ s.nominal = k

def nominalPackets (k : ℕ) : List ℕ :=
  (pattern (if (k + 1) % 10 = 0 then 45 else 44)).map UInt8.toNat

variable {p : AudioPacketPolicy} {k : ℕ}

theorem make_nominal : Nominal (make 44100 8000) 0 :=
  ⟨.initial, ReferenceScheduler.make_simulates, rfl, rfl, rfl⟩

theorem Nominal.millisecond (h : Nominal p k) :
    (packetFrames packetsPerMillisecond p).1 = nominalPackets k ∧
      Nominal (packetFrames packetsPerMillisecond p).2 (k + 1) := by
  obtain ⟨s, hs, hwaiting, hrest, rfl⟩ := h
  have hms := ReferenceScheduler.millisecond_nil hwaiting
  have hlen : s.millisecond.1.length = packetsPerMillisecond := by
    rw [hms]
    split <;> rfl
  obtain ⟨hpackets, hnext⟩ := simulates_packetFrames hs packetsPerMillisecond
  rw [ReferenceScheduler.take_millisecond hrest hlen, hms] at hpackets hnext
  exact ⟨hpackets, _, hnext, hwaiting, rfl, rfl⟩

theorem nominalPackets_sum (k : ℕ) :
    (nominalPackets k).sum + k / 10 = 44 + (k + 1) / 10 := by
  unfold nominalPackets
  split_ifs with h
  · rw [show ((pattern 45).map UInt8.toNat).sum = 45 by decide]
    omega
  · rw [show ((pattern 44).map UInt8.toNat).sum = 44 by decide]
    omega

theorem packetFrames_length (n : ℕ) (p : AudioPacketPolicy) : (packetFrames n p).1.length = n := by
  induction n generalizing p with
  | zero => rfl
  | succ n ih => rw [packetFrames, List.length_cons, ih]

theorem Nominal.totalFrames_lt (h : Nominal p k) {j : ℕ} (hj : j ≤ packetsPerMillisecond) :
    totalFrames j p = ((nominalPackets k).take j).sum := by
  have hsplit := packetFrames_add j (packetsPerMillisecond - j) p
  rw [Nat.add_sub_cancel' hj] at hsplit
  have hlist := congrArg Prod.fst hsplit
  rw [h.millisecond.1] at hlist
  have hlen := packetFrames_length j p
  rw [hlist, totalFrames, List.take_left' hlen]

theorem Nominal.milliseconds (h : Nominal p 0) (k : ℕ) :
    totalFrames (packetsPerMillisecond * k) p = 44 * k + k / 10 ∧
      Nominal (packetFrames (packetsPerMillisecond * k) p).2 k := by
  induction k with
  | zero =>
    rw [Nat.mul_zero, totalFrames, packetFrames]
    exact ⟨by simp, h⟩
  | succ k ih =>
    obtain ⟨htotal, hboundary⟩ := ih
    obtain ⟨hpackets, hnext⟩ := hboundary.millisecond
    have hsum := nominalPackets_sum k
    rw [Nat.mul_succ, totalFrames_add, htotal, packetFrames_add_snd]
    refine ⟨?_, hnext⟩
    rw [totalFrames, hpackets]
    omega

/-- Inside a millisecond the packets stay as close to the rate as at its end. -/
theorem nominal_drift : ∀ r < 10, ∀ j < 8,
    8000 * (r * 44 + ((nominalPackets r).take j).sum) < 44100 * (8 * r + j) + 8000 ∧
      44100 * (8 * r + j) < 8000 * (r * 44 + ((nominalPackets r).take j).sum) + 8000 := by
  decide

theorem nominalPackets_mod (k : ℕ) : nominalPackets k = nominalPackets (k % 10) := by
  have h : (k + 1) % 10 = (k % 10 + 1) % 10 := by omega
  rw [nominalPackets, nominalPackets, h]

theorem Nominal.drift (h : Nominal p 0) (n : ℕ) :
    8000 * totalFrames n p < 44100 * n + 8000 ∧ 44100 * n < 8000 * totalFrames n p + 8000 := by
  obtain ⟨htotal, hboundary⟩ := h.milliseconds (n / 8)
  have hrest : n % 8 < 8 := Nat.mod_lt n (by decide)
  have hsplit : totalFrames n p =
      44 * (n / 8) + n / 8 / 10 + ((nominalPackets (n / 8 % 10)).take (n % 8)).sum := by
    nth_rewrite 1 [← Nat.div_add_mod n 8]
    rw [totalFrames_add, ← nominalPackets_mod]
    exact congrArg₂ _ htotal (hboundary.totalFrames_lt hrest.le)
  have hdrift := nominal_drift (n / 8 % 10) (Nat.mod_lt _ (by decide)) (n % 8) hrest
  rw [hsplit]
  omega

end Nominal

/-- Packet sizes add up without drift: exactly to the floor of the elapsed time
times the rate at any service rate but 8000, and to less than a frame off it at
8000, where whole milliseconds are exact. -/
theorem packet_totals :
    (∀ (sampleRateHz serviceIntervalsPerSecond : UInt32) (p : AudioPacketPolicy),
      construct sampleRateHz serviceIntervalsPerSecond = .ok p → serviceIntervalsPerSecond ≠ 8000 →
      ∀ n, totalFrames n p = n * sampleRateHz.toNat / serviceIntervalsPerSecond.toNat) ∧
    ∀ p, construct 44100 8000 = .ok p →
      (∀ n : ℕ, |(totalFrames n p : ℚ) - n * 44100 / 8000| < 1) ∧
      ∀ k, totalFrames (8 * k) p = 8 * k * 44100 / 8000 := by
  constructor
  · intro sampleRateHz serviceIntervalsPerSecond p h hother n
    obtain ⟨-, hservice, rfl⟩ := construct_eq h
    have htotal := (@make_paced sampleRateHz _ hservice hother).total n
    rwa [Nat.zero_div, Nat.zero_add, Nat.zero_add] at htotal
  · intro p h
    obtain ⟨-, -, rfl⟩ := construct_eq h
    constructor
    · intro n
      obtain ⟨habove, hbelow⟩ := make_nominal.drift n
      have habove' : (8000 * totalFrames n (make 44100 8000) : ℚ) < 44100 * n + 8000 := by
        exact_mod_cast habove
      have hbelow' : (44100 * n : ℚ) < 8000 * totalFrames n (make 44100 8000) + 8000 := by
        exact_mod_cast hbelow
      rw [abs_lt]
      constructor <;> linarith
    · intro k
      have htotal := (make_nominal.milliseconds k).1
      rw [packetsPerMillisecond] at htotal
      rw [htotal]
      omega

theorem packet_totals_ten_milliseconds :
    construct 44100 1000 = .ok (make 44100 1000) ∧ totalFrames 10 (make 44100 1000) = 441 ∧
      construct 44100 8000 = .ok (make 44100 8000) ∧ totalFrames 80 (make 44100 8000) = 441 :=
  ⟨rfl, packet_totals.1 44100 1000 _ rfl (by decide) 10, rfl, (packet_totals.2 _ rfl).2 10⟩

end NumarkNS6.AudioOut.AudioPacketPolicy
