import NumarkNS6.Midi.MIDIUserSessionBridge

namespace NumarkNS6.Midi.MIDIUserSessionBridge

open Foundation.CircularStore

/-- The bytes of a packet: complete channel messages and SysEx messages, the first
of which may have been opened before and the last of which may be left open. The
flags tell whether a SysEx is open before and after the packet. -/
inductive Conforms : Bool → List UInt8 → Bool → Prop
  | nil (inside : Bool) : Conforms inside [] inside
  | message {m rest : List UInt8} {after : Bool} :
      IsMessage m → Conforms false rest after → Conforms false (m ++ rest) after
  | sysEx {rest : List UInt8} {after : Bool} :
      Conforms true rest after → Conforms false (0xf0 :: rest) after
  | data {d : UInt8} {rest : List UInt8} {after : Bool} :
      d < 0x80 → Conforms true rest after → Conforms true (d :: rest) after
  | endOfSysEx {rest : List UInt8} {after : Bool} :
      Conforms false rest after → Conforms true (0xf7 :: rest) after

/-- A packet list as CoreMIDI delivers it: a SysEx may go on over the packets that
follow, and ends within the list. -/
inductive Delivered : Bool → List (List UInt8) → Prop
  | nil : Delivered false []
  | cons {before after : Bool} {packet : List UInt8} {list : List (List UInt8)} :
      Conforms before packet after → Delivered after list → Delivered before (packet :: list)

def SelfContained (packet : List UInt8) : Prop := Conforms false packet false

namespace Sender

def accepted (s : Sender) : List UInt8 := s.datagrams.flatten ++ s.report.take s.used

structure Sized (s : Sender) : Prop where
  storage : s.report.length = reportBytes
  used : s.used ≤ reportBytes
  datagrams : ∀ d ∈ s.datagrams, 1 ≤ d.length ∧ d.length ≤ reportBytes

structure Takes (s : Sender) (bytes : List UInt8) (s' : Sender) : Prop where
  sized : s'.Sized
  accepted : s'.accepted = s.accepted ++ bytes

variable {s s' s'' : Sender} {xs ys : List UInt8} (sendto : ℕ → ℤ)

theorem Sized.refl (h : s.Sized) : s.Takes [] s := ⟨h, (List.append_nil _).symm⟩

theorem Takes.trans (h : s.Takes xs s') (h' : s'.Takes ys s'') : s.Takes (xs ++ ys) s'' :=
  ⟨h'.sized, by rw [h'.accepted, h.accepted, List.append_assoc]⟩

theorem sendToDriver_frame (bytes : List UInt8) (s : Sender) :
    (s.sendToDriver sendto bytes).report = s.report ∧
      (s.sendToDriver sendto bytes).used = s.used ∧
      (s.sendToDriver sendto bytes).datagrams.flatten = s.datagrams.flatten ++ bytes := by
  rw [sendToDriver]
  split
  · next hempty =>
    rw [List.length_eq_zero_iff.mp hempty, List.append_nil]
    exact ⟨rfl, rfl, rfl⟩
  · exact ⟨rfl, rfl, by simp⟩

theorem Sized.sendToDriver (h : s.Sized) {bytes : List UInt8} (hle : bytes.length ≤ reportBytes) :
    (s.sendToDriver sendto bytes).Sized := by
  obtain ⟨hreport, hused, -⟩ := sendToDriver_frame sendto bytes s
  refine ⟨hreport ▸ h.storage, hused ▸ h.used, ?_⟩
  rw [Sender.sendToDriver]
  split
  · exact h.datagrams
  · next hne =>
    exact List.forall_mem_append.mpr
      ⟨h.datagrams, List.forall_mem_singleton.mpr ⟨Nat.pos_of_ne_zero hne, hle⟩⟩

theorem Sized.flush (h : s.Sized) : s.Takes [] (s.flush sendto) := by
  have hsized : (s.sendReport sendto).Sized := 
    h.sendToDriver sendto ((List.length_take_le' _ _).trans h.storage.le)
  obtain ⟨-, -, hdatagrams⟩ := sendToDriver_frame sendto (s.report.take s.used) s
  refine ⟨⟨hsized.storage, Nat.zero_le _, hsized.datagrams⟩, ?_⟩
  rw [List.append_nil]
  exact (List.append_nil _).trans hdatagrams

theorem Sized.parts (h : s.Sized) (hempty : s.used = 0) (remaining : List UInt8) (count : ℕ) :
    s.Takes (remaining.take (count * reportBytes)) ((List.range count).foldl
      (fun s part ↦ s.sendToDriver sendto (slice remaining (part * reportBytes) reportBytes)) s) ∧
    ((List.range count).foldl
      (fun s part ↦ s.sendToDriver sendto (slice remaining (part * reportBytes) reportBytes)) s).used
      = 0 := by
  induction count with
  | zero => simpa using ⟨h.refl, hempty⟩
  | succ count ih =>
    rw [List.range_succ, List.foldl_append, List.foldl_cons, List.foldl_nil]
    generalize (List.range count).foldl _ s = t at ih ⊢
    obtain ⟨hreport, hused, hdatagrams⟩ := sendToDriver_frame sendto
      (slice remaining (count * reportBytes) reportBytes) t
    refine ⟨⟨ih.1.sized.sendToDriver sendto (List.length_take_le _ _), ?_⟩, hused.trans ih.2⟩
    have htaken := ih.1.accepted
    simp only [accepted, hused, ih.2, hempty, List.take_zero, List.append_nil] at htaken ⊢
    rw [hdatagrams, htaken, List.append_assoc, slice, Nat.succ_mul, List.take_add]

theorem Sized.sendParts (h : s.Sized) (hempty : s.used = 0) (remaining : List UInt8) :
    s.Takes remaining (s.sendParts sendto remaining) := by
  have hparts := (h.parts sendto hempty remaining
    ((remaining.length + (reportBytes - 1)) / reportBytes)).1
  have hall : remaining.length ≤
      (remaining.length + (reportBytes - 1)) / reportBytes * reportBytes := by
    simp only [reportBytes]
    omega
  rwa [List.take_of_length_le hall] at hparts

theorem Sized.append (h : s.Sized) (hroom : s.used + xs.length ≤ reportBytes) :
    s.Takes xs { s with report := splice s.report s.used xs, used := s.used + xs.length } := by
  refine ⟨⟨?_, hroom, h.datagrams⟩, ?_⟩
  · exact (splice_length (by rw [h.storage]; exact hroom)).trans h.storage
  · rw [accepted, accepted, take_splice (h.used.trans_eq h.storage.symm), List.append_assoc]

theorem Sized.put (h : s.Sized) (hle : xs.length ≤ reportBytes) : s.Takes xs (s.put sendto xs) := by
  rw [Sender.put]
  by_cases hfull : s.used + xs.length > reportBytes
  · rw [if_pos hfull]
    have hflush := h.flush sendto
    have hroom : (s.flush sendto).used + xs.length ≤ reportBytes := (Nat.zero_add _).trans_le hle
    exact hflush.trans (hflush.sized.append hroom)
  · rw [if_neg hfull]
    exact h.append (Nat.not_lt.mp hfull)

theorem scan_skip {byte : UInt8} {rest : List UInt8} (h : byte < 0x80 ∨ byte = 0xf7) (fuel : ℕ)
    (s : Sender) : scan sendto (fuel + 1) (byte :: rest) s = scan sendto fuel rest s := by
  have hne : byte ≠ 0xf0 := by
    rintro rfl
    exact absurd h (by decide)
  have hlength : midiMessageLength byte = 0 := by
    refine if_neg fun hstatus ↦ ?_
    obtain hd | rfl := h
    · exact UInt8.not_le.mpr hd hstatus.1
    · exact absurd hstatus.2 (by decide)
  rw [scan, if_neg hne, hlength, if_pos (.inl rfl)]

/-- A packet that begins inside a SysEx loses the bytes that continue it; nothing
else is lost. -/
theorem Sized.scan {before after : Bool} {packet : List UInt8} (hs : s.Sized)
    (h : Conforms before packet after) {fuel : ℕ} (hfuel : packet.length ≤ fuel) :
    ∃ lost kept, packet = lost ++ kept ∧ s.Takes kept (scan sendto fuel packet s) ∧
      (before = false → lost = []) ∧ (before = true → lost = [] → packet = []) := by
  induction h generalizing s fuel with
  | nil inside =>
    refine ⟨[], [], rfl, ?_, fun _ ↦ rfl, fun _ _ ↦ rfl⟩
    cases fuel <;> exact hs.refl
  | @message m rest after hm _ ih =>
    have hlen := hm.two_le_length
    obtain ⟨fuel, rfl⟩ := Nat.exists_eq_add_of_lt (show 0 < fuel by rw [List.length_append] at hfuel; omega)
    have hput := hs.put sendto (hm.length_le_three.trans (by decide))
    have hrest : rest.length ≤ fuel := by
      rw [List.length_append] at hfuel
      omega
    obtain ⟨lost, kept, hsplit, htakes, hnone, -⟩ := ih hput.sized hrest
    rw [hnone rfl, List.nil_append] at hsplit
    refine ⟨[], m ++ rest, rfl, ?_, fun _ ↦ rfl, fun h ↦ absurd h Bool.false_ne_true⟩
    rw [Nat.zero_add, scan_message hm]
    exact hput.trans (hsplit ▸ htakes)
  | @sysEx rest after _ _ =>
    obtain ⟨fuel, rfl⟩ := Nat.exists_eq_add_of_lt (Nat.lt_of_lt_of_le (Nat.succ_pos _) hfuel)
    have hflush := hs.flush sendto
    refine ⟨[], 0xf0 :: rest, rfl, ?_, fun _ ↦ rfl, fun h ↦ absurd h Bool.false_ne_true⟩
    rw [Nat.zero_add, Sender.scan, if_pos rfl]
    exact hflush.trans (hflush.sized.sendParts sendto rfl _)
  | @data d rest after hd _ ih =>
    obtain ⟨fuel, rfl⟩ := Nat.exists_eq_add_of_lt (Nat.lt_of_lt_of_le (Nat.succ_pos _) hfuel)
    rw [Nat.zero_add] at hfuel ⊢
    obtain ⟨lost, kept, rfl, htakes, -, -⟩ := ih hs (Nat.le_of_succ_le_succ hfuel)
    rw [scan_skip sendto (.inl hd)]
    exact ⟨d :: lost, kept, rfl, htakes, fun h ↦ absurd h.symm Bool.false_ne_true,
      fun _ h ↦ absurd h (List.cons_ne_nil _ _)⟩
  | @endOfSysEx rest after _ ih =>
    obtain ⟨fuel, rfl⟩ := Nat.exists_eq_add_of_lt (Nat.lt_of_lt_of_le (Nat.succ_pos _) hfuel)
    rw [Nat.zero_add] at hfuel ⊢
    obtain ⟨lost, kept, rfl, htakes, -, -⟩ := ih hs (Nat.le_of_succ_le_succ hfuel)
    rw [scan_skip sendto (.inr rfl)]
    exact ⟨0xf7 :: lost, kept, rfl, htakes, fun h ↦ absurd h.symm Bool.false_ne_true,
      fun _ h ↦ absurd h (List.cons_ne_nil _ _)⟩

def scanAll (sendto : ℕ → ℤ) (list : List (List UInt8)) (s : Sender) : Sender :=
  list.foldl (fun s packet ↦ Sender.scan sendto packet.length packet s) s

theorem scanAll_cons (packet : List UInt8) (list : List (List UInt8)) (s : Sender) :
    scanAll sendto (packet :: list) s =
      scanAll sendto list (Sender.scan sendto packet.length packet s) := rfl

theorem Sized.scanAll_selfContained {list : List (List UInt8)} (hs : s.Sized)
    (h : ∀ packet ∈ list, SelfContained packet) :
    s.Takes list.flatten (scanAll sendto list s) := by
  induction list generalizing s with
  | nil => exact hs.refl
  | cons packet list ih =>
    obtain ⟨hpacket, hlist⟩ := List.forall_mem_cons.mp h
    obtain ⟨lost, kept, hsplit, htakes, hnone, -⟩ := hs.scan sendto hpacket le_rfl
    rw [hnone rfl, List.nil_append] at hsplit
    rw [← hsplit] at htakes
    exact htakes.trans (ih htakes.sized hlist)

theorem conforms_nil {before after : Bool} (h : Conforms before [] after) : before = after := by
  generalize hp : ([] : List UInt8) = packet at h
  cases h with
  | nil => rfl
  | message hm =>
    have := congrArg List.length hp
    have := hm.two_le_length
    simp at *
    omega
  | sysEx => cases hp
  | data => cases hp
  | endOfSysEx => cases hp

/-- Bytes are never added, and a SysEx that is left open costs some. -/
theorem Sized.scanAll_delivered {before : Bool} {list : List (List UInt8)} (hs : s.Sized)
    (h : Delivered before list) :
    (scanAll sendto list s).Sized ∧
      (scanAll sendto list s).accepted.length ≤ s.accepted.length + list.flatten.length ∧
      ((scanAll sendto list s).accepted.length = s.accepted.length + list.flatten.length →
        before = false ∧ ∀ packet ∈ list, SelfContained packet) := by
  induction h generalizing s with
  | nil => exact ⟨hs, le_rfl, fun _ ↦ ⟨rfl, nofun⟩⟩
  | @cons before after packet list hpacket _ ih =>
    obtain ⟨lost, kept, hsplit, htakes, -, hlost⟩ := hs.scan sendto hpacket le_rfl
    obtain ⟨hsized, hle, heq⟩ := ih htakes.sized
    have haccepted := congrArg List.length htakes.accepted
    have hbytes := congrArg List.length hsplit
    simp only [List.length_append, List.flatten_cons] at haccepted hbytes ⊢
    rw [scanAll_cons]
    refine ⟨hsized, by omega, fun hall ↦ ?_⟩
    obtain ⟨rfl, hrest⟩ := heq (by omega)
    have hnone : lost = [] := List.length_eq_zero_iff.mp (by omega)
    have hbefore : before = false := by
      by_contra hinside
      rw [Bool.not_eq_false] at hinside
      subst hinside
      rw [hlost rfl hnone] at hpacket
      exact absurd (conforms_nil hpacket) (by decide)
    subst hbefore
    exact ⟨rfl, List.forall_mem_cons.mpr ⟨hpacket, hrest⟩⟩

end Sender

/-- What `receiveFromApplication` is to do: send every byte, in order, in
datagrams that fit a report. -/
def ForwardsComplete (sendto : ℕ → ℤ) (outboundFailures : UInt64) (list : List (List UInt8)) :
    Prop :=
  (receiveFromApplication sendto outboundFailures list).datagrams.flatten = list.flatten ∧
    ∀ d ∈ (receiveFromApplication sendto outboundFailures list).datagrams,
      1 ≤ d.length ∧ d.length ≤ reportBytes

theorem start_sized (outboundFailures : UInt64) :
    (⟨List.replicate reportBytes 0, 0, [], outboundFailures⟩ : Sender).Sized :=
  ⟨List.length_replicate, Nat.zero_le _, nofun⟩

/-- A packet list is forwarded complete exactly if no SysEx goes on in a second
packet: the continuation of a SysEx does not begin with a status byte and is skipped. -/
theorem forwardsComplete_iff (sendto : ℕ → ℤ) (outboundFailures : UInt64)
    {list : List (List UInt8)} (hlist : Delivered false list) :
    ForwardsComplete sendto outboundFailures list ↔ ∀ packet ∈ list, SelfContained packet := by
  have hstart := start_sized outboundFailures
  obtain ⟨hsized, -, heq⟩ := hstart.scanAll_delivered sendto hlist
  have hsent := hsized.flush sendto
  have hflat : (receiveFromApplication sendto outboundFailures list).datagrams.flatten =
      (Sender.scanAll sendto list ⟨List.replicate reportBytes 0, 0, [], outboundFailures⟩).accepted :=
    (Sender.sendToDriver_frame _ _ _).2.2
  rw [ForwardsComplete, hflat]
  constructor
  · rintro ⟨hall, -⟩
    exact (heq (by rw [hall]; simp [Sender.accepted])).2
  · intro hself
    refine ⟨?_, hsent.sized.datagrams⟩
    rw [(hstart.scanAll_selfContained sendto hself).accepted]
    rfl

theorem forwardsComplete_one_packet :
    ForwardsComplete (fun _ ↦ 0) 0 [[0x90, 0x3c, 0x40, 0xf0, 1, 2, 0xf7, 0xc0, 5], [0xf0, 0xf7]] := by
  have hfirst : SelfContained ([0x90, 0x3c, 0x40] ++ 0xf0 :: 1 :: 2 :: 0xf7 :: ([0xc0, 5] ++ [])) :=
    .message (by decide) (.sysEx (.data (by decide) (.data (by decide)
      (.endOfSysEx (.message (by decide) (.nil _))))))
  have hsecond : SelfContained [0xf0, 0xf7] := .sysEx (.endOfSysEx (.nil _))
  refine (forwardsComplete_iff _ _ (.cons hfirst (.cons hsecond .nil))).mpr ?_
  exact List.forall_mem_cons.mpr ⟨hfirst, List.forall_mem_singleton.mpr hsecond⟩

/-- A SysEx over two packets: its second half never reaches the driver. -/
theorem continued_sysEx_lost : Delivered false [[0xf0, 1], [2, 0xf7]] ∧
    (receiveFromApplication (fun _ ↦ 0) 0 [[0xf0, 1], [2, 0xf7]]).datagrams = [[0xf0, 1]] ∧
    ¬ ForwardsComplete (fun _ ↦ 0) 0 [[0xf0, 1], [2, 0xf7]] := by
  refine ⟨?_, by decide, fun h ↦ absurd h.1 (by decide)⟩
  exact .cons (.sysEx (.data (by decide) (.nil _)))
    (.cons (.data (by decide) (.endOfSysEx (.nil _))) .nil)

end NumarkNS6.Midi.MIDIUserSessionBridge
