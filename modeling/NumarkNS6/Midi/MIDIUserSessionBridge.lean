import NumarkNS6.Foundation.CircularStore
import NumarkNS6.Foundation.Packing
import NumarkNS6.Midi.ChannelMessages

namespace NumarkNS6.Midi.MIDIUserSessionBridge

open Foundation.CircularStore Foundation.Packing

def reportBytes : ℕ := 41

structure Sender where
  report : List UInt8
  used : ℕ
  datagrams : List (List UInt8)
  outboundFailures : UInt64

/-- `sendto n` is what the `n`-th `sendto` of a call returns. -/
def Sender.sendToDriver (sendto : ℕ → ℤ) (bytes : List UInt8) (s : Sender) : Sender :=
  if bytes.length = 0 then s
  else { s with
    datagrams := s.datagrams ++ [bytes]
    outboundFailures := s.outboundFailures +
      if sendto s.datagrams.length ≠ bytes.length then 1 else 0 }

def midiMessageLength (status : UInt8) : ℕ :=
  if status ≥ 0x80 ∧ status ≤ 0xef then
    if status &&& 0xf0 = 0xc0 ∨ status &&& 0xf0 = 0xd0 then 2 else 3
  else 0

namespace Sender

def sendReport (sendto : ℕ → ℤ) (s : Sender) : Sender :=
  s.sendToDriver sendto (s.report.take s.used)

def flush (sendto : ℕ → ℤ) (s : Sender) : Sender := { s.sendReport sendto with used := 0 }

def sendParts (sendto : ℕ → ℤ) (remaining : List UInt8) (s : Sender) : Sender :=
  (List.range ((remaining.length + (reportBytes - 1)) / reportBytes)).foldl
    (fun s part ↦ s.sendToDriver sendto (slice remaining (part * reportBytes) reportBytes)) s

def put (sendto : ℕ → ℤ) (message : List UInt8) (s : Sender) : Sender :=
  let s := if s.used + message.length > reportBytes then s.flush sendto else s
  { s with
    report := splice s.report s.used message
    used := s.used + message.length }

/-- The loop over a packet, `data` being its bytes from the offset on. Every pass
takes at least one byte. -/
def scan (sendto : ℕ → ℤ) : ℕ → List UInt8 → Sender → Sender
  | 0, _, s => s
  | _ + 1, [], s => s
  | fuel + 1, status :: rest, s =>
    let data := status :: rest
    -- A SysEx takes the rest of the packet with it.
    if status = 0xf0 then (s.flush sendto).sendParts sendto data
    else
      let length := midiMessageLength status
      -- Anything that does not begin a complete message is skipped byte by byte.
      if length = 0 ∨ length > data.length then scan sendto fuel rest s
      else scan sendto fuel (data.drop length) (s.put sendto (data.take length))

end Sender

/-- A packet list is the list of its packets' bytes. -/
def receiveFromApplication (sendto : ℕ → ℤ) (outboundFailures : UInt64)
    (list : List (List UInt8)) : Sender :=
  (list.foldl (fun s packet ↦ Sender.scan sendto packet.length packet s)
    ⟨List.replicate reportBytes 0, 0, [], outboundFailures⟩).sendReport sendto

theorem midiMessageLength_eq {status : UInt8} (h : 0x80 ≤ status) (h' : status ≤ 0xef) :
    midiMessageLength status = messageLength status := by
  have hbits : ∀ x : BitVec 8, x &&& 0xf0#8 = 0xc0#8 ∨ x &&& 0xf0#8 = 0xd0#8 ↔
      0xc0#8 ≤ x ∧ x ≤ 0xdf#8 := by decide +kernel
  have hiff : status &&& 0xf0 = 0xc0 ∨ status &&& 0xf0 = 0xd0 ↔
      0xc0 ≤ status ∧ status ≤ 0xdf := by
    rw [UInt8.le_iff_toBitVec_le, UInt8.le_iff_toBitVec_le, ← UInt8.toBitVec_inj,
      ← UInt8.toBitVec_inj]
    exact hbits status.toBitVec
  rw [midiMessageLength, if_pos ⟨h, h'⟩, messageLength]
  simp only [hiff]

/-- The sender holds what `b` packs: closed bins are datagrams and the open one is
in the report. -/
structure Carries (s : Sender) (b : Bins UInt8) : Prop where
  datagrams : s.datagrams = b.closed.map List.flatten
  storage : s.report.length = reportBytes
  used : s.used = b.opened.flatten.length
  report : s.report.take s.used = b.opened.flatten
  fits : b.Fits reportBytes
  messages : ∀ m ∈ b.items, IsMessage m

variable {s : Sender} {b : Bins UInt8} {sendto : ℕ → ℤ} {m : List UInt8}

theorem Carries.sendReport (h : Carries s b) :
    (s.sendReport sendto).datagrams = b.close.closed.map List.flatten := by
  rw [Sender.sendReport, Sender.sendToDriver, h.report, Bins.close]
  by_cases he : b.opened.flatten = []
  · rw [if_pos (by rw [he]; rfl), if_pos he]
    exact h.datagrams
  · rw [if_neg (by rwa [List.length_eq_zero_iff]), if_neg he, h.datagrams]
    simp

theorem Carries.flush (h : Carries s b) : Carries (s.flush sendto) b.close := by
  obtain ⟨hopened, hitems, hfits⟩ := h.fits.close_eq
  have hreport : (s.sendReport sendto).report = s.report := by
    rw [Sender.sendReport, Sender.sendToDriver]
    split <;> rfl
  refine ⟨h.sendReport, ?_, ?_, ?_, hfits, hitems ▸ h.messages⟩
  · exact (congrArg List.length hreport).trans h.storage
  · rw [hopened]
    rfl
  · rw [hopened]
    rfl

theorem Carries.append (h : Carries s b) (hm : IsMessage m)
    (hroom : s.used + m.length ≤ reportBytes) :
    Carries { s with report := splice s.report s.used m, used := s.used + m.length }
      ⟨b.closed, b.opened ++ [m]⟩ := by
  have hplace : b.place reportBytes m = ⟨b.closed, b.opened ++ [m]⟩ := by
    rw [Bins.place, if_neg (by rw [← h.used]; omega)]
  have hne : m ≠ [] := List.ne_nil_of_length_pos (by have := hm.two_le_length; omega)
  obtain ⟨hitems, hfits⟩ := h.fits.place hne (by omega)
  rw [hplace] at hitems hfits
  refine ⟨h.datagrams, ?_, ?_, ?_, hfits, ?_⟩
  · exact (splice_length (by rw [h.storage]; exact hroom)).trans h.storage
  · simp [h.used]
  · rw [take_splice (by rw [h.storage]; omega), h.report]
    simp
  · rw [hitems]
    exact List.forall_mem_append.mpr ⟨h.messages, List.forall_mem_singleton.mpr hm⟩

theorem Carries.put (h : Carries s b) (hm : IsMessage m) :
    Carries (s.put sendto m) (b.place reportBytes m) := by
  rw [Sender.put, Bins.place, ← h.used]
  by_cases hfull : s.used + m.length > reportBytes
  · have hflush : Carries (s.flush sendto) ⟨b.close.closed, []⟩ := by
      rw [← h.fits.close_eq.1]
      exact h.flush
    rw [if_pos hfull, if_pos hfull]
    refine hflush.append hm ?_
    have := hm.length_le_three
    rw [hflush.used, reportBytes]
    simp only [List.flatten_nil, List.length_nil]
    omega
  · rw [if_neg hfull, if_neg hfull]
    exact h.append hm (by omega)

theorem Sender.scan_message {rest : List UInt8} (hm : IsMessage m) (fuel : ℕ) (s : Sender) :
    scan sendto (fuel + 1) (m ++ rest) s = scan sendto fuel rest (s.put sendto m) := by
  obtain ⟨⟨status, data, rfl, h₁, h₂, -⟩, hlen⟩ := hm
  have hlength : midiMessageLength status = (status :: data).length := by
    rw [midiMessageLength_eq h₁ h₂, hlen status rfl]
  have hne : status ≠ 0xf0 := by
    rintro rfl
    exact absurd h₂ (by decide)
  rw [List.cons_append, scan, if_neg hne, hlength, if_neg, ← List.cons_append, List.drop_left,
    List.take_left]
  simp

theorem Carries.scan {ms : List (List UInt8)} (h : Carries s b) (hms : ∀ m ∈ ms, IsMessage m)
    {fuel : ℕ} (hfuel : ms.flatten.length ≤ fuel) :
    Carries (Sender.scan sendto fuel ms.flatten s) (ms.foldl (Bins.place reportBytes) b) := by
  induction ms generalizing s b fuel with
  | nil => cases fuel <;> exact h
  | cons m ms ih =>
    obtain ⟨hm, hrest⟩ := List.forall_mem_cons.mp hms
    have hlen := hm.two_le_length
    rw [List.flatten_cons, List.length_append] at hfuel
    cases fuel with
    | zero => omega
    | succ fuel =>
      rw [List.flatten_cons, Sender.scan_message hm]
      exact ih (h.put hm) hrest (by omega)

def WholeMessages (bytes : List UInt8) : Prop :=
  ∃ ms : List (List UInt8), bytes = ms.flatten ∧ ∀ m ∈ ms, IsMessage m

theorem Carries.packets {list : List (List UInt8)} (h : Carries s b)
    (hlist : ∀ packet ∈ list, WholeMessages packet) :
    ∃ b', Carries (list.foldl (fun s packet ↦ Sender.scan sendto packet.length packet s) s) b' ∧
      b'.items.flatten = b.items.flatten ++ list.flatten := by
  induction list generalizing s b with
  | nil => exact ⟨b, h, (List.append_nil _).symm⟩
  | cons packet list ih =>
    obtain ⟨⟨ms, rfl, hms⟩, hrest⟩ := List.forall_mem_cons.mp hlist
    obtain ⟨b', hb', hitems⟩ := ih (h.scan hms le_rfl) hrest
    refine ⟨b', hb', ?_⟩
    rw [hitems, h.fits.place_all, List.flatten_append, List.flatten_cons, List.append_assoc]
    intro m hm
    have h₂ := (hms m hm).two_le_length
    have h₃ := (hms m hm).length_le_three
    exact ⟨List.ne_nil_of_length_pos (by omega), h₃.trans (by decide)⟩

/-- The datagrams of a packet list of complete messages are those messages in
order, none of them cut, in reports of at most 41 bytes. -/
theorem receiveFromApplication_datagrams (sendto : ℕ → ℤ) (outboundFailures : UInt64)
    {list : List (List UInt8)} (hlist : ∀ packet ∈ list, WholeMessages packet) :
    (∀ d ∈ (receiveFromApplication sendto outboundFailures list).datagrams,
      1 ≤ d.length ∧ d.length ≤ reportBytes ∧ WholeMessages d) ∧
    (receiveFromApplication sendto outboundFailures list).datagrams.flatten = list.flatten := by
  have hstart : Carries ⟨List.replicate reportBytes 0, 0, [], outboundFailures⟩ ⟨[], []⟩ :=
    ⟨rfl, List.length_replicate, rfl, rfl, ⟨nofun, nofun, Nat.zero_le _⟩, nofun⟩
  obtain ⟨b, hb, hitems⟩ := @Carries.packets _ _ sendto list hstart hlist
  obtain ⟨hopened, hclose, hfits⟩ := hb.fits.close_eq
  have hall : b.close.items = b.close.closed.flatten := by
    rw [Bins.items, hopened, List.append_nil]
  rw [receiveFromApplication, hb.sendReport]
  constructor
  · intro d hd
    obtain ⟨bin, hbin, rfl⟩ := List.mem_map.mp hd
    obtain ⟨hne, hle⟩ := hfits.closed bin hbin
    refine ⟨List.length_pos_iff.mpr hne, hle, bin, rfl, fun m hm ↦ hb.messages m ?_⟩
    rw [← hclose, hall]
    exact List.mem_flatten_of_mem hbin hm
  · rw [← List.flatten_flatten, ← hall, hclose, hitems]
    rfl

end NumarkNS6.Midi.MIDIUserSessionBridge
