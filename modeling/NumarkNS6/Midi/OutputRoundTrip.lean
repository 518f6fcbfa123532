import NumarkNS6.Midi.MIDIOutputWriter
import NumarkNS6.Midi.MIDIUserSessionBridge

namespace NumarkNS6.Midi

open ControllerActivation MIDIUserSessionBridge

namespace MIDIInputParser

variable {p : MIDIInputParser}

theorem frame_length {d : List UInt8} (h : d.length ≤ 41) : (frame d).length = reportBytes := by
  simp only [frame, List.length_append, List.length_replicate, List.length_singleton, packetBytes,
    MIDIInputParser.reportBytes]
  omega

theorem feed_fillers (m : List UInt8) (n : ℕ) : feed m (List.replicate n filler) = ([], m) := by
  have hnone : significant (List.replicate n filler) = [] := by simp [significant]
  rw [← feed_significant, hnone, feed]

/-- A framed datagram of whole messages comes out of a parser between messages as
it went in, and leaves the parser between messages. -/
theorem feedReport_frame {d : List UInt8} (hp : Represents p []) (hd : WholeMessages d)
    (hlen : d.length ≤ 41) :
    (p.feedReport (some (frame d)) (frame d).length true).1 = d ∧
      Represents (p.feedReport (some (frame d)) (frame d).length true).2 [] := by
  obtain ⟨ms, rfl, hms⟩ := hd
  have htake : (frame ms.flatten).take reportPayloadBytes =
      ms.flatten ++ List.replicate (packetBytes - 1 - ms.flatten.length) filler := by
    rw [frame, ← List.append_assoc, List.take_left']
    rw [List.length_append, List.length_replicate, packetBytes, reportPayloadBytes]
    omega
  have hfeed : feed [] (ms.flatten ++ List.replicate (packetBytes - 1 - ms.flatten.length) filler) =
      (ms, []) := by
    rw [feed_append, feed_messages hms, feed_fillers, List.append_nil]
  rw [feedReport_eq p (frame_length hlen), htake]
  obtain ⟨hout, hrep⟩ := feedBytes_refines hp
    (ms.flatten ++ List.replicate (packetBytes - 1 - ms.flatten.length) filler)
  rw [hfeed] at hout hrep
  exact ⟨hout, hrep⟩

theorem feedReports_frames {ds : List (List UInt8)} (hp : Represents p [])
    (h : ∀ d ∈ ds, d.length ≤ 41 ∧ WholeMessages d) : p.feedReports (ds.map frame) = ds := by
  induction ds generalizing p with
  | nil => rfl
  | cons d ds ih =>
    obtain ⟨⟨hlen, hd⟩, hrest⟩ := List.forall_mem_cons.mp h
    obtain ⟨hout, hrep⟩ := feedReport_frame hp hd hlen
    rw [List.map_cons, feedReports, hout, ih hrep hrest]

end MIDIInputParser

/-- What becomes of a packet list on its way to the controller: datagrams of whole
messages with the same bytes in the same order, each of which the writer turns
into one report, and a parser reads each datagram back out of its report. -/
structure RoundTrip (list datagrams : List (List UInt8)) : Prop where
  datagram : ∀ d ∈ datagrams, 1 ≤ d.length ∧ d.length ≤ 41 ∧ WholeMessages d
  bytes : datagrams.flatten = list.flatten
  reports : ∀ (passes : List (MIDIOutputWriter.Answers × List UInt8)) (w : MIDIOutputWriter),
    passes.map Prod.snd = datagrams → (∀ pass ∈ passes, pass.1.interface = true) → ∃ reports,
      (MIDIOutputWriter.run passes w).reports = w.reports ++ reports ∧
      (∀ report ∈ reports, report.length = packetBytes) ∧
      MIDIInputParser.fresh.feedReports reports = datagrams

theorem round_trip (sendto : ℕ → ℤ) (outboundFailures : UInt64) {list : List (List UInt8)}
    (h : ∀ packet ∈ list, WholeMessages packet) :
    RoundTrip list (receiveFromApplication sendto outboundFailures list).datagrams := by
  obtain ⟨hdatagrams, hbytes⟩ := receiveFromApplication_datagrams sendto outboundFailures h
  refine ⟨hdatagrams, hbytes, ?_⟩
  intro passes w hpasses hinterface
  have hmap : (passes.map fun pass ↦ frame pass.2) =
      (receiveFromApplication sendto outboundFailures list).datagrams.map frame := by
    rw [← hpasses, List.map_map]
    rfl
  refine ⟨_, MIDIOutputWriter.run_reports w ?_, ?_, ?_⟩
  · intro pass hpass
    obtain ⟨h₁, h₂, -⟩ := hdatagrams pass.2 (hpasses ▸ List.mem_map_of_mem hpass)
    exact ⟨hinterface pass hpass, h₁, h₂⟩
  · intro report hreport
    rw [hmap] at hreport
    obtain ⟨d, hd, rfl⟩ := List.mem_map.mp hreport
    exact MIDIInputParser.frame_length (hdatagrams d hd).2.1
  · rw [hmap]
    exact MIDIInputParser.feedReports_frames MIDIInputParser.fresh_represents
      fun d hd ↦ (hdatagrams d hd).2

theorem round_trip_two_packets :
    (receiveFromApplication (fun _ ↦ 0) 0 [[0x90, 0x40, 0x7f, 0xc3, 5], [0x80, 0x40, 0]]).datagrams =
      [[0x90, 0x40, 0x7f, 0xc3, 5, 0x80, 0x40, 0]] ∧
    RoundTrip [[0x90, 0x40, 0x7f, 0xc3, 5], [0x80, 0x40, 0]]
      (receiveFromApplication (fun _ ↦ 0) 0
        [[0x90, 0x40, 0x7f, 0xc3, 5], [0x80, 0x40, 0]]).datagrams := by
  refine ⟨by decide, round_trip _ _ ?_⟩
  intro packet hpacket
  rcases List.mem_pair.mp hpacket with rfl | rfl
  · refine ⟨[[0x90, 0x40, 0x7f], [0xc3, 5]], rfl, ?_⟩
    exact List.forall_mem_cons.mpr ⟨by decide, List.forall_mem_singleton.mpr (by decide)⟩
  · refine ⟨[[0x80, 0x40, 0]], rfl, ?_⟩
    exact List.forall_mem_singleton.mpr (by decide)

end NumarkNS6.Midi
