import NumarkNS6.Foundation.CircularStore
import NumarkNS6.Midi.MIDIInputParser
import NumarkNS6.Usb.NS6DeviceSession

namespace NumarkNS6.Midi

open Foundation.CircularStore Usb

namespace ControllerActivation

def packetBytes : ℕ := 42

/-- `none` and `false` stand for null pointers, and a result of `none` for false. -/
def buildPacket (message : Option (List UInt8)) (length : ℕ) (packet : Bool) :
    Option (List UInt8) :=
  match message, packet with
  | some bytes, true =>
    if length = 0 ∨ length ≥ packetBytes then none
    else some ((splice (List.replicate packetBytes 0xfd) 0 (bytes.take length)).set (packetBytes - 1) 0)
  | _, _ => none

def frame (message : List UInt8) : List UInt8 :=
  message ++ (List.replicate (packetBytes - 1 - message.length) filler ++ [0])

theorem buildPacket_eq {bytes : List UInt8} {n : ℕ} (h : 0 < n) (h' : n < packetBytes)
    (hn : n ≤ bytes.length) : buildPacket (some bytes) n true = some (frame (bytes.take n)) := by
  have hlen : (bytes.take n).length = n := List.length_take_of_le hn
  have hpad : List.replicate (packetBytes - n) 0xfd =
      List.replicate (packetBytes - 1 - n) filler ++ [0xfd] := by
    rw [show packetBytes - n = packetBytes - 1 - n + 1 by omega, List.replicate_succ']
    rfl
  rw [buildPacket, if_neg (by omega), frame, splice, List.take_zero, List.nil_append, hlen,
    Nat.zero_add, List.drop_replicate, hpad, List.set_append_right _ _ (by rw [hlen]; omega), hlen,
    List.set_append_right _ _ (by simp)]
  simp

end ControllerActivation

structure MIDIOutputWriter where
  sent : UInt64
  failures : UInt64
  reports : List (List UInt8)

namespace MIDIOutputWriter

structure Answers where
  interface : Bool
  write : ℕ → IOReturn
  clearStall : ℕ → IOReturn

def receiveBytes : ℕ := 128

/-- The attempts at one report: a stall or a timeout is cleared and tried again. -/
def attempt (answers : Answers) : ℕ → ℕ → IOReturn → IOReturn
  | 0, _, result => result
  | remaining + 1, n, _ =>
    let result := answers.write n
    if result = .success then result
    else if result ≠ .pipeStalled ∧ result ≠ .notResponding ∧ result ≠ .timeout then result
    else if answers.clearStall n ≠ .success then result
    else attempt answers remaining (n + 1) result

def fail (w : MIDIOutputWriter) : MIDIOutputWriter := { w with failures := w.failures + 1 }

/-- One pass of `run` for a datagram that has arrived; `recv` cuts it to its buffer. -/
def receive (answers : Answers) (datagram : List UInt8) (w : MIDIOutputWriter) : MIDIOutputWriter :=
  let received := datagram.take receiveBytes
  let message := received ++ List.replicate (receiveBytes - received.length) 0
  let length := received.length
  if length = 0 ∨ length > 41 then w.fail
  else
    match ControllerActivation.buildPacket (some message) length true with
    | none => w.fail
    | some packet =>
      if !answers.interface then w.fail
      else
        let w := { w with reports := w.reports ++ [packet] }
        if attempt answers 3 0 .notReady = .success then { w with sent := w.sent + 1 } else w.fail

def run (passes : List (Answers × List UInt8)) (w : MIDIOutputWriter) : MIDIOutputWriter :=
  passes.foldl (fun w pass ↦ w.receive pass.1 pass.2) w

open ControllerActivation

variable {answers : Answers} {datagram : List UInt8}

/-- A datagram of 1 to 41 bytes passes the checks and goes out as one report. -/
theorem receive_reports (w : MIDIOutputWriter) (hi : answers.interface = true)
    (h₁ : 1 ≤ datagram.length) (h₂ : datagram.length ≤ 41) :
    (w.receive answers datagram).reports = w.reports ++ [frame datagram] := by
  have hcut : datagram.take receiveBytes = datagram :=
    List.take_of_length_le (h₂.trans (by decide))
  simp only [receive, hcut, if_neg (show ¬ (datagram.length = 0 ∨ datagram.length > 41) by omega)]
  rw [buildPacket_eq h₁ (Nat.lt_succ_of_le h₂) (by simp), List.take_left]
  simp only [hi, Bool.not_true, Bool.false_eq_true, if_false]
  split <;> rfl

theorem run_reports {passes : List (Answers × List UInt8)} (w : MIDIOutputWriter)
    (h : ∀ pass ∈ passes, pass.1.interface = true ∧ 1 ≤ pass.2.length ∧ pass.2.length ≤ 41) :
    (run passes w).reports = w.reports ++ passes.map fun pass ↦ frame pass.2 := by
  induction passes generalizing w with
  | nil => exact (List.append_nil _).symm
  | cons pass passes ih =>
    obtain ⟨⟨hi, h₁, h₂⟩, hrest⟩ := List.forall_mem_cons.mp h
    rw [run, List.foldl_cons, ← run, ih _ hrest, receive_reports w hi h₁ h₂, List.map_cons,
      List.append_assoc, List.singleton_append]

end MIDIOutputWriter

end NumarkNS6.Midi
