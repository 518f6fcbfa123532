import NumarkNS6.CoreAudio.PropertyTables
import NumarkNS6.Foundation.Packing
import NumarkNS6.CoreAudio.DriverLifetime

namespace NumarkNS6.CoreAudio

open Usb (utf8 decimal)
open Foundation.Packing (take_flatMap_whole_iff)

def Client.line (c : Client) : List UInt8 :=
  decimal c.pid.toInt.toNat ++ utf8 "|" ++ c.bundle ++ utf8 "\n"

namespace DriverState

variable (activity : List ActivitySlot) (object : AudioObjectID) (now maxAge : UInt64)

/-- A client of the device with a process id that has a start or recent I/O. -/
def isEligible (client : Client) : Bool :=
  let last := (activity[client.activitySlot]?.map ActivitySlot.lastIO).getD 0
  let recent := last ≠ 0 && now ≥ last && now - last ≤ maxAge
  client.device = object && (client.starts ≠ 0 || recent) && 0 < client.pid

theorem skipped_eq (client : Client) :
    (let last := (activity[client.activitySlot]?.map ActivitySlot.lastIO).getD 0
      let recent := last ≠ 0 && now ≥ last && now - last ≤ maxAge
      client.device ≠ object || (client.starts = 0 && !recent) || client.pid ≤ 0) =
      !isEligible activity object now maxAge client := by
  simp [isEligible, ← Int32.not_le]

theorem clientLines_eq (clients : List Client) {value : List UInt8}
    (h : value.length < statusTextBytes) :
    clientLines activity object now maxAge clients value =
      (value ++ (clients.filter (isEligible activity object now maxAge)).flatMap Client.line).take
        (statusTextBytes - 1) := by
  induction clients generalizing value with
  | nil =>
    have hle : value.length ≤ statusTextBytes - 1 := Nat.le_sub_one_of_lt h
    rw [clientLines, List.filter_nil, List.flatMap_nil, List.append_nil,
      List.take_of_length_le hle]
  | cons client clients ih =>
    have hstep : clientLines activity object now maxAge (client :: clients) value =
        if (!isEligible activity object now maxAge client) = true then
          clientLines activity object now maxAge clients value
        else if client.line.length ≥ statusTextBytes - value.length then
          value ++ client.line.take (statusTextBytes - value.length - 1)
        else clientLines activity object now maxAge clients (value ++ client.line) := by
      rw [← skipped_eq]
      rfl
    rw [hstep]
    cases heligible : isEligible activity object now maxAge client with
    | false =>
      rw [List.filter_cons_of_neg (by rw [heligible]; exact Bool.noConfusion)]
      exact ih h
    | true =>
      rw [List.filter_cons_of_pos heligible, List.flatMap_cons]
      split_ifs with hfalse hcut
      · cases hfalse
      · have hroom : statusTextBytes - 1 = value.length + (statusTextBytes - value.length - 1) := by
          omega
        rw [hroom, List.take_length_add_append,
          List.take_append_of_le_length (by omega)]
      · rw [ih (by rw [List.length_append]; omega), List.append_assoc]

variable (s : DriverState) (answers : PropertyAnswers)

def eligible : List Client :=
  s.clients.filter (isEligible s.activity object answers.now
    (2000000000 * answers.denom.toUInt64 / answers.numer.toUInt64))

theorem statusText_activeClients : s.statusText answers object .activeClients =
    ((s.eligible object answers).flatMap Client.line).take (statusTextBytes - 1) :=
  clientLines_eq _ _ _ _ _ (by decide)

/-- The text is made of whole lines, one for each of the first eligible clients. -/
def WholeEntries : Prop :=
  ∃ n, s.statusText answers object .activeClients =
    ((s.eligible object answers).take n).flatMap Client.line

/-- The lines of all eligible clients fit into the buffer before its
terminator, or the lines of the first ones fill it to the last byte. -/
def LinesFit : Prop :=
  ((s.eligible object answers).flatMap Client.line).length ≤ statusTextBytes - 1 ∨
    ∃ n, (((s.eligible object answers).take n).flatMap Client.line).length = statusTextBytes - 1

theorem activeClients_whole_iff : s.WholeEntries object answers ↔ s.LinesFit object answers := by
  rw [WholeEntries, statusText_activeClients]
  exact take_flatMap_whole_iff _ _ _

def crowd : List DriverOp :=
  (List.range 64).map (fun i ↦ .addClient deviceObjectID
    (some ⟨UInt32.ofNat i, Int32.ofNat (10000 + i), List.replicate 255 0x61⟩)) ++
  (List.range 64).map fun i ↦ .startIo deviceObjectID (UInt32.ofNat i) (.allSucceed 0)

theorem crowd_lines : (((initial true 0).after crowd).eligible deviceObjectID
    ⟨0, 125, 3, true⟩).map (·.line.length) = List.replicate 64 262 := by
  decide +kernel

theorem crowd_length (n : ℕ) : (((((initial true 0).after crowd).eligible deviceObjectID
    ⟨0, 125, 3, true⟩).take n).flatMap Client.line).length = min n 64 * 262 := by
  rw [List.length_flatMap, List.map_take, crowd_lines, List.take_replicate, List.sum_replicate_nat]

/-- The sixty-third line has 139 bytes of room: it is cut, and the loop stops behind it. -/
theorem crowd_not_whole :
    ¬ ((initial true 0).after crowd).WholeEntries deviceObjectID ⟨0, 125, 3, true⟩ := by
  rw [WholeEntries, statusText_activeClients, take_flatMap_whole_iff]
  rintro (hfit | ⟨n, hn⟩)
  · have hall := crowd_length 64
    rw [List.take_of_length_le (by rw [← List.length_map, crowd_lines, List.length_replicate])] at hall
    rw [hall] at hfit
    exact absurd hfit (by decide)
  · rw [crowd_length] at hn
    have hbuffer : statusTextBytes = 16384 := rfl
    omega

end DriverState

end NumarkNS6.CoreAudio
