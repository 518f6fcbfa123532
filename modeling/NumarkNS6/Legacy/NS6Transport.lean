import NumarkNS6.Foundation.FloatingPoint
import NumarkNS6.Foundation.TaggedRing
import Mathlib.Algebra.Order.Round

namespace NumarkNS6.Legacy

open Foundation

namespace NS6Transport

def ringFrames : UInt64 := 16384

instance ringNeZero : NeZero 16384 := ⟨by decide⟩

/-- Four samples of three bytes each, the least significant byte first. -/
abbrev Frame := Fin 4 → BitVec 24

def silence : Frame := fun _ ↦ 0

def pack24 (sample : ℤ) : BitVec 24 := BitVec.ofInt 24 sample

def unpack24 (sample : BitVec 24) : ℤ := sample.toInt

def saturate24 (value : ℤ) : ℤ :=
  if value > 8388607 then 8388607 else if value < -8388608 then -8388608 else value

structure AudioStreamBasicDescription where
  formatFlags : UInt32
  bytesPerFrame : UInt32
  channelsPerFrame : UInt32
  bitsPerChannel : UInt32

namespace AudioStreamBasicDescription

variable (format : AudioStreamBasicDescription)

def isFloat : Bool := format.formatFlags &&& 1 != 0

def sampleBytes : UInt32 := format.bytesPerFrame / 4

def valid : Bool :=
  if format.channelsPerFrame ≠ 4 ∨ format.bytesPerFrame = 0 ∨ format.bytesPerFrame % 4 ≠ 0 then false
  else if format.isFloat then format.bitsPerChannel == 32 && format.sampleBytes == 4
  else (format.bitsPerChannel == 24 && format.sampleBytes == 3) ||
    (format.bitsPerChannel == 32 && format.sampleBytes == 4)

end AudioStreamBasicDescription

/-- Memory as it is read from a pointer on. -/
abbrev Bytes := ℕ → UInt8

def Bytes.drop (source : Bytes) (n : ℕ) : Bytes := fun i ↦ source (n + i)

def word24 (source : Bytes) : BitVec 24 :=
  (source 2).toBitVec ++ ((source 1).toBitVec ++ (source 0).toBitVec)

def word32 (source : Bytes) : BitVec 32 := (source 3).toBitVec ++ word24 source

def lrint (x : ℚ) : ℤ := roundHalfEven x

def floatValue (word : BitVec 32) : Option ℚ :=
  let x := Binary32.ofWord word
  if x.IsFinite then some x.value else none

/-- The `float` nearest to `x`, for values that do not overflow. -/
def nearestFloat (x : ℚ) : ℚ := nearest 23 (-149) x

def convertSample (source : Bytes) (isFloat : Bool) (bits : UInt32) : ℤ :=
  if isFloat then
    let value := (floatValue (word32 source)).getD 0
    let value := if value > 1 then 1 else value
    let value := if value < -1 then -1 else value
    lrint (nearestFloat (value * 8388607))
  else if bits = 24 then (word24 source).toInt
  else (word32 source).toInt >>> (8 : ℕ)

def convertFrame (source : Bytes) (format : AudioStreamBasicDescription) : Frame :=
  fun channel ↦ pack24 <| convertSample (source.drop (channel * format.sampleBytes.toNat))
    format.isFloat format.bitsPerChannel

def blockFrame (input : Bytes) (format : AudioStreamBasicDescription) (i : ℕ) : Frame :=
  convertFrame (input.drop (i * format.bytesPerFrame.toNat)) format

end NS6Transport

open NS6Transport

/-- The ring both processes share. -/
structure NS6TransportShared extends TaggedRing Frame 16384 where
  readCursor : UInt64
  highWater : UInt64
  initialized : Bool

namespace NS6TransportShared

def zeroed : NS6TransportShared := ⟨⟨fun _ ↦ silence, fun _ ↦ 0⟩, 0, 0, false⟩

variable (s : NS6TransportShared)

/-- The samples stay as they are. -/
def init : NS6TransportShared :=
  { s with tags := fun _ ↦ 0xffffffffffffffff, readCursor := 0, highWater := 0, initialized := false }

def startAt (sampleTime : UInt64) : NS6TransportShared :=
  { s with readCursor := sampleTime, highWater := sampleTime, initialized := true }

def raiseHighWater (last : UInt64) : NS6TransportShared :=
  if last > s.highWater then { s with highWater := last } else s

def storeFrame (position : UInt64) (frame : Frame) : NS6TransportShared :=
  { s with toTaggedRing := s.toTaggedRing.store position frame }

def storeFrames (frames : ℕ → Frame) (sampleTime : UInt64) (count : ℕ) : NS6TransportShared :=
  (List.range count).foldl (fun s i ↦ s.storeFrame (sampleTime + UInt64.ofNat i) (frames i)) s

/-- The time the caller gives is not used: a block goes behind those before it. -/
def enqueueAt (input : Option Bytes) (_sampleTime : UInt64) (count : UInt32)
    (format : Option AudioStreamBasicDescription) : Bool × NS6TransportShared :=
  match format with
  | none => (false, s)
  | some format =>
    if (input.isNone ∧ count ≠ 0) ∨ format.valid = false then (false, s)
    else if count = 0 then (true, s)
    else
      let sampleTime := s.highWater
      if sampleTime > 0xffffffffffffffff - count.toUInt64 then (false, s)
      else
        let s := if s.initialized then s else s.startAt sampleTime
        let cursor := s.readCursor
        let behind := sampleTime < cursor
        let s := if behind then { s with highWater := cursor } else s
        let sampleTime := if behind then cursor else sampleTime
        let last := sampleTime + count.toUInt64
        if last ≤ cursor then (true, s)
        else
          let skip := if sampleTime < cursor then (cursor - sampleTime).toUInt32 else 0
          let sampleTime := sampleTime + skip.toUInt64
          let count := count - skip
          if count = 0 ∨ sampleTime - cursor > ringFrames ∨
              count.toUInt64 > ringFrames - (sampleTime - cursor) then (false, s)
          else
            let source := (input.getD fun _ ↦ 0).drop (skip.toNat * format.bytesPerFrame.toNat)
            (true, (s.storeFrames (blockFrame source format) sampleTime count.toNat).raiseHighWater last)

def enqueue (input : Option Bytes) (count : UInt32) (format : Option AudioStreamBasicDescription) :
    Bool × NS6TransportShared :=
  s.enqueueAt input (if s.initialized then s.highWater else 0) count format

def availableLoop (cursor : UInt64) : ℕ → UInt32 → UInt32
  | 0, count => count
  | n + 1, count =>
    let position := cursor + count.toUInt64
    if s.tags (TaggedRing.slot _ position) ≠ position then count
    else availableLoop cursor n (count + 1)

def available : UInt32 :=
  if s.initialized = false then 0
  else if s.highWater ≤ s.readCursor then 0
  else
    let limit := s.highWater - s.readCursor
    let limit := if limit > ringFrames then ringFrames else limit
    s.availableLoop s.readCursor limit.toNat 0

def mixSamples (stored frame : Frame) : Frame :=
  fun channel ↦ pack24 (saturate24 (unpack24 (stored channel) + unpack24 (frame channel)))

def mixFrame (position : UInt64) (frame : Frame) : NS6TransportShared :=
  let slot := TaggedRing.slot 16384 position
  if s.tags slot = position then
    { s with cells := Function.update s.cells slot (mixSamples (s.cells slot) frame) }
  else s.storeFrame position frame

def mixFrames (frames : ℕ → Frame) (sampleTime : UInt64) (count : ℕ) : NS6TransportShared :=
  (List.range count).foldl (fun s i ↦ s.mixFrame (sampleTime + UInt64.ofNat i) (frames i)) s

def distance (sampleTime cursor : UInt64) : UInt64 :=
  if sampleTime > cursor then sampleTime - cursor else cursor - sampleTime

/-- A block far from an empty queue moves the timeline to its own time. -/
def rebases (sampleTime : UInt64) : Bool :=
  distance sampleTime s.readCursor ≥ ringFrames && s.available == 0

def align (sampleTime : UInt64) : NS6TransportShared :=
  let s := if s.initialized then s else s.startAt sampleTime
  if s.rebases sampleTime then { s with readCursor := sampleTime, highWater := sampleTime } else s

def mixAligned (frames : ℕ → Frame) (sampleTime : UInt64) (count : UInt32) : Bool × NS6TransportShared :=
  if sampleTime - s.readCursor ≥ ringFrames ∨
      count.toUInt64 > ringFrames - (sampleTime - s.readCursor) then (false, s)
  else (true, (s.mixFrames frames sampleTime count.toNat).raiseHighWater (sampleTime + count.toUInt64))

def mixAt (input : Option Bytes) (sampleTime : UInt64) (count : UInt32)
    (format : Option AudioStreamBasicDescription) : Bool × NS6TransportShared :=
  match format with
  | none => (false, s)
  | some format =>
    if (input.isNone ∧ count ≠ 0) ∨ format.valid = false then (false, s)
    else if count = 0 then (true, s)
    else if sampleTime > 0xffffffffffffffff - count.toUInt64 then (false, s)
    else
      let source := input.getD fun _ ↦ 0
      let s := s.align sampleTime
      if sampleTime < s.readCursor then
        let late := s.readCursor - sampleTime
        if late ≥ count.toUInt64 then (true, s)
        else s.mixAligned (blockFrame (source.drop (late.toNat * format.bytesPerFrame.toNat)) format)
          s.readCursor (count - late.toUInt32)
      else s.mixAligned (blockFrame source format) sampleTime count

inductive StopReason
  | none
  | empty
  | missingTag
  | ringLimit
  | invalid
  deriving DecidableEq

/-- One sample between two, in exact arithmetic where the source has `double`. -/
def interpolateSample (a b : ℤ) (fraction : ℚ) : ℤ :=
  let value : ℚ := a + (b - a) * fraction
  let value := if value > 8388607 then 8388607 else value
  let value := if value < -8388608 then -8388608 else value
  lrint value

def interpolateFrame (first second : Frame) (fraction : ℚ) : Frame :=
  fun channel ↦ pack24 (interpolateSample (unpack24 (first channel)) (unpack24 (second channel)) fraction)

structure Dequeued where
  frames : List Frame
  phase : ℚ
  stopReason : StopReason

/-- The loop over at most `n` output frames. No other call runs in between, so the
second look at the tags finds what the first one found. -/
def dequeueLoop (cursor last : UInt64) (step : ℚ) : ℕ → ℚ → Dequeued
  | 0, phase => ⟨[], phase, .none⟩
  | n + 1, phase =>
    let whole := UInt64.ofNat ⌊phase⌋₊
    let fraction := phase - whole.toNat
    let first := cursor + whole
    let second := first + if fraction > 0 then 1 else 0
    if second ≥ last then ⟨[], phase, .empty⟩
    else if second - cursor ≥ ringFrames then ⟨[], phase, .ringLimit⟩
    else if s.tags (TaggedRing.slot _ first) ≠ first ∨ s.tags (TaggedRing.slot _ second) ≠ second then
      ⟨[], phase, .missingTag⟩
    else
      let rest := dequeueLoop cursor last step n (phase + step)
      let frame := interpolateFrame (s.cells (TaggedRing.slot _ first))
        (s.cells (TaggedRing.slot _ second)) fraction
      { rest with frames := frame :: rest.frames }

def usableStep (step : ℚ) : ℚ := if step < 1 / 2 ∨ step > 3 / 2 then 1 else step

/-- The frames, the reason to stop, the ring and the reader's fraction afterwards. -/
def dequeueResampled (readFraction : ℚ) (outputFrames : UInt32) (step : ℚ) :
    List Frame × StopReason × NS6TransportShared × ℚ :=
  if outputFrames = 0 ∨ s.initialized = false then ([], .invalid, s, readFraction)
  else
    let r := s.dequeueLoop s.readCursor s.highWater (usableStep step) outputFrames.toNat readFraction
    let consumed := UInt64.ofNat ⌊r.phase⌋₊
    (r.frames, r.stopReason, { s with readCursor := s.readCursor + consumed },
      r.phase - consumed.toNat)

def dequeue (readFraction : ℚ) (capacity : UInt32) : List Frame × StopReason × NS6TransportShared × ℚ :=
  s.dequeueResampled readFraction capacity 1

section Guards

theorem sub_toNat_max (count : UInt32) :
    ((0xffffffffffffffff : UInt64) - count.toUInt64).toNat = 2 ^ 64 - 1 - count.toNat := by
  have hlt := count.toNat_lt
  have hle : count.toUInt64 ≤ 0xffffffffffffffff := by
    rw [UInt64.le_iff_toNat_le, UInt32.toNat_toUInt64]
    change count.toNat ≤ 2 ^ 64 - 1
    omega
  rw [UInt64.toNat_sub_of_le _ _ hle, UInt32.toNat_toUInt64]
  rfl

theorem gt_max_sub_iff (t : UInt64) (count : UInt32) :
    t > 0xffffffffffffffff - count.toUInt64 ↔ 2 ^ 64 ≤ t.toNat + count.toNat := by
  have hlt := t.toNat_lt
  have hcount := count.toNat_lt
  rw [gt_iff_lt, UInt64.lt_iff_toNat_lt, sub_toNat_max]
  omega

theorem toNat_add_count {t : UInt64} {count : UInt32} (h : t.toNat + count.toNat < 2 ^ 64) :
    (t + count.toUInt64).toNat = t.toNat + count.toNat := by
  rw [UInt64.toNat_add, UInt32.toNat_toUInt64]
  exact Nat.mod_eq_of_lt h

theorem toNat_add_ofNat {t : UInt64} {i : ℕ} (h : t.toNat + i < 2 ^ 64) :
    (t + UInt64.ofNat i).toNat = t.toNat + i := by
  rw [UInt64.toNat_add, UInt64.toNat_ofNat', Nat.add_mod_mod]
  exact Nat.mod_eq_of_lt h

theorem room_iff {t cursor : UInt64} (hle : cursor ≤ t) (hnear : t.toNat ≤ cursor.toNat + 16384)
    (count : UInt32) : count.toUInt64 > ringFrames - (t - cursor) ↔
      cursor.toNat + 16384 < t.toNat + count.toNat := by
  have hle' := UInt64.le_iff_toNat_le.mp hle
  have hsub : (t - cursor).toNat = t.toNat - cursor.toNat := UInt64.toNat_sub_of_le _ _ hle
  have hring : ringFrames.toNat = 16384 := rfl
  have hfits : t - cursor ≤ ringFrames := by
    rw [UInt64.le_iff_toNat_le, hsub, hring]
    omega
  rw [gt_iff_lt, UInt64.lt_iff_toNat_lt, UInt64.toNat_sub_of_le _ _ hfits, hsub, hring,
    UInt32.toNat_toUInt64]
  omega

variable {s : NS6TransportShared}

theorem mixAligned_eq {t : UInt64} (ht : s.readCursor ≤ t) (frames : ℕ → Frame) (count : UInt32) :
    s.mixAligned frames t count =
      if t.toNat < s.readCursor.toNat + 16384 ∧ t.toNat + count.toNat ≤ s.readCursor.toNat + 16384 then
        (true, (s.mixFrames frames t count.toNat).raiseHighWater (t + count.toUInt64))
      else (false, s) := by
  have ht' := UInt64.le_iff_toNat_le.mp ht
  have hfar : t - s.readCursor ≥ ringFrames ↔ s.readCursor.toNat + 16384 ≤ t.toNat := by
    rw [ge_iff_le, UInt64.le_iff_toNat_le, UInt64.toNat_sub_of_le _ _ ht]
    change 16384 ≤ t.toNat - s.readCursor.toNat ↔ _
    omega
  rw [mixAligned]
  by_cases hnear : s.readCursor.toNat + 16384 ≤ t.toNat
  · rw [if_pos (.inl (hfar.mpr hnear)), if_neg (by omega)]
  · have hroom := room_iff ht (by omega) count
    by_cases hfull : s.readCursor.toNat + 16384 < t.toNat + count.toNat
    · rw [if_pos (.inr (hroom.mpr hfull)), if_neg (by omega)]
    · rw [if_neg (not_or.mpr ⟨mt hfar.mp hnear, mt hroom.mp hfull⟩), if_pos (by omega)]

theorem raiseHighWater_eq (last : UInt64) : s.raiseHighWater last =
    { s with highWater := if s.highWater < last then last else s.highWater } := by
  rw [raiseHighWater]
  split_ifs
  · rfl
  · rfl

theorem raiseHighWater_toNat (last : UInt64) :
    (s.raiseHighWater last).highWater.toNat = max s.highWater.toNat last.toNat := by
  rw [raiseHighWater_eq]
  dsimp only
  split_ifs with hlt
  · exact (Nat.max_eq_right (UInt64.lt_iff_toNat_lt.mp hlt).le).symm
  · exact (Nat.max_eq_left (UInt64.le_iff_toNat_le.mp (UInt64.not_lt.mp hlt))).symm

end Guards

section Samples

theorem unpack24_mem (sample : BitVec 24) :
    -8388608 ≤ unpack24 sample ∧ unpack24 sample ≤ 8388607 := by
  have hlow := BitVec.le_toInt sample
  have hhigh := BitVec.toInt_lt (x := sample)
  rw [unpack24]
  omega

theorem pack24_unpack24 (sample : BitVec 24) : pack24 (unpack24 sample) = sample :=
  BitVec.ofInt_toInt

theorem saturate24_of_mem {value : ℤ} (h : -8388608 ≤ value ∧ value ≤ 8388607) :
    saturate24 value = value := by
  rw [saturate24, if_neg (by omega), if_neg (by omega)]

theorem mixSamples_comm (stored frame : Frame) : mixSamples stored frame = mixSamples frame stored := by
  funext channel
  rw [mixSamples, mixSamples, add_comm]

theorem mixSamples_silence (frame : Frame) : mixSamples silence frame = frame := by
  funext channel
  have hzero : unpack24 (silence channel) = 0 := rfl
  rw [mixSamples, hzero, zero_add, saturate24_of_mem (unpack24_mem _), pack24_unpack24]

variable {s : NS6TransportShared}

theorem mixFrame_eq (position : UInt64) (frame : Frame) : s.mixFrame position frame =
    s.storeFrame position (mixSamples ((s.lookup position).getD silence) frame) := by
  rw [mixFrame]
  by_cases htag : s.tags (TaggedRing.slot 16384 position) = position
  · have hlookup : s.lookup position = some (s.cells (TaggedRing.slot 16384 position)) := if_pos htag
    have hsame : Function.update s.tags (TaggedRing.slot 16384 position) position = s.tags := by
      nth_rewrite 2 [← htag]
      exact Function.update_eq_self _ _
    rw [if_pos htag, hlookup, Option.getD_some, storeFrame, TaggedRing.store, hsame]
  · have hlookup : s.lookup position = none := if_neg htag
    rw [if_neg htag, hlookup, Option.getD_none, mixSamples_silence]

theorem mixFrames_succ (frames : ℕ → Frame) (t : UInt64) (n : ℕ) :
    s.mixFrames frames t (n + 1) =
      (s.mixFrames frames t n).mixFrame (t + UInt64.ofNat n) (frames n) := by
  rw [mixFrames, List.range_succ, List.foldl_append]
  rfl

theorem mixFrames_fields (frames : ℕ → Frame) (t : UInt64) (n : ℕ) :
    (s.mixFrames frames t n).readCursor = s.readCursor ∧
      (s.mixFrames frames t n).highWater = s.highWater ∧
      (s.mixFrames frames t n).initialized = s.initialized := by
  induction n with
  | zero => exact ⟨rfl, rfl, rfl⟩
  | succ n ih =>
    rw [mixFrames_succ, mixFrame_eq]
    exact ih

theorem interpolateFrame_self (frame : Frame) : interpolateFrame frame frame 0 = frame := by
  funext channel
  obtain ⟨hlow, hhigh⟩ := unpack24_mem (frame channel)
  have hlow' : ¬ ((unpack24 (frame channel) : ℤ) : ℚ) < -8388608 := by
    rw [not_lt]
    exact_mod_cast hlow
  have hhigh' : ¬ ((unpack24 (frame channel) : ℤ) : ℚ) > 8388607 := by
    rw [gt_iff_lt, not_lt]
    exact_mod_cast hhigh
  rw [interpolateFrame, interpolateSample]
  simp only [mul_zero, add_zero, if_neg hhigh', if_neg hlow', lrint, roundHalfEven_intCast,
    pack24_unpack24]

theorem dequeue_idle {readFraction : ℚ} {capacity : UInt32}
    (h : capacity = 0 ∨ s.initialized = false) :
    s.dequeue readFraction capacity = ([], .invalid, s, readFraction) := by
  rw [dequeue, dequeueResampled, if_pos h]

theorem blockFrame_drop (input : Bytes) (format : AudioStreamBasicDescription) (late i : ℕ) :
    blockFrame (input.drop (late * format.bytesPerFrame.toNat)) format i =
      blockFrame input format (late + i) := by
  have hsame : (input.drop (late * format.bytesPerFrame.toNat)).drop
      (i * format.bytesPerFrame.toNat) = input.drop ((late + i) * format.bytesPerFrame.toNat) := by
    funext k
    rw [Bytes.drop, Bytes.drop, Bytes.drop, Nat.add_mul, Nat.add_assoc]
  rw [blockFrame, blockFrame, hsame]

end Samples

section Mixing

variable {s : NS6TransportShared}

def mixOnTime (s : NS6TransportShared) (source : Bytes) (t : UInt64) (count : UInt32)
    (format : AudioStreamBasicDescription) : Bool × NS6TransportShared :=
  if t < s.readCursor then
    if s.readCursor - t ≥ count.toUInt64 then (true, s)
    else s.mixAligned
      (blockFrame (source.drop ((s.readCursor - t).toNat * format.bytesPerFrame.toNat)) format)
      s.readCursor (count - (s.readCursor - t).toUInt32)
  else s.mixAligned (blockFrame source format) t count

variable {source : Bytes} {t : UInt64} {count : UInt32} {format : AudioStreamBasicDescription}

theorem mixOnTime_ahead (h : s.readCursor ≤ t) :
    s.mixOnTime source t count format = s.mixAligned (blockFrame source format) t count :=
  if_neg (UInt64.not_lt.mpr h)

theorem mixOnTime_past (h : t.toNat + count.toNat ≤ s.readCursor.toNat) (hlate : t < s.readCursor) :
    s.mixOnTime source t count format = (true, s) := by
  have hall : s.readCursor - t ≥ count.toUInt64 := by
    rw [ge_iff_le, UInt64.le_iff_toNat_le, UInt64.toNat_sub_of_le _ _ (UInt64.le_of_lt hlate),
      UInt32.toNat_toUInt64]
    omega
  rw [mixOnTime, if_pos hlate, if_pos hall]

theorem mixOnTime_late (source : Bytes) (format : AudioStreamBasicDescription)
    (hlate : t < s.readCursor) (hrest : s.readCursor.toNat < t.toNat + count.toNat) :
    ∃ rest : UInt32, s.readCursor.toNat + rest.toNat = t.toNat + count.toNat ∧
      s.mixOnTime source t count format = s.mixAligned
        (fun i ↦ blockFrame source format (s.readCursor.toNat - t.toNat + i)) s.readCursor rest := by
  have hlt := UInt64.lt_iff_toNat_lt.mp hlate
  have hcount := count.toNat_lt
  have hsub : (s.readCursor - t).toNat = s.readCursor.toNat - t.toNat :=
    UInt64.toNat_sub_of_le _ _ (UInt64.le_of_lt hlate)
  have hsub32 : (s.readCursor - t).toUInt32.toNat = s.readCursor.toNat - t.toNat := by
    rw [UInt64.toNat_toUInt32, hsub]
    exact Nat.mod_eq_of_lt (by omega)
  have hsome : ¬ s.readCursor - t ≥ count.toUInt64 := by
    rw [ge_iff_le, UInt64.le_iff_toNat_le, hsub, UInt32.toNat_toUInt64]
    omega
  have hframes : blockFrame (source.drop ((s.readCursor - t).toNat * format.bytesPerFrame.toNat))
      format = fun i ↦ blockFrame source format (s.readCursor.toNat - t.toNat + i) := by
    funext i
    rw [hsub, blockFrame_drop]
  refine ⟨count - (s.readCursor - t).toUInt32, ?_, ?_⟩
  · rw [UInt32.toNat_sub_of_le, hsub32]
    · omega
    · rw [UInt32.le_iff_toNat_le, hsub32]
      omega
  · rw [mixOnTime, if_pos hlate, if_neg hsome, hframes]

/-- The timeline begins with the block, moves to it, or stays. -/
theorem align_cases (s : NS6TransportShared) (t : UInt64) :
    (s.initialized = false ∧ s.align t = s.startAt t) ∨
      (s.initialized = true ∧ s.rebases t = true ∧
        s.align t = { s with readCursor := t, highWater := t }) ∨
      (s.initialized = true ∧ s.rebases t = false ∧ s.align t = s) := by
  rw [align]
  by_cases hinit : s.initialized = true
  · rw [if_pos hinit]
    by_cases hrebases : s.rebases t = true
    · exact .inr (.inl ⟨hinit, hrebases, if_pos hrebases⟩)
    · exact .inr (.inr ⟨hinit, Bool.eq_false_of_not_eq_true hrebases, if_neg hrebases⟩)
  · have hself : distance t t = 0 := by
      rw [distance, if_neg (UInt64.lt_irrefl t), UInt64.sub_self]
    have hstay : (s.startAt t).rebases t = false := by
      rw [rebases, startAt, hself]
      rfl
    rw [if_neg hinit, hstay]
    exact .inl ⟨Bool.eq_false_of_not_eq_true hinit, if_neg Bool.false_ne_true⟩

def passes (input : Option Bytes) (t : UInt64) (count : UInt32) (format : AudioStreamBasicDescription) :
    Bool :=
  input.isSome && format.valid && count != 0 && decide (t ≤ 0xffffffffffffffff - count.toUInt64)

theorem mixAt_of_passes {input : Option Bytes} {t : UInt64} {count : UInt32}
    {format : AudioStreamBasicDescription} (h : passes input t count format = true) :
    s.mixAt input t count (some format) =
      (s.align t).mixOnTime (input.getD fun _ ↦ 0) t count format := by
  simp only [passes, Bool.and_eq_true, bne_iff_ne, decide_eq_true_eq] at h
  obtain ⟨⟨⟨hinput, hvalid⟩, hcount⟩, hend⟩ := h
  have hgood : ¬ ((input.isNone ∧ count ≠ 0) ∨ format.valid = false) := by
    rintro (⟨hnone, -⟩ | hinvalid)
    · rw [Option.isNone_iff_eq_none] at hnone
      rw [hnone] at hinput
      cases hinput
    · rw [hvalid] at hinvalid
      cases hinvalid
  rw [mixAt, if_neg hgood, if_neg hcount, if_neg (UInt64.not_lt.mpr hend)]
  rfl

theorem mixAt_of_not_passes {input : Option Bytes} {t : UInt64} {count : UInt32}
    {format : AudioStreamBasicDescription} (h : ¬ passes input t count format = true) :
    (s.mixAt input t count (some format)).2 = s := by
  rw [mixAt]
  by_cases hbad : (input.isNone ∧ count ≠ 0) ∨ format.valid = false
  · rw [if_pos hbad]
  rw [if_neg hbad]
  by_cases hzero : count = 0
  · rw [if_pos hzero]
  rw [if_neg hzero]
  by_cases hend : t > 0xffffffffffffffff - count.toUInt64
  · rw [if_pos hend]
  · obtain ⟨hinput, hvalid⟩ := not_or.mp hbad
    refine absurd ?_ h
    simp only [passes, Bool.and_eq_true, bne_iff_ne, decide_eq_true_eq]
    refine ⟨⟨⟨?_, Bool.eq_true_of_not_eq_false hvalid⟩, hzero⟩, UInt64.not_lt.mp hend⟩
    cases input with
    | none => exact absurd ⟨rfl, hzero⟩ hinput
    | some bytes => rfl

end Mixing

end NS6TransportShared

end NumarkNS6.Legacy
