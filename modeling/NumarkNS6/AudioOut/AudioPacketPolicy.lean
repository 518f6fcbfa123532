import NumarkNS6.Foundation.CircularTable
import Mathlib.Algebra.Order.Field.Rat
import Mathlib.Data.UInt

namespace NumarkNS6.AudioOut

open Foundation.CircularTable

namespace AudioFeedbackPatternPolicy

def packetsPerMillisecond : ℕ := 8

def minimumFrames : UInt8 := 42

def maximumFrames : UInt8 := 46

def patterns : List (Table UInt8 packetsPerMillisecond) :=
  [⟨[6, 5, 5, 5, 6, 5, 5, 5], rfl⟩,
   ⟨[5, 5, 6, 5, 6, 5, 6, 5], rfl⟩,
   ⟨[6, 5, 6, 5, 6, 5, 6, 5], rfl⟩,
   ⟨[6, 6, 5, 6, 5, 6, 5, 6], rfl⟩,
   ⟨[5, 6, 6, 6, 5, 6, 6, 6], rfl⟩]

/-- The packet sizes of one millisecond, or `none` where the source returns false. -/
def build (framesPerMillisecond : UInt8) : Option (Table UInt8 packetsPerMillisecond) :=
  if framesPerMillisecond < minimumFrames ∨ framesPerMillisecond > maximumFrames then none
  else patterns[(framesPerMillisecond - minimumFrames).toNat]?

end AudioFeedbackPatternPolicy

open AudioFeedbackPatternPolicy

structure AudioPacketPolicy where
  wholeFrames : UInt32
  remainderFrames : UInt32
  serviceIntervalsPerSecond : UInt32
  sampleRateHz : UInt32
  phase : UInt64
  feedbackPattern : Table UInt8 packetsPerMillisecond
  patternHistory : Table UInt8 128
  patternHistoryCursor : ℕ
  reacquisitionReference : ℕ
  patternLocked : Bool
  feedbackQueue : Table UInt8 32
  feedbackQueueRead : ℕ
  feedbackQueueCount : ℕ
  feedbackWindow : Table UInt8 40000
  feedbackSum : UInt64
  feedbackCount : ℕ
  feedbackIndex : ℕ
  measuredClockMilliHz : UInt64
  patternIndex : UInt8
  nominalFraction : UInt32

namespace AudioPacketPolicy

def historySize : ℕ := 128

def queueCapacity : ℕ := 32

def feedbackWindowSize : ℕ := 40000

def initialHistory (i : ℕ) : UInt8 := UInt8.ofNat (5 + i % 2 + if i % 80 = 0 then 1 else 0)

/-- The members as the constructor leaves them, for rates that are not zero. -/
def make (sampleRateHz serviceIntervalsPerSecond : UInt32) : AudioPacketPolicy where
  wholeFrames := sampleRateHz / serviceIntervalsPerSecond
  remainderFrames := sampleRateHz % serviceIntervalsPerSecond
  serviceIntervalsPerSecond := serviceIntervalsPerSecond
  sampleRateHz := sampleRateHz
  phase := 0
  feedbackPattern := (build 44).getD (.replicate _ 0)
  patternHistory := .tabulate _ initialHistory
  patternHistoryCursor := 0
  reacquisitionReference := 0
  patternLocked := false
  feedbackQueue := .replicate _ 0
  feedbackQueueRead := 0
  feedbackQueueCount := 0
  feedbackWindow := .replicate _ 0
  feedbackSum := 0
  feedbackCount := 0
  feedbackIndex := 0
  measuredClockMilliHz := sampleRateHz.toUInt64 * 1000
  patternIndex := 0
  nominalFraction := 0

def construct (sampleRateHz serviceIntervalsPerSecond : UInt32) : Except String AudioPacketPolicy :=
  if sampleRateHz = 0 ∨ serviceIntervalsPerSecond = 0 then
    .error "sample rate and USB service rate must be nonzero"
  else .ok (make sampleRateHz serviceIntervalsPerSecond)

theorem construct_eq {sampleRateHz serviceIntervalsPerSecond : UInt32} {p : AudioPacketPolicy}
    (h : construct sampleRateHz serviceIntervalsPerSecond = .ok p) :
    sampleRateHz ≠ 0 ∧ serviceIntervalsPerSecond ≠ 0 ∧
      p = make sampleRateHz serviceIntervalsPerSecond := by
  unfold construct at h
  split_ifs at h with hzero
  obtain ⟨hrate, hservice⟩ := not_or.mp hzero
  exact ⟨hrate, hservice, (Except.ok.inj h).symm⟩

def record (p : AudioPacketPolicy) (packets : List UInt8) : AudioPacketPolicy :=
  { p with
    patternHistory := p.patternHistory.put p.patternHistoryCursor packets
    patternHistoryCursor := (p.patternHistoryCursor + packetsPerMillisecond) % historySize }

def follow (p : AudioPacketPolicy) (selected : Table UInt8 packetsPerMillisecond) :
    AudioPacketPolicy :=
  let p := { p with feedbackPattern := selected }.record selected.cells
  if p.patternHistoryCursor = p.reacquisitionReference then { p with patternLocked := true } else p

theorem get_length {n : ℕ} (t : Table UInt8 n) (q k : ℕ) : (t.get 0 q k).length = k := by
  simp [Table.get]

/-- A feedback value that has none: the history predicts the pattern. -/
def predict (p : AudioPacketPolicy) : AudioPacketPolicy :=
  let predicted : Table UInt8 packetsPerMillisecond :=
    ⟨p.patternHistory.get 0 p.patternHistoryCursor packetsPerMillisecond, get_length _ _ _⟩
  { p with
    patternLocked := false
    reacquisitionReference := p.patternHistoryCursor
    feedbackPattern := predicted }.record predicted.cells

def nominal (p : AudioPacketPolicy) : AudioPacketPolicy :=
  let fraction := p.nominalFraction + 100
  let framesPerMillisecond : UInt8 := 44 + if fraction ≥ 1000 then 1 else 0
  { p with
    nominalFraction := if fraction ≥ 1000 then fraction - 1000 else fraction
    feedbackPattern := (build framesPerMillisecond).getD p.feedbackPattern }

def dropFeedback (p : AudioPacketPolicy) : AudioPacketPolicy :=
  { p with
    feedbackQueueRead := (p.feedbackQueueRead + 1) % queueCapacity
    feedbackQueueCount := p.feedbackQueueCount - 1 }

def beginMillisecond (p : AudioPacketPolicy) : AudioPacketPolicy :=
  if p.feedbackQueueCount ≠ 0 then
    match build (p.feedbackQueue.read 0 p.feedbackQueueRead) with
    | some selected => p.dropFeedback.follow selected
    | none => p.dropFeedback.predict
  else p.nominal

def takePacket (p : AudioPacketPolicy) : UInt32 × AudioPacketPolicy :=
  ((p.feedbackPattern.read 0 p.patternIndex.toNat).toUInt32,
    { p with patternIndex := UInt8.ofNat ((p.patternIndex.toNat + 1) % packetsPerMillisecond) })

def nextPacketFrames (p : AudioPacketPolicy) : UInt32 × AudioPacketPolicy :=
  if p.serviceIntervalsPerSecond = 8000 then
    (if p.patternIndex = 0 then p.beginMillisecond else p).takePacket
  else
    let phase := p.phase + p.remainderFrames.toUInt64
    if phase ≥ p.serviceIntervalsPerSecond.toUInt64 then
      (p.wholeFrames + 1, { p with phase := phase - p.serviceIntervalsPerSecond.toUInt64 })
    else (p.wholeFrames, { p with phase := phase })

def enqueue (p : AudioPacketPolicy) (feedback : UInt8) : AudioPacketPolicy :=
  let p := if p.feedbackQueueCount = queueCapacity then p.dropFeedback else p
  { p with
    feedbackQueue := p.feedbackQueue.write (p.feedbackQueueRead + p.feedbackQueueCount) feedback
    feedbackQueueCount := p.feedbackQueueCount + 1 }

def measure (p : AudioPacketPolicy) (framesPerMillisecond : UInt8) : AudioPacketPolicy :=
  let full := p.feedbackCount = feedbackWindowSize
  let kept := if full then p.feedbackSum - (p.feedbackWindow.read 0 p.feedbackIndex).toUInt64
    else p.feedbackSum
  let count := if full then p.feedbackCount else p.feedbackCount + 1
  let sum := kept + framesPerMillisecond.toUInt64
  { p with
    feedbackCount := count
    feedbackWindow := p.feedbackWindow.write p.feedbackIndex framesPerMillisecond
    feedbackSum := sum
    feedbackIndex := (p.feedbackIndex + 1) % feedbackWindowSize
    measuredClockMilliHz :=
      if count = feedbackWindowSize then sum * 1000000 / 40000 else p.measuredClockMilliHz }

def observeFeedback (p : AudioPacketPolicy) (framesPerMillisecond : UInt8) : AudioPacketPolicy :=
  if framesPerMillisecond ≥ minimumFrames ∧ framesPerMillisecond ≤ maximumFrames then
    (p.measure framesPerMillisecond).enqueue framesPerMillisecond
  else p

def observeInvalidFeedback (p : AudioPacketPolicy) : AudioPacketPolicy := p.enqueue 0

def minimumOutputRateMilliHz : UInt64 := 44100000

def maximumOutputRateMilliHz : UInt64 := 44100300

def queueTargetFrames : ℚ := 4096

def effectiveClockMilliHz (p : AudioPacketPolicy) : UInt64 :=
  if p.measuredClockMilliHz < minimumOutputRateMilliHz then minimumOutputRateMilliHz
  else if maximumOutputRateMilliHz < p.measuredClockMilliHz then maximumOutputRateMilliHz
  else p.measuredClockMilliHz

theorem effectiveClockMilliHz_toNat (p : AudioPacketPolicy) : p.effectiveClockMilliHz.toNat =
    max 44100000 (min 44100300 p.measuredClockMilliHz.toNat) := by
  have hlow : p.measuredClockMilliHz < minimumOutputRateMilliHz ↔
      p.measuredClockMilliHz.toNat < 44100000 := UInt64.lt_iff_toNat_lt
  have hhigh : maximumOutputRateMilliHz < p.measuredClockMilliHz ↔
      44100300 < p.measuredClockMilliHz.toNat := UInt64.lt_iff_toNat_lt
  rw [effectiveClockMilliHz]
  split_ifs with h₁ h₂
  · rw [hlow] at h₁
    change 44100000 = _
    omega
  · rw [hhigh] at h₂
    change 44100300 = _
    omega
  · rw [hlow] at h₁
    rw [hhigh] at h₂
    omega

def clamp (v lo hi : ℚ) : ℚ := if v < lo then lo else if hi < v then hi else v

theorem clamp_eq {lo hi : ℚ} (h : lo ≤ hi) (v : ℚ) : clamp v lo hi = max lo (min v hi) := by
  rw [clamp]
  split_ifs with h₁ h₂
  · rw [min_eq_left (h₁.le.trans h), max_eq_left h₁.le]
  · rw [min_eq_right h₂.le, max_eq_right h]
  · rw [min_eq_left (not_lt.mp h₂), max_eq_right (not_lt.mp h₁)]

theorem clamp_of_le {v lo hi : ℚ} (h : v ≤ lo) (hlh : lo ≤ hi) : clamp v lo hi = lo := by
  rw [clamp_eq hlh, max_eq_left ((min_le_left v hi).trans h)]

theorem clamp_of_ge {v lo hi : ℚ} (h : hi ≤ v) (hlh : lo ≤ hi) : clamp v lo hi = hi := by
  rw [clamp_eq hlh, min_eq_right h, max_eq_right hlh]

/-- The ratio of the clocks, trimmed towards the target fill of the queue, in
exact arithmetic where the source has `double`. -/
def sourceFramesPerOutputFrame (p : AudioPacketPolicy) (queuedFrames : UInt32) : ℚ :=
  let step := (p.sampleRateHz.toNat : ℚ) * 1000 / (p.effectiveClockMilliHz.toNat : ℚ)
  let trim := clamp (((queuedFrames.toNat : ℚ) - queueTargetFrames) * (2 / 1000000)) (-5 / 1000) (5 / 1000)
  clamp (step * (1 + trim)) (995 / 1000) (1005 / 1000)

end AudioPacketPolicy

end NumarkNS6.AudioOut
