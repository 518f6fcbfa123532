import NumarkNS6.Foundation.CircularTable
import Mathlib.Data.UInt

namespace NumarkNS6.Legacy

open Foundation.CircularTable

/-- What the clock control is compiled with. -/
structure ClockBuild where
  adaptiveClock : Bool
  feedbackPatternScheduler : Bool
  minOutputRateMillihz : UInt64

namespace ClockBuild

def adaptive : ClockBuild := ⟨true, false, 44000000⟩

def pattern : ClockBuild := ⟨true, true, 44000000⟩

def usesPattern (b : ClockBuild) : Bool := b.adaptiveClock && b.feedbackPatternScheduler

end ClockBuild

structure NS6ClockControl where
  feedbackSum : UInt64
  rateMillihz : UInt64
  requestedTotal : UInt64
  sentTotal : UInt64
  fixedFraction : UInt64
  adaptiveFractionMillionths : UInt64
  feedbackCount : UInt32
  feedbackIndex : UInt32
  locked : Bool
  targetFramesPerMs : UInt8
  feedbackWindow : Table UInt8 40000
  patternQueue : Table UInt8 256
  patternQueueRead : UInt16
  patternQueueCount : UInt16

namespace NS6ClockControl

def nominalRateMillihz : UInt64 := 44100000

def maxOutputRateMillihz : UInt64 := 44100300

def feedbackWindowSize : UInt32 := 40000

def patternQueueCapacity : UInt16 := 256

def feedbackValueIsValid (framesPerMs : UInt8) : Bool := framesPerMs ≥ 42 && framesPerMs ≤ 46

def init : NS6ClockControl where
  feedbackSum := 0
  rateMillihz := nominalRateMillihz
  requestedTotal := 0
  sentTotal := 0
  fixedFraction := 0
  adaptiveFractionMillionths := 0
  feedbackCount := 0
  feedbackIndex := 0
  locked := false
  targetFramesPerMs := 44
  feedbackWindow := .replicate _ 0
  patternQueue := .replicate _ 0
  patternQueueRead := 0
  patternQueueCount := 0

/-- All but the contents of the pattern queue starts over. -/
def resetFeedback (c : NS6ClockControl) : NS6ClockControl := { init with patternQueue := c.patternQueue }

variable (c : NS6ClockControl)

def enterWindow (framesPerMs : UInt8) : NS6ClockControl :=
  let c := if c.feedbackCount = feedbackWindowSize then
      { c with feedbackSum := c.feedbackSum -
          (c.feedbackWindow.read 0 c.feedbackIndex.toNat).toUInt64 }
    else { c with feedbackCount := c.feedbackCount + 1 }
  { c with
    feedbackWindow := c.feedbackWindow.write c.feedbackIndex.toNat framesPerMs
    feedbackSum := c.feedbackSum + framesPerMs.toUInt64
    feedbackIndex := (c.feedbackIndex + 1) % feedbackWindowSize }

def dropPattern : NS6ClockControl :=
  { c with
    patternQueueRead := (c.patternQueueRead + 1) % patternQueueCapacity
    patternQueueCount := c.patternQueueCount - 1 }

def queuePattern (framesPerMs : UInt8) : NS6ClockControl :=
  let c := if c.patternQueueCount = patternQueueCapacity then c.dropPattern else c
  let writeIndex := (c.patternQueueRead + c.patternQueueCount) % patternQueueCapacity
  { c with
    patternQueue := c.patternQueue.write writeIndex.toNat framesPerMs
    patternQueueCount := c.patternQueueCount + 1 }

def measureRate : NS6ClockControl :=
  if c.feedbackCount = feedbackWindowSize then
    { c with rateMillihz := c.feedbackSum * 1000000 / feedbackWindowSize.toUInt64 }
  else c

def observe (b : ClockBuild) (framesPerMs : UInt8) : NS6ClockControl :=
  if feedbackValueIsValid framesPerMs = false then c
  else
    let c := { c with
      targetFramesPerMs := framesPerMs
      requestedTotal := c.requestedTotal + framesPerMs.toUInt64
      locked := true }
    let c := c.enterWindow framesPerMs
    let c := if b.usesPattern then c.queuePattern framesPerMs else c
    c.measureRate

def outputRateMillihz (b : ClockBuild) : UInt64 :=
  if b.adaptiveClock then
    let rate := if c.locked && c.rateMillihz ≠ 0 then c.rateMillihz else nominalRateMillihz
    let rate := if rate < b.minOutputRateMillihz then b.minOutputRateMillihz else rate
    if rate > maxOutputRateMillihz then maxOutputRateMillihz else rate
  else nominalRateMillihz

/-- The nominal cadence: 44 frames, and 45 whenever ten tenths add up. -/
def fixedFrames : UInt32 × NS6ClockControl :=
  let fraction := c.fixedFraction + 100
  if fraction ≥ 1000 then (45, { c with fixedFraction := fraction - 1000 })
  else (44, { c with fixedFraction := fraction })

def patternFrames : UInt32 × NS6ClockControl :=
  if c.patternQueueCount ≠ 0 then
    ((c.patternQueue.read 0 c.patternQueueRead.toNat).toUInt32, c.dropPattern)
  else c.fixedFrames

def rateFrames (b : ClockBuild) : UInt32 × NS6ClockControl :=
  let rate := c.outputRateMillihz b
  let frames := (rate / 1000000).toUInt32
  let fraction := c.adaptiveFractionMillionths + rate % 1000000
  if fraction ≥ 1000000 then
    (frames + 1, { c with adaptiveFractionMillionths := fraction - 1000000 })
  else (frames, { c with adaptiveFractionMillionths := fraction })

def clampFrames (framesPerMs : UInt32) : UInt32 :=
  let framesPerMs := if framesPerMs < 40 then 40 else framesPerMs
  if framesPerMs > 48 then 48 else framesPerMs

def adaptiveFrames (b : ClockBuild) : UInt32 × NS6ClockControl :=
  (clampFrames (c.rateFrames b).1, (c.rateFrames b).2)

def patterns : List (List UInt8) :=
  [[6, 5, 5, 5, 6, 5, 5, 5],
   [5, 5, 6, 5, 6, 5, 6, 5],
   [6, 5, 6, 5, 6, 5, 6, 5],
   [6, 6, 5, 6, 5, 6, 5, 6],
   [5, 6, 6, 6, 5, 6, 6, 6]]

def patternPackets (framesPerMs : UInt32) : List UInt32 :=
  (patterns.getD (framesPerMs - 42).toNat []).map UInt8.toUInt32

def spreadLoop (base remainder : UInt32) : ℕ → UInt32 → List UInt32
  | 0, _ => []
  | n + 1, accumulator =>
    let accumulator := accumulator + remainder
    if accumulator ≥ 8 then (base + 1) :: spreadLoop base remainder n (accumulator - 8)
    else base :: spreadLoop base remainder n accumulator

def spread (framesPerMs : UInt32) : List UInt32 := spreadLoop (framesPerMs / 8) (framesPerMs % 8) 8 0

def framesPerMs (b : ClockBuild) : UInt32 × NS6ClockControl :=
  if b.usesPattern then c.patternFrames
  else if b.adaptiveClock then c.adaptiveFrames b
  else c.fixedFrames

def nextMillisecond (b : ClockBuild) : List UInt32 × NS6ClockControl :=
  let frames := (c.framesPerMs b).1
  let c := (c.framesPerMs b).2
  (if b.usesPattern then patternPackets frames else spread frames,
    { c with sentTotal := c.sentTotal + frames.toUInt64 })

inductive Op
  | observe (framesPerMs : UInt8)
  | nextMillisecond
  deriving DecidableEq

def step (b : ClockBuild) : Op → List UInt32 × NS6ClockControl
  | .observe v => ([], c.observe b v)
  | .nextMillisecond => c.nextMillisecond b

/-- The packets of the calls `ops`, in one list for each of them. -/
def packets (b : ClockBuild) (c : NS6ClockControl) : List Op → List (List UInt32)
  | [] => []
  | op :: ops => (c.step b op).1 :: packets b (c.step b op).2 ops

def after (b : ClockBuild) (ops : List Op) : NS6ClockControl :=
  ops.foldl (fun c op ↦ (c.step b op).2) c

end NS6ClockControl

end NumarkNS6.Legacy
