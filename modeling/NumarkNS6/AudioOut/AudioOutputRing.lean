import NumarkNS6.Foundation.CircularStore
import Mathlib.Algebra.Order.Floor.Ring
import Mathlib.Data.Rat.Floor

namespace NumarkNS6.AudioOut

open Foundation.CircularStore

/-- The sample ring of the output path. `samples` is the flat interleaved
vector; the two frame indices run freely modulo `2 ^ 32`. Samples are copied
without being looked at, so their type is left open. -/
structure AudioOutputRing (α : Type) where
  capacityFrames : UInt32
  channels : UInt32
  samples : List α
  writeFrame : UInt32
  readFrame : UInt32
  readFraction : ℚ
  deriving DecidableEq

namespace AudioOutputRing

variable {α : Type}

def uint32Max : ℕ := 2 ^ 32 - 1
def sizeMax : ℕ := 2 ^ 64 - 1

def construct [Zero α] (capacityFrames channels : UInt32) : Except String (AudioOutputRing α) :=
  if capacityFrames = 0 ∨ capacityFrames.toNat > uint32Max / 2 ∨
      channels = 0 ∨ channels.toNat > sizeMax / capacityFrames.toNat then
    .error "invalid audio ring dimensions"
  else
    .ok {
      capacityFrames, channels
      samples := List.replicate (capacityFrames.toNat * channels.toNat) 0
      writeFrame := 0, readFrame := 0, readFraction := 0 }

/-- The frame counts of one transfer: `count` frames starting at slot `offset`,
of which `firstFrames` lie before the end of the ring. -/
structure Transfer where
  count : UInt32
  offset : UInt32
  firstFrames : UInt32
  remainingFrames : UInt32
  deriving DecidableEq

def transfer (ring : AudioOutputRing α) (start count : UInt32) : Transfer :=
  let offset := start % ring.capacityFrames
  let firstFrames := min count (ring.capacityFrames - offset)
  { count, offset, firstFrames, remainingFrames := count - firstFrames }

def writeTransfer (ring : AudioOutputRing α) (writeFrame readFrame frames : UInt32) : Transfer :=
  let used := writeFrame - readFrame
  ring.transfer writeFrame (min frames (ring.capacityFrames - used))

def readTransfer (ring : AudioOutputRing α) (readFrame writeFrame frames : UInt32) : Transfer :=
  let available := writeFrame - readFrame
  ring.transfer readFrame (min frames available)

def firstSamples (ring : AudioOutputRing α) (t : Transfer) : ℕ :=
  t.firstFrames.toNat * ring.channels.toNat

def remainingSamples (ring : AudioOutputRing α) (t : Transfer) : ℕ :=
  t.remainingFrames.toNat * ring.channels.toNat

def offsetSamples (ring : AudioOutputRing α) (t : Transfer) : ℕ :=
  t.offset.toNat * ring.channels.toNat

def copyInFirst (ring : AudioOutputRing α) (t : Transfer) (interleaved : List α) :
    AudioOutputRing α :=
  { ring with
    samples := splice ring.samples (ring.offsetSamples t)
      (interleaved.take (ring.firstSamples t)) }

def copyInRest (ring : AudioOutputRing α) (t : Transfer) (interleaved : List α) :
    AudioOutputRing α :=
  if t.remainingFrames ≠ 0 then
    { ring with
      samples := splice ring.samples 0
        ((interleaved.drop (ring.firstSamples t)).take (ring.remainingSamples t)) }
  else ring

def copyOutFirst (ring : AudioOutputRing α) (t : Transfer) : List α :=
  slice ring.samples (ring.offsetSamples t) (ring.firstSamples t)

def copyOutRest (ring : AudioOutputRing α) (t : Transfer) : List α :=
  if t.remainingFrames ≠ 0 then slice ring.samples 0 (ring.remainingSamples t) else []

def storeWriteFrame (ring : AudioOutputRing α) (frame : UInt32) : AudioOutputRing α :=
  { ring with writeFrame := frame }

def storeReadFrame (ring : AudioOutputRing α) (frame : UInt32) : AudioOutputRing α :=
  { ring with readFrame := frame }

/-- `write`; a null source is `none`. Returns the accepted frame count. -/
def write (ring : AudioOutputRing α) (interleaved : Option (List α)) (frames : UInt32) :
    UInt32 × AudioOutputRing α :=
  match interleaved with
  | none => (0, ring)
  | some source =>
    if frames = 0 then (0, ring) else
      let writeFrame := ring.writeFrame
      let readFrame := ring.readFrame
      let t := ring.writeTransfer writeFrame readFrame frames
      let ring := ring.copyInFirst t source
      let ring := ring.copyInRest t source
      (t.count, ring.storeWriteFrame (writeFrame + t.count))

/-- `read` into a buffer that may be null. Returns the frame count and the
samples copied out. -/
def read (ring : AudioOutputRing α) (buffer : Bool) (frames : UInt32) :
    UInt32 × List α × AudioOutputRing α :=
  if buffer = false ∨ frames = 0 then (0, [], ring) else
    let readFrame := ring.readFrame
    let writeFrame := ring.writeFrame
    let t := ring.readTransfer readFrame writeFrame frames
    let interleaved := ring.copyOutFirst t ++ ring.copyOutRest t
    (t.count, interleaved, ring.storeReadFrame (readFrame + t.count))

theorem write_eq (ring : AudioOutputRing α) (source : List α) {frames : UInt32}
    (h : frames ≠ 0) : ring.write (some source) frames =
      let t := ring.writeTransfer ring.writeFrame ring.readFrame frames
      (t.count, ((ring.copyInFirst t source).copyInRest t source).storeWriteFrame
        (ring.writeFrame + t.count)) := by
  simp only [write, if_neg h]

theorem read_eq (ring : AudioOutputRing α) {frames : UInt32} (h : frames ≠ 0) :
    ring.read true frames =
      let t := ring.readTransfer ring.readFrame ring.writeFrame frames
      (t.count, ring.copyOutFirst t ++ ring.copyOutRest t,
        ring.storeReadFrame (ring.readFrame + t.count)) := by
  simp only [read, Bool.true_eq_false, h, or_self, if_false]

def availableFrames (ring : AudioOutputRing α) : UInt32 :=
  min (ring.writeFrame - ring.readFrame) ring.capacityFrames

def usableStep (sourceStep : ℚ) : ℚ :=
  if sourceStep < 1 / 2 ∨ sourceStep > 3 / 2 then 1 else sourceStep

def truncate (phase : ℚ) : UInt32 := UInt32.ofNat ⌊phase⌋₊

def sampleAt [Zero α] (ring : AudioOutputRing α) (slot : UInt32) (channel : ℕ) : α :=
  ring.samples.getD (slot.toNat * ring.channels.toNat + channel) 0

structure Resampled (α : Type) where
  produced : ℕ
  phase : ℚ
  interleaved : List α
  deriving DecidableEq

section Arithmetic

variable [Zero α] [Add α] [Sub α] [Mul α] [RatCast α]

/-- One output frame. The phase and its fraction are exact; the samples are combined in
their own arithmetic. -/
def resampledFrame (ring : AudioOutputRing α) (readFrame available : UInt32) (phase : ℚ) :
    List α :=
  let firstOffset := truncate phase
  let fraction := phase - firstOffset.toNat
  let secondOffset := firstOffset + if fraction > 0 ∧ firstOffset + 1 < available then 1 else 0
  let firstSlot := (readFrame + firstOffset) % ring.capacityFrames
  let secondSlot := (readFrame + secondOffset) % ring.capacityFrames
  (List.range ring.channels.toNat).map fun channel ↦
    let first := ring.sampleAt firstSlot channel
    let second := ring.sampleAt secondSlot channel
    first + (fraction : α) * (second - first)

def resampleLoop (ring : AudioOutputRing α) (readFrame available : UInt32) (sourceStep : ℚ) :
    ℕ → Resampled α → Resampled α
  | 0, r => r
  | remaining + 1, r =>
    if truncate r.phase ≥ available then r
    else ring.resampleLoop readFrame available sourceStep remaining {
      produced := r.produced + 1
      phase := r.phase + sourceStep
      interleaved := r.interleaved ++ ring.resampledFrame readFrame available r.phase }

def readResampled (ring : AudioOutputRing α) (buffer : Bool) (frames : UInt32)
    (sourceStep : ℚ) : UInt32 × List α × AudioOutputRing α :=
  if buffer = false ∧ frames ≠ 0 then (0, [], ring) else
    let sourceStep := usableStep sourceStep
    let readFrame := ring.readFrame
    let writeFrame := ring.writeFrame
    let available := min (writeFrame - readFrame) ring.capacityFrames
    let r := ring.resampleLoop readFrame available sourceStep frames.toNat
      { produced := 0, phase := ring.readFraction, interleaved := [] }
    let consumed := min (truncate r.phase) available
    (UInt32.ofNat r.produced, r.interleaved,
      { ring with
        readFraction := r.phase - ⌊r.phase⌋
        readFrame := readFrame + consumed })

end Arithmetic

def advanceResampled (ring : AudioOutputRing α) (frames : UInt32) (sourceStep : ℚ) :
    AudioOutputRing α :=
  let sourceStep := usableStep sourceStep
  let phase := ring.readFraction + frames.toNat * sourceStep
  let consumed := min (truncate phase) ring.availableFrames
  { ring with
    readFraction := phase - ⌊phase⌋
    readFrame := ring.readFrame + consumed }

inductive Call (α : Type)
  | write (interleaved : Option (List α)) (frames : UInt32)
  | read (buffer : Bool) (frames : UInt32)
  | readResampled (buffer : Bool) (frames : UInt32) (sourceStep : ℚ)
  | advanceResampled (frames : UInt32) (sourceStep : ℚ)

namespace Call

def frames : Call α → UInt32
  | .write _ frames => frames
  | .read _ frames => frames
  | .readResampled _ frames _ => frames
  | .advanceResampled frames _ => frames

def source : Call α → List α
  | .write (some interleaved) _ => interleaved
  | _ => []

def Fits (channels : UInt32) : Call α → Prop
  | .write (some interleaved) frames => interleaved.length = frames.toNat * channels.toNat
  | _ => True

instance (channels : UInt32) (c : Call α) : Decidable (c.Fits channels) := by
  cases c with
  | write interleaved frames =>
    cases interleaved with
    | none => exact .isTrue trivial
    | some source => exact inferInstanceAs (Decidable (_ = _))
  | _ => exact .isTrue trivial

end Call

section Calls

variable [Zero α] [Add α] [Sub α] [Mul α] [RatCast α]

def call (ring : AudioOutputRing α) : Call α → UInt32 × List α × AudioOutputRing α
  | .write interleaved frames =>
    let (count, ring) := ring.write interleaved frames
    (count, [], ring)
  | .read buffer frames => ring.read buffer frames
  | .readResampled buffer frames sourceStep => ring.readResampled buffer frames sourceStep
  | .advanceResampled frames sourceStep => (0, [], ring.advanceResampled frames sourceStep)

def after (ring : AudioOutputRing α) (calls : List (Call α)) : AudioOutputRing α :=
  calls.foldl (fun ring c ↦ (ring.call c).2.2) ring

end Calls

end AudioOutputRing

end NumarkNS6.AudioOut
