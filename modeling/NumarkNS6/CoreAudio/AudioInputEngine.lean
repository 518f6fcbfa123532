import NumarkNS6.AudioIn.AudioInputDecoder
import NumarkNS6.AudioOut.RingUse

namespace NumarkNS6.CoreAudio

open AudioIn AudioOut Foundation.Runs

/-- The capture side of the driver: blocks are decoded and queued by the worker, and
taken out by `ReadInput`. Samples are exact where the source has `float`. -/
structure AudioInputEngine where
  ring : AudioOutputRing ℚ
  maxTransferFrames : UInt32
  targetFrames : UInt32
  primed : Bool
  lastDecoded : ℚ × ℚ
  hasLastDecoded : Bool
  anomalousBlock : List UInt8
  anomalousBytes : ℕ
  anomalousPrevious : ℚ × ℚ
  anomalyCaptured : Bool
  anomalySaved : Bool
  droppedCaptureFrames : UInt64
  starvationFrames : UInt64
  malformedBlocks : UInt64
  decodedNonZeroSamples : UInt64
  unexpectedUSBBytes : UInt64
  largeSampleJumps : UInt64

namespace AudioInputEngine

def fresh (ring : AudioOutputRing ℚ) (maxTransferFrames targetFrames : UInt32) :
    AudioInputEngine where
  ring := ring
  maxTransferFrames := maxTransferFrames
  targetFrames := targetFrames
  primed := false
  lastDecoded := (0, 0)
  hasLastDecoded := false
  anomalousBlock :=
    List.replicate (maxTransferFrames.toNat * AudioInputDecoder.sourceStrideBytes) 0
  anomalousBytes := 0
  anomalousPrevious := (0, 0)
  anomalyCaptured := false
  anomalySaved := false
  droppedCaptureFrames := 0
  starvationFrames := 0
  malformedBlocks := 0
  decodedNonZeroSamples := 0
  unexpectedUSBBytes := 0
  largeSampleJumps := 0

def construct (ringCapacityFrames maxTransferFrames : UInt32) : Except String AudioInputEngine :=
  match AudioOutputRing.construct ringCapacityFrames (UInt32.ofNat AudioInputDecoder.channelCount) with
  | .error message => .error message
  | .ok ring =>
    if maxTransferFrames = 0 then .error "maxTransferFrames must be nonzero"
    else .ok (fresh ring maxTransferFrames (if ringCapacityFrames ≥ 4096 then 2048 else 0))

theorem construct_fresh {ringCapacityFrames maxTransferFrames : UInt32} {e : AudioInputEngine}
    (h : construct ringCapacityFrames maxTransferFrames = .ok e) :
    ∃ ring targetFrames, e = fresh ring maxTransferFrames targetFrames := by
  rw [construct] at h
  split at h
  · cases h
  · next ring _ =>
    by_cases hmax : maxTransferFrames = 0
    · rw [if_pos hmax] at h
      cases h
    · rw [if_neg hmax] at h
      exact ⟨ring, _, (Except.ok.inj h).symm⟩

structure Inspection where
  peak : ℚ
  largeJumps : UInt64
  lastDecoded : ℚ × ℚ
  hasLastDecoded : Bool

def Inspection.next (i : Inspection) (left right : ℚ) : Inspection where
  peak := max (max i.peak |left|) |right|
  largeJumps := i.largeJumps + if i.hasLastDecoded = true ∧
    (|left - i.lastDecoded.1| > 1 / 2 ∨ |right - i.lastDecoded.2| > 1 / 2) then 1 else 0
  lastDecoded := (left, right)
  hasLastDecoded := true

def inspectFrames (e : AudioInputEngine) (decoded : List ℚ) (frames : ℕ) : Inspection :=
  (List.range frames).foldl
    (fun i frame ↦ i.next (decoded.getD (frame * 2) 0) (decoded.getD (frame * 2 + 1) 0))
    ⟨0, 0, e.lastDecoded, e.hasLastDecoded⟩

/-- The statistics of a block, and the one anomalous block that is kept. -/
def inspect (e : AudioInputEngine) (block : List UInt8) (decoded : List ℚ) (frames : ℕ) :
    AudioInputEngine :=
  let i := e.inspectFrames decoded frames
  let e' := { e with
    unexpectedUSBBytes :=
      e.unexpectedUSBBytes + UInt64.ofNat (block.countP fun byte ↦ byte &&& 0xfe ≠ 0)
    lastDecoded := i.lastDecoded
    hasLastDecoded := i.hasLastDecoded
    largeSampleJumps := e.largeSampleJumps + i.largeJumps
    decodedNonZeroSamples := e.decodedNonZeroSamples + UInt64.ofNat
      ((decoded.take (frames * AudioInputDecoder.channelCount)).countP fun sample ↦ sample ≠ 0) }
  if i.largeJumps ≥ 4 ∧ i.peak > 3 / 4 ∧ e.anomalySaved = false ∧ e.anomalyCaptured = false then
    { e' with
      anomalousBlock := block ++ e.anomalousBlock.drop block.length
      anomalousBytes := block.length
      anomalousPrevious := e.lastDecoded
      anomalyCaptured := true }
  else e'

/-- `publishUSBBlock`; a null block is `none`. Returns the frames the ring accepted. -/
def publishUSBBlock (e : AudioInputEngine) (block : Option (List UInt8)) :
    UInt32 × AudioInputEngine :=
  let decoded := AudioInputDecoder.decode block true e.maxTransferFrames.toNat
  if decoded.1 = 0 then (0, { e with malformedBlocks := e.malformedBlocks + 1 })
  else
    let frameCount := UInt32.ofNat decoded.1
    let e := e.inspect (block.getD []) decoded.2 decoded.1
    let w := e.ring.write (some decoded.2) frameCount
    (w.1, { e with
      ring := w.2
      droppedCaptureFrames := e.droppedCaptureFrames + (frameCount - w.1).toUInt64 })

def takeAnomalousBlock (e : AudioInputEngine) :
    Option (List UInt8 × ℕ × ℚ × ℚ) × AudioInputEngine :=
  if e.anomalyCaptured = false then (none, e)
  else (some (e.anomalousBlock, e.anomalousBytes, e.anomalousPrevious),
    { e with anomalyCaptured := false, anomalySaved := true })

def silence (frames : UInt32) : List ℚ :=
  List.replicate (frames.toNat * AudioInputDecoder.channelCount) 0

/-- The source frames per output frame: the further the queue is from its target, the
more it is drained. -/
def sourceStep (e : AudioInputEngine) (queued : UInt32) : ℚ :=
  if e.targetFrames = 0 then 1
  else AudioPacketPolicy.clamp (1 + ((queued.toNat : ℚ) - e.targetFrames.toNat) * (1 / 1000000))
    (998 / 1000) (1002 / 1000)

def drawn (e : AudioInputEngine) (frames : UInt32) : UInt32 × List ℚ × AudioOutputRing ℚ :=
  if e.targetFrames = 0 then e.ring.read true frames
  else e.ring.readResampled true frames (e.sourceStep e.ring.availableFrames)

/-- `readInput` into a buffer that may be null: the returned frame count, what the
buffer is filled with, and the engine afterwards. -/
def readInput (e : AudioInputEngine) (interleaved : Bool) (frames : UInt32) :
    UInt32 × List ℚ × AudioInputEngine :=
  if interleaved = false ∨ frames = 0 then (0, [], e)
  else
    if e.targetFrames ≠ 0 ∧ e.primed = false ∧ e.ring.availableFrames < e.targetFrames then
      (0, silence frames, e)
    else
      let r := e.drawn frames
      let missing := frames - r.1
      (r.1, r.2.1 ++ silence missing, { e with
        ring := r.2.2
        primed := if e.targetFrames ≠ 0 then true else e.primed
        starvationFrames := e.starvationFrames + missing.toUInt64 })

inductive Use
  | publishUSBBlock (block : Option (List UInt8))
  | readInput (interleaved : Bool) (frames : UInt32)
  | takeAnomalousBlock

structure Watched where
  engine : AudioInputEngine
  taken : List (List UInt8)

def Watched.use (w : Watched) : Use → Option Watched
  | .publishUSBBlock block => some { w with engine := (w.engine.publishUSBBlock block).2 }
  | .readInput interleaved frames =>
    some { w with engine := (w.engine.readInput interleaved frames).2.2 }
  | .takeAnomalousBlock =>
    let t := w.engine.takeAnomalousBlock
    some ⟨t.2, w.taken ++ (t.1.map fun taken ↦ taken.1.take taken.2.1).toList⟩

structure Watched.Inv (w : Watched) (uses : List Use) : Prop where
  captured : w.engine.anomalyCaptured = true → w.engine.anomalySaved = false ∧
    .publishUSBBlock (some (w.engine.anomalousBlock.take w.engine.anomalousBytes)) ∈ uses
  untaken : w.engine.anomalySaved = false → w.taken = []
  taken_le : w.taken.length ≤ 1
  published : ∀ block ∈ w.taken, .publishUSBBlock (some block) ∈ uses

def anomaly (e : AudioInputEngine) : List UInt8 × ℕ × Bool × Bool :=
  (e.anomalousBlock, e.anomalousBytes, e.anomalyCaptured, e.anomalySaved)

theorem inspect_anomaly (e : AudioInputEngine) (block : List UInt8) (decoded : List ℚ) (frames : ℕ) :
    (e.inspect block decoded frames).anomaly = e.anomaly ∨
      e.anomalySaved = false ∧ (e.inspect block decoded frames).anomaly =
        (block ++ e.anomalousBlock.drop block.length, block.length, true, e.anomalySaved) := by
  rw [inspect]
  dsimp only
  split_ifs with hanomaly
  · exact .inr ⟨hanomaly.2.2.1, rfl⟩
  · exact .inl rfl

theorem publishUSBBlock_anomaly (e : AudioInputEngine) (block : Option (List UInt8)) :
    (e.publishUSBBlock block).2.anomaly = e.anomaly ∨
      e.anomalySaved = false ∧ ∃ bytes rest, block = some bytes ∧
        (e.publishUSBBlock block).2.anomaly = (bytes ++ rest, bytes.length, true, e.anomalySaved) := by
  cases block with
  | none => exact .inl rfl
  | some bytes =>
    simp only [publishUSBBlock]
    split_ifs
    · exact .inl rfl
    · obtain hsame | ⟨hsaved, hkept⟩ := e.inspect_anomaly bytes
        (AudioInputDecoder.decode (some bytes) true e.maxTransferFrames.toNat).2
        (AudioInputDecoder.decode (some bytes) true e.maxTransferFrames.toNat).1
      · exact .inl hsame
      · exact .inr ⟨hsaved, bytes, _, rfl, hkept⟩

theorem readInput_anomaly (e : AudioInputEngine) (interleaved : Bool) (frames : UInt32) :
    (e.readInput interleaved frames).2.2.anomaly = e.anomaly := by
  rw [readInput]
  split_ifs <;> rfl

namespace Watched

variable {w : Watched} {uses : List Use}

theorem Inv.more (h : w.Inv uses) {engine : AudioInputEngine}
    (hsame : engine.anomaly = w.engine.anomaly) (u : Use) :
    Inv { w with engine := engine } (uses ++ [u]) := by
  simp only [anomaly, Prod.mk.injEq] at hsame
  obtain ⟨hblock, hbytes, hcaptured, hsaved⟩ := hsame
  refine ⟨fun hc ↦ ?_, fun hs ↦ h.untaken (hsaved ▸ hs), h.taken_le, fun block hmem ↦
    List.mem_append_left _ (h.published block hmem)⟩
  obtain ⟨hunsaved, hmem⟩ := h.captured (hcaptured ▸ hc)
  dsimp only
  rw [hblock, hbytes, hsaved]
  exact ⟨hunsaved, List.mem_append_left _ hmem⟩

theorem Inv.use (h : w.Inv uses) {u : Use} {w' : Watched} (hu : w.use u = some w') :
    w'.Inv (uses ++ [u]) := by
  cases u with
  | publishUSBBlock block =>
    cases hu
    obtain hsame | ⟨hunsaved, bytes, rest, rfl, hkept⟩ := w.engine.publishUSBBlock_anomaly block
    · exact h.more hsame _
    · simp only [anomaly, Prod.mk.injEq] at hkept
      obtain ⟨hblock, hbytes, -, hsaved⟩ := hkept
      refine ⟨fun _ ↦ ?_, fun _ ↦ h.untaken hunsaved, h.taken_le, fun block hmem ↦
        List.mem_append_left _ (h.published block hmem)⟩
      dsimp only
      rw [hblock, hbytes, hsaved, List.take_left]
      exact ⟨hunsaved, List.mem_append_right _ List.mem_cons_self⟩
  | readInput interleaved frames =>
    cases hu
    exact h.more (w.engine.readInput_anomaly interleaved frames) _
  | takeAnomalousBlock =>
    simp only [Watched.use, AudioInputEngine.takeAnomalousBlock, Option.some.injEq] at hu
    subst hu
    cases hcaptured : w.engine.anomalyCaptured with
    | false =>
      have hsame := h.more (rfl : w.engine.anomaly = w.engine.anomaly) .takeAnomalousBlock
      simpa using hsame
    | true =>
      obtain ⟨hunsaved, hmem⟩ := h.captured hcaptured
      have hnone := h.untaken hunsaved
      simp only [hnone, Bool.true_eq_false, if_false, Option.map_some, Option.toList_some,
        List.nil_append]
      refine ⟨fun hc ↦ absurd hc Bool.false_ne_true, fun hs ↦ absurd hs.symm Bool.false_ne_true,
        le_rfl, ?_⟩
      exact List.forall_mem_singleton.mpr (List.mem_append_left _ hmem)

/-- In every run at most one block is taken, and it is one that was published. -/
theorem taken_once {engine : AudioInputEngine} {ringCapacityFrames maxTransferFrames : UInt32}
    (hengine : construct ringCapacityFrames maxTransferFrames = .ok engine)
    (hrun : Run Watched.use ⟨engine, []⟩ uses w) :
    w.taken.length ≤ 1 ∧ ∀ block ∈ w.taken, .publishUSBBlock (some block) ∈ uses := by
  have hinv : w.Inv uses := by
    induction hrun with
    | nil =>
      obtain ⟨ring, targetFrames, rfl⟩ := construct_fresh hengine
      exact ⟨fun hc ↦ absurd hc Bool.false_ne_true, fun _ ↦ rfl, Nat.zero_le _, List.forall_mem_nil _⟩
    | snoc _ hu ih => exact ih.use hu
  exact ⟨hinv.taken_le, hinv.published⟩

end Watched

end AudioInputEngine

end NumarkNS6.CoreAudio
