import NumarkNS6.Legacy.FifoStream
import NumarkNS6.Legacy.NS6ClockControl

namespace NumarkNS6.Legacy

open Foundation NS6Transport

namespace NS6Transport

/-- The `double` nearest to `x`, for values that do not overflow. -/
def nearestDouble (x : ℚ) : ℚ := nearest 52 (-1074) x

def truncate (x : ℚ) : ℤ := if x < 0 then ⌈x⌉ else ⌊x⌋

end NS6Transport

namespace NS6TransportShared

/-- The reader passes over frames that were not there, in exact arithmetic as in `dequeueResampled`. -/
def advanceResampled (s : NS6TransportShared) (readFraction : ℚ) (outputFrames : UInt32) (step : ℚ) :
    UInt32 × NS6TransportShared × ℚ :=
  if s.initialized = false then (0, s, readFraction)
  else
    let phase := readFraction + outputFrames.toNat * usableStep step
    let consumed := UInt64.ofNat ⌊phase⌋₊
    (consumed.toUInt32, { s with readCursor := s.readCursor + consumed }, phase - consumed.toNat)

end NS6TransportShared

namespace NS6ClockControl

def queueTargetFrames : UInt32 := 4096

/-- The resampling ratio with its trim towards the target queue, in exact arithmetic
where the source has `double`. -/
def sourceFramesPerOutputFrame (c : NS6ClockControl) (b : ClockBuild) (queuedFrames : UInt32) : ℚ :=
  let measured := c.outputRateMillihz b
  let step : ℚ := nominalRateMillihz.toNat / measured.toNat
  let trim : ℚ := ((queuedFrames.toNat : ℚ) - queueTargetFrames.toNat) / 1000000
  let trim := if trim > 5 / 1000 then 5 / 1000 else trim
  let trim := if trim < -(5 / 1000) then -(5 / 1000) else trim
  let step := step * (1 + trim)
  let step := if step > 1005 / 1000 then 1005 / 1000 else step
  if step < 995 / 1000 then 995 / 1000 else step

end NS6ClockControl

structure OutputBuild where
  clock : ClockBuild
  idlePcmKeepalive : Bool

inductive PacketKind
  | idle
  | prefill
  | audio
  deriving DecidableEq

/-- One USB packet as `fill` has prepared it: `count` frames, of which `received` came
out of the queue. `position` is where the reader stood, `queued` what it found there,
`written` how far the writer had come, and `threshold` what playback waits for. -/
structure Packet where
  kind : PacketKind
  count : ℕ
  received : ℕ
  position : ℚ
  step : ℚ
  queued : UInt32
  threshold : UInt32
  written : ℕ
  frames : List Frame

/-- The statics `fill` works on. `filling` are the packets of the transfer in
preparation and `transfers` those handed to the USB stack; `pausing` are the calls of
`set_paused` that have yet to store. `timeline` lists the accepted frames, each at the
position where it was put, with silence where nothing was. -/
structure NS6USB where
  shared : NS6TransportShared
  readFraction : ℚ
  clock : NS6ClockControl
  millisecondFrames : List UInt32
  outputPaused : Bool
  awaitingAudioPrefill : Bool
  standbyPrimePending : Bool
  recoveryRequested : Bool
  startupBufferFrames : UInt32
  feedbackLastValidMs : UInt64
  feedbackStaleResets : UInt64
  feedbackStaleResetStartedMs : UInt64
  lastRecoverySample : Option (Fin 4 → ℤ)
  underrunFrames : UInt64
  underrunEvents : UInt64
  underrunMaxBurst : UInt64
  outputPcmPeak : Fin 4 → UInt64
  outputPcmNonzeroFrames : UInt64
  filling : List Packet
  transfers : List (List Packet)
  pausing : List Bool
  timeline : List Frame

namespace NS6USB

def packets : ℕ := 32

def maxPacket : ℕ := 156

def frameBytes : ℕ := 12

def startupMinPrefillFrames : UInt32 := 1024

def startupPrefillFrames (configured minimum queueTarget : UInt32) : UInt32 :=
  let threshold := configured
  let threshold := if threshold < minimum then minimum else threshold
  if threshold < queueTarget then queueTarget else threshold

def underrunGain (frameIndex missingFrames : ℕ) : ℚ :=
  if missingFrames = 0 ∨ frameIndex ≥ missingFrames then 0
  else nearestDouble (((missingFrames - frameIndex - 1 : ℕ) : ℚ) / missingFrames)

def fadeSample (last : ℤ) (gain : ℚ) : ℤ := truncate (nearestDouble (last * gain))

def fade (last : Fin 4 → ℤ) (missing : ℕ) : List Frame :=
  (List.range missing).map fun frame channel ↦
    pack24 (fadeSample (last channel) (underrunGain frame missing))

def idleTone : Frame := fun _ ↦ 1

def fillIdlePcm (frames : ℕ) (keepAlive : Bool) : List Frame :=
  List.replicate frames (if keepAlive then idleTone else silence)

structure NS6PCMLevel where
  peak : Fin 4 → ℕ
  nonzeroFrames : ℕ

def pcm24Measure (pcm : List Frame) : NS6PCMLevel where
  peak channel := pcm.foldl (fun peak frame ↦ max peak (unpack24 (frame channel)).natAbs) 0
  nonzeroFrames := pcm.countP fun frame ↦ decide (∃ channel, unpack24 (frame channel) ≠ 0)

def feedbackElapsedMs (nowMs sinceMs : UInt64) : Option UInt64 :=
  if sinceMs = 0 ∨ nowMs < sinceMs then none else some (nowMs - sinceMs)

variable (s : NS6USB)

def log : List Packet := s.transfers.flatten ++ s.filling

def position : ℚ := s.shared.readCursor.toNat + s.readFraction

def startupFrames : UInt32 :=
  startupPrefillFrames s.startupBufferFrames startupMinPrefillFrames NS6ClockControl.queueTargetFrames

/-- Feedback more than two seconds old sends the clock back to its nominal cadence. -/
def checkFeedback (nowMs : UInt64) : NS6USB :=
  if s.clock.locked ∧ s.feedbackLastValidMs ≠ 0 then
    match feedbackElapsedMs nowMs s.feedbackLastValidMs with
    | none => s
    | some age =>
      if age > 2000 then
        { s with
          clock := s.clock.resetFeedback
          feedbackStaleResets := s.feedbackStaleResets + 1
          feedbackStaleResetStartedMs := nowMs
          feedbackLastValidMs := 0 }
      else s
  else s

def nextMillisecond (b : OutputBuild) : NS6USB :=
  if s.filling.length % 8 = 0 then
    let m := s.clock.nextMillisecond b.clock
    { s with millisecondFrames := m.1, clock := m.2 }
  else s

def emit (p : Packet) : NS6USB := { s with filling := s.filling ++ [p] }

def silentPacket (kind : PacketKind) (count : UInt32) (frames : List Frame) : Packet where
  kind := kind
  count := count.toNat
  received := 0
  position := s.position
  step := 1
  queued := s.shared.available
  threshold := s.startupFrames
  written := s.timeline.length
  frames := frames

def idlePacket (b : OutputBuild) (count : UInt32) : NS6USB :=
  let primes := decide (count ≠ 0) && s.standbyPrimePending
  let keepAlive := b.idlePcmKeepalive || primes
  { s with
    awaitingAudioPrefill := true
    lastRecoverySample := none
    standbyPrimePending := s.standbyPrimePending && (b.idlePcmKeepalive || !primes) }.emit
      (s.silentPacket .idle count (fillIdlePcm count.toNat keepAlive))

def prefillPacket (count : UInt32) : NS6USB :=
  { s with lastRecoverySample := none }.emit
    (s.silentPacket .prefill count (List.replicate count.toNat silence))

/-- The reader goes on as if the missing frames had been there. -/
def underrun (missing : ℕ) (step : ℚ) : NS6USB :=
  let a := s.shared.advanceResampled s.readFraction (UInt32.ofNat missing) step
  { s with
    shared := a.2.1
    readFraction := a.2.2
    underrunFrames := s.underrunFrames + UInt64.ofNat missing
    underrunEvents := s.underrunEvents + 1
    underrunMaxBurst := max s.underrunMaxBurst (UInt64.ofNat missing) }

def lastSample (received : List Frame) : Option (Fin 4 → ℤ) :=
  match received.getLast? with
  | some frame => some fun channel ↦ unpack24 (frame channel)
  | none => s.lastRecoverySample

def standIn (last : Option (Fin 4 → ℤ)) (missing : ℕ) : List Frame :=
  match last with
  | some sample => fade sample missing
  | none => List.replicate missing silence

def playPacket (b : OutputBuild) (count : UInt32) : NS6USB :=
  let queued := s.shared.available
  let step := s.clock.sourceFramesPerOutputFrame b.clock queued
  let r := s.shared.dequeueResampled s.readFraction count step
  let received := r.1.length
  let missing := count.toNat - received
  let last := s.lastSample r.1
  let packet : Packet :=
    { kind := .audio
      count := count.toNat
      received := received
      position := s.position
      step := step
      queued := queued
      threshold := s.startupFrames
      written := s.timeline.length
      frames := r.1 ++ standIn last missing }
  let taken := { s with shared := r.2.2.1, readFraction := r.2.2.2 }
  if received < count.toNat then
    { taken.underrun missing step with lastRecoverySample := none }.emit packet
  else { taken with lastRecoverySample := last }.emit packet

def pass (b : OutputBuild) (nowMs : UInt64) : NS6USB :=
  let s := (s.checkFeedback nowMs).nextMillisecond b
  let count := s.millisecondFrames.getD (s.filling.length % 8) 0
  if s.outputPaused = true ∧ s.shared.available = 0 then s.idlePacket b count
  else if s.awaitingAudioPrefill = true then
    if s.shared.available < s.startupFrames then s.prefillPacket count
    else { s with awaitingAudioPrefill := false, lastRecoverySample := none }.playPacket b count
  else s.playPacket b count

/-- The end of `fill`: the transfer goes to the USB stack. -/
def finishFill : NS6USB :=
  let level := pcm24Measure (s.filling.flatMap Packet.frames)
  { s with
    outputPcmPeak := fun channel ↦ max (s.outputPcmPeak channel) (UInt64.ofNat (level.peak channel))
    outputPcmNonzeroFrames := s.outputPcmNonzeroFrames + UInt64.ofNat level.nonzeroFrames
    transfers := s.transfers ++ [s.filling]
    filling := [] }

def setPaused (paused : Bool) : NS6USB :=
  if paused = false ∧ s.recoveryRequested = true then s
  else { s with
    awaitingAudioPrefill := s.awaitingAudioPrefill || (!paused && s.outputPaused)
    pausing := s.pausing ++ [paused] }

/-- A good packet of the feedback endpoint. -/
def feedback (framesPerMs : UInt8) (nowMs : UInt64) (b : OutputBuild) : NS6USB :=
  if NS6ClockControl.feedbackValueIsValid framesPerMs then
    { s with
      clock := s.clock.observe b.clock framesPerMs
      feedbackLastValidMs := nowMs
      feedbackStaleResetStartedMs := if s.clock.locked then s.feedbackStaleResetStartedMs else 0 }
  else s

/-- Where a block is put: behind the last one, or at the reader if that is past it. -/
def lay (timeline : List Frame) (cursor : ℕ) (block : List Frame) : List Frame :=
  if block = [] then timeline
  else timeline ++ List.replicate (cursor - timeline.length) silence ++ block

def enqueue (input : Option Bytes) (count : UInt32) (format : Option AudioStreamBasicDescription) :
    NS6USB :=
  let r := s.shared.enqueue input count format
  { s with
    shared := r.2
    timeline := if r.1 then
        lay s.timeline s.shared.readCursor.toNat (NS6TransportShared.Fifo.block input count format)
      else s.timeline }

inductive Action
  | pass (nowMs : UInt64)
  | finishFill
  | enqueue (input : Option Bytes) (count : UInt32) (format : Option AudioStreamBasicDescription)
  | setPaused (paused : Bool)
  | storePaused (call : ℕ)
  | setStartupBufferFrames (frames : UInt32)
  | requestRestart
  | requestRecovery
  | recover
  | feedback (framesPerMs : UInt8) (nowMs : UInt64)

/-- The worker thread runs `fill` and takes feedback; the calls of other threads and of
the audio server come between its passes. -/
def step (b : OutputBuild) (s : NS6USB) : Action → Option NS6USB
  | .pass nowMs => if s.filling.length < packets then some (s.pass b nowMs) else none
  | .finishFill => if s.filling.length = packets then some s.finishFill else none
  | .enqueue input count format => some (s.enqueue input count format)
  | .setPaused paused => some (s.setPaused paused)
  | .storePaused call =>
    match s.pausing[call]? with
    | none => none
    | some paused => some { s with outputPaused := paused, pausing := s.pausing.eraseIdx call }
  | .setStartupBufferFrames frames => some { s with startupBufferFrames := frames }
  | .requestRestart => some { s with outputPaused := true, recoveryRequested := true }
  | .requestRecovery => some { s with recoveryRequested := true }
  | .recover => some { s with recoveryRequested := false }
  | .feedback framesPerMs nowMs => some (s.feedback framesPerMs nowMs b)

/-- `ns6_usb_start`, which leaves `awaiting_audio_prefill` and the last sample as they are. -/
def start (memory : NS6TransportShared) (awaiting : Bool) (last : Option (Fin 4 → ℤ))
    (startupBufferFrames : UInt32) : NS6USB where
  shared := memory.init
  readFraction := 0
  clock := .init
  millisecondFrames := []
  outputPaused := true
  awaitingAudioPrefill := awaiting
  standbyPrimePending := true
  recoveryRequested := false
  startupBufferFrames := startupBufferFrames
  feedbackLastValidMs := 0
  feedbackStaleResets := 0
  feedbackStaleResetStartedMs := 0
  lastRecoverySample := last
  underrunFrames := 0
  underrunEvents := 0
  underrunMaxBurst := 0
  outputPcmPeak _ := 0
  outputPcmNonzeroFrames := 0
  filling := []
  transfers := []
  pausing := []
  timeline := []

end NS6USB

end NumarkNS6.Legacy
