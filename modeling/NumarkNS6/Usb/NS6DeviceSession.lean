import NumarkNS6.Foundation.KeyedLog
import Mathlib.Data.UInt

namespace NumarkNS6.Usb

open Foundation.KeyedLog

/-- The IOKit results the code distinguishes. Every other code only counts as a failure. -/
inductive IOReturn
  | success
  | notReady
  | noDevice
  | noMemory
  | noResources
  | timeout
  | notResponding
  | underrun
  | badArgument
  | exclusiveAccess
  | pipeStalled
  | notFound
  | unsupported
  | other (code : UInt32)
deriving DecidableEq, Repr

/-- `if (result == kIOReturnSuccess) result = later;` -/
def IOReturn.firstFailure (result later : IOReturn) : IOReturn :=
  if result = .success then later else result

def utf8 (text : String) : List UInt8 := text.toUTF8.toList

def decimal (n : ℕ) : List UInt8 := (Nat.toDigits 10 n).map fun c ↦ UInt8.ofNat c.toNat

/-- A call on a device or interface object that the session is answerable for. -/
inductive Call
  | obtain
  | seize
  | createSource
  | close
  | releaseSource
  | release
deriving DecidableEq

structure DeviceEntry where
  vendor : Option UInt16
  product : Option UInt16
  speed : Option UInt16
  id : Option UInt64

def DeviceEntry.isNS6 (d : DeviceEntry) : Bool := d.vendor = some 0x15e4 && d.product = some 0x0079

def usbDeviceSpeedHigh : UInt16 := 2

/-- An interface service: the device it belongs to, whether a plug-in and an
interface object can be had for it, and what that object answers about its number. -/
structure Service where
  parent : Option DeviceEntry
  plugin : Bool
  candidate : Bool
  number : IOReturn × UInt8

namespace Service

def matchingDevice (service : Service) (wantedDeviceID : Option UInt64) : Option UInt64 :=
  match service.parent with
  | none => none
  | some device =>
    match device.id with
    | none => none
    | some deviceID =>
      if device.isNS6 && device.speed = some usbDeviceSpeedHigh &&
        (wantedDeviceID = none || wantedDeviceID = some deviceID) then some deviceID else none

end Service

/-- The interface object is given with the id of its device. -/
def matchingInterface (wantedNumber : UInt8) (wantedDeviceID : Option UInt64) :
    List Service → Registry Call → Option (ℕ × UInt64) × Registry Call
  | [], calls => (none, calls)
  | service :: services, calls =>
    match service.matchingDevice wantedDeviceID with
    | none => matchingInterface wantedNumber wantedDeviceID services calls
    | some deviceID =>
      if service.plugin && service.candidate then
        let candidate := calls.next
        let calls := calls.fresh .obtain
        if service.number = (.success, wantedNumber) then (some (candidate, deviceID), calls)
        else matchingInterface wantedNumber wantedDeviceID services (calls.call candidate .release)
      else matchingInterface wantedNumber wantedDeviceID services calls

/-- What the calls of `configureDevice` answer. The booleans tell whether a
pointer came back with the result. -/
structure ConfigureAnswers where
  matching : IOReturn × List DeviceEntry
  plugin : IOReturn × Bool
  query : IOReturn × Bool
  seize : IOReturn
  getConfiguration : IOReturn
  setConfiguration : IOReturn

def configureDevice (answers : ConfigureAnswers) (calls : Registry Call) : IOReturn × Registry Call :=
  if answers.matching.1 ≠ .success then (answers.matching.1, calls) else
  if answers.matching.2.any DeviceEntry.isNS6 = false then (.notFound, calls) else
  let hasPlugin := answers.plugin.1 = .success && answers.plugin.2
  let result := if hasPlugin then answers.query.1 else answers.plugin.1
  if result ≠ .success || !(hasPlugin && answers.query.2) then (result, calls) else
  let device := calls.next
  let calls := calls.fresh .obtain
  if answers.seize ≠ .success then (answers.seize, calls.call device .release)
  else (answers.getConfiguration.firstFailure answers.setConfiguration,
    ((calls.call device .seize).call device .close).call device .release)

inductive Direction
  | out
  | in
  | other (code : UInt8)
deriving DecidableEq

inductive TransferType
  | isoc
  | bulk
  | other (code : UInt8)
deriving DecidableEq

structure PipeProperties where
  direction : Direction
  number : UInt8
  transferType : TransferType
  maxPacketSize : UInt16
  interval : UInt8
deriving DecidableEq

namespace PipeProperties

variable (p : PipeProperties)

def isAudioOut : Bool :=
  p.direction = .out && p.number = 2 && p.transferType = .isoc && p.maxPacketSize = 156 &&
    p.interval = 1

def isMidiIn : Bool := p.direction = .in && p.number = 3 && p.transferType = .bulk

def isMidiOut : Bool :=
  p.direction = .out && p.number = 4 && p.transferType = .bulk && p.maxPacketSize = 512

def isFeedback : Bool :=
  p.direction = .in && p.number = 1 && p.transferType = .isoc && p.maxPacketSize = 64 &&
    p.interval = 4

def isAudioIn : Bool :=
  p.direction = .in && p.number = 6 && p.transferType = .bulk && p.maxPacketSize = 512

end PipeProperties

/-- What the session keeps for one of its two interfaces. An event source is named
by the interface it was created for. -/
structure Port where
  interface : Option ℕ
  asyncEventSource : Option ℕ
  opened : Bool
  eventRunLoop : Option ℕ
  eventClients : UInt32

namespace Port

def fresh : Port := ⟨none, none, false, none, 0⟩

def acquireEvents (p : Port) (runLoop : Option ℕ) : IOReturn × Port :=
  if runLoop.isNone || p.asyncEventSource.isNone then (.notReady, p) else
  if p.eventClients ≠ 0 && p.eventRunLoop ≠ runLoop then (.notReady, p) else
  (.success, { p with
    eventRunLoop := if p.eventClients = 0 then runLoop else p.eventRunLoop
    eventClients := p.eventClients + 1 })

def releaseEvents (p : Port) (runLoop : Option ℕ) : IOReturn × Port :=
  if p.eventClients = 0 || p.eventRunLoop ≠ runLoop then (.notReady, p) else
  (.success, { p with
    eventClients := p.eventClients - 1
    eventRunLoop := if p.eventClients - 1 = 0 then none else p.eventRunLoop })

def drop (p : Port) : Port := { p with interface := none }

def seize (p : Port) (h : ℕ) : Port := { p with interface := some h, opened := true }

def createSource (p : Port) (h : ℕ) : Port := { p with asyncEventSource := some h }

def detachEvents (p : Port) : Port := { p with eventRunLoop := none, eventClients := 0 }

def close (p : Port) (calls : Registry Call) : Port × Registry Call :=
  let calls := match p.opened, p.interface with
    | true, some h => calls.call h .close
    | _, _ => calls
  let calls := match p.asyncEventSource with
    | some h => calls.call h .releaseSource
    | none => calls
  let calls := match p.interface with
    | some h => calls.call h .release
    | none => calls
  ({ p with
    interface := none
    asyncEventSource := none
    opened := p.opened && p.interface.isNone }, calls)

end Port

structure NS6DeviceSession where
  primary : Port
  auxiliary : Port
  audioOutPipe : UInt8
  midiInPipe : UInt8
  midiOutPipe : UInt8
  feedbackPipe : UInt8
  audioInPipe : UInt8
  firmwareVersion : List UInt8
  previousAudioMode : UInt16
  audioModeChanged : Bool
  deviceID : UInt64

namespace NS6DeviceSession

def fresh : NS6DeviceSession where
  primary := .fresh
  auxiliary := .fresh
  audioOutPipe := 0
  midiInPipe := 0
  midiOutPipe := 0
  feedbackPipe := 0
  audioInPipe := 0
  firmwareVersion := []
  previousAudioMode := 0
  audioModeChanged := false
  deviceID := 0

structure ModeAnswers where
  capability : IOReturn × UInt8
  capabilityAgain : IOReturn
  inputClock : IOReturn
  outputClock : IOReturn
  read : IOReturn × UInt8
  write : IOReturn

def configureAudioInputMode (s : NS6DeviceSession) (answers : ModeAnswers) :
    IOReturn × NS6DeviceSession :=
  if s.primary.opened = false || s.primary.interface.isNone then (.notReady, s) else
  if answers.capability.1 ≠ .success then (answers.capability.1, s) else
  if answers.capability.2 ≠ 0 && answers.capabilityAgain ≠ .success then (answers.capabilityAgain, s) else
  if answers.inputClock ≠ .success then (answers.inputClock, s) else
  if answers.outputClock ≠ .success then (answers.outputClock, s) else
  if answers.read.1 ≠ .success then (answers.read.1, s) else
  (answers.write,
    if answers.write = .success && !s.audioModeChanged then
      { s with previousAudioMode := answers.read.2.toUInt16, audioModeChanged := true }
    else s)

def readFirmware (s : NS6DeviceSession) (answer : IOReturn × List UInt8) : NS6DeviceSession :=
  match answer with
  | (.success, 0x31 :: major :: minor :: _) =>
    if major ≠ 0 && minor ≤ 99 then
      let minorText := decimal (minor / 10).toNat ++ utf8 "." ++ decimal (minor % 10).toNat
      { s with firmwareVersion := decimal major.toNat ++ utf8 "." ++ minorText ++ utf8 " (K1)" }
    else s
  | _ => s

def classifyPipe (pipe : UInt8) (p : PipeProperties) (s : NS6DeviceSession) : NS6DeviceSession :=
  if p.isAudioOut then { s with audioOutPipe := pipe }
  else if p.isMidiIn then { s with midiInPipe := pipe }
  else if p.isMidiOut then { s with midiOutPipe := pipe }
  else s

def classifyAuxiliaryPipe (pipe : UInt8) (p : PipeProperties) (s : NS6DeviceSession) :
    NS6DeviceSession :=
  if p.isFeedback then { s with feedbackPipe := pipe }
  else if p.isAudioIn then { s with audioInPipe := pipe }
  else s

/-- The pipe numbers a loop up to `endpointCount` goes through; with 255 endpoints
the counter of the source never passes the bound. -/
def pipeNumbers (endpointCount : Fin 255) : List UInt8 :=
  (List.range endpointCount).map fun i ↦ UInt8.ofNat (i + 1)

def scanPipes (classify : UInt8 → PipeProperties → NS6DeviceSession → NS6DeviceSession)
    (pipe : UInt8 → IOReturn × PipeProperties) :
    List UInt8 → NS6DeviceSession → IOReturn × NS6DeviceSession
  | [], s => (.success, s)
  | n :: ns, s =>
    if (pipe n).1 ≠ .success then ((pipe n).1, s)
    else scanPipes classify pipe ns (classify n (pipe n).2 s)

end NS6DeviceSession

structure CloseAnswers where
  restore : IOReturn
  auxiliaryClose : IOReturn
  close : IOReturn

structure PortAnswers where
  seize : IOReturn
  alternate : IOReturn
  endpoints : IOReturn × Fin 255
  pipe : UInt8 → IOReturn × PipeProperties
  source : IOReturn

/-- What the calls of one `open` answer. -/
structure OpenAnswers where
  matching : IOReturn × List Service
  configure : ConfigureAnswers
  retries : ℕ → IOReturn × List Service
  primary : PortAnswers
  firmware : IOReturn × List UInt8
  auxiliaryMatching : IOReturn × List Service
  auxiliary : PortAnswers
  close : CloseAnswers

/-- A session with the calls made on behalf of it. -/
structure SessionSystem where
  session : NS6DeviceSession
  calls : Registry Call

namespace SessionSystem

open NS6DeviceSession

def initial : SessionSystem := ⟨.fresh, .empty⟩

def close (answers : CloseAnswers) (s : SessionSystem) : IOReturn × SessionSystem :=
  let session := s.session
  let restored := session.audioModeChanged && session.primary.opened && session.primary.interface.isSome
  let result := if restored then answers.restore else .success
  let result := if session.auxiliary.opened && session.auxiliary.interface.isSome
    then answers.auxiliaryClose else result
  let result := if session.primary.opened && session.primary.interface.isSome
    then result.firstFailure answers.close else result
  let auxiliary := session.auxiliary.detachEvents.close s.calls
  let primary := session.primary.detachEvents.close auxiliary.2
  (result,
    { session := { session with
        primary := primary.1
        auxiliary := auxiliary.1
        audioOutPipe := 0
        midiInPipe := 0
        midiOutPipe := 0
        feedbackPipe := 0
        audioInPipe := 0
        audioModeChanged := session.audioModeChanged && !restored
        deviceID := 0 }
      calls := primary.2 })

/-- The loop of `open` after `configureDevice`, with the attempts that are left. -/
def retryInterface (retries : ℕ → IOReturn × List Service) :
    ℕ → Registry Call → IOReturn × Option (ℕ × UInt64) × Registry Call
  | 0, calls => (.notFound, none, calls)
  | left + 1, calls =>
    let retry := retries (19 - left)
    if retry.1 ≠ .success then (retry.1, none, calls) else
    match matchingInterface 0 none retry.2 calls with
    | (some found, calls) => (.success, some found, calls)
    | (none, calls) => retryInterface retries left calls

def findInterface (answers : OpenAnswers) (calls : Registry Call) :
    IOReturn × Option (ℕ × UInt64) × Registry Call :=
  match matchingInterface 0 none answers.matching.2 calls with
  | (some found, calls) => (.success, some found, calls)
  | (none, calls) =>
    let configured := configureDevice answers.configure calls
    if configured.1 ≠ .success then (configured.1, none, configured.2)
    else retryInterface answers.retries 20 configured.2

def giveUp (answers : OpenAnswers) (result : IOReturn) (s : SessionSystem) : IOReturn × SessionSystem :=
  (result, (s.close answers.close).2)

def setUpAuxiliary (answers : OpenAnswers) (h : ℕ) (deviceID : UInt64) (s : SessionSystem) :
    IOReturn × SessionSystem :=
  let a := answers.auxiliary
  if a.alternate ≠ .success then s.giveUp answers a.alternate else
  if a.endpoints.1 ≠ .success then s.giveUp answers a.endpoints.1 else
  let scan := scanPipes classifyAuxiliaryPipe a.pipe (pipeNumbers a.endpoints.2) s.session
  let s : SessionSystem := { s with session := scan.2 }
  if scan.1 ≠ .success then s.giveUp answers scan.1 else
  if s.session.feedbackPipe = 0 || s.session.audioInPipe = 0 then s.giveUp answers .unsupported else
  if a.source ≠ .success then s.giveUp answers a.source else
  (.success, { s with
    session := { s.session with auxiliary := s.session.auxiliary.createSource h, deviceID }
    calls := s.calls.call h .createSource })

def openAuxiliary (answers : OpenAnswers) (deviceID : UInt64) (s : SessionSystem) :
    IOReturn × SessionSystem :=
  if answers.auxiliaryMatching.1 ≠ .success then s.giveUp answers answers.auxiliaryMatching.1 else
  match matchingInterface 1 (some deviceID) answers.auxiliaryMatching.2 s.calls with
  | (none, calls) =>
    giveUp answers .notFound
      ⟨{ s.session with auxiliary := s.session.auxiliary.drop }, calls⟩
  | (some (h, _), calls) =>
    if answers.auxiliary.seize ≠ .success then
      giveUp answers answers.auxiliary.seize
        ⟨{ s.session with auxiliary := s.session.auxiliary.drop }, calls.call h .release⟩
    else
      setUpAuxiliary answers h deviceID
        ⟨{ s.session with auxiliary := s.session.auxiliary.seize h }, calls.call h .seize⟩

def setUpPrimary (answers : OpenAnswers) (h : ℕ) (deviceID : UInt64) (s : SessionSystem) :
    IOReturn × SessionSystem :=
  let a := answers.primary
  if a.alternate ≠ .success then s.giveUp answers a.alternate else
  let s : SessionSystem := { s with session := s.session.readFirmware answers.firmware }
  if a.endpoints.1 ≠ .success then s.giveUp answers a.endpoints.1 else
  let scan := scanPipes classifyPipe a.pipe (pipeNumbers a.endpoints.2) s.session
  let s : SessionSystem := { s with session := scan.2 }
  if scan.1 ≠ .success then s.giveUp answers scan.1 else
  if s.session.audioOutPipe = 0 then s.giveUp answers .unsupported else
  if a.source ≠ .success then s.giveUp answers a.source else
  openAuxiliary answers deviceID { s with
    session := { s.session with primary := s.session.primary.createSource h }
    calls := s.calls.call h .createSource }

def openSession (answers : OpenAnswers) (s : SessionSystem) : IOReturn × SessionSystem :=
  if s.session.primary.opened then (.exclusiveAccess, s) else
  if answers.matching.1 ≠ .success then (answers.matching.1, s) else
  match findInterface answers s.calls with
  | (result, none, calls) =>
    (result, ⟨{ s.session with primary := s.session.primary.drop }, calls⟩)
  | (_, some (h, deviceID), calls) =>
    if answers.primary.seize ≠ .success then
      (answers.primary.seize,
        ⟨{ s.session with primary := s.session.primary.drop }, calls.call h .release⟩)
    else
      setUpPrimary answers h deviceID
        ⟨{ s.session with primary := s.session.primary.seize h }, calls.call h .seize⟩

inductive Op
  | openSession (answers : OpenAnswers)
  | close (answers : CloseAnswers)
  | configureAudioInputMode (answers : ModeAnswers)
  | acquireEvents (runLoop : Option ℕ)
  | releaseEvents (runLoop : Option ℕ)
  | acquireAuxiliaryEvents (runLoop : Option ℕ)
  | releaseAuxiliaryEvents (runLoop : Option ℕ)

def step (s : SessionSystem) : Op → Option SessionSystem
  | .openSession answers => some (s.openSession answers).2
  | .close answers => some (s.close answers).2
  | .configureAudioInputMode answers =>
    some { s with session := (s.session.configureAudioInputMode answers).2 }
  | .acquireEvents runLoop =>
    some { s with session := { s.session with primary := (s.session.primary.acquireEvents runLoop).2 } }
  | .releaseEvents runLoop =>
    some { s with session := { s.session with primary := (s.session.primary.releaseEvents runLoop).2 } }
  | .acquireAuxiliaryEvents runLoop =>
    some { s with
      session := { s.session with auxiliary := (s.session.auxiliary.acquireEvents runLoop).2 } }
  | .releaseAuxiliaryEvents runLoop =>
    some { s with
      session := { s.session with auxiliary := (s.session.auxiliary.releaseEvents runLoop).2 } }

end SessionSystem

end NumarkNS6.Usb
