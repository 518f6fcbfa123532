import NumarkNS6.CoreAudio.AudioDeviceLifecycle
import NumarkNS6.Usb.NS6DeviceSession

namespace NumarkNS6.CoreAudio

open Usb

abbrev AudioObjectID := UInt32

def deviceObjectID : AudioObjectID := 2

def inputDeviceObjectID : AudioObjectID := 5

inductive OSStatus
  | noErr
  | badObject
  | notReady
  | illegalOperation
  | unknownProperty
  | badPropertySize
  | unspecified
  | io (result : IOReturn)
deriving DecidableEq

def OSStatus.ofIOReturn (result : IOReturn) : OSStatus :=
  if result = .success then .noErr else .io result

structure ClientInfo where
  clientID : UInt32
  processID : Int32
  bundleID : List UInt8

structure Client where
  device : AudioObjectID
  id : UInt32
  pid : Int32
  starts : UInt32
  activitySlot : ℕ
  bundle : List UInt8

namespace Client

def addStart (c : Client) : Client := { c with starts := c.starts + 1 }

def dropStart (c : Client) : Client := { c with starts := c.starts - 1 }

end Client

structure ActivitySlot where
  key : UInt64
  lastIO : UInt64
  inputCalls : UInt64
  inputSignalBlocks : UInt64

structure Session where
  firmwareVersion : List UInt8

/-- What the driver sees of an `AudioTransportRuntime`. -/
structure Runtime where
  joinable : Bool
  midiEnabled : Bool
  inputEnabled : Bool

namespace Runtime

def fresh : Runtime := ⟨false, false, false⟩

def start (r : Runtime) (midiEnabled inputEnabled : Bool) (answer : IOReturn) :
    IOReturn × Runtime :=
  if r.joinable then (.exclusiveAccess, r)
  else (answer, ⟨decide (answer = .success), midiEnabled, inputEnabled⟩)

def setInputEnabled (r : Runtime) (enabled : Bool) : Runtime := { r with inputEnabled := enabled }

def stop (r : Runtime) : IOReturn × Runtime :=
  if r.joinable = false then (.success, r) else (.success, { r with joinable := false })

end Runtime

/-- What the calls of one `startHardware` answer. Opening the session may also
run out of memory, which is `none`. -/
structure HardwareAnswers where
  sessionAllocated : Bool
  opened : Option IOReturn
  inputMode : IOReturn
  runtimeAllocated : Bool
  firstStart : IOReturn
  activation : IOReturn
  inputModeAfterActivation : IOReturn
  startAfterActivation : IOReturn
  firmwareVersion : List UInt8
  now : UInt64

def HardwareAnswers.allSucceed (now : UInt64) : HardwareAnswers :=
  ⟨true, some .success, .success, true, .success, .success, .success, .success, [], now⟩

structure DriverState where
  host : Bool
  outputLifecycle : AudioDeviceLifecycle
  inputLifecycle : AudioDeviceLifecycle
  session : Option Session
  runtime : Option Runtime
  firmwareVersion : List UInt8
  clients : List Client
  activity : List ActivitySlot
  running : Bool
  timestampAnchor : UInt64
  timestampSeed : UInt64
  /-- The devices the host has been notified about. -/
  notified : List AudioObjectID

namespace DriverState

variable (s : DriverState)

def maximumClients : ℕ := 64

def initial (host : Bool) (timestampAnchor : UInt64) : DriverState where
  host
  outputLifecycle := .fresh
  inputLifecycle := .fresh
  session := none
  runtime := none
  firmwareVersion := []
  clients := []
  activity := List.replicate maximumClients ⟨0, 0, 0, 0⟩
  running := false
  timestampAnchor
  timestampSeed := 1
  notified := []

def validDevice (id : AudioObjectID) : Bool := id = deviceObjectID || id = inputDeviceObjectID

def lifecycle (device : AudioObjectID) : AudioDeviceLifecycle :=
  if device = deviceObjectID then s.outputLifecycle else s.inputLifecycle

def setLifecycle (device : AudioObjectID) (l : AudioDeviceLifecycle) : DriverState :=
  if device = deviceObjectID then { s with outputLifecycle := l } else { s with inputLifecycle := l }

def inputActive : Bool := s.inputLifecycle.activeStarts ≠ 0

def anyActive : Bool := s.outputLifecycle.activeStarts ≠ 0 || s.inputActive

def syncInputCapture : DriverState :=
  { s with runtime := s.runtime.map (·.setInputEnabled s.inputActive) }

def isClient (device : AudioObjectID) (id : UInt32) (client : Client) : Bool :=
  client.device = device && client.id = id

def hasClient (device : AudioObjectID) (id : UInt32) : Bool := s.clients.any (isClient device id)

def notifyRunningChanged (device : AudioObjectID) : DriverState :=
  if s.host then { s with notified := s.notified ++ [device] } else s

def outOfMemory : IOReturn × DriverState := (.noMemory, { s with runtime := none, session := none })

/-- The stages of `startHardware` that have a runtime: it is started and
stopped once before the controller is activated, and then started for good. -/
def startRuntime (inputActive : Bool) (hw : HardwareAnswers) : IOReturn × Runtime :=
  let first := Runtime.fresh.start false false hw.firstStart
  let stopped := if first.1 = .success then first.2.stop else first
  let result := stopped.1.firstFailure hw.activation
  let result := result.firstFailure hw.inputModeAfterActivation
  if result = .success then stopped.2.start true inputActive hw.startAfterActivation
  else (result, stopped.2)

def startHardware (resetTimestampAnchor : Bool) (hw : HardwareAnswers) : IOReturn × DriverState :=
  if hw.sessionAllocated = false then s.outOfMemory else
  match hw.opened with
  | none => outOfMemory { s with session := some ⟨[]⟩ }
  | some result =>
    if result ≠ .success then (result, { s with session := none }) else
    let s := { s with session := some ⟨hw.firmwareVersion⟩ }
    if hw.inputMode ≠ .success then (hw.inputMode, { s with session := none }) else
    if hw.runtimeAllocated = false then s.outOfMemory else
    let started := startRuntime s.inputActive hw
    if started.1 ≠ .success then (started.1, { s with runtime := none, session := none })
    else (.success, { s with
      runtime := some started.2
      firmwareVersion := if hw.firmwareVersion ≠ [] then hw.firmwareVersion else s.firmwareVersion
      timestampAnchor := if resetTimestampAnchor then hw.now else s.timestampAnchor
      timestampSeed := s.timestampSeed + 1
      running := true })

def stopHardware (close : IOReturn) : IOReturn × DriverState :=
  let stopped := s.runtime.map Runtime.stop
  let result := (stopped.map Prod.fst).getD .success
  if result ≠ .success then (result, { s with runtime := stopped.map Prod.snd })
  else (if s.session.isSome then close else .success,
    { s with runtime := none, session := none, running := false })

def activityKey (device : AudioObjectID) (id : UInt32) : UInt64 :=
  device.toUInt64 <<< 32 ||| id.toUInt64

def addClient (device : AudioObjectID) : Option ClientInfo → OSStatus × DriverState
  | none => (.badObject, s)
  | some info =>
    if validDevice device = false then (.badObject, s) else
    if s.hasClient device info.clientID then (.noErr, s) else
    if s.clients.length = maximumClients then (.notReady, s) else
    match s.activity.findIdx? (·.key = 0) with
    | none => (.notReady, s)
    | some slot => (.noErr, { s with
        clients := s.clients ++ [⟨device, info.clientID, info.processID, 0, slot, info.bundleID⟩]
        activity := s.activity.set slot ⟨activityKey device info.clientID, 0, 0, 0⟩ })

def swapRemove (clients : List Client) (i : ℕ) : List Client :=
  match clients.getLast? with
  | none => clients
  | some last => (clients.set i last).dropLast

def clearActivity (slot : ℕ) : DriverState :=
  { s with activity := s.activity.modify slot fun a ↦ { a with key := 0 } }

def finishStop (device : AudioObjectID) (transition : AudioIOTransition) (close : IOReturn) :
    OSStatus × DriverState :=
  let s := s.syncInputCapture
  if transition = .lastClientStopped then
    let stopped := if s.anyActive then (.success, s) else s.stopHardware close
    (.ofIOReturn stopped.1,
      if stopped.1 = .success then stopped.2.notifyRunningChanged device else stopped.2)
  else (.noErr, s)

def removeClient (device : AudioObjectID) (close : IOReturn) :
    Option ClientInfo → OSStatus × DriverState
  | none => (.badObject, s)
  | some info =>
    if validDevice device = false then (.badObject, s) else
    match s.clients.findIdx? (isClient device info.clientID) with
    | none => (.noErr, s)
    | some i =>
      let slot := (s.clients[i]?.map Client.activitySlot).getD 0
      let removed := (s.lifecycle device).removeClient info.clientID
      let s := (s.setLifecycle device removed.2).clearActivity slot
      let s := { s with clients := swapRemove s.clients i }
      s.finishStop device removed.1 close

def updateClient (p : Client → Bool) (f : Client → Client) : DriverState :=
  match s.clients.findIdx? p with
  | none => s
  | some i => { s with clients := s.clients.modify i f }

def startIo (device : AudioObjectID) (client : UInt32) (hw : HardwareAnswers) :
    OSStatus × DriverState :=
  if validDevice device = false then (.badObject, s) else
  if s.hasClient device client = false then (.badObject, s) else
  let wasIdle := !s.anyActive
  let started := (s.lifecycle device).startIo client
  let s := s.setLifecycle device started.2
  if started.1 = .rejected then (.badObject, s) else
  let opened := if wasIdle then s.startHardware true hw else (.success, s)
  let s := opened.2
  if opened.1 ≠ .success then
    (.ofIOReturn opened.1, s.setLifecycle device ((s.lifecycle device).stopIo client).2)
  else
    let s := s.updateClient (isClient device client) Client.addStart
    let s := s.syncInputCapture
    (.noErr, if started.1 = .firstClientStarted then s.notifyRunningChanged device else s)

def stopIo (device : AudioObjectID) (client : UInt32) (close : IOReturn) : OSStatus × DriverState :=
  if validDevice device = false then (.badObject, s) else
  if s.hasClient device client = false then (.badObject, s) else
  let stopped := (s.lifecycle device).stopIo client
  let s := s.setLifecycle device stopped.2
  if stopped.1 = .clientNotActive then (.noErr, s) else
  let s := s.updateClient (fun c ↦ isClient device client c && c.starts ≠ 0)
    Client.dropStart
  s.finishStop device stopped.1 close

/-- One pass of `monitorUSB`, given whether the session's device is still the
current one and whether a device is present afterwards. -/
def monitorTick (current present : Bool) (close : IOReturn) (hw : HardwareAnswers) : DriverState :=
  if s.anyActive = false then s else
  let s := if s.session.isSome && !current then (s.stopHardware close).2 else s
  if s.session.isNone && present then (s.startHardware false hw).2 else s

end DriverState

inductive DriverOp
  | addClient (device : AudioObjectID) (info : Option ClientInfo)
  | removeClient (device : AudioObjectID) (info : Option ClientInfo) (close : IOReturn)
  | startIo (device : AudioObjectID) (client : UInt32) (hw : HardwareAnswers)
  | stopIo (device : AudioObjectID) (client : UInt32) (close : IOReturn)
  | monitorTick (current present : Bool) (close : IOReturn) (hw : HardwareAnswers)

/-- One operation under the driver's mutex, with what it returns. -/
def DriverState.step (s : DriverState) : DriverOp → OSStatus × DriverState
  | .addClient device info => s.addClient device info
  | .removeClient device info close => s.removeClient device close info
  | .startIo device client hw => s.startIo device client hw
  | .stopIo device client close => s.stopIo device client close
  | .monitorTick current present close hw => (.noErr, s.monitorTick current present close hw)

end NumarkNS6.CoreAudio
