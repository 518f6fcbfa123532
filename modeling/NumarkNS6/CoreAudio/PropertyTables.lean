import NumarkNS6.CoreAudio.ZeroTimestamp
import NumarkNS6.Usb.NS6DeviceSession

namespace NumarkNS6.CoreAudio

open Usb (utf8 decimal)

def pluginObjectID : AudioObjectID := 1

def outputStreamObjectID : AudioObjectID := 3

def inputStreamObjectID : AudioObjectID := 4

inductive Selector
  | baseClass
  | objectClass
  | owner
  | name
  | modelName
  | elementCategoryName
  | manufacturer
  | ownedObjects
  | deviceList
  | boxList
  | clockDeviceList
  | bundleID
  | translateUIDToDevice
  | resourceBundle
  | customPropertyInfoList
  | activeFrames
  | activeClients
  | firmwareVersion
  | controlList
  | deviceUID
  | modelUID
  | transportType
  | relatedDevices
  | clockDomain
  | deviceIsAlive
  | deviceIsRunning
  | deviceCanBeDefaultDevice
  | deviceCanBeDefaultSystemDevice
  | isHidden
  | clockAlgorithm
  | clockIsStable
  | nominalSampleRate
  | availableNominalSampleRates
  | streams
  | latency
  | safetyOffset
  | zeroTimeStampPeriod
  | bufferFrameSize
  | bufferFrameSizeRange
  | streamConfiguration
  | preferredChannelsForStereo
  | preferredChannelLayout
  | isActive
  | direction
  | terminalType
  | startingChannel
  | virtualFormat
  | physicalFormat
  | availableVirtualFormats
  | availablePhysicalFormats
  | other (code : UInt32)
deriving DecidableEq

inductive Scope
  | global
  | input
  | output
  | playThrough
  | other (code : UInt32)
deriving DecidableEq

structure PropertyAddress where
  selector : Selector
  scope : Scope
  element : UInt32

inductive Constant
  | objectClass
  | plugInClass
  | deviceClass
  | streamClass
  | transportTypeUSB
  | clockAlgorithmSimpleIIR
  | terminalTypeSpeaker
  | terminalTypeMicrophone
deriving DecidableEq

inductive ChannelLayoutTag
  | stereo
  | discreteInOrder
deriving DecidableEq

/-- `AudioStreamBasicDescription` of packed linear PCM in `Float32`. -/
structure StreamDescription where
  sampleRate : ℕ
  bytesPerPacket : ℕ
  framesPerPacket : ℕ
  bytesPerFrame : ℕ
  channelsPerFrame : ℕ
  bitsPerChannel : ℕ
deriving DecidableEq

/-- What a property's data can be. Floating-point data is always a whole number,
and a string is handed out with a reference of its own. -/
inductive PropertyValue
  | words (values : List UInt32)
  | constant (value : Constant)
  | string (text : List UInt8)
  | float64 (value : ℕ)
  | valueRange (minimum maximum : ℕ)
  | channelLayout (tag : ChannelLayoutTag)
  | bufferList (channels : List ℕ)
  | format (description : StreamDescription)
  | rangedFormat (description : StreamDescription) (minimum maximum : ℕ)
  | customProperties (selectors : List Selector)
deriving DecidableEq

def sizeofUInt32 : ℕ := 4

def sizeofCFStringRef : ℕ := 8

def sizeofFloat64 : ℕ := 8

def sizeofAudioValueRange : ℕ := 16

def sizeofAudioBuffer : ℕ := 16

def offsetofBuffers : ℕ := 8

def offsetofChannelDescriptions : ℕ := 12

def sizeofStreamDescription : ℕ := 40

def sizeofRangedDescription : ℕ := 56

def sizeofCustomPropertyInfo : ℕ := 12

def PropertyValue.bytes : PropertyValue → ℕ
  | .words values => values.length * sizeofUInt32
  | .constant _ => sizeofUInt32
  | .string _ => sizeofCFStringRef
  | .float64 _ => sizeofFloat64
  | .valueRange _ _ => sizeofAudioValueRange
  | .channelLayout _ => offsetofChannelDescriptions
  | .bufferList channels => offsetofBuffers + channels.length * sizeofAudioBuffer
  | .format _ => sizeofStreamDescription
  | .rangedFormat _ _ _ => sizeofRangedDescription
  | .customProperties selectors => selectors.length * sizeofCustomPropertyInfo

/-- What a query returns and stores; `none` is a place that is not written. -/
structure Answer where
  status : OSStatus
  size : Option ℕ
  data : Option PropertyValue
deriving DecidableEq

namespace Answer

def fail (status : OSStatus) : Answer := ⟨status, none, none⟩

def empty : Answer := ⟨.noErr, some 0, none⟩

def wrote (value : PropertyValue) : Answer := ⟨.noErr, some value.bytes, some value⟩

/-- `copy`, and the same test and store where the source writes a string. -/
def copy (capacity : ℕ) (value : PropertyValue) : Answer :=
  if capacity < value.bytes then .fail .badPropertySize else .wrote value

end Answer

/-- `qualifierSize` and `qualifierData`, which points to a string that may be null. -/
structure Qualifier where
  size : ℕ
  data : Option (Option (List UInt8))

structure PropertyAnswers where
  now : UInt64
  numer : UInt32
  denom : UInt32
  stringCreated : Bool

def inputChannels : ℕ := 2

def channels : ℕ := 4

def ioBufferFrames : UInt32 := 512

def deviceLatencyFrames : UInt32 := 256

def deviceUID : List UInt8 := utf8 "io.github.maurojuniorr.numark-ns6.out"

def inputDeviceUID : List UInt8 := utf8 "io.github.maurojuniorr.numark-ns6.in"

def modelUID : List UInt8 := utf8 "io.github.maurojuniorr.numark-ns6"

def pluginBundleID : List UInt8 := utf8 "io.github.maurojuniorr.NumarkNS6.AudioServer"

def statusProperties : List Selector := [.activeFrames, .activeClients, .firmwareVersion]

def streamFormat (input : Bool) : StreamDescription :=
  let channels := if input then inputChannels else channels
  let bytesPerFrame := channels * 4
  ⟨sampleRate, bytesPerFrame, 1, bytesPerFrame, channels, 32⟩

namespace DriverState

def isStream (id : AudioObjectID) : Bool := id = outputStreamObjectID || id = inputStreamObjectID

def validObject (id : AudioObjectID) : Bool :=
  id = pluginObjectID || id = deviceObjectID || id = inputDeviceObjectID ||
    id = outputStreamObjectID || id = inputStreamObjectID

def hasProperty (object : AudioObjectID) (a : PropertyAddress) : Bool :=
  if validObject object = false then false else
  if validDevice object && a.selector = .streams && a.scope ≠ .input && a.scope ≠ .output &&
    a.scope ≠ .playThrough then false else
  if isStream object && a.scope ≠ .global then false else
  match a.selector with
  | .baseClass | .objectClass | .owner | .name | .modelName | .elementCategoryName
  | .manufacturer => true
  | .ownedObjects => object ≠ outputStreamObjectID && object ≠ inputStreamObjectID
  | .deviceList | .boxList | .clockDeviceList => object = pluginObjectID
  | .bundleID | .translateUIDToDevice => object = pluginObjectID
  | .resourceBundle => object = pluginObjectID
  | .customPropertyInfoList => validDevice object
  | .activeFrames | .activeClients | .firmwareVersion => validDevice object
  | .controlList => validDevice object
  | .deviceUID | .modelUID | .transportType | .relatedDevices | .clockDomain | .deviceIsAlive
  | .deviceIsRunning | .deviceCanBeDefaultDevice | .deviceCanBeDefaultSystemDevice | .isHidden
  | .clockAlgorithm | .clockIsStable | .nominalSampleRate | .availableNominalSampleRates
  | .streams | .latency | .safetyOffset | .zeroTimeStampPeriod | .bufferFrameSize
  | .bufferFrameSizeRange | .streamConfiguration =>
    validDevice object || (a.selector = .latency && isStream object)
  | .preferredChannelsForStereo => object = inputDeviceObjectID && a.scope = .input
  | .preferredChannelLayout =>
    (object = deviceObjectID && a.scope = .output) ||
      (object = inputDeviceObjectID && a.scope = .input)
  | .isActive | .direction | .terminalType | .startingChannel | .virtualFormat | .physicalFormat
  | .availableVirtualFormats | .availablePhysicalFormats => isStream object
  | .other _ => false

def statusTextBytes : ℕ := 16384

/-- The loop of `kActiveClients` over the clients, with the text it has written.
A line that does not fit is cut and ends the text. -/
def clientLines (activity : List ActivitySlot) (object : AudioObjectID) (now maxAge : UInt64) :
    List Client → List UInt8 → List UInt8
  | [], value => value
  | client :: clients, value =>
    let last := (activity[client.activitySlot]?.map ActivitySlot.lastIO).getD 0
    let recent := last ≠ 0 && now ≥ last && now - last ≤ maxAge
    if client.device ≠ object || (client.starts = 0 && !recent) || client.pid ≤ 0 then
      clientLines activity object now maxAge clients value
    else
      let line := decimal client.pid.toInt.toNat ++ utf8 "|" ++ client.bundle ++ utf8 "\n"
      let room := statusTextBytes - value.length
      if line.length ≥ room then value ++ line.take (room - 1)
      else clientLines activity object now maxAge clients (value ++ line)

variable (s : DriverState)

def statusText (answers : PropertyAnswers) (object : AudioObjectID) (selector : Selector) :
    List UInt8 :=
  if selector = .activeFrames then
    decimal (if (s.lifecycle object).activeStarts ≠ 0 then ioBufferFrames.toNat else 0)
  else if selector = .firmwareVersion then
    if s.firmwareVersion ≠ [] then s.firmwareVersion else utf8 "Unavailable"
  else
    let maxAge := 2000000000 * answers.denom.toUInt64 / answers.numer.toUInt64
    clientLines s.activity object answers.now maxAge s.clients []

def objectName (object : AudioObjectID) : List UInt8 :=
  if object = inputStreamObjectID then utf8 "Numark NS6 In Stream"
  else if object = outputStreamObjectID then utf8 "Numark NS6 Out Stream"
  else if object = deviceObjectID then utf8 "Numark NS6 Output"
  else if object = inputDeviceObjectID then utf8 "Numark NS6 Input"
  else utf8 "Numark NS6 Audio Driver"

def word (value : UInt32) : PropertyValue := .words [value]

def flag (value : Bool) : PropertyValue := word (if value then 1 else 0)

def dataSwitch (answers : PropertyAnswers) (object : AudioObjectID) (a : PropertyAddress)
    (qualifier : Qualifier) (capacity : ℕ) : Answer :=
  match a.selector with
  | .activeFrames | .activeClients | .firmwareVersion =>
    if capacity < sizeofCFStringRef then .fail .badPropertySize
    else if answers.stringCreated = false then .fail .unspecified
    else .wrote (.string (s.statusText answers object a.selector))
  | .baseClass => .copy capacity <| .constant <|
      if object = pluginObjectID then .objectClass
      else if validDevice object then .deviceClass else .streamClass
  | .objectClass => .copy capacity <| .constant <|
      if object = pluginObjectID then .plugInClass
      else if validDevice object then .deviceClass else .streamClass
  | .owner => .copy capacity <| word <|
      if object = pluginObjectID then 0
      else if validDevice object then pluginObjectID
      else if object = inputStreamObjectID then inputDeviceObjectID else deviceObjectID
  | .name => .copy capacity (.string (objectName object))
  | .modelName => .copy capacity (.string (utf8 "Numark NS6"))
  | .elementCategoryName => .copy capacity (.string (utf8 "Audio"))
  | .manufacturer => .copy capacity (.string (utf8 "Numark"))
  | .deviceList => .copy capacity (.words [deviceObjectID, inputDeviceObjectID])
  | .bundleID => .copy capacity (.string pluginBundleID)
  | .translateUIDToDevice => .copy capacity <| word <|
      if qualifier.size = sizeofCFStringRef then
        match qualifier.data with
        | some (some uid) =>
          if uid = deviceUID then deviceObjectID
          else if uid = inputDeviceUID then inputDeviceObjectID else 0
        | _ => 0
      else 0
  | .ownedObjects =>
    if isStream object then .empty
    else if object = pluginObjectID then
      .copy capacity (.words [deviceObjectID, inputDeviceObjectID])
    else .copy capacity <| word <|
      if object = deviceObjectID then outputStreamObjectID else inputStreamObjectID
  | .resourceBundle => .copy capacity (.string [])
  | .deviceUID => .copy capacity <| .string <|
      if object = inputDeviceObjectID then inputDeviceUID else deviceUID
  | .modelUID => .copy capacity (.string modelUID)
  | .transportType => .copy capacity (.constant .transportTypeUSB)
  | .relatedDevices => .copy capacity (word object)
  | .clockDomain => .copy capacity (word 0)
  | .deviceIsAlive => .copy capacity (word 1)
  | .deviceIsRunning => .copy capacity (flag ((s.lifecycle object).activeStarts ≠ 0))
  | .deviceCanBeDefaultDevice => .copy capacity (word 1)
  | .deviceCanBeDefaultSystemDevice => .copy capacity (flag (object = deviceObjectID))
  | .isHidden => .copy capacity (word 0)
  | .clockAlgorithm => .copy capacity (.constant .clockAlgorithmSimpleIIR)
  | .clockIsStable => .copy capacity (word 1)
  | .nominalSampleRate => .copy capacity (.float64 sampleRate)
  | .availableNominalSampleRates => .copy capacity (.valueRange sampleRate sampleRate)
  | .streams => .copy capacity <| word <|
      if object = inputDeviceObjectID then inputStreamObjectID else outputStreamObjectID
  | .latency => .copy capacity (word deviceLatencyFrames)
  | .safetyOffset => .copy capacity (word ioBufferFrames)
  | .preferredChannelLayout => .copy capacity <| .channelLayout <|
      if a.scope = .input then .stereo else .discreteInOrder
  | .preferredChannelsForStereo => .copy capacity (.words [1, 2])
  | .streamConfiguration => .copy capacity <| .bufferList <|
      if object = inputDeviceObjectID && a.scope = .input then [inputChannels]
      else if object = deviceObjectID && a.scope = .output then [channels]
      else []
  | .zeroTimeStampPeriod => .copy capacity (word (.ofNat zeroTimestampPeriodFrames))
  | .bufferFrameSize => .copy capacity (word ioBufferFrames)
  | .bufferFrameSizeRange => .copy capacity (.valueRange ioBufferFrames.toNat ioBufferFrames.toNat)
  | .isActive => .copy capacity (word 1)
  | .direction => .copy capacity (flag (object = inputStreamObjectID))
  | .terminalType => .copy capacity <| .constant <|
      if object = inputStreamObjectID then .terminalTypeMicrophone else .terminalTypeSpeaker
  | .startingChannel => .copy capacity (word 1)
  | .virtualFormat | .physicalFormat =>
    .copy capacity (.format (streamFormat (object = inputStreamObjectID)))
  | .availableVirtualFormats | .availablePhysicalFormats =>
    .copy capacity (.rangedFormat (streamFormat (object = inputStreamObjectID)) sampleRate
      sampleRate)
  | _ => .fail .unknownProperty

/-- `size` and `data` tell whether the caller gives these pointers. -/
def propertyData (answers : PropertyAnswers) (object : AudioObjectID) (a : PropertyAddress)
    (qualifier : Qualifier) (capacity : ℕ) (size data : Bool) : Answer :=
  if size = false || hasProperty object a = false then .fail .unknownProperty else
  if a.selector = .customPropertyInfoList then
    if data = false then .fail .badPropertySize
    else .copy capacity (.customProperties statusProperties)
  else if a.selector = .controlList || a.selector = .boxList || a.selector = .clockDeviceList then
    .empty
  else if a.selector = .streams && ((object = deviceObjectID && a.scope ≠ .output) ||
      (object = inputDeviceObjectID && a.scope ≠ .input)) then .empty
  else if data = false then .fail .illegalOperation
  else s.dataSwitch answers object a qualifier capacity

def sizeSwitch (object : AudioObjectID) (a : PropertyAddress) : OSStatus × Option ℕ :=
  match a.selector with
  | .name | .modelName | .elementCategoryName | .manufacturer | .deviceUID | .modelUID
  | .activeFrames | .activeClients | .firmwareVersion | .bundleID | .resourceBundle =>
    (.noErr, some sizeofCFStringRef)
  | .baseClass | .objectClass | .owner | .translateUIDToDevice | .transportType | .clockDomain
  | .deviceIsAlive | .deviceIsRunning | .deviceCanBeDefaultDevice
  | .deviceCanBeDefaultSystemDevice | .isHidden | .clockAlgorithm | .clockIsStable | .latency
  | .safetyOffset | .zeroTimeStampPeriod | .bufferFrameSize | .isActive | .direction
  | .terminalType | .startingChannel => (.noErr, some sizeofUInt32)
  | .nominalSampleRate => (.noErr, some sizeofFloat64)
  | .availableNominalSampleRates | .bufferFrameSizeRange => (.noErr, some sizeofAudioValueRange)
  | .deviceList => (.noErr, some (2 * sizeofUInt32))
  | .relatedDevices => (.noErr, some sizeofUInt32)
  | .customPropertyInfoList => (.noErr, some (3 * sizeofCustomPropertyInfo))
  | .controlList | .boxList | .clockDeviceList => (.noErr, some 0)
  | .streams =>
    (.noErr, some (if (object = deviceObjectID && a.scope = .output) ||
      (object = inputDeviceObjectID && a.scope = .input) then sizeofUInt32 else 0))
  | .ownedObjects =>
    (.noErr, some (if object = pluginObjectID then 2 * sizeofUInt32 else sizeofUInt32))
  | .preferredChannelLayout => (.noErr, some offsetofChannelDescriptions)
  | .preferredChannelsForStereo => (.noErr, some (2 * sizeofUInt32))
  | .streamConfiguration =>
    (.noErr, some (offsetofBuffers + if (object = inputDeviceObjectID && a.scope = .input) ||
      (object = deviceObjectID && a.scope = .output) then sizeofAudioBuffer else 0))
  | .virtualFormat | .physicalFormat => (.noErr, some sizeofStreamDescription)
  | .availableVirtualFormats | .availablePhysicalFormats => (.noErr, some sizeofRangedDescription)
  | .other _ => (.unknownProperty, none)

/-- Without an address or a place for the size nothing is answered. -/
def getPropertySize (object : AudioObjectID) (a : Option PropertyAddress) (size : Bool) :
    OSStatus × Option ℕ :=
  match a, size with
  | none, _ => (.illegalOperation, none)
  | _, false => (.illegalOperation, none)
  | some a, true =>
    if hasProperty object a = false then (.unknownProperty, none) else
    sizeSwitch object a

end DriverState

namespace Answer

/-- A query of `n` bytes: it succeeds with all of them, or writes nothing because
there is no room. -/
structure Exact (n capacity : ℕ) (answer : Answer) : Prop where
  fits : n ≤ capacity → answer.status = .noErr ∧ answer.size = some n ∧
    (answer.data.map PropertyValue.bytes).getD 0 = n
  short : capacity < n → answer = .fail .badPropertySize

theorem wrote_exact {capacity : ℕ} {value : PropertyValue} (h : value.bytes ≤ capacity) :
    (wrote value).Exact value.bytes capacity :=
  ⟨fun _ ↦ ⟨rfl, rfl, rfl⟩, fun hlt ↦ absurd h (Nat.not_le_of_lt hlt)⟩

theorem fail_exact {n capacity : ℕ} (h : capacity < n) :
    (fail .badPropertySize).Exact n capacity :=
  ⟨fun hle ↦ absurd h (Nat.not_lt_of_le hle), fun _ ↦ rfl⟩

theorem copy_exact {n : ℕ} (capacity : ℕ) {value : PropertyValue} (hn : value.bytes = n) :
    (copy capacity value).Exact n capacity := by
  subst hn
  unfold copy
  split_ifs with h
  · exact fail_exact h
  · exact wrote_exact (Nat.le_of_not_lt h)

theorem empty_exact (capacity : ℕ) : empty.Exact 0 capacity :=
  ⟨fun _ ↦ ⟨rfl, rfl, rfl⟩, fun h ↦ absurd h (Nat.not_lt_zero _)⟩

end Answer

namespace DriverState

open Answer

section Tables

variable (s : DriverState) (answers : PropertyAnswers) {object : AudioObjectID} {a : PropertyAddress}
  (qualifier : Qualifier)

theorem propertyData_unknown (h : hasProperty object a = false) (capacity : ℕ) (size data : Bool) :
    s.propertyData answers object a qualifier capacity size data = .fail .unknownProperty := by
  rw [propertyData, h]
  simp

theorem getPropertySize_unknown (h : hasProperty object a = false) :
    getPropertySize object (some a) true = (.unknownProperty, none) := by
  rw [getPropertySize, if_pos h]

theorem getPropertySize_known (h : hasProperty object a = true) :
    getPropertySize object (some a) true = sizeSwitch object a := by
  rw [getPropertySize, if_neg (by rw [h]; exact Bool.noConfusion)]

theorem not_isStream_of_ownedObjects {scope : Scope} {element : UInt32}
    (h : hasProperty object ⟨.ownedObjects, scope, element⟩ = true) : isStream object = false := by
  unfold hasProperty at h
  split_ifs at h
  simpa [isStream] using h

theorem validDevice_of_streams {scope : Scope} {element : UInt32}
    (h : hasProperty object ⟨.streams, scope, element⟩ = true) :
    object = deviceObjectID ∨ object = inputDeviceObjectID := by
  unfold hasProperty at h
  split_ifs at h
  simpa [validDevice] using h

theorem not_hasProperty_other (object : AudioObjectID) (code : UInt32) (scope : Scope)
    (element : UInt32) : hasProperty object ⟨.other code, scope, element⟩ = false := by
  unfold hasProperty
  split_ifs <;> rfl

theorem statusText_exact (hcreated : answers.stringCreated = true) (capacity : ℕ)
    (text : List UInt8) :
    (if capacity < sizeofCFStringRef then fail .badPropertySize
      else if answers.stringCreated = false then fail .unspecified
      else wrote (.string text)).Exact sizeofCFStringRef capacity := by
  rw [hcreated]
  exact @copy_exact sizeofCFStringRef capacity (.string text) rfl

theorem dataSwitch_exact (hcreated : answers.stringCreated = true)
    (h : hasProperty object a = true) (hstreams : a.selector ≠ .streams)
    (hearly : a.selector ∉ [.customPropertyInfoList, .controlList, .boxList, .clockDeviceList]) :
    ∃ n, sizeSwitch object a = (.noErr, some n) ∧
      ∀ capacity, (s.dataSwitch answers object a qualifier capacity).Exact n capacity := by
  obtain ⟨selector, scope, element⟩ := a
  cases selector with
  | customPropertyInfoList | controlList | boxList | clockDeviceList => simp at hearly
  | streams => exact absurd rfl hstreams
  | other code => exact absurd h (by rw [not_hasProperty_other]; exact Bool.noConfusion)
  | activeFrames | activeClients | firmwareVersion =>
    exact ⟨_, rfl, fun capacity ↦ statusText_exact answers hcreated capacity _⟩
  | ownedObjects =>
    refine ⟨_, rfl, fun capacity ↦ ?_⟩
    simp only [dataSwitch, not_isStream_of_ownedObjects h, Bool.false_eq_true, if_false]
    split_ifs <;> exact copy_exact capacity rfl
  | streamConfiguration =>
    refine ⟨_, rfl, fun capacity ↦ copy_exact capacity ?_⟩
    dsimp only
    by_cases hin : (object = inputDeviceObjectID && scope = .input) = true
    · rw [if_pos hin, hin]
      rfl
    · rw [if_neg hin, Bool.eq_false_of_not_eq_true hin, Bool.false_or]
      split_ifs <;> rfl
  | _ => exact ⟨_, rfl, fun capacity ↦ copy_exact capacity rfl⟩

/-- The two tables agree on a property that exists. -/
theorem propertyData_exact (hcreated : answers.stringCreated = true)
    (h : hasProperty object a = true) :
    ∃ n, getPropertySize object (some a) true = (.noErr, some n) ∧
      ∀ capacity, (s.propertyData answers object a qualifier capacity true true).Exact n capacity := by
  have hknown : ¬ ((true = false) || (hasProperty object a = false)) = true := by simp [h]
  simp only [getPropertySize_known h, propertyData, if_neg hknown]
  by_cases hearly : a.selector ∈ [.customPropertyInfoList, .controlList, .boxList, .clockDeviceList]
  · obtain ⟨selector, scope, element⟩ := a
    simp only [List.mem_cons, List.not_mem_nil, or_false] at hearly
    rcases hearly with rfl | rfl | rfl | rfl
    · exact ⟨_, rfl, fun capacity ↦ copy_exact capacity rfl⟩
    all_goals exact ⟨_, rfl, fun capacity ↦ empty_exact capacity⟩
  by_cases hstreams : a.selector = .streams
  · obtain ⟨selector, scope, element⟩ := a
    obtain rfl : selector = .streams := hstreams
    refine ⟨_, rfl, fun capacity ↦ ?_⟩
    -- A device answers with its stream in its own direction and with no stream in the others.
    rcases validDevice_of_streams h with rfl | rfl
    · by_cases hscope : scope = .output
      · subst hscope
        exact copy_exact capacity rfl
      · simpa [hscope, deviceObjectID, inputDeviceObjectID] using empty_exact capacity
    · by_cases hscope : scope = .input
      · subst hscope
        exact copy_exact capacity rfl
      · simpa [hscope, deviceObjectID, inputDeviceObjectID] using empty_exact capacity
  · obtain ⟨n, hsize, hdata⟩ := s.dataSwitch_exact answers qualifier hcreated h hstreams hearly
    refine ⟨n, hsize, fun capacity ↦ ?_⟩
    simp only [List.mem_cons, List.not_mem_nil, or_false, not_or] at hearly
    simpa [hearly, hstreams] using hdata capacity

end Tables

/-- The three property functions agree on every object and address: a property that
is not there is unknown to the other two, and one that is there has a size that
`propertyData` writes when there is room for it and never exceeds. -/
theorem property_queries_agree (s : DriverState) (object : AudioObjectID) (a : PropertyAddress)
    (qualifier : Qualifier) (answers : PropertyAnswers) (hcreated : answers.stringCreated = true) :
    (hasProperty object a = false →
      (getPropertySize object (some a) true).1 = .unknownProperty ∧
        ∀ capacity size data,
          (s.propertyData answers object a qualifier capacity size data).status = .unknownProperty) ∧
    (hasProperty object a = true → ∃ n,
      getPropertySize object (some a) true = (.noErr, some n) ∧
        ∀ capacity, (s.propertyData answers object a qualifier capacity true true).Exact n capacity) := by
  refine ⟨fun h ↦ ⟨?_, fun capacity size data ↦ ?_⟩, s.propertyData_exact answers qualifier hcreated⟩
  · rw [getPropertySize_unknown h]
  · rw [s.propertyData_unknown answers qualifier h]
    rfl

/-- The configuration of the input device, asked with a byte too little and with
just enough room, and the same question to the output device's stream. -/
theorem property_queries_agree_streamConfiguration :
    let s := initial true 0
    let a : PropertyAddress := ⟨.streamConfiguration, .input, 0⟩
    let query (object : AudioObjectID) (capacity : ℕ) :=
      s.propertyData ⟨0, 125, 3, true⟩ object a ⟨0, none⟩ capacity true true
    getPropertySize inputDeviceObjectID (some a) true = (.noErr, some 24) ∧
      query inputDeviceObjectID 23 = .fail .badPropertySize ∧
      query inputDeviceObjectID 24 = ⟨.noErr, some 24, some (.bufferList [2])⟩ ∧
      (query outputStreamObjectID 24).status = .unknownProperty := by
  intro s a query
  obtain ⟨-, hknown⟩ := property_queries_agree s inputDeviceObjectID a ⟨0, none⟩ ⟨0, 125, 3, true⟩ rfl
  obtain ⟨hunknown, -⟩ := property_queries_agree s outputStreamObjectID a ⟨0, none⟩ ⟨0, 125, 3, true⟩ rfl
  obtain ⟨n, hsize, hexact⟩ := hknown rfl
  obtain rfl : n = 24 := by cases hsize; rfl
  exact ⟨hsize, (hexact 23).short (by decide), rfl, (hunknown rfl).2 24 true true⟩

end DriverState

end NumarkNS6.CoreAudio
