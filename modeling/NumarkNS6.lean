import NumarkNS6.Foundation.Runs
import NumarkNS6.Foundation.CircularStore
import NumarkNS6.Foundation.SlotWindow
import NumarkNS6.Foundation.CircularTable
import NumarkNS6.Foundation.RecentWindow
import NumarkNS6.Foundation.SlotBag
import NumarkNS6.Foundation.SlotPool
import NumarkNS6.Foundation.Packing
import NumarkNS6.Foundation.BoundedMultiset
import NumarkNS6.Foundation.PeriodicClock
import NumarkNS6.Foundation.KeyedLog
import NumarkNS6.Foundation.StreamSearch
import NumarkNS6.Foundation.BitLanes
import NumarkNS6.Foundation.FrameGrid
import NumarkNS6.Foundation.CarriedFraction
import NumarkNS6.Foundation.Headcount
import NumarkNS6.Foundation.TaggedRing
import NumarkNS6.Foundation.SaturatingSum
import NumarkNS6.Foundation.Services
import NumarkNS6.Usb.NS6DeviceSession
import NumarkNS6.Usb.SessionOpen
import NumarkNS6.Usb.SlotReader
import NumarkNS6.Usb.SlotReaderRuns
import NumarkNS6.Usb.SlotReaderCalls
import NumarkNS6.AudioOut.AudioOutputRing
import NumarkNS6.AudioOut.RingTransfer
import NumarkNS6.AudioOut.RingInterleaving
import NumarkNS6.AudioOut.RingCalls
import NumarkNS6.AudioOut.AudioPacketPolicy
import NumarkNS6.AudioOut.ReferenceScheduler
import NumarkNS6.AudioOut.PacketSizes
import NumarkNS6.AudioOut.FeedbackLock
import NumarkNS6.AudioOut.MeasuredClock
import NumarkNS6.AudioOut.PacketTotals
import NumarkNS6.AudioOut.Resampler
import NumarkNS6.AudioOut.PacketOrigins
import NumarkNS6.AudioOut.AudioOutPacket
import NumarkNS6.AudioOut.QueueStability
import NumarkNS6.AudioOut.AudioOutTransferBatch
import NumarkNS6.AudioOut.TransferContents
import NumarkNS6.AudioOut.ResampledReads
import NumarkNS6.AudioOut.RingUse
import NumarkNS6.AudioOut.RingSafety
import NumarkNS6.AudioOut.DeliverySchedules
import NumarkNS6.AudioOut.AudioOutTransferSlots
import NumarkNS6.AudioOut.AudioOutWorker
import NumarkNS6.AudioOut.TransferAccounting
import NumarkNS6.AudioOut.LegalTransfers
import NumarkNS6.AudioOut.OutputDrain
import NumarkNS6.AudioOut.ScheduleGrid
import NumarkNS6.AudioOut.AudioOutSchedule
import NumarkNS6.AudioOut.AudioFeedbackSchedule
import NumarkNS6.AudioOut.TransferSchedules
import NumarkNS6.AudioFeedback.AudioFeedbackReader
import NumarkNS6.AudioFeedback.FeedbackRuns
import NumarkNS6.AudioFeedback.FeedbackPath
import NumarkNS6.AudioIn.AudioInputDecoder
import NumarkNS6.AudioIn.AudioInputReader
import NumarkNS6.AudioIn.ResourceBalance
import NumarkNS6.AudioIn.InputFailures
import NumarkNS6.Midi.ChannelMessages
import NumarkNS6.Midi.MIDIInputParser
import NumarkNS6.Midi.StreamGrammar
import NumarkNS6.Midi.MIDIInputEventEncoder
import NumarkNS6.Midi.MIDIInputReader
import NumarkNS6.Midi.MIDIUserSessionBridge
import NumarkNS6.Midi.InputPath
import NumarkNS6.Midi.SystemExclusive
import NumarkNS6.Midi.MIDIOutputWriter
import NumarkNS6.Midi.OutputRoundTrip
import NumarkNS6.Midi.HandshakeReply
import NumarkNS6.Midi.ActivationReads
import NumarkNS6.Midi.ControllerActivation
import NumarkNS6.Midi.ActivationRuns
import NumarkNS6.Midi.ActivationScript
import NumarkNS6.CoreAudio.AudioInputEngine
import NumarkNS6.CoreAudio.CaptureConservation
import NumarkNS6.CoreAudio.AudioDeviceLifecycle
import NumarkNS6.CoreAudio.StartMultiset
import NumarkNS6.CoreAudio.NS6AudioDriver
import NumarkNS6.CoreAudio.DriverRules
import NumarkNS6.CoreAudio.DriverLifetime
import NumarkNS6.CoreAudio.ClientTable
import NumarkNS6.CoreAudio.ZeroTimestamp
import NumarkNS6.CoreAudio.ClockContract
import NumarkNS6.CoreAudio.PropertyTables
import NumarkNS6.CoreAudio.ActiveClients
import NumarkNS6.CoreAudio.PlaybackRestart
import NumarkNS6.CoreAudio.AudioTransportRuntime
import NumarkNS6.CoreAudio.TransportWorker
import NumarkNS6.CoreAudio.TransportTeardown
import NumarkNS6.CoreAudio.TransportServices
import NumarkNS6.CoreAudio.TransportEnd
import NumarkNS6.Legacy.NS6ClockControl
import NumarkNS6.Legacy.AdaptiveRate
import NumarkNS6.Legacy.PolicyPort
import NumarkNS6.Legacy.NS6HALMapping
import NumarkNS6.Legacy.NS6Transport
import NumarkNS6.Legacy.FifoStream
import NumarkNS6.Legacy.SharedMix
import NumarkNS6.Legacy.MixOrder
import NumarkNS6.Legacy.LeaseMap
import NumarkNS6.Legacy.NS6DeviceClient
import NumarkNS6.Legacy.ClientTurns
import NumarkNS6.Legacy.ClientAgreement
import NumarkNS6.Legacy.AgreementRuns
import NumarkNS6.Legacy.ClientProtocol
import NumarkNS6.Legacy.NS6HAL
import NumarkNS6.Legacy.NS6USB
import NumarkNS6.Legacy.OutputTimeline
import NumarkNS6.Legacy.PacketCadence
import NumarkNS6.Legacy.PacketPass
import NumarkNS6.Legacy.OutputRuns
import NumarkNS6.Legacy.UnderrunFade
import NumarkNS6.Legacy.GaplessOutput
