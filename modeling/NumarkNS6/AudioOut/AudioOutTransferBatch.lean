import NumarkNS6.AudioOut.AudioOutPacket

namespace NumarkNS6.AudioOut

open Foundation.CircularStore

structure AudioOutTransferBatch where
  bytes : List UInt8
  packetByteCounts : List UInt16
  byteCount : ℕ
  missingFrames : UInt32

namespace AudioOutTransferBatch

def serviceIntervals : ℕ := 32

def maxBytes : ℕ := serviceIntervals * AudioOutPacket.maxBytes

def empty : AudioOutTransferBatch where
  bytes := List.replicate maxBytes 0
  packetByteCounts := List.replicate serviceIntervals 0
  byteCount := 0
  missingFrames := 0

def append (batch : AudioOutTransferBatch) (i : ℕ) (packet : AudioOutPacket) :
    AudioOutTransferBatch where
  bytes := splice batch.bytes batch.byteCount (packet.bytes.take packet.byteCount)
  packetByteCounts := batch.packetByteCounts.set i (UInt16.ofNat packet.byteCount)
  byteCount := batch.byteCount + packet.byteCount
  missingFrames := batch.missingFrames + packet.missingFrames

def abandon (batch : AudioOutTransferBatch) : AudioOutTransferBatch :=
  { batch with byteCount := 0, packetByteCounts := List.replicate serviceIntervals 0 }

def buildLoop : ℕ → AudioOutTransferBatch → AudioOutputRing ℚ → AudioPacketPolicy →
    Bool × AudioOutTransferBatch × AudioOutputRing ℚ × AudioPacketPolicy
  | 0, batch, ring, policy => (true, batch, ring, policy)
  | remaining + 1, batch, ring, policy =>
    let built := AudioOutPacket.build ring policy
    if built.1 = 0 then (false, batch.abandon, built.2.2)
    else buildLoop remaining (batch.append (serviceIntervals - (remaining + 1)) built.2.1)
      built.2.2.1 built.2.2.2

/-- `build`: whether every packet could be built, the batch, and ring and policy
afterwards. Nothing of the batch's earlier contents survives. -/
def build (ring : AudioOutputRing ℚ) (policy : AudioPacketPolicy) :
    Bool × AudioOutTransferBatch × AudioOutputRing ℚ × AudioPacketPolicy :=
  buildLoop serviceIntervals empty ring policy

def packetByteCount (batch : AudioOutTransferBatch) (packet : ℕ) : UInt16 :=
  if packet < serviceIntervals then batch.packetByteCounts.getD packet 0 else 0

end AudioOutTransferBatch

end NumarkNS6.AudioOut
