import DshProxy.Io

/-! `wire.rs`: the constants both connection kinds share, and the two
thresholds derived from them. -/
namespace DshProxy.Wire

/-- Preamble magic of a mobile client connection, `DSHC`. -/
def magicClient : Bytes := [0x44, 0x53, 0x48, 0x43]
/-- Preamble magic of a bridge connection, `DSHB`. -/
def magicBridge : Bytes := [0x44, 0x53, 0x48, 0x42]
/-- Protocol version carried by the preamble. -/
def version : UInt8 := 1
/-- magic(4) + ver(1) + key(32) -/
def headLen : Nat := 37

/-- Largest Noise message on the wire (length prefix is u16). -/
def maxNoiseMsg : Nat := 65535
/-- ChaChaPoly authentication tag. -/
def tagLen : Nat := 16

/-- mux frame header: streamId(u32) + kind(u8) + len(u16) + rsv(u8). -/
def frameHead : Nat := 8
/-- Largest mux payload; keeps one frame inside one Noise message. -/
def maxPayload : Nat := 16384
/-- Per-stream receive window. -/
def window : Nat := 256 * 1024

/-- Frames a stream may hold before dispatch would block. -/
def inboxFrames : Nat := 1024
/-- Frames the writer coalesces into one buffer before flushing. -/
def writeBatch : Nat := 32
/-- `mpsc::channel::<Frame>(256)`: the session's outbox. -/
def outboxFrames : Nat := 256
/-- Return receive credit once half the window is spent. -/
def grantThreshold : Nat := window / 2

end DshProxy.Wire
