import Xi2p.Lib.Bytes
import Xi2p.Lib.KeyedSet

/-!
# Streaming packets

`Packet` of `client/api/streaming.h`: a byte buffer with a length and an offset. The accessors read
the header of the streaming protocol:

| bytes          | field                              |
| -------------- | ---------------------------------- |
| `0 … 3`        | send stream ID                     |
| `4 … 7`        | receive stream ID                  |
| `8 … 11`       | sequence number                    |
| `12 … 15`      | ack-through                        |
| `16`           | number `n` of NACKs                |
| `17 …`         | `n` NACKs of four bytes each       |
| then           | resend delay, flags, options size, options, payload |

The buffer is a flat memory: behind the bytes that were written, whatever stood there is read.
-/

namespace Streaming

open Bytes

/-! ## Constants -/

/-- `PACKET_FLAG_SYNCHRONIZE`. -/
abbrev packetFlagSynchronize : UInt16 := 0x0001

/-- `PACKET_FLAG_CLOSE`. -/
abbrev packetFlagClose : UInt16 := 0x0002

/-- `PACKET_FLAG_RESET`. -/
abbrev packetFlagReset : UInt16 := 0x0004

/-- `PACKET_FLAG_SIGNATURE_INCLUDED`. -/
abbrev packetFlagSignatureIncluded : UInt16 := 0x0008

/-- `PACKET_FLAG_FROM_INCLUDED`. -/
abbrev packetFlagFromIncluded : UInt16 := 0x0020

/-- `PACKET_FLAG_DELAY_REQUESTED`. -/
abbrev packetFlagDelayRequested : UInt16 := 0x0040

/-- `PACKET_FLAG_MAX_PACKET_SIZE_INCLUDED`. -/
abbrev packetFlagMaxPacketSizeIncluded : UInt16 := 0x0080

/-- `PACKET_FLAG_NO_ACK`. -/
abbrev packetFlagNoAck : UInt16 := 0x0400

/-- `STREAMING_MTU`. -/
abbrev streamingMTU : ℕ := 1730

/-! ## Packets -/

/-- `Packet`. -/
structure Packet where
  /-- `buf`. -/
  buf : Mem
  /-- `len`: the end of the packet in the buffer. -/
  len : ℕ
  /-- `offset`: the first byte that has not been consumed. -/
  offset : ℕ := 0
  /-- `send_time`, in milliseconds. -/
  sendTime : UInt64 := 0

namespace Packet

/-- `GetLength`, as a `std::size_t`. -/
def getLength (p : Packet) : ℕ := (2 ^ 64 + p.len - p.offset) % 2 ^ 64

/-- The `GetLength()` bytes from `GetBuffer()` on. -/
def contents (p : Packet) : List UInt8 := slice p.buf p.offset p.getLength

/-- `GetSendStreamID`. -/
def getSendStreamID (p : Packet) : UInt32 := readU32 (slice p.buf 0 4)

/-- `GetReceiveStreamID`. -/
def getReceiveStreamID (p : Packet) : UInt32 := readU32 (slice p.buf 4 4)

/-- `GetSeqn`. -/
def getSeqn (p : Packet) : UInt32 := readU32 (slice p.buf 8 4)

/-- `GetAckThrough`. -/
def getAckThrough (p : Packet) : UInt32 := readU32 (slice p.buf 12 4)

/-- `GetNACKCount`. -/
def getNACKCount (p : Packet) : ℕ := (p.buf 16).toNat

/-- `GetNACK(i)`. -/
def getNACK (p : Packet) (i : ℕ) : UInt32 := readU32 (slice p.buf (17 + 4 * i) 4)

/-- The NACKs that a reader of the packet goes through. -/
def nacks (p : Packet) : List UInt32 := (List.range p.getNACKCount).map p.getNACK

/-- `GetOption() - buf`; the `3` are resend delay and flags. -/
def optionOffset (p : Packet) : ℕ := 17 + p.getNACKCount * 4 + 3

/-- `GetFlags`. -/
def getFlags (p : Packet) : UInt16 := readU16 (slice p.buf (p.optionOffset - 2) 2)

/-- `GetOptionSize`. -/
def getOptionSize (p : Packet) : ℕ := readBE (slice p.buf p.optionOffset 2)

/-- `GetOptionData() - buf`. -/
def optionDataOffset (p : Packet) : ℕ := p.optionOffset + 2

/-- `GetPayload() - buf`. -/
def payloadOffset (p : Packet) : ℕ := p.optionDataOffset + p.getOptionSize

/-- Whether one of the bits of `flag` is set in `flags`. -/
def hasFlag (flags flag : UInt16) : Bool := flags &&& flag != 0

/-- `IsSYN`. -/
def isSYN (p : Packet) : Bool := hasFlag p.getFlags packetFlagSynchronize

/-- `IsNoAck`. -/
def isNoAck (p : Packet) : Bool := hasFlag p.getFlags packetFlagNoAck

/-- The payload of a packet. -/
def payload (p : Packet) : List UInt8 := slice p.buf p.payloadOffset (p.len - p.payloadOffset)

end Packet

/-- The key that `PacketCmp` compares. -/
def Packet.order (p : Packet) : ℕ := p.getSeqn.toNat

/-- `std::set<Packet*, PacketCmp>::insert`. -/
def insertPacket (p : Packet) (ps : List Packet) : List Packet :=
  KeyedSet.insert Packet.order p ps

end Streaming
