import Neptun.Lib.Bytes

/-! The vocabulary of the noise layer: the errors of `errors.rs`, the message
types and sizes of `noise/mod.rs`, the parsed packets that borrow from a
datagram, and what a tunnel call returns. Byte strings are `List UInt8`; a
fixed-size array `[u8; n]` is `Vector UInt8 n`. -/
namespace Neptun.Noise

open Lib

inductive WireGuardError where
  | destinationBufferTooSmall
  | incorrectPacketLength
  | unexpectedPacket
  | wrongPacketType
  | wrongIndex
  | wrongKey
  | invalidTai64nTimestamp
  | wrongTai64nTimestamp
  | invalidMac
  | invalidAeadTag
  | invalidCounter
  | duplicateCounter
  | invalidPacket
  | noCurrentSession
  | lockFailed
  | connectionExpired
  | underLoad
  | cryptoFailed
  | invalidLength
  | invalidIndex
  | ringUnspecifiedError
  | systemTimeError
  deriving DecidableEq, Repr

abbrev Key := Vector UInt8 32

def handshakeInit : UInt32 := 1
def handshakeResp : UInt32 := 2
def cookieReply : UInt32 := 3
def data : UInt32 := 4

def handshakeInitSz : Nat := 148
def handshakeRespSz : Nat := 92
def cookieReplySz : Nat := 64
def dataOverheadSz : Nat := 32

/-- `DATA_OFFSET`: where the encrypted payload starts in a data message. -/
def dataOffset : Nat := 16
/-- `AEAD_SIZE`: the length of a ChaCha20-Poly1305 tag. -/
def aeadSize : Nat := 16

/-- `u32::to_le_bytes`. -/
def u32ToLe (x : UInt32) : List UInt8 := leBytes 4 x.toNat
/-- `u64::to_le_bytes`. -/
def u64ToLe (x : UInt64) : List UInt8 := leBytes 8 x.toNat
/-- `u32::from_le_bytes`. -/
def u32FromLe (b : Vector UInt8 4) : UInt32 := UInt32.ofNat (ofLeBytes b.toList)
/-- `u64::from_le_bytes`. -/
def u64FromLe (b : Vector UInt8 8) : UInt64 := UInt64.ofNat (ofLeBytes b.toList)
/-- `u64::to_be_bytes`. -/
def u64ToBe (x : UInt64) : List UInt8 := beBytes 8 x.toNat
/-- `u32::to_be_bytes`. -/
def u32ToBe (x : UInt32) : List UInt8 := beBytes 4 x.toNat
/-- `u16::from_be_bytes`. -/
def u16FromBe (b : Vector UInt8 2) : UInt16 := UInt16.ofNat (ofBeBytes b.toList)
/-- `u32::from_be_bytes`. -/
def u32FromBe (b : Vector UInt8 4) : UInt32 := UInt32.ofNat (ofBeBytes b.toList)
/-- `u64::from_be_bytes`. -/
def u64FromBe (b : Vector UInt8 8) : UInt64 := UInt64.ofNat (ofBeBytes b.toList)

structure HandshakeInit where
  senderIdx : UInt32
  unencryptedEphemeral : Key
  encryptedStatic : List UInt8
  encryptedTimestamp : List UInt8
  deriving DecidableEq, Repr

structure HandshakeResponse where
  senderIdx : UInt32
  receiverIdx : UInt32
  unencryptedEphemeral : Key
  encryptedNothing : List UInt8
  deriving DecidableEq, Repr

structure PacketCookieReply where
  receiverIdx : UInt32
  nonce : List UInt8
  encryptedCookie : List UInt8
  deriving DecidableEq, Repr

structure PacketData where
  receiverIdx : UInt32
  counter : UInt64
  encryptedEncapsulatedPacket : List UInt8
  deriving DecidableEq, Repr

/-- A datagram from the network, parsed. -/
inductive Packet where
  | handshakeInit (p : HandshakeInit)
  | handshakeResponse (p : HandshakeResponse)
  | packetCookieReply (p : PacketCookieReply)
  | packetData (p : PacketData)
  deriving DecidableEq, Repr

/-- `std::net::IpAddr`, by its octets. -/
inductive IpAddr where
  | v4 (octets : Vector UInt8 4)
  | v6 (octets : Vector UInt8 16)
  deriving DecidableEq, Repr

/-- What a tunnel call asks its caller to do; the buffers are the bytes of the
slice of `dst` the code returns. -/
inductive TunnResult where
  | done
  | err (e : WireGuardError)
  | writeToNetwork (packet : List UInt8)
  | writeToTunnel (packet : List UInt8) (addr : IpAddr)
  deriving DecidableEq, Repr

@[simp] theorem length_u32ToLe (x : UInt32) : (u32ToLe x).length = 4 := length_leBytes 4 _

@[simp] theorem length_u64ToLe (x : UInt64) : (u64ToLe x).length = 8 := length_leBytes 8 _

@[simp] theorem length_u64ToBe (x : UInt64) : (u64ToBe x).length = 8 := length_beBytes 8 _

@[simp] theorem length_u32ToBe (x : UInt32) : (u32ToBe x).length = 4 := length_beBytes 4 _

end Neptun.Noise
