import Neptun.Noise.Handshake

/-! The datagram parser of `noise/mod.rs` and the rate limiter of
`rate_limiter.rs` that runs it on every datagram. The parser reads fixed ranges
of the datagram by its type and length. The limiter checks mac1 of handshake
messages, counts them, and under load asks for mac2 under a cookie bound to the
sender's address, answering a missing one with a cookie reply. The limiter sits
behind an `Arc` with mutexes; its counters are the state here. -/
namespace Neptun.Noise

open Lib

/-- Parse a datagram by its little-endian type and its length. -/
def Tunn.parseIncomingPacket (src : List UInt8) : Except (Fault WireGuardError) Packet := do
  if src.length < 4 then throw (.err .invalidPacket)
  -- the type field also checks the three reserved bytes
  let some packetType := tryIntoArray (← index src 0 4) 4 | throw (.err .invalidPacket)
  let packetType := u32FromLe packetType
  if packetType = handshakeInit ∧ src.length = handshakeInitSz then
    let some senderIdx := tryIntoArray (← index src 4 8) 4 | throw (.err .invalidPacket)
    let some unencryptedEphemeral := tryIntoArray (← index src 8 40) 32
      | throw (.err .invalidPacket)
    pure (.handshakeInit ⟨u32FromLe senderIdx, unencryptedEphemeral,
      ← index src 40 88, ← index src 88 116⟩)
  else if packetType = handshakeResp ∧ src.length = handshakeRespSz then
    let some senderIdx := tryIntoArray (← index src 4 8) 4 | throw (.err .invalidPacket)
    let some receiverIdx := tryIntoArray (← index src 8 12) 4 | throw (.err .invalidPacket)
    let some unencryptedEphemeral := tryIntoArray (← index src 12 44) 32
      | throw (.err .invalidPacket)
    pure (.handshakeResponse ⟨u32FromLe senderIdx, u32FromLe receiverIdx, unencryptedEphemeral,
      ← index src 44 60⟩)
  else if packetType = cookieReply ∧ src.length = cookieReplySz then
    let some receiverIdx := tryIntoArray (← index src 4 8) 4 | throw (.err .invalidPacket)
    pure (.packetCookieReply ⟨u32FromLe receiverIdx, ← index src 8 32, ← index src 32 64⟩)
  else if packetType = data ∧ dataOverheadSz ≤ src.length then
    let some receiverIdx := tryIntoArray (← index src 4 8) 4 | throw (.err .invalidPacket)
    let some counter := tryIntoArray (← index src 8 16) 8 | throw (.err .invalidPacket)
    pure (.packetData ⟨u32FromLe receiverIdx, u64FromLe counter, ← index src 16 src.length⟩)
  else throw (.err .invalidPacket)

/-- `COOKIE_REFRESH`, in seconds. -/
def cookieRefresh : Nat := 128
/-- `RESET_PERIOD`, in seconds. -/
def resetPeriod : Nat := 1

structure RateLimiter where
  nonceKey : Key
  secretKey : Vector UInt8 16
  startTime : Nat
  nonceCtr : UInt64
  mac1Key : Key
  cookieKey : Key
  limit : UInt64
  /-- handshake messages counted since the last reset -/
  count : UInt64
  lastReset : Nat
  deriving DecidableEq, Repr

/-- The sender index of a handshake message; the other messages have none. -/
def Packet.handshakeSenderIdx : Packet → Option UInt32
  | .handshakeInit p => some p.senderIdx
  | .handshakeResponse p => some p.senderIdx
  | _ => none

namespace RateLimiter

section Methods

variable (B : Backend)

/-- A limiter for the owner of `publicKey`; the two keys are drawn from `OsRng`. -/
def new (publicKey : Key) (limit : UInt64) (secretKey : Vector UInt8 16) (nonceKey : Key)
    (now : Nat) : RateLimiter where
  nonceKey := nonceKey
  secretKey := secretKey
  startTime := now
  nonceCtr := 0
  mac1Key := b2sHash B labelMac1 publicKey.toList
  cookieKey := b2sHash B labelCookie publicKey.toList
  limit := limit
  count := 0
  lastReset := now

/-- Zero the count once a reset period has passed since the last reset. -/
def resetCount (r : RateLimiter) (now : Nat) : RateLimiter :=
  if resetPeriod ≤ (now - r.lastReset) / 10 ^ 9 then { r with count := 0, lastReset := now }
  else r

/-- The cookie of `addr`: a MAC of the address under the secret key and the
number of cookie periods since the limiter started. -/
def currentCookie (r : RateLimiter) (addr : IpAddr) (now : Nat) :
    Except (Fault WireGuardError) (Vector UInt8 16) :=
  let addrBytes := match addr with
    | .v4 a => a.toList ++ List.replicate 12 0
    | .v6 a => a.toList
  let curCounter := UInt64.ofNat ((now - r.startTime) / 10 ^ 9 / cookieRefresh)
  b2sKeyedMac162 B r.secretKey.toList (u64ToLe curCounter) addrBytes

/-- The nonce of a cookie reply: a MAC of the next value of the nonce counter. -/
def nonce : EStateM (Fault WireGuardError) RateLimiter (Vector UInt8 24) := do
  let r ← get
  let oldVal := r.nonceCtr
  set { r with nonceCtr := oldVal + 1 }
  liftExcept (b2sMac24 B r.nonceKey.toList (u64ToLe oldVal))

/-- Count one handshake message; under load when the count had reached the limit. -/
def isUnderLoad {ε : Type} : EStateM ε RateLimiter Bool := do
  let r ← get
  set { r with count := r.count + 1 }
  pure (r.limit ≤ r.count)

/-- Format a cookie reply to the message with sender index `idx` and mac1 `mac1`. -/
def formatCookieReply (idx : UInt32) (cookie : Vector UInt8 16) (mac1 dst : List UInt8) :
    EStateM (Fault WireGuardError) RateLimiter (List UInt8) := do
  if dst.length < cookieReplySz then throw (.err .destinationBufferTooSmall)
  let (messageType, rest) ← splitAt dst 4
  let (receiverIndex, rest) ← splitAt rest 4
  let (nonceField, rest) ← splitAt rest 24
  let (encryptedCookie, tail) ← splitAt rest (16 + 16)
  let messageType ← copyFromSlice messageType (u32ToLe cookieReply)
  let receiverIndex ← copyFromSlice receiverIndex (u32ToLe idx)
  let nonceField ← copyFromSlice nonceField (← nonce B).toList
  let r ← get
  -- `GenericArray::from_slice` panics unless the nonce has 24 bytes
  let some iv := tryIntoArray nonceField 24 | throw .panic
  let (encryptedPart, tagPart) ← splitAt encryptedCookie 16
  let _ ← copyFromSlice encryptedPart cookie.toList
  let (sealed, tag) := B.xaeadSeal r.cookieKey iv mac1 cookie.toList
  let tagPart ← copyFromSlice tagPart tag.toList
  index (messageType ++ receiverIndex ++ nonceField ++ sealed ++ tagPart ++ tail) 0 cookieReplySz

/-- Parse a datagram and check the MACs of a handshake message. The error is
what the tunnel returns instead: an error, or a cookie reply to send. -/
def verifyPacket (srcAddr : Option IpAddr) (src dst : List UInt8) (now : Nat) :
    EStateM (Fault TunnResult) RateLimiter Packet := do
  let packet ← liftExcept
    ((Tunn.parseIncomingPacket src).mapError (Fault.mapErr TunnResult.err))
  -- only handshake messages are verified and rate limited
  let some senderIdx := packet.handshakeSenderIdx | pure packet
  let (msg, macs) ← splitAt src (src.length - 32)
  let (mac1, mac2) ← splitAt macs 16
  let r ← get
  let computedMac1 ← liftExcept ((b2sKeyedMac16 B r.mac1Key.toList msg).mapError
    (Fault.mapErr TunnResult.err))
  let some computedMac1 := getRange computedMac1.toList 0 16
    | throw (.err (.err .invalidLength))
  if computedMac1 ≠ mac1 then throw (.err (.err .invalidMac))
  if ← isUnderLoad then
    let some addr := srcAddr | throw (.err (.err .underLoad))
    -- only given an address can mac2 be checked
    let cookie ← liftExcept
      ((currentCookie B r addr now).mapError (Fault.mapErr TunnResult.err))
    let computedMac2 ← liftExcept ((b2sKeyedMac162 B cookie.toList msg mac1).mapError
      (Fault.mapErr TunnResult.err))
    let some computedMac2 := getRange computedMac2.toList 0 16
      | throw (.err (.err .invalidLength))
    if computedMac2 ≠ mac2 then
      let cookiePacket ← EStateM.adaptExcept (Fault.mapErr TunnResult.err)
        (formatCookieReply B senderIdx cookie mac1 dst)
      throw (.err (.writeToNetwork cookiePacket))
  pure packet

end Methods

end RateLimiter

end Neptun.Noise
