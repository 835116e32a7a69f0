import Neptun.Noise.Session

/-! The Noise IK handshake of `handshake.rs`: the timestamps, the parameters of
one peer, the state of a handshake in flight, and the methods that format and
receive the three handshake messages. Each method takes the randomness it draws
(`ephemeralPrivate`) and the instant it reads (`now`, in nanoseconds) as inputs.
A message is written through the `split_at_mut` chain of the source, so the
layout of each message is the one of its code. -/
namespace Neptun.Noise

open Lib

structure Tai64N where
  secs : UInt64
  nano : UInt32
  deriving DecidableEq, Repr

namespace Tai64N

def zero : Tai64N := ⟨0, 0⟩

/-- Parse a timestamp: eight bytes of seconds and four of nanoseconds, big-endian. -/
def parse (buf : List UInt8) : Except (Fault WireGuardError) Tai64N := do
  if buf.length < 12 then throw (.err .invalidTai64nTimestamp)
  let (secBytes, nanoBytes) ← splitAt buf 8
  let some secBytes := tryIntoArray secBytes 8 | throw (.err .invalidTai64nTimestamp)
  let some nanoBytes := tryIntoArray nanoBytes 4 | throw (.err .invalidTai64nTimestamp)
  pure ⟨u64FromBe secBytes, u32FromBe nanoBytes⟩

/-- Chronologically after: lexicographic on seconds and nanoseconds. -/
def after (t other : Tai64N) : Bool :=
  other.secs < t.secs || (t.secs == other.secs && other.nano < t.nano)

end Tai64N

/-- A clock of TAI64N stamps: the system time and the instant it was started at. -/
structure TimeStamper where
  durationAtStart : Nat
  instantAtStart : Nat
  deriving DecidableEq, Repr

namespace TimeStamper

/-- `TimeStamper::new` at system time `systemTime` (nanoseconds from the UNIX
epoch, negative before it) and instant `now`. -/
def new (systemTime : Int) (now : Nat) : Except (Fault WireGuardError) TimeStamper :=
  if systemTime < 0 then throw (.err .systemTimeError) else pure ⟨systemTime.toNat, now⟩

def tai64Base : UInt64 := ((1 : UInt64) <<< 62) + 37

/-- The 12-byte stamp at instant `now`. Adding two `Duration`s panics past
`u64::MAX` seconds. -/
def stamp (t : TimeStamper) (now : Nat) : Except (Fault WireGuardError) (Vector UInt8 12) := do
  let stamp := (now - t.instantAtStart) + t.durationAtStart
  if 2 ^ 64 ≤ stamp / 10 ^ 9 then throw .panic
  let secs := UInt64.ofNat (stamp / 10 ^ 9) + tai64Base
  let nano := UInt32.ofNat (stamp % 10 ^ 9)
  pure ⟨(u64ToBe secs ++ u32ToBe nano).toArray, by simp⟩

end TimeStamper

structure NoiseParams where
  staticPublic : Key
  staticPrivate : Key
  peerStaticPublic : Key
  /-- `DH(static_private, peer_static_public)` -/
  staticShared : Key
  /-- `HASH(LABEL_MAC1 || peer_static_public)` -/
  sendingMac1Key : Key
  presharedKey : Option Key
  deriving DecidableEq, Repr

structure HandshakeInitSentState where
  localIndex : UInt32
  hash : Key
  chainingKey : Key
  ephemeralPrivate : Key
  timeSent : Nat
  deriving DecidableEq, Repr

inductive HandshakeState where
  | none
  | initSent (s : HandshakeInitSentState)
  | initReceived (hash chainingKey peerEphemeralPublic : Key) (peerIndex : UInt32)
  | expired
  deriving DecidableEq, Repr

structure Cookies where
  lastMac1 : Option (Vector UInt8 16)
  index : UInt32
  writeCookie : Option (Vector UInt8 16)
  deriving DecidableEq, Repr

structure Handshake where
  params : NoiseParams
  /-- index of the next session -/
  nextIndex : UInt32
  previous : HandshakeState
  state : HandshakeState
  cookies : Cookies
  lastHandshakeTimestamp : Tai64N
  stamper : TimeStamper
  lastRtt : Option UInt32
  deriving DecidableEq, Repr

/-- The handshake in flight that a response addressed to `receiverIdx` answers. -/
def HandshakeState.sentTo (st : HandshakeState) (receiverIdx : UInt32) :
    Option HandshakeInitSentState :=
  match st with
  | .initSent s => if s.localIndex = receiverIdx then some s else .none
  | _ => .none

section Methods

variable (B : Backend)

def NoiseParams.new (staticPrivate staticPublic peerStaticPublic : Key)
    (presharedKey : Option Key) : NoiseParams where
  staticPublic := staticPublic
  staticPrivate := staticPrivate
  peerStaticPublic := peerStaticPublic
  staticShared := B.x25519 staticPrivate peerStaticPublic
  sendingMac1Key := b2sHash B labelMac1 peerStaticPublic.toList
  presharedKey := presharedKey

/-- Set a new private key; the source asserts that it matches the public key. -/
def NoiseParams.setStaticPrivate (staticPrivate staticPublic : Key) :
    EStateM (Fault WireGuardError) NoiseParams Unit := do
  if B.x25519Public staticPrivate ≠ staticPublic then throw .panic
  modify fun p => { p with
    staticPrivate := staticPrivate
    staticPublic := staticPublic
    staticShared := B.x25519 staticPrivate p.peerStaticPublic }

/-- `parse_handshake_anon`: the sender's index and the static key that the first
AEAD of an initiation opens to, without a tunnel. -/
def parseHandshakeAnon (staticPrivate staticPublic : Key) (packet : HandshakeInit) :
    Except (Fault WireGuardError) (UInt32 × List UInt8) := do
  let peerIndex := packet.senderIdx
  let chainingKey := initialChainKey
  let hash := b2sHash B initialChainHash.toList staticPublic.toList
  let peerEphemeralPublic := packet.unencryptedEphemeral
  let hash := b2sHash B hash.toList peerEphemeralPublic.toList
  let chainingKey := b2sHmac B (b2sHmac B chainingKey.toList peerEphemeralPublic.toList).toList [1]
  let ephemeralShared := B.x25519 staticPrivate peerEphemeralPublic
  let temp := b2sHmac B chainingKey.toList ephemeralShared.toList
  let chainingKey := b2sHmac B temp.toList [1]
  let key := b2sHmac2 B temp.toList chainingKey.toList [2]
  let peerStaticPublic ←
    aeadChacha20Open B (List.replicate 32 0) key 0 packet.encryptedStatic hash.toList
  pure (peerIndex, peerStaticPublic)

namespace Handshake

def new (staticPrivate staticPublic peerStaticPublic : Key) (globalIdx : UInt32)
    (presharedKey : Option Key) (systemTime : Int) (now : Nat) :
    Except (Fault WireGuardError) Handshake := do
  let params := NoiseParams.new B staticPrivate staticPublic peerStaticPublic presharedKey
  let stamper ← TimeStamper.new systemTime now
  pure { params := params, nextIndex := globalIdx, previous := .none, state := .none,
         lastHandshakeTimestamp := Tai64N.zero, stamper := stamper,
         cookies := ⟨none, 0, none⟩, lastRtt := none }

def isInProgress (h : Handshake) : Bool :=
  match h.state with
  | .none | .expired => false
  | _ => true

def timer (h : Handshake) : Option Nat :=
  match h.state with
  | .initSent s => some s.timeSent
  | _ => none

def setExpired (h : Handshake) : Handshake := { h with previous := .expired, state := .expired }

def isExpired (h : Handshake) : Bool :=
  match h.state with
  | .expired => true
  | _ => false

def hasCookie (h : Handshake) : Bool := h.cookies.writeCookie.isSome

def clearCookie (h : Handshake) : Handshake :=
  { h with cookies := { h.cookies with writeCookie := none } }

/-- The index after `index`: the low byte counts up and wraps, the upper 24 bits
stay. -/
def indexAfter (index : UInt32) : UInt32 :=
  let idx8 := index.toUInt8
  (index &&& ~~~0xff) ||| (idx8 + 1).toUInt32

def incIndex : EStateM (Fault WireGuardError) Handshake UInt32 := do
  let h ← get
  let nextIndex := indexAfter h.nextIndex
  set { h with nextIndex := nextIndex }
  pure nextIndex

def setStaticPrivate (privateKey publicKey : Key) :
    EStateM (Fault WireGuardError) Handshake Unit :=
  focus (·.params) (fun h p => { h with params := p })
    (NoiseParams.setStaticPrivate B privateKey publicKey)

def setPresharedKey (h : Handshake) (presharedKey : Option Key) : Handshake :=
  { h with params := { h.params with presharedKey := presharedKey } }

/-- Write mac1, and mac2 under the last cookie received (zeros without one), over
the last 32 bytes of `dst`, and remember mac1 for a cookie reply. -/
def appendMac1AndMac2 (localIndex : UInt32) (dst : List UInt8) :
    EStateM (Fault WireGuardError) Handshake (List UInt8) := do
  let h ← get
  -- below 32 bytes the offsets wrap around and the `get`s below fail
  if dst.length < 32 then throw (.err .invalidIndex)
  let mac1Off := dst.length - 32
  let mac2Off := dst.length - 16
  let some msg := getRange dst 0 mac1Off | throw (.err .invalidIndex)
  let msgMac1 ← liftExcept (b2sKeyedMac16 B h.params.sendingMac1Key.toList msg)
  let some mac1 := getRange dst mac1Off mac2Off | throw (.err .invalidIndex)
  let mac1 ← copyFromSlice mac1 msgMac1.toList
  let dst := msg ++ mac1 ++ dst.drop mac2Off
  let msgMac2 ← match h.cookies.writeCookie with
    | some cookie => do
      let some msgAndMac1 := getRange dst 0 mac2Off | throw (.err .invalidIndex)
      liftExcept (b2sKeyedMac16 B cookie.toList msgAndMac1)
    | none => pure (Vector.replicate 16 0)
  let some mac2 := getRange dst mac2Off dst.length | throw (.err .invalidIndex)
  let mac2 ← copyFromSlice mac2 msgMac2.toList
  set { h with cookies := { h.cookies with index := localIndex, lastMac1 := some msgMac1 } }
  pure (msg ++ mac1 ++ mac2)

/-- Format an initiation into `dst`: the 148 bytes of the message. -/
def formatHandshakeInitiation (ephemeralPrivate : Key) (now : Nat) (dst : List UInt8) :
    EStateM (Fault WireGuardError) Handshake (List UInt8) := do
  if dst.length < handshakeInitSz then throw (.err .destinationBufferTooSmall)
  let (messageType, rest) ← splitAt dst 4
  let (senderIndex, rest) ← splitAt rest 4
  let (unencryptedEphemeral, rest) ← splitAt rest 32
  let (encryptedStatic, rest) ← splitAt rest (32 + 16)
  let (encryptedTimestamp, tail) ← splitAt rest (12 + 16)
  let localIndex ← incIndex
  let h ← get
  let chainingKey := initialChainKey
  let hash := b2sHash B initialChainHash.toList h.params.peerStaticPublic.toList
  let messageType ← copyFromSlice messageType (u32ToLe handshakeInit)
  let senderIndex ← copyFromSlice senderIndex (u32ToLe localIndex)
  let unencryptedEphemeral ←
    copyFromSlice unencryptedEphemeral (B.x25519Public ephemeralPrivate).toList
  let hash := b2sHash B hash.toList unencryptedEphemeral
  let chainingKey := b2sHmac B (b2sHmac B chainingKey.toList unencryptedEphemeral).toList [1]
  let ephemeralShared := B.x25519 ephemeralPrivate h.params.peerStaticPublic
  let temp := b2sHmac B chainingKey.toList ephemeralShared.toList
  let chainingKey := b2sHmac B temp.toList [1]
  let key := b2sHmac2 B temp.toList chainingKey.toList [2]
  let encryptedStatic ← liftExcept
    (aeadChacha20Seal B encryptedStatic key 0 h.params.staticPublic.toList hash.toList)
  let hash := b2sHash B hash.toList encryptedStatic
  let temp := b2sHmac B chainingKey.toList h.params.staticShared.toList
  let chainingKey := b2sHmac B temp.toList [1]
  let key := b2sHmac2 B temp.toList chainingKey.toList [2]
  let timestamp ← liftExcept (h.stamper.stamp now)
  let encryptedTimestamp ← liftExcept
    (aeadChacha20Seal B encryptedTimestamp key 0 timestamp.toList hash.toList)
  let hash := b2sHash B hash.toList encryptedTimestamp
  set { h with
    previous := h.state
    state := .initSent ⟨localIndex, hash, chainingKey, ephemeralPrivate, now⟩ }
  let dst := messageType ++ senderIndex ++ unencryptedEphemeral ++ encryptedStatic ++
    encryptedTimestamp ++ tail
  let some msg := getRange dst 0 handshakeInitSz | throw (.err .invalidIndex)
  appendMac1AndMac2 B localIndex msg

/-- Format the response to the initiation received last: the 92 bytes of the
message and the responder's session. -/
def formatHandshakeResponse (ephemeralPrivate : Key) (dst : List UInt8) :
    EStateM (Fault WireGuardError) Handshake (List UInt8 × Session) := do
  if dst.length < handshakeRespSz then throw (.err .destinationBufferTooSmall)
  let h ← get
  set { h with state := .none }
  let .initReceived hash chainingKey peerEphemeralPublic peerIndex := h.state
    | throw (.err .unexpectedPacket)
  let (messageType, rest) ← splitAt dst 4
  let (senderIndex, rest) ← splitAt rest 4
  let (receiverIndex, rest) ← splitAt rest 4
  let (unencryptedEphemeral, rest) ← splitAt rest 32
  let (encryptedNothing, tail) ← splitAt rest 16
  let localIndex ← incIndex
  let messageType ← copyFromSlice messageType (u32ToLe handshakeResp)
  let senderIndex ← copyFromSlice senderIndex (u32ToLe localIndex)
  let receiverIndex ← copyFromSlice receiverIndex (u32ToLe peerIndex)
  let unencryptedEphemeral ←
    copyFromSlice unencryptedEphemeral (B.x25519Public ephemeralPrivate).toList
  let hash := b2sHash B hash.toList unencryptedEphemeral
  let temp := b2sHmac B chainingKey.toList unencryptedEphemeral
  let chainingKey := b2sHmac B temp.toList [1]
  let ephemeralShared := B.x25519 ephemeralPrivate peerEphemeralPublic
  let temp := b2sHmac B chainingKey.toList ephemeralShared.toList
  let chainingKey := b2sHmac B temp.toList [1]
  let temp := b2sHmac B chainingKey.toList
    (B.x25519 ephemeralPrivate h.params.peerStaticPublic).toList
  let chainingKey := b2sHmac B temp.toList [1]
  let temp := b2sHmac B chainingKey.toList (h.params.presharedKey.getD (.replicate 32 0)).toList
  let chainingKey := b2sHmac B temp.toList [1]
  let temp2 := b2sHmac2 B temp.toList chainingKey.toList [2]
  let key := b2sHmac2 B temp.toList temp2.toList [3]
  let hash := b2sHash B hash.toList temp2.toList
  let encryptedNothing ← liftExcept (aeadChacha20Seal B encryptedNothing key 0 [] hash.toList)
  let temp1 := b2sHmac B chainingKey.toList []
  let temp2 := b2sHmac B temp1.toList [1]
  let temp3 := b2sHmac2 B temp1.toList temp2.toList [2]
  let dst := messageType ++ senderIndex ++ receiverIndex ++ unencryptedEphemeral ++
    encryptedNothing ++ tail
  let some msg := getRange dst 0 handshakeRespSz | throw (.err .invalidIndex)
  let msg ← appendMac1AndMac2 B localIndex msg
  pure (msg, Session.new localIndex peerIndex temp2 temp3)

/-- Receive an initiation: check the peer's static key and the timestamp, then
format the response into `dst`. -/
def receiveHandshakeInitialization (ephemeralPrivate : Key) (packet : HandshakeInit)
    (dst : List UInt8) : EStateM (Fault WireGuardError) Handshake (List UInt8 × Session) := do
  let h ← get
  let chainingKey := initialChainKey
  let hash := b2sHash B initialChainHash.toList h.params.staticPublic.toList
  let peerIndex := packet.senderIdx
  let peerEphemeralPublic := packet.unencryptedEphemeral
  let hash := b2sHash B hash.toList peerEphemeralPublic.toList
  let chainingKey := b2sHmac B (b2sHmac B chainingKey.toList peerEphemeralPublic.toList).toList [1]
  let ephemeralShared := B.x25519 h.params.staticPrivate peerEphemeralPublic
  let temp := b2sHmac B chainingKey.toList ephemeralShared.toList
  let chainingKey := b2sHmac B temp.toList [1]
  let key := b2sHmac2 B temp.toList chainingKey.toList [2]
  let peerStaticPublicDecrypted ← liftExcept
    (aeadChacha20Open B (List.replicate 32 0) key 0 packet.encryptedStatic hash.toList)
  if h.params.peerStaticPublic.toList ≠ peerStaticPublicDecrypted then throw (.err .wrongKey)
  let hash := b2sHash B hash.toList packet.encryptedStatic
  let temp := b2sHmac B chainingKey.toList h.params.staticShared.toList
  let chainingKey := b2sHmac B temp.toList [1]
  let key := b2sHmac2 B temp.toList chainingKey.toList [2]
  let timestamp ← liftExcept
    (aeadChacha20Open B (List.replicate 12 0) key 0 packet.encryptedTimestamp hash.toList)
  let timestamp ← liftExcept (Tai64N.parse timestamp)
  -- a timestamp not after the last one is possibly a replay
  if !timestamp.after h.lastHandshakeTimestamp then throw (.err .wrongTai64nTimestamp)
  let hash := b2sHash B hash.toList packet.encryptedTimestamp
  set { h with
    lastHandshakeTimestamp := timestamp
    previous := h.state
    state := .initReceived hash chainingKey peerEphemeralPublic peerIndex }
  formatHandshakeResponse B ephemeralPrivate dst

/-- Receive a response to the initiation held in `state`, or else in `previous`:
the initiator's session, with the slot it answered cleared. -/
def receiveHandshakeResponse (packet : HandshakeResponse) (now : Nat) :
    EStateM (Fault WireGuardError) Handshake Session := do
  let h ← get
  let some (state, isPrevious) :=
      ((h.state.sentTo packet.receiverIdx).map (·, false)).orElse
        fun _ => (h.previous.sentTo packet.receiverIdx).map (·, true)
    | throw (.err .unexpectedPacket)
  let peerIndex := packet.senderIdx
  let localIndex := state.localIndex
  let unencryptedEphemeral := packet.unencryptedEphemeral
  let hash := b2sHash B state.hash.toList unencryptedEphemeral.toList
  let temp := b2sHmac B state.chainingKey.toList unencryptedEphemeral.toList
  let chainingKey := b2sHmac B temp.toList [1]
  let ephemeralShared := B.x25519 state.ephemeralPrivate unencryptedEphemeral
  let temp := b2sHmac B chainingKey.toList ephemeralShared.toList
  let chainingKey := b2sHmac B temp.toList [1]
  let temp := b2sHmac B chainingKey.toList
    (B.x25519 h.params.staticPrivate unencryptedEphemeral).toList
  let chainingKey := b2sHmac B temp.toList [1]
  let temp := b2sHmac B chainingKey.toList (h.params.presharedKey.getD (.replicate 32 0)).toList
  let chainingKey := b2sHmac B temp.toList [1]
  let temp2 := b2sHmac2 B temp.toList chainingKey.toList [2]
  let key := b2sHmac2 B temp.toList temp2.toList [3]
  let hash := b2sHash B hash.toList temp2.toList
  let _ ← liftExcept (aeadChacha20Open B [] key 0 packet.encryptedNothing hash.toList)
  let temp1 := b2sHmac B chainingKey.toList []
  let temp2 := b2sHmac B temp1.toList [1]
  let temp3 := b2sHmac2 B temp1.toList temp2.toList [2]
  -- `as_millis() as u32` keeps the low 32 bits
  let lastRtt := some (UInt32.ofNat ((now - state.timeSent) / 10 ^ 6))
  if isPrevious then set { h with lastRtt := lastRtt, previous := .none }
  else set { h with lastRtt := lastRtt, state := .none }
  pure (Session.new localIndex peerIndex temp3 temp2)

/-- Receive a cookie reply to the last message we sent and keep its cookie. -/
def receiveCookieReply (packet : PacketCookieReply) :
    EStateM (Fault WireGuardError) Handshake Unit := do
  let h ← get
  let some mac1 := h.cookies.lastMac1 | throw (.err .unexpectedPacket)
  let localIndex := h.cookies.index
  if packet.receiverIdx ≠ localIndex then throw (.err .wrongIndex)
  let key := b2sHash B labelCookie h.params.peerStaticPublic.toList
  let some aad := getRange mac1.toList 0 16 | throw (.err .invalidIndex)
  -- converting the nonce slice to a 24-byte array panics on any other length
  let some nonce := tryIntoArray packet.nonce 24 | throw .panic
  let some plaintext := B.xaeadOpen key nonce aad packet.encryptedCookie
    | throw (.err .invalidAeadTag)
  let some cookie := tryIntoArray plaintext 16 | throw (.err .invalidPacket)
  set { h with cookies := { h.cookies with writeCookie := some cookie } }

end Handshake

end Methods

end Neptun.Noise
