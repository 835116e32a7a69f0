import Neptun.Noise.RateLimiter

/-! The tunnel of `noise/mod.rs`: a handshake, a ring of eight sessions indexed
by the session index modulo 8, the index of the session in use, a queue of
packets waiting for a session, the timers, and the byte counters. Here are the
packet paths (`encapsulate`, `decapsulate` and the handlers they call) and the
timer bookkeeping of `timers.rs` that they use; `update_timers` is in
`Noise.Timers`. A call reads the instant and draws an ephemeral key through its
`CallEnv`. All durations are in nanoseconds; `SafeDuration` subtracts to zero. -/
namespace Neptun.Noise

open Lib

def nSessions : Nat := 8
def maxQueueDepth : Nat := 256
def peerHandshakeRateLimit : UInt64 := 10

def ipv4MinHeaderSize : Nat := 20
def ipv4LenOff : Nat := 2
def ipv4SrcIpOff : Nat := 12
def ipv4IpSz : Nat := 4
def ipv6MinHeaderSize : Nat := 40
def ipv6LenOff : Nat := 4
def ipv6SrcIpOff : Nat := 8
def ipv6IpSz : Nat := 16
def ipLenSz : Nat := 2

/-- What one call reads from outside the tunnel: `Instant::now()` in nanoseconds,
and the ephemeral key an initiation or a response draws from `OsRng`. -/
structure CallEnv where
  now : Nat
  ephemeralPrivate : Key

inductive TimerName where
  | timeCurrent
  | timeSessionEstablished
  | timeLastHandshakeStarted
  | timeLastPacketReceived
  | timeLastPacketSent
  | timeLastDataPacketReceived
  | timeLastDataPacketSent
  | timeCookieReceived
  | timePersistentKeepalive
  deriving DecidableEq, Repr

structure Timers where
  isInitiator : Bool
  timeStarted : Nat
  /-- the array indexed by `TimerName`, in time since `timeStarted` -/
  timers : TimerName → Nat
  sessionTimers : Vector Nat 8
  wantKeepalive : Bool
  wantHandshakeSince : Option Nat
  persistentKeepalive : Nat
  shouldResetRr : Bool

namespace Timers

def new (persistentKeepalive : Option UInt16) (resetRr : Bool) (now : Nat) : Timers where
  isInitiator := false
  timeStarted := now
  timers := fun _ => 0
  sessionTimers := .replicate 8 0
  wantKeepalive := false
  wantHandshakeSince := none
  persistentKeepalive := (persistentKeepalive.getD 0).toNat
  shouldResetRr := resetRr

/-- Not a reset to zero: every timer is set to the current time, so that the
reference frame stays the same. -/
def clear (t : Timers) (now : Nat) : Timers :=
  { t with
    timers := fun _ => now - t.timeStarted
    wantHandshakeSince := none
    wantKeepalive := false }

end Timers

structure Tunn where
  handshake : Handshake
  /-- the most recent sessions, by session index modulo 8 -/
  sessions : Vector (Option Session) 8
  /-- index of the session in use -/
  current : Nat
  packetQueue : List (List UInt8)
  timers : Timers
  txBytes : UInt64
  rxBytes : UInt64
  rateLimiter : RateLimiter
  peerStaticPublic : Key

/-- The ring slot of a session index. -/
def slot (idx : Nat) : Fin 8 := ⟨idx % nSessions, Nat.mod_lt _ (by decide)⟩

/-- The ring is read at a slot, a `Fin 8`: the index is in range by its type, so a
read carries no bound proof, as with `Vector.get`. -/
scoped instance instGetElemVectorFin {α : Type} {n : Nat} :
    GetElem (Vector α n) (Fin n) α fun _ _ => True where
  getElem xs i _ := xs.get i

@[simp] theorem getElem_vector_fin {α : Type} {n : Nat} (xs : Vector α n) (i : Fin n) :
    xs[i] = xs[i.val] := rfl

namespace Tunn

/-! ### Timer bookkeeping -/

def timerTick (t : Tunn) (timerName : TimerName) : Tunn :=
  let time := t.timers.timers .timeCurrent
  match timerName with
  -- this timer is never read
  | .timeLastPacketReceived =>
    { t with timers := { t.timers with wantKeepalive := true, wantHandshakeSince := none } }
  | _ =>
    let timers := match timerName with
      | .timeLastPacketSent => { t.timers with wantKeepalive := false }
      | .timeLastDataPacketSent =>
        { t.timers with wantHandshakeSince := some (t.timers.wantHandshakeSince.getD time) }
      | _ => t.timers
    -- a tick at time zero is recorded as one millisecond
    let value := if time = 0 then 10 ^ 6 else time
    { t with timers := { timers with timers := Function.update timers.timers timerName value } }

def timerTickSessionEstablished (t : Tunn) (isInitiator : Bool) (sessionIdx : Nat) : Tunn :=
  let t := t.timerTick .timeSessionEstablished
  { t with timers := { t.timers with
      sessionTimers := t.timers.sessionTimers.set (slot sessionIdx) (t.timers.timers .timeCurrent)
      isInitiator := isInitiator } }

def clearAll (t : Tunn) (now : Nat) : Tunn :=
  { t with sessions := .replicate 8 none, packetQueue := [], timers := t.timers.clear now }

/-- `REJECT_AFTER_TIME`, and the other limits of `timers.rs`. -/
def rejectAfterTime : Nat := 180 * 10 ^ 9
def rekeyAfterTime : Nat := 120 * 10 ^ 9
def rekeyAttemptTime : Nat := 90 * 10 ^ 9
def rekeyTimeout : Nat := 5 * 10 ^ 9
def keepaliveTimeout : Nat := 10 * 10 ^ 9
def cookieExpirationTime : Nat := 120 * 10 ^ 9

/-- Drop every session older than `REJECT_AFTER_TIME`, restarting its timer. -/
def updateSessionTimers (t : Tunn) (timeNow : Nat) : Tunn :=
  let expired (i : Fin 8) := rejectAfterTime < timeNow - t.timers.sessionTimers[i]
  { t with
    sessions := .ofFn fun i => if expired i then none else t.sessions[i]
    timers := { t.timers with
      sessionTimers := .ofFn fun i => if expired i then timeNow else t.timers.sessionTimers[i] } }

/-! ### The packet queue -/

def queuePacket (t : Tunn) (packet : List UInt8) : Tunn :=
  -- dropped when the queue is full
  if t.packetQueue.length < maxQueueDepth then
    { t with packetQueue := t.packetQueue ++ [packet] }
  else t

def requeuePacket (t : Tunn) (packet : List UInt8) : Tunn :=
  if t.packetQueue.length < maxQueueDepth then
    { t with packetQueue := packet :: t.packetQueue }
  else t

def dequeuePacket {ε : Type} : EStateM ε Tunn (Option (List UInt8)) := do
  let t ← get
  match t.packetQueue with
  | [] => pure none
  | p :: rest =>
    set { t with packetQueue := rest }
    pure (some p)

/-! ### Sessions -/

/-- Switch to the session `newIdx` unless the one in use is newer. -/
def setCurrentSession (t : Tunn) (newIdx : Nat) : Tunn :=
  if t.current = newIdx then t
  else if (t.sessions[slot t.current]).isNone ||
      t.timers.sessionTimers[slot t.current] ≤ t.timers.sessionTimers[slot newIdx] then
    { t with current := newIdx }
  else t

def onHandshake {α : Type} (m : EStateM (Fault WireGuardError) Handshake α) :
    EStateM (Fault WireGuardError) Tunn α :=
  focus (·.handshake) (fun t h => { t with handshake := h }) m

/-- Run a method of the session `s` held in slot `i`, writing it back. -/
def onSession {α : Type} (i : Fin 8) (s : Session) (m : EStateM (Fault WireGuardError) Session α) :
    EStateM (Fault WireGuardError) Tunn α :=
  focus (fun _ => s) (fun t s' => { t with sessions := t.sessions.set i (some s') }) m

def addTx (t : Tunn) (n : Nat) : Tunn := { t with txBytes := t.txBytes + UInt64.ofNat n }

def addRx (t : Tunn) (n : Nat) : Tunn := { t with rxBytes := t.rxBytes + UInt64.ofNat n }

/-- The length field and the source address of a decrypted IP packet, or `none`
when it is not a packet of a version with a header that fits. -/
def ipHeader (packet : List UInt8) : Except (Fault WireGuardError) (Option (Nat × IpAddr)) := do
  let version := (← orPanic packet[0]?) >>> 4
  if version = 4 ∧ ipv4MinHeaderSize ≤ packet.length then
    let some lenBytes := tryIntoArray (← index packet ipv4LenOff (ipv4LenOff + ipLenSz)) 2
      | pure none
    let some addrBytes := tryIntoArray (← index packet ipv4SrcIpOff (ipv4SrcIpOff + ipv4IpSz)) 4
      | pure none
    pure (some ((u16FromBe lenBytes).toNat, .v4 addrBytes))
  else if version = 6 ∧ ipv6MinHeaderSize ≤ packet.length then
    let some lenBytes := tryIntoArray (← index packet ipv6LenOff (ipv6LenOff + ipLenSz)) 2
      | pure none
    let some addrBytes := tryIntoArray (← index packet ipv6SrcIpOff (ipv6SrcIpOff + ipv6IpSz)) 16
      | pure none
    pure (some ((u16FromBe lenBytes).toNat + ipv6MinHeaderSize, .v6 addrBytes))
  else pure none

/-- Truncate a decrypted packet to the length its header gives. -/
def validateDecapsulatedPacket (packet : List UInt8) :
    EStateM (Fault WireGuardError) Tunn TunnResult := do
  if packet.length = 0 then
    -- a keepalive, and not an error
    modify (·.addRx (messageDataLen 0))
    return .done
  let some (computedLen, srcIpAddress) ← liftExcept (ipHeader packet)
    | pure (.err .invalidPacket)
  let some data := getRange packet 0 computedLen | pure (.err .invalidPacket)
  modify fun t => (t.timerTick .timeLastDataPacketReceived).addRx (messageDataLen computedLen)
  pure (.writeToTunnel data srcIpAddress)

section Paths

variable (B : Backend) (env : CallEnv)

/-- Format an initiation unless one is in progress (or `forceResend`). -/
def formatHandshakeInitiation (dst : List UInt8) (forceResend : Bool) :
    EStateM (Fault WireGuardError) Tunn TunnResult := do
  let t ← get
  if t.handshake.isInProgress && !forceResend then return .done
  if t.handshake.isExpired then set { t with timers := t.timers.clear env.now }
  let startingNewHandshake := !t.handshake.isInProgress
  match ← attempt (onHandshake
      (Handshake.formatHandshakeInitiation B env.ephemeralPrivate env.now dst)) with
  | .ok packet =>
    if startingNewHandshake then modify (·.timerTick .timeLastHandshakeStarted)
    modify fun t => (t.timerTick .timeLastPacketSent).addTx packet.length
    pure (.writeToNetwork packet)
  | .error e => pure (.err e)

/-- Seal the `srcLen` bytes at `DATA_OFFSET` of `dst` under the session in use;
without one, queue them (unless a keepalive) and start a handshake. -/
def encapsulateInPlace (srcLen : Nat) (dst : List UInt8) :
    EStateM (Fault WireGuardError) Tunn TunnResult := do
  let t ← get
  let current := t.current
  match t.sessions[slot current] with
  | some session =>
    match ← attempt (onSession (slot current) session
        (Session.formatPacketData B srcLen dst)) with
    | .error e => return .err e
    | .ok packet =>
      modify (·.timerTick .timeLastPacketSent)
      -- keepalives do not count as data sent
      if srcLen ≠ 0 then modify (·.timerTick .timeLastDataPacketSent)
      modify (·.addTx packet.length)
      return .writeToNetwork packet
  | none =>
    if srcLen ≠ 0 then
      let some d := getRange dst dataOffset (srcLen + dataOffset) | return .err .invalidLength
      modify (·.queuePacket d)
    formatHandshakeInitiation B env dst false

/-- Copy `src` to `DATA_OFFSET` of `dst` and encapsulate it there. -/
def encapsulate (src dst : List UInt8) : EStateM (Fault WireGuardError) Tunn TunnResult := do
  let some d := getRange dst dataOffset (src.length + dataOffset) | return .err .invalidLength
  let d ← copyFromSlice d src
  encapsulateInPlace B env src.length
    (dst.take dataOffset ++ d ++ dst.drop (src.length + dataOffset))

def handleHandshakeInit (p : HandshakeInit) (dst : List UInt8) :
    EStateM (Fault WireGuardError) Tunn TunnResult := do
  let (packet, session) ← onHandshake
    (Handshake.receiveHandshakeInitialization B env.ephemeralPrivate p dst)
  modify (·.addRx handshakeInitSz)
  let index := session.localIndex
  modify fun t => { t with sessions := t.sessions.set (slot index) (some session) }
  modify fun t =>
    ((t.timerTick .timeLastPacketReceived).timerTick .timeLastPacketSent
      ).timerTickSessionEstablished false index
  modify (·.addTx packet.length)
  pure (.writeToNetwork packet)

def handleHandshakeResponse (p : HandshakeResponse) (dst : List UInt8) :
    EStateM (Fault WireGuardError) Tunn TunnResult := do
  let session ← onHandshake (Handshake.receiveHandshakeResponse B p env.now)
  modify (·.addRx handshakeRespSz)
  let (keepalivePacket, session) ← onLocal session (Session.formatPacketData B 0 dst)
  let lIdx := session.localIndex
  let index := lIdx % nSessions
  modify fun t => { t with sessions := t.sessions.set (slot index) (some session) }
  modify fun t =>
    (((t.timerTick .timeLastPacketReceived).timerTickSessionEstablished true index
      ).setCurrentSession lIdx).addTx keepalivePacket.length
  -- a keepalive answers the response
  pure (.writeToNetwork keepalivePacket)

def handleCookieReply (p : PacketCookieReply) : EStateM (Fault WireGuardError) Tunn TunnResult := do
  onHandshake (Handshake.receiveCookieReply B p)
  modify fun t =>
    ((t.addRx cookieReplySz).timerTick .timeLastPacketReceived).timerTick .timeCookieReceived
  pure .done

def handleData (packet : PacketData) (dst : List UInt8) :
    EStateM (Fault WireGuardError) Tunn TunnResult := do
  let rIdx := packet.receiverIdx.toNat
  let t ← get
  let some session := t.sessions[slot rIdx] | throw (.err .noCurrentSession)
  let decapsulatedPacket ← onSession (slot rIdx) session (Session.receivePacketData B packet dst)
  modify fun t => (t.setCurrentSession rIdx).timerTick .timeLastPacketReceived
  validateDecapsulatedPacket decapsulatedPacket

def handleVerifiedPacket (packet : Packet) (dst : List UInt8) :
    EStateM (Fault WireGuardError) Tunn TunnResult := do
  let r ← attempt (match packet with
    | .handshakeInit p => handleHandshakeInit B env p dst
    | .handshakeResponse p => handleHandshakeResponse B env p dst
    | .packetCookieReply p => handleCookieReply B p
    | .packetData p => handleData B p dst)
  match r with
  | .ok res => pure res
  | .error e => pure (.err e)

/-- Take the packet at the head of the queue and encapsulate it; on an error it
goes back to the head. -/
def sendQueuedPacket (dst : List UInt8) : EStateM (Fault WireGuardError) Tunn TunnResult := do
  if let some packet ← dequeuePacket then
    match ← encapsulate B env packet dst with
    | .err _ => modify (·.requeuePacket packet)
    | r => return r
  pure .done

/-- Receive a datagram; an empty one flushes the queue by one packet. -/
def decapsulate (srcAddr : Option IpAddr) (datagram dst : List UInt8) :
    EStateM (Fault WireGuardError) Tunn TunnResult := do
  if datagram.isEmpty then return ← sendQueuedPacket B env dst
  let cookie := List.replicate cookieReplySz 0
  let verified ← focus (·.rateLimiter) (fun t r => { t with rateLimiter := r })
    (attempt (RateLimiter.verifyPacket B srcAddr datagram cookie env.now))
  match verified with
  | .ok packet => handleVerifiedPacket B env packet dst
  | .error (.writeToNetwork cookie) =>
    let some d := getRange dst 0 cookie.length | return .err .invalidLength
    let d ← copyFromSlice d cookie
    modify (·.addTx cookie.length)
    let some d := getRange (d ++ dst.drop cookie.length) 0 cookie.length
      | return .err .invalidLength
    return .writeToNetwork d
  | .error (.err e) => return .err e
  | .error _ => throw .panic

end Paths

/-- `Tunn::new`: the handshake starts its indices at `index << 8`. The rate limiter
is a shared one or a new one with its random keys. -/
def new (B : Backend) (staticPrivate peerStaticPublic : Key) (presharedKey : Option Key)
    (persistentKeepalive : Option UInt16) (index : UInt32) (rateLimiter : Option RateLimiter)
    (systemTime : Int) (now : Nat) (secretKey : Vector UInt8 16) (nonceKey : Key) :
    Except (Fault String) Tunn := do
  let staticPublic := B.x25519Public staticPrivate
  let handshake ← (Handshake.new B staticPrivate staticPublic peerStaticPublic (index <<< 8)
    presharedKey systemTime now).mapError (Fault.mapErr fun _ => "Invalid parameters")
  pure { peerStaticPublic := peerStaticPublic
         handshake := handshake
         sessions := .replicate 8 none
         current := 0
         txBytes := 0
         rxBytes := 0
         packetQueue := []
         timers := Timers.new persistentKeepalive rateLimiter.isNone now
         rateLimiter := rateLimiter.getD
           (RateLimiter.new B staticPublic peerHandshakeRateLimit secretKey nonceKey now) }

/-- Update the private key and clear the sessions. -/
def setStaticPrivate (B : Backend) (staticPrivate staticPublic : Key)
    (rateLimiter : Option RateLimiter) (secretKey : Vector UInt8 16) (nonceKey : Key) (now : Nat) :
    EStateM (Fault WireGuardError) Tunn Unit := do
  modify fun t => { t with
    timers := { t.timers with shouldResetRr := rateLimiter.isNone }
    rateLimiter := rateLimiter.getD
      (RateLimiter.new B staticPublic peerHandshakeRateLimit secretKey nonceKey now) }
  onHandshake (Handshake.setStaticPrivate B staticPrivate staticPublic)
  modify fun t => { t with sessions := .replicate 8 none }

/-- Update the preshared key and clear the sessions. -/
def setPresharedKey (t : Tunn) (presharedKey : Option Key) : Tunn :=
  { t with handshake := t.handshake.setPresharedKey presharedKey, sessions := .replicate 8 none }

end Tunn

end Neptun.Noise
