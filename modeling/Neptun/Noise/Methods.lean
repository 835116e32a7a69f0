import Neptun.Noise.Queue
import Neptun.Lib.Run

/-! The tunnel as its owner drives it. The public methods of `Tunn` are one type
of call, `Call`, whose runs `Lib.Run` describes; `handle_verified_packet` is one of
them, as the device calls it on a packet it verified against a shared rate limiter.
The methods are made of a few updates of the tunnel, each of which writes some of
its fields: what each leaves alone is stated here once, for the byte counters and
for the ring of sessions with its timers, so that the results about runs do not
unfold them. -/
namespace Neptun.Noise

open Lib

namespace Tunn

/-- A call of the tunnel's owner, with what it is given; the instant and the
ephemeral key come through its `CallEnv`. -/
inductive Call where
  | encapsulate (env : CallEnv) (src dst : List UInt8)
  | encapsulateInPlace (env : CallEnv) (srcLen : Nat) (dst : List UInt8)
  | decapsulate (env : CallEnv) (srcAddr : Option IpAddr) (datagram dst : List UInt8)
  | handleVerifiedPacket (env : CallEnv) (packet : Packet) (dst : List UInt8)
  | formatHandshakeInitiation (env : CallEnv) (dst : List UInt8) (forceResend : Bool)
  | updateTimers (env : CallEnv) (dst : List UInt8)
  | setStaticPrivate (staticPrivate staticPublic : Key) (rateLimiter : Option RateLimiter)
      (secretKey : Vector UInt8 16) (nonceKey : Key) (now : Nat)
  | setPresharedKey (presharedKey : Option Key)
  | setPersistentKeepalive (keepalive : UInt16)

/-- A call run on the tunnel. The setters return `Done`, or the error that
`set_static_private` returns. -/
def Call.run (B : Backend) : Call → EStateM (Fault WireGuardError) Tunn TunnResult
  | .encapsulate env src dst => Tunn.encapsulate B env src dst
  | .encapsulateInPlace env srcLen dst => Tunn.encapsulateInPlace B env srcLen dst
  | .decapsulate env srcAddr datagram dst => Tunn.decapsulate B env srcAddr datagram dst
  | .handleVerifiedPacket env packet dst => Tunn.handleVerifiedPacket B env packet dst
  | .formatHandshakeInitiation env dst forceResend =>
    Tunn.formatHandshakeInitiation B env dst forceResend
  | .updateTimers env dst => Tunn.updateTimers B env dst
  | .setStaticPrivate staticPrivate staticPublic rateLimiter secretKey nonceKey now => do
    match ← attempt (Tunn.setStaticPrivate B staticPrivate staticPublic rateLimiter secretKey
        nonceKey now) with
    | .ok () => pure .done
    | .error e => pure (.err e)
  | .setPresharedKey presharedKey => do
    modify (·.setPresharedKey presharedKey)
    pure .done
  | .setPersistentKeepalive keepalive => do
    modify (·.setPersistentKeepalive keepalive)
    pure .done

section Bytes

variable (t : Tunn)

@[simp] theorem txBytes_addTx (n : Nat) : (t.addTx n).txBytes = t.txBytes + UInt64.ofNat n := rfl
@[simp] theorem rxBytes_addTx (n : Nat) : (t.addTx n).rxBytes = t.rxBytes := rfl
@[simp] theorem txBytes_addRx (n : Nat) : (t.addRx n).txBytes = t.txBytes := rfl
@[simp] theorem rxBytes_addRx (n : Nat) : (t.addRx n).rxBytes = t.rxBytes + UInt64.ofNat n := rfl

@[simp] theorem txBytes_timerTick (n : TimerName) : (t.timerTick n).txBytes = t.txBytes := by
  unfold timerTick
  split <;> rfl

@[simp] theorem rxBytes_timerTick (n : TimerName) : (t.timerTick n).rxBytes = t.rxBytes := by
  unfold timerTick
  split <;> rfl

@[simp] theorem txBytes_timerTickSessionEstablished (isInitiator : Bool) (idx : Nat) :
    (t.timerTickSessionEstablished isInitiator idx).txBytes = t.txBytes := by
  simp [timerTickSessionEstablished]

@[simp] theorem rxBytes_timerTickSessionEstablished (isInitiator : Bool) (idx : Nat) :
    (t.timerTickSessionEstablished isInitiator idx).rxBytes = t.rxBytes := by
  simp [timerTickSessionEstablished]

@[simp] theorem txBytes_setCurrentSession (idx : Nat) :
    (t.setCurrentSession idx).txBytes = t.txBytes := by
  unfold setCurrentSession
  split_ifs <;> rfl

@[simp] theorem rxBytes_setCurrentSession (idx : Nat) :
    (t.setCurrentSession idx).rxBytes = t.rxBytes := by
  unfold setCurrentSession
  split_ifs <;> rfl

@[simp] theorem txBytes_queuePacket (p : List UInt8) : (t.queuePacket p).txBytes = t.txBytes := by
  unfold queuePacket
  split <;> rfl

@[simp] theorem rxBytes_queuePacket (p : List UInt8) : (t.queuePacket p).rxBytes = t.rxBytes := by
  unfold queuePacket
  split <;> rfl

@[simp] theorem txBytes_requeuePacket (p : List UInt8) :
    (t.requeuePacket p).txBytes = t.txBytes := by
  unfold requeuePacket
  split <;> rfl

@[simp] theorem rxBytes_requeuePacket (p : List UInt8) :
    (t.requeuePacket p).rxBytes = t.rxBytes := by
  unfold requeuePacket
  split <;> rfl

@[simp] theorem txBytes_tickClock (instant : Nat) : (t.tickClock instant).txBytes = t.txBytes := by
  unfold tickClock updateSessionTimers
  split <;> rfl

@[simp] theorem rxBytes_tickClock (instant : Nat) : (t.tickClock instant).rxBytes = t.rxBytes := by
  unfold tickClock updateSessionTimers
  split <;> rfl

@[simp] theorem txBytes_expireCookie (now : Nat) : (t.expireCookie now).txBytes = t.txBytes := by
  unfold expireCookie
  split <;> rfl

@[simp] theorem rxBytes_expireCookie (now : Nat) : (t.expireCookie now).rxBytes = t.rxBytes := by
  unfold expireCookie
  split <;> rfl

end Bytes

section Ring

variable (t : Tunn)

@[simp] theorem sessions_addTx (n : Nat) : (t.addTx n).sessions = t.sessions := rfl
@[simp] theorem timers_addTx (n : Nat) : (t.addTx n).timers = t.timers := rfl
@[simp] theorem sessions_addRx (n : Nat) : (t.addRx n).sessions = t.sessions := rfl
@[simp] theorem timers_addRx (n : Nat) : (t.addRx n).timers = t.timers := rfl

@[simp] theorem sessionTimers_timerTick (n : TimerName) :
    (t.timerTick n).timers.sessionTimers = t.timers.sessionTimers := by
  unfold timerTick
  split
  · rfl
  · split <;> rfl

/-- No tick writes the clock. -/
@[simp] theorem timeCurrent_timerTick (n : TimerName) (hn : n ≠ .timeCurrent) :
    (t.timerTick n).timers.timers .timeCurrent = t.timers.timers .timeCurrent := by
  by_cases hr : n = .timeLastPacketReceived
  · subst hr
    rfl
  · rw [timers_timerTick t n hr, Function.update_of_ne (Ne.symm hn)]

@[simp] theorem sessions_timerTickSessionEstablished (isInitiator : Bool) (idx : Nat) :
    (t.timerTickSessionEstablished isInitiator idx).sessions = t.sessions := by
  simp [timerTickSessionEstablished]

/-- The session timer of the slot of `idx` takes the clock. -/
@[simp] theorem sessionTimers_timerTickSessionEstablished (isInitiator : Bool) (idx : Nat) :
    (t.timerTickSessionEstablished isInitiator idx).timers.sessionTimers =
      t.timers.sessionTimers.set (slot idx) (t.timers.timers .timeCurrent) (slot _).isLt := by
  simp [timerTickSessionEstablished]

@[simp] theorem timeCurrent_timerTickSessionEstablished (isInitiator : Bool) (idx : Nat) :
    (t.timerTickSessionEstablished isInitiator idx).timers.timers .timeCurrent =
      t.timers.timers .timeCurrent := by
  simp [timerTickSessionEstablished]

@[simp] theorem sessions_setCurrentSession (idx : Nat) :
    (t.setCurrentSession idx).sessions = t.sessions := by
  unfold setCurrentSession
  split_ifs <;> rfl

@[simp] theorem timers_setCurrentSession (idx : Nat) :
    (t.setCurrentSession idx).timers = t.timers := by
  unfold setCurrentSession
  split_ifs <;> rfl

@[simp] theorem timers_queuePacket (p : List UInt8) : (t.queuePacket p).timers = t.timers := by
  unfold queuePacket
  split <;> rfl

@[simp] theorem sessions_requeuePacket (p : List UInt8) :
    (t.requeuePacket p).sessions = t.sessions := by
  unfold requeuePacket
  split <;> rfl

@[simp] theorem timers_requeuePacket (p : List UInt8) :
    (t.requeuePacket p).timers = t.timers := by
  unfold requeuePacket
  split <;> rfl

@[simp] theorem sessions_expireCookie (now : Nat) :
    (t.expireCookie now).sessions = t.sessions := by
  unfold expireCookie
  split <;> rfl

@[simp] theorem timers_expireCookie (now : Nat) : (t.expireCookie now).timers = t.timers := by
  unfold expireCookie
  split <;> rfl

end Ring

end Tunn

end Neptun.Noise
