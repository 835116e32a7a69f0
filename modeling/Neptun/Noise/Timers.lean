import Neptun.Noise.Tunn

/-! `update_timers` of `timers.rs`: the periodic call that expires sessions,
gives up on a connection, retransmits an initiation, rekeys, and sends
keepalives. The source sets the clock, loads the timers once, decides in a
braced block whether to initiate a handshake or send a keepalive (returning
`ConnectionExpired` from inside it when it gives up), and then acts. The block
is `timerBlock` here, cut along its branches; its early return is a thrown
`ConnectionExpired` that `updateTimers` returns. -/
namespace Neptun.Noise

open Lib

namespace Tunn

/-- Time since the session in use was established, if there is one. -/
def timeSinceLastHandshake (t : Tunn) (now : Nat) : Option Nat :=
  if (t.sessions[slot t.current]).isSome then
    let durationSinceTunStart := now - t.timers.timeStarted
    let durationSinceSessionEstablished := t.timers.timers .timeSessionEstablished
    -- `checked_sub`
    if durationSinceSessionEstablished ≤ durationSinceTunStart then
      some (durationSinceTunStart - durationSinceSessionEstablished)
    else none
  else none

def setPersistentKeepalive (t : Tunn) (keepalive : UInt16) : Tunn :=
  { t with timers := { t.timers with persistentKeepalive := keepalive.toNat } }

def persistentKeepalive (t : Tunn) : Option UInt16 :=
  if 0 < t.timers.persistentKeepalive then some (UInt16.ofNat t.timers.persistentKeepalive)
  else none

def isExpired (t : Tunn) : Bool := t.handshake.isExpired

/-- Set the clock: reset the rate limiter's count if it is our own, record
`TimeCurrent`, and drop the sessions older than `REJECT_AFTER_TIME`. -/
def tickClock (t : Tunn) (instant : Nat) : Tunn :=
  let t := if t.timers.shouldResetRr then
    { t with rateLimiter := t.rateLimiter.resetCount instant } else t
  -- all the times are counted from the tunnel's start
  let now := instant - t.timers.timeStarted
  let t := { t with
    timers := { t.timers with timers := Function.update t.timers.timers .timeCurrent now } }
  t.updateSessionTimers now

/-- The timers `update_timers` loads once, after setting the clock. -/
structure Readings where
  now : Nat
  sessionEstablished : Nat
  handshakeStarted : Nat
  autPacketSent : Nat
  dataPacketReceived : Nat
  dataPacketSent : Nat
  persistentKeepalive : Nat

def readings (t : Tunn) (instant : Nat) : Readings where
  now := instant - t.timers.timeStarted
  sessionEstablished := t.timers.timers .timeSessionEstablished
  handshakeStarted := t.timers.timers .timeLastHandshakeStarted
  autPacketSent := t.timers.timers .timeLastPacketSent
  dataPacketReceived := t.timers.timers .timeLastDataPacketReceived
  dataPacketSent := t.timers.timers .timeLastDataPacketSent
  persistentKeepalive := t.timers.persistentKeepalive

/-- Clear the cookie once it is `COOKIE_EXPIRATION_TIME` old. -/
def expireCookie (t : Tunn) (now : Nat) : Tunn :=
  if t.handshake.hasCookie && cookieExpirationTime ≤ now - t.timers.timers .timeCookieReceived then
    { t with handshake := t.handshake.clearCookie }
  else t

/-- Clear the sessions, the queue and the timers: with a persistent keepalive an
initiation is then required; without one the handshake expires and the block
returns `ConnectionExpired`. -/
def giveUp (instant persistentKeepalive : Nat) : EStateM (Fault WireGuardError) Tunn Bool := do
  modify (·.clearAll instant)
  if 0 < persistentKeepalive then return true
  modify fun t => { t with handshake := t.handshake.setExpired }
  throw (.err .connectionExpired)

/-- With an initiation in flight: give up after `REKEY_ATTEMPT_TIME` of retries,
and retry after `REKEY_TIMEOUT`. -/
def retransmit (instant : Nat) (r : Readings) (timeInitSent : Nat) (initiate : Bool) :
    EStateM (Fault WireGuardError) Tunn Bool := do
  let initiate ← if rekeyAttemptTime ≤ r.now - r.handshakeStarted then
      giveUp instant r.persistentKeepalive
    else pure initiate
  -- `elapsed()` reads the clock again, not relative to the start
  pure (initiate || decide (rekeyTimeout ≤ instant - timeInitSent))

/-- Without one: the initiator rekeys on the age of the session; data sent without
an answer asks for a handshake; otherwise keepalives are due. -/
def rekeyOrKeepalive (instant : Nat) (r : Readings) (initiate : Bool) :
    EStateM (Fault WireGuardError) Tunn (Bool × Bool) := do
  let t ← get
  let initiate := initiate ||
    (t.timers.isInitiator && r.sessionEstablished < r.dataPacketSent &&
      decide (rekeyAfterTime ≤ r.now - r.sessionEstablished))
  let initiate := initiate ||
    (t.timers.isInitiator && r.sessionEstablished < r.dataPacketReceived &&
      decide (rejectAfterTime - keepaliveTimeout - rekeyTimeout ≤ r.now - r.sessionEstablished))
  let initiate ← if (t.timers.wantHandshakeSince.map
      fun since => decide (keepaliveTimeout + rekeyTimeout ≤ r.now - since)).getD false then
      set { t with timers := { t.timers with wantHandshakeSince := none } }
      pure true
    else pure initiate
  if initiate then return (true, false)
  let keepalive ← if r.autPacketSent ≤ r.dataPacketReceived &&
      keepaliveTimeout ≤ r.now - r.autPacketSent then
      -- `mem::replace` clears the flag whenever it is read
      let t ← get
      set { t with timers := { t.timers with wantKeepalive := false } }
      pure t.timers.wantKeepalive
    else pure false
  let t ← get
  if 0 < r.persistentKeepalive &&
      (r.persistentKeepalive * 10 ^ 9 ≤ r.now - t.timers.timers .timePersistentKeepalive ||
        (t.timeSinceLastHandshake instant).isNone) then
    set (t.timerTick .timePersistentKeepalive)
    return (false, true)
  pure (false, keepalive)

/-- The braced block of `update_timers`: whether to initiate a handshake and
whether to send a keepalive. -/
def timerBlock (instant : Nat) : EStateM (Fault WireGuardError) Tunn (Bool × Bool) := do
  let t ← get
  let r := t.readings instant
  if t.handshake.isExpired then throw (.err .connectionExpired)
  set (t.expireCookie r.now)
  -- keys are dropped after three times REJECT_AFTER_TIME without a new handshake
  let initiate ← if rejectAfterTime * 3 ≤ r.now - r.sessionEstablished then
      giveUp instant r.persistentKeepalive
    else pure false
  match (← get).handshake.timer with
  | some timeInitSent => return (← retransmit instant r timeInitSent initiate, false)
  | none => rekeyOrKeepalive instant r initiate

section Update

variable (B : Backend) (env : CallEnv)

def updateTimers (dst : List UInt8) : EStateM (Fault WireGuardError) Tunn TunnResult := do
  modify (·.tickClock env.now)
  match ← attempt (timerBlock env.now) with
  | .error e => pure (.err e)
  | .ok (initiate, keepalive) =>
    if initiate then formatHandshakeInitiation B env dst true
    else if keepalive then encapsulate B env [] dst
    else pure .done

end Update

end Tunn

end Neptun.Noise
