import Neptun.Noise.Timers

/-! Facts of the tunnel model that the results about it share: the tunnel that
`Tunn::new` returns, and what the clock tick of `update_timers` leaves alone. -/
namespace Neptun.Noise

open Lib

namespace Tunn

/-- A tunnel as `Tunn::new` leaves it: no handshake, no session, nothing queued
or counted, the handshake's indices starting at `index << 8`. -/
structure Fresh (t : Tunn) (index : UInt32) (timers : Timers) : Prop where
  state : t.handshake.state = .none
  previous : t.handshake.previous = .none
  nextIndex : t.handshake.nextIndex = index <<< 8
  cookies : t.handshake.cookies = ⟨none, 0, none⟩
  timers : t.timers = timers
  sessions : t.sessions = .replicate 8 none
  current : t.current = 0
  packetQueue : t.packetQueue = []
  txBytes : t.txBytes = 0
  rxBytes : t.rxBytes = 0

/-- `Tunn::new` succeeds whenever the system clock is past the UNIX epoch. -/
theorem new_fresh (B : Backend) (staticPrivate peerStaticPublic : Key)
    (presharedKey : Option Key) (persistentKeepalive : Option UInt16) (index : UInt32)
    (rateLimiter : Option RateLimiter) (systemTime now : Nat) (secretKey : Vector UInt8 16)
    (nonceKey : Key) :
    ∃ t, Tunn.new B staticPrivate peerStaticPublic presharedKey persistentKeepalive index
        rateLimiter systemTime now secretKey nonceKey = .ok t ∧
      Fresh t index (Timers.new persistentKeepalive rateLimiter.isNone now) := by
  simp only [Tunn.new, Handshake.new, TimeStamper.new, Int.natCast_nonneg, not_lt.mpr,
    if_false]
  exact ⟨_, rfl, rfl, rfl, rfl, rfl, rfl, rfl, rfl, rfl, rfl, rfl⟩

theorem fresh_of_new {B : Backend} {staticPrivate peerStaticPublic : Key}
    {presharedKey : Option Key} {persistentKeepalive : Option UInt16} {index : UInt32}
    {rateLimiter : Option RateLimiter} {systemTime : Int} {now : Nat}
    {secretKey : Vector UInt8 16} {nonceKey : Key} {t : Tunn}
    (hnew : Tunn.new B staticPrivate peerStaticPublic presharedKey persistentKeepalive index
      rateLimiter systemTime now secretKey nonceKey = .ok t) :
    Fresh t index (Timers.new persistentKeepalive rateLimiter.isNone now) := by
  unfold Tunn.new Handshake.new TimeStamper.new at hnew
  by_cases hneg : systemTime < 0
  · simp [hneg] at hnew
    cases hnew
  · simp only [hneg, if_false] at hnew
    cases hnew
    exact ⟨rfl, rfl, rfl, rfl, rfl, rfl, rfl, rfl, rfl, rfl⟩

/-- The handshake's stamper starts at the system time and instant of `Tunn::new`. -/
theorem stamper_of_new {B : Backend} {staticPrivate peerStaticPublic : Key}
    {presharedKey : Option Key} {persistentKeepalive : Option UInt16} {index : UInt32}
    {rateLimiter : Option RateLimiter} {systemTime : Int} {now : Nat}
    {secretKey : Vector UInt8 16} {nonceKey : Key} {t : Tunn}
    (hnew : Tunn.new B staticPrivate peerStaticPublic presharedKey persistentKeepalive index
      rateLimiter systemTime now secretKey nonceKey = .ok t) :
    t.handshake.stamper = ⟨systemTime.toNat, now⟩ := by
  unfold Tunn.new Handshake.new TimeStamper.new at hnew
  by_cases hneg : systemTime < 0
  · simp [hneg] at hnew
    cases hnew
  · simp only [hneg, if_false] at hnew
    cases hnew
    rfl

section Clock

variable (t : Tunn) (instant : Nat)

@[simp] theorem handshake_tickClock : (t.tickClock instant).handshake = t.handshake := by
  unfold tickClock updateSessionTimers
  split <;> rfl

@[simp] theorem timeStarted_tickClock :
    (t.tickClock instant).timers.timeStarted = t.timers.timeStarted := by
  unfold tickClock updateSessionTimers
  split <;> rfl

@[simp] theorem persistentKeepalive_tickClock :
    (t.tickClock instant).timers.persistentKeepalive = t.timers.persistentKeepalive := by
  unfold tickClock updateSessionTimers
  split <;> rfl

@[simp] theorem timers_tickClock :
    (t.tickClock instant).timers.timers =
      Function.update t.timers.timers .timeCurrent (instant - t.timers.timeStarted) := by
  unfold tickClock updateSessionTimers
  split <;> rfl

/-- The block reads no timer that the tick writes: its readings are those of the
tunnel before the tick. -/
@[simp] theorem readings_tickClock :
    (t.tickClock instant).readings instant = t.readings instant := by
  simp [readings]

end Clock

section Tick

variable (t : Tunn) (n : TimerName)

@[simp] theorem sessions_timerTick : (t.timerTick n).sessions = t.sessions := by
  unfold timerTick
  split <;> rfl

@[simp] theorem current_timerTick : (t.timerTick n).current = t.current := by
  unfold timerTick
  split <;> rfl

@[simp] theorem packetQueue_timerTick : (t.timerTick n).packetQueue = t.packetQueue := by
  unfold timerTick
  split <;> rfl

@[simp] theorem handshake_timerTick : (t.timerTick n).handshake = t.handshake := by
  unfold timerTick
  split <;> rfl

@[simp] theorem timeStarted_timerTick :
    (t.timerTick n).timers.timeStarted = t.timers.timeStarted := by
  unfold timerTick
  split
  · rfl
  · split <;> rfl

@[simp] theorem persistentKeepalive_timerTick :
    (t.timerTick n).timers.persistentKeepalive = t.timers.persistentKeepalive := by
  unfold timerTick
  split
  · rfl
  · split <;> rfl

/-- A tick writes the clock into its timer, one millisecond for a clock at zero;
`TimeLastPacketReceived` is never written. -/
theorem timers_timerTick (hn : n ≠ .timeLastPacketReceived) :
    (t.timerTick n).timers.timers = Function.update t.timers.timers n
      (if t.timers.timers .timeCurrent = 0 then 10 ^ 6 else t.timers.timers .timeCurrent) := by
  unfold timerTick
  split
  · contradiction
  · split <;> rfl

end Tick

@[simp] theorem handshake_setPersistentKeepalive (t : Tunn) (keepalive : UInt16) :
    (t.setPersistentKeepalive keepalive).handshake = t.handshake := rfl

/-- `update_timers` returns what its braced block returns early. -/
theorem updateTimers_of_timerBlock_error (B : Backend) (env : CallEnv) (dst : List UInt8)
    {t t' : Tunn} {e : WireGuardError}
    (h : (timerBlock env.now).run (t.tickClock env.now) = .error (.err e) t') :
    (updateTimers B env dst).run t = .ok (.err e) t' := by
  simp only [updateTimers, EStateM.run_bind, EStateM.run_modify, run_attempt, h]
  rfl

end Tunn

end Neptun.Noise
