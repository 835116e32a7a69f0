import Neptun.Noise.Expiry
import Neptun.Noise.Queue
import Neptun.Noise.Timestamps

/-! Retrying and giving up on an initiation. With an initiation in flight,
`update_timers` gives up once `REKEY_ATTEMPT_TIME` has passed since
`TimeLastHandshakeStarted` and retries once `REKEY_TIMEOUT` has passed since the
initiation was sent. The start is recorded by `timer_tick`, which writes one
millisecond for a clock still at zero: a handshake started before the first
`update_timers` is given up one millisecond late, and the call exactly
`REKEY_ATTEMPT_TIME` after its start retries it instead. -/
namespace Neptun.Noise

open Lib

namespace Tunn

variable {B : Backend} {env : CallEnv}

/-- When the braced block asks for an initiation, `update_timers` formats one,
resending it if one is in flight. -/
theorem updateTimers_of_initiate (dst : List UInt8) {t t' : Tunn} {keepalive : Bool}
    (h : (timerBlock env.now).run (t.tickClock env.now) = .ok (true, keepalive) t') :
    (updateTimers B env dst).run t = (formatHandshakeInitiation B env dst true).run t' := by
  simp only [updateTimers, EStateM.run_bind, EStateM.run_modify, run_attempt, h]
  rfl

theorem expireCookie_of_hasCookie {t : Tunn} (h : t.handshake.hasCookie = false) (now : Nat) :
    t.expireCookie now = t := by
  simp [expireCookie, h]

section InFlight

/-! The block with an initiation in flight, past the checks that come before:
the handshake has not expired, holds no cookie, and its keys are younger than
three times `REJECT_AFTER_TIME`. -/

variable {t : Tunn} {instant timeSent : Nat} (hexp : t.handshake.isExpired = false)
  (hcookie : t.handshake.hasCookie = false)
  (hkeys : (t.readings instant).now - (t.readings instant).sessionEstablished <
    rejectAfterTime * 3)
  (hsent : t.handshake.timer = some timeSent)
include hexp hcookie hkeys hsent

theorem timerBlock_retransmits
    (hattempt : (t.readings instant).now - (t.readings instant).handshakeStarted <
      rekeyAttemptTime)
    (hretry : rekeyTimeout ≤ instant - timeSent) :
    (timerBlock instant).run t = .ok (true, false) t := by
  have hkeys' : ¬rejectAfterTime * 3 ≤
      (t.readings instant).now - (t.readings instant).sessionEstablished := by omega
  have hattempt' : ¬rekeyAttemptTime ≤
      (t.readings instant).now - (t.readings instant).handshakeStarted := by omega
  simp [timerBlock, retransmit, EStateM.run_bind, EStateM.run_get, EStateM.run_set, hexp,
    expireCookie_of_hasCookie hcookie, hkeys', hsent, hattempt', hretry]

/-- Without a persistent keepalive, `REKEY_ATTEMPT_TIME` after the recorded start
the block clears the tunnel, expires the handshake and returns `ConnectionExpired`. -/
theorem timerBlock_attempt_expired
    (hattempt : rekeyAttemptTime ≤
      (t.readings instant).now - (t.readings instant).handshakeStarted)
    (hpk : t.timers.persistentKeepalive = 0) :
    (timerBlock instant).run t = .error (.err .connectionExpired)
      { t.clearAll instant with handshake := t.handshake.setExpired } := by
  have hkeys' : ¬rejectAfterTime * 3 ≤
      (t.readings instant).now - (t.readings instant).sessionEstablished := by omega
  have hpk' : (t.readings instant).persistentKeepalive = 0 := hpk
  simp [timerBlock, retransmit, giveUp, EStateM.run_bind, EStateM.run_get, EStateM.run_set,
    hexp, expireCookie_of_hasCookie hcookie, hkeys', hsent, hattempt, hpk']
  rfl

end InFlight

/-- A handshake started before the first `update_timers` (clock `T = 0`) is recorded
as started at one millisecond. `update_timers` exactly `REKEY_ATTEMPT_TIME` after the
start retries the initiation; it gives up only one millisecond later. -/
theorem initiation_given_up_late (hB : B.Lawful) (staticPrivate peerStaticPublic : Key)
    (presharedKey : Option Key) (index : UInt32) (rateLimiter : Option RateLimiter)
    (systemTime start : Nat) (secretKey : Vector UInt8 16) (nonceKey eph₁ eph₂ : Key)
    {dst₁ dst₂ : List UInt8} (hdst₁ : handshakeInitSz ≤ dst₁.length)
    (hdst₂ : handshakeInitSz ≤ dst₂.length)
    (hsys : (rekeyAttemptTime + systemTime) / 10 ^ 9 < 2 ^ 64) :
    ∃ t₀ t₁ m₁,
      Tunn.new B staticPrivate peerStaticPublic presharedKey none index rateLimiter systemTime
        start secretKey nonceKey = .ok t₀ ∧
      t₀.timers.timers .timeCurrent = 0 ∧
      (formatHandshakeInitiation B ⟨start, eph₁⟩ dst₁ false).run t₀ =
        .ok (.writeToNetwork m₁) t₁ ∧
      t₁.timers.timers .timeLastHandshakeStarted = 10 ^ 6 ∧
      (∃ m₂ t₂, (updateTimers B ⟨start + rekeyAttemptTime, eph₂⟩ dst₂).run t₁ =
        .ok (.writeToNetwork m₂) t₂) ∧
      ∃ t₂, (updateTimers B ⟨start + rekeyAttemptTime + 10 ^ 6, eph₂⟩ dst₂).run t₁ =
        .ok (.err .connectionExpired) t₂ ∧ t₂.packetQueue = [] ∧ t₂.handshake.isExpired = true := by
  obtain ⟨t₀, hnew, hfresh⟩ := new_fresh B staticPrivate peerStaticPublic presharedKey none index
    rateLimiter systemTime start secretKey nonceKey
  have hst : t₀.handshake.stamper = ⟨systemTime, start⟩ := by simpa using stamper_of_new hnew
  have hidle : t₀.handshake.isInProgress = false := by simp [Handshake.isInProgress, hfresh.state]
  have hlive : t₀.handshake.isExpired = false := by simp [Handshake.isExpired, hfresh.state]
  -- the initiation, sent while the clock still reads zero
  have hfit₁ : (start - t₀.handshake.stamper.instantAtStart +
      t₀.handshake.stamper.durationAtStart) / 10 ^ 9 < 2 ^ 64 := by
    simp only [hst, Nat.sub_self, Nat.zero_add]
    exact lt_of_le_of_lt (Nat.div_le_div_right (Nat.le_add_left _ _)) hsys
  obtain ⟨ts₁, hts₁⟩ := TimeStamper.stamp_ok hfit₁
  have hrun₁ := Handshake.formatHandshakeInitiation_run hB t₀.handshake eph₁ start dst₁ hdst₁ hts₁
  -- what the retries look at: the handshake in flight and the two ticks at clock zero
  obtain ⟨m₁, t₁, hsend₁, htimer₁, hexp₁, hcookie₁, hstamper₁, hclock₁, hstart₁, hpk₁⟩ :
      ∃ m₁ t₁, (formatHandshakeInitiation B ⟨start, eph₁⟩ dst₁ false).run t₀ =
          .ok (.writeToNetwork m₁) t₁ ∧
        t₁.handshake.timer = some start ∧ t₁.handshake.isExpired = false ∧
        t₁.handshake.hasCookie = false ∧ t₁.handshake.stamper = ⟨systemTime, start⟩ ∧
        t₁.timers.timers = Function.update (Function.update (fun _ => 0)
          .timeLastHandshakeStarted (10 ^ 6)) .timeLastPacketSent (10 ^ 6) ∧
        t₁.timers.timeStarted = start ∧ t₁.timers.persistentKeepalive = 0 := by
    refine ⟨_, _, @formatHandshakeInitiation_of_ok B ⟨start, eph₁⟩ t₀ dst₁ _ false _
      (by simp [hidle]) hlive hrun₁, ?_, ?_, ?_, ?_, ?_, ?_, ?_⟩ <;>
      simp [hidle, addTx, Handshake.timer, Handshake.isExpired, Handshake.hasCookie, hst,
        hfresh.cookies, hfresh.timers, Timers.new, timers_timerTick]
  have hread : ∀ i, (t₁.readings i).now = i - start ∧ (t₁.readings i).sessionEstablished = 0 ∧
      (t₁.readings i).handshakeStarted = 10 ^ 6 ∧ (t₁.readings i).persistentKeepalive = 0 :=
    fun i => by simp [readings, hclock₁, hstart₁, hpk₁]
  refine ⟨t₀, t₁, m₁, hnew, by simp [hfresh.timers, Timers.new], hsend₁, by simp [hclock₁], ?_, ?_⟩
  · -- at `REKEY_ATTEMPT_TIME` the recorded start is one millisecond too recent: a retry
    obtain ⟨hnow, hest, hstarted, -⟩ := hread (start + rekeyAttemptTime)
    have hblock := @timerBlock_retransmits (t₁.tickClock (start + rekeyAttemptTime))
      (start + rekeyAttemptTime) start (by simpa using hexp₁) (by simpa using hcookie₁)
      (by rw [readings_tickClock, hnow, hest]; unfold rejectAfterTime rekeyAttemptTime; omega)
      (by simpa using htimer₁)
      (by rw [readings_tickClock, hnow, hstarted]; unfold rekeyAttemptTime; omega)
      (by unfold rekeyTimeout rekeyAttemptTime; omega)
    have hfit₂ : (start + rekeyAttemptTime -
        (t₁.tickClock (start + rekeyAttemptTime)).handshake.stamper.instantAtStart +
        (t₁.tickClock (start + rekeyAttemptTime)).handshake.stamper.durationAtStart) / 10 ^ 9 <
        2 ^ 64 := by
      simpa [hstamper₁] using hsys
    obtain ⟨ts₂, hts₂⟩ := TimeStamper.stamp_ok hfit₂
    have hrun₂ := Handshake.formatHandshakeInitiation_run hB _ eph₂ _ dst₂ hdst₂ hts₂
    exact ⟨_, _, (@updateTimers_of_initiate B ⟨start + rekeyAttemptTime, eph₂⟩ dst₂ _ _ _
      hblock).trans (@formatHandshakeInitiation_of_ok B ⟨start + rekeyAttemptTime, eph₂⟩ _ dst₂ _
        true _ (by simp) (by simpa using hexp₁) hrun₂)⟩
  · -- one millisecond later the attempt has lasted `REKEY_ATTEMPT_TIME`: it gives up
    obtain ⟨hnow, hest, hstarted, hpk⟩ := hread (start + rekeyAttemptTime + 10 ^ 6)
    have hblock := @timerBlock_attempt_expired (t₁.tickClock (start + rekeyAttemptTime + 10 ^ 6))
      (start + rekeyAttemptTime + 10 ^ 6) start (by simpa using hexp₁) (by simpa using hcookie₁)
      (by rw [readings_tickClock, hnow, hest]; unfold rejectAfterTime rekeyAttemptTime; omega)
      (by simpa using htimer₁)
      (by rw [readings_tickClock, hnow, hstarted]; omega)
      (by simpa using hpk₁)
    exact ⟨_, updateTimers_of_timerBlock_error B _ dst₂ hblock, rfl,
      by simp [Handshake.setExpired, Handshake.isExpired]⟩

theorem initiation_given_up_late_at_zero :
    ∃ t₀ t₁ m₁,
      Tunn.new Backend.plain (.replicate 32 1) (.replicate 32 2) none none 0 none 0 0
        (.replicate 16 0) (.replicate 32 0) = .ok t₀ ∧
      t₀.timers.timers .timeCurrent = 0 ∧
      (formatHandshakeInitiation Backend.plain ⟨0, .replicate 32 3⟩ (.replicate 148 0) false).run
        t₀ = .ok (.writeToNetwork m₁) t₁ ∧
      t₁.timers.timers .timeLastHandshakeStarted = 10 ^ 6 ∧
      (∃ m₂ t₂, (updateTimers Backend.plain ⟨0 + rekeyAttemptTime, .replicate 32 4⟩
        (.replicate 148 0)).run t₁ = .ok (.writeToNetwork m₂) t₂) ∧
      ∃ t₂, (updateTimers Backend.plain ⟨0 + rekeyAttemptTime + 10 ^ 6, .replicate 32 4⟩
        (.replicate 148 0)).run t₁ = .ok (.err .connectionExpired) t₂ ∧ t₂.packetQueue = [] ∧
        t₂.handshake.isExpired = true :=
  initiation_given_up_late plain_lawful (.replicate 32 1) (.replicate 32 2) none 0 none 0 0
    (.replicate 16 0) (.replicate 32 0) (.replicate 32 3) (.replicate 32 4)
    (by simp [handshakeInitSz]) (by simp [handshakeInitSz]) (by simp [rekeyAttemptTime])

end Tunn

end Neptun.Noise
