import Neptun.Noise.Basic

/-! When `update_timers` gives up on a connection. Without a persistent
keepalive, a tunnel whose last session is three times `REJECT_AFTER_TIME` old
clears everything and expires its handshake; an expired handshake makes every
later call return `ConnectionExpired` before any timer is looked at, whatever
the persistent keepalive is by then. -/
namespace Neptun.Noise

open Lib

namespace Tunn

theorem timerBlock_of_expired {t : Tunn} (instant : Nat) (h : t.handshake.isExpired = true) :
    (timerBlock instant).run t = .error (.err .connectionExpired) t := by
  simp [timerBlock, EStateM.run_bind, EStateM.run_get, h]

/-- An expired handshake stays expired: `update_timers` returns `ConnectionExpired`. -/
theorem updateTimers_of_expired (B : Backend) (env : CallEnv) (dst : List UInt8) {t : Tunn}
    (h : t.handshake.isExpired = true) :
    (updateTimers B env dst).run t = .ok (.err .connectionExpired) (t.tickClock env.now) :=
  updateTimers_of_timerBlock_error B env dst
    (timerBlock_of_expired env.now (by simpa using h))

/-- Without a persistent keepalive, a session three times `REJECT_AFTER_TIME` old
makes the block expire the handshake and return `ConnectionExpired`. -/
theorem timerBlock_gives_up {t : Tunn} (instant : Nat) (hlive : t.handshake.isExpired = false)
    (hold : rejectAfterTime * 3 ≤
      (t.readings instant).now - (t.readings instant).sessionEstablished)
    (hpk : t.timers.persistentKeepalive = 0) :
    ∃ t', (timerBlock instant).run t = .error (.err .connectionExpired) t' ∧
      t'.handshake.isExpired = true := by
  let t₁ := (t.expireCookie (t.readings instant).now).clearAll instant
  refine ⟨{ t₁ with handshake := t₁.handshake.setExpired }, ?_, rfl⟩
  have hpk' : (t.readings instant).persistentKeepalive = 0 := hpk
  simp [timerBlock, giveUp, EStateM.run_bind, EStateM.run_get, EStateM.run_set, hlive, hold, hpk']
  rfl

theorem keepalive_after_expiry_stays_expired (B : Backend) (staticPrivate peerStaticPublic : Key)
    (presharedKey : Option Key) (index : UInt32) (systemTime start : Nat)
    (secretKey : Vector UInt8 16) (nonceKey ephemeral : Key) (dst₁ : List UInt8)
    (keepalive : UInt16) (env : CallEnv) (dst₂ : List UInt8) :
    ∃ t₀ t₁ t₂,
      Tunn.new B staticPrivate peerStaticPublic presharedKey none index none systemTime start
        secretKey nonceKey = .ok t₀ ∧
      (updateTimers B ⟨start + rejectAfterTime * 3, ephemeral⟩ dst₁).run t₀ =
        .ok (.err .connectionExpired) t₁ ∧
      (t₁.setPersistentKeepalive keepalive).timers.persistentKeepalive = keepalive.toNat ∧
      (updateTimers B env dst₂).run (t₁.setPersistentKeepalive keepalive) =
        .ok (.err .connectionExpired) t₂ := by
  obtain ⟨t₀, hnew, hfresh⟩ := new_fresh B staticPrivate peerStaticPublic presharedKey none index
    none systemTime start secretKey nonceKey
  -- the fresh tunnel has no session: its session timer reads zero
  have hlive : (t₀.tickClock (start + rejectAfterTime * 3)).handshake.isExpired = false := by
    simp [Handshake.isExpired, hfresh.state]
  have hold : rejectAfterTime * 3 ≤
      ((t₀.tickClock (start + rejectAfterTime * 3)).readings (start + rejectAfterTime * 3)).now -
        ((t₀.tickClock (start + rejectAfterTime * 3)).readings
          (start + rejectAfterTime * 3)).sessionEstablished := by
    simp [readings, hfresh.timers, Timers.new]
  have hpk : (t₀.tickClock (start + rejectAfterTime * 3)).timers.persistentKeepalive = 0 := by
    simp [hfresh.timers, Timers.new]
  obtain ⟨t₁, hblock, hexpired⟩ := timerBlock_gives_up _ hlive hold hpk
  exact ⟨t₀, t₁, _, hnew, updateTimers_of_timerBlock_error B _ dst₁ hblock, rfl,
    updateTimers_of_expired B env dst₂ (by simpa using hexpired)⟩

end Tunn

end Neptun.Noise
