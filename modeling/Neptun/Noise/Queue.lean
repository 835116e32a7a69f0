import Neptun.Noise.Basic
import Neptun.Noise.Slots
import Neptun.Noise.Transport

/-! The queue of packets that wait for a session, and the loop of the device's
handlers that flushes it. A flush is `decapsulate(None, &[], dst)`, which is
`send_queued_packet`: the head of the queue is taken off and encapsulated, and
put back at the head when that reports an error. Without a session,
`encapsulate` queues the packet at the back itself before it starts a handshake,
so an initiation that fails (a `dst` shorter than an initiation) leaves the
packet queued twice.

The loop goes on while the flush returns `WriteToNetwork`. With a session in use
each of those sends the head of the queue; without one, the only packet a flush
sends is the initiation of a new handshake, after which a handshake is in
progress and the next flush returns `Done`. -/
namespace Neptun.Noise

open Lib

/-- The pattern of the device's `while let TunnResult::WriteToNetwork(..)`. -/
def TunnResult.isWriteToNetwork : TunnResult → Bool
  | .writeToNetwork _ => true
  | _ => false

namespace Tunn

section Frame

variable (t : Tunn)

@[simp] theorem sessions_queuePacket (p : List UInt8) : (t.queuePacket p).sessions = t.sessions := by
  unfold queuePacket
  split <;> rfl

@[simp] theorem current_queuePacket (p : List UInt8) : (t.queuePacket p).current = t.current := by
  unfold queuePacket
  split <;> rfl

@[simp] theorem handshake_queuePacket (p : List UInt8) :
    (t.queuePacket p).handshake = t.handshake := by
  unfold queuePacket
  split <;> rfl

end Frame

section Specs

variable {B : Backend} {env : CallEnv}

/-- With a session in use, what `encapsulate_in_place` sends leaves a session in
the slot in use and the queue as it was. -/
theorem encapsulateInPlace_session {t : Tunn} {s : Session}
    (hs : t.sessions[slot t.current] = some s) (srcLen : Nat) (dst : List UInt8) :
    Triple (fun r t' => r.isWriteToNetwork = true →
        (t'.sessions[slot t'.current]).isSome ∧ t'.packetQueue = t.packetQueue)
      (fun _ _ => True) (encapsulateInPlace B env srcLen dst) t := by
  unfold encapsulateInPlace
  apply triple_get_bind
  simp only [hs]
  refine triple_bind (R := fun _ t' => (∃ s', t'.sessions = t.sessions.set (slot t.current) (some s')) ∧
      t'.current = t.current ∧ t'.packetQueue = t.packetQueue) ?_
    fun r t' _ ⟨⟨s', hset⟩, hcur, hq⟩ => ?_
  · -- the session is written back however the call ends
    apply triple_attempt
    apply triple_focus
    refine triple_of_forall (fun _ _ => ⟨⟨_, rfl⟩, rfl, rfl⟩) fun f _ => ?_
    cases f
    · exact ⟨⟨_, rfl⟩, rfl, rfl⟩
    · trivial
    · trivial
  · have hslot : (t'.sessions[slot t'.current]).isSome := by
      simp [hset, hcur]
    cases r with
    | error e => exact triple_pure fun h => by cases h
    | ok packet =>
      -- the timers and the counter are all that is written after the seal
      refine triple_modify_bind ?_
      split
      · exact triple_modify_bind (triple_modify_bind (triple_pure fun _ =>
          ⟨by simpa [addTx] using hslot, by simpa [addTx] using hq⟩))
      · exact triple_modify_bind (triple_pure fun _ =>
          ⟨by simpa [addTx] using hslot, by simpa [addTx] using hq⟩)

/-- The handshake's initiation, called by the tunnel: a returned message leaves a
handshake in progress, and no outcome touches the sessions or the queue. -/
theorem attempt_initiation (hB : B.Lawful) (t : Tunn) (eph : Key) (now : Nat) (dst : List UInt8) :
    Triple (fun r t' => (∀ p, r = .ok p → t'.handshake.isInProgress = true) ∧
        t'.sessions = t.sessions ∧ t'.current = t.current ∧ t'.packetQueue = t.packetQueue)
      (fun _ _ => True)
      (attempt (onHandshake (Handshake.formatHandshakeInitiation B eph now dst)) :
        EStateM (Fault WireGuardError) Tunn _) t := by
  apply triple_attempt
  apply triple_focus
  unfold Triple
  split
  · rename_i p h' hrun
    obtain ⟨ts, -, -, rfl⟩ := Handshake.formatHandshakeInitiation_ok hB hrun
    exact ⟨fun _ _ => rfl, rfl, rfl, rfl⟩
  · rename_i f h' _
    cases f
    · exact ⟨fun _ h => (by cases h), rfl, rfl, rfl⟩
    · trivial
    · trivial

/-- An initiation the tunnel sends starts a handshake that was not in progress,
and leaves the sessions and the queue alone. -/
theorem formatHandshakeInitiation_starts (hB : B.Lawful) (t : Tunn) (dst : List UInt8) :
    Triple (fun r t' => r.isWriteToNetwork = true → t.handshake.isInProgress = false ∧
        t'.handshake.isInProgress = true ∧ t'.sessions = t.sessions ∧ t'.current = t.current ∧
        t'.packetQueue = t.packetQueue)
      (fun _ _ => True) (formatHandshakeInitiation B env dst false) t := by
  unfold formatHandshakeInitiation
  apply triple_get_bind
  cases hprog : t.handshake.isInProgress
  · simp only [Bool.false_and, Bool.false_eq_true, if_false]
    -- an expired handshake clears the timers first; both paths go on alike
    split
    on_goal 1 => apply triple_set_bind
    all_goals
      refine triple_bind (attempt_initiation hB _ _ _ _) fun r t' _ hstart => ?_
      obtain ⟨hin, hs, hc, hq⟩ := hstart
      cases r with
      | error e => exact triple_pure fun h => by cases h
      | ok packet =>
        simp only [Bool.not_false, if_true]
        exact triple_modify_bind (triple_modify_bind (triple_pure fun _ =>
          ⟨trivial, by simpa [addTx] using hin packet rfl, by simpa [addTx] using hs,
            by simpa [addTx] using hc, by simpa [addTx] using hq⟩))
  · -- a handshake in progress: nothing is sent
    exact triple_pure fun h => by cases h

/-- What `format_handshake_initiation` of the tunnel does once the handshake has
formatted `m`: tick the start of a new handshake and the send timer, and count `m`. -/
theorem formatHandshakeInitiation_of_ok {t : Tunn} {dst m : List UInt8} {forceResend : Bool}
    {h' : Handshake} (hgo : (t.handshake.isInProgress && !forceResend) = false)
    (hexp : t.handshake.isExpired = false)
    (hrun : (Handshake.formatHandshakeInitiation B env.ephemeralPrivate env.now dst).run
      t.handshake = .ok m h') :
    (formatHandshakeInitiation B env dst forceResend).run t =
      .ok (.writeToNetwork m)
        (((if t.handshake.isInProgress then { t with handshake := h' }
          else { t with handshake := h' }.timerTick .timeLastHandshakeStarted).timerTick
            .timeLastPacketSent).addTx m.length) := by
  simp only [formatHandshakeInitiation, EStateM.run_bind, EStateM.run_get, hgo, hexp,
    Bool.false_eq_true, if_false]
  cases hprog : t.handshake.isInProgress <;>
    simp [-bind_pure_comp, onHandshake, EStateM.run_bind, hrun]

/-- With a buffer of `HANDSHAKE_INIT_SZ` bytes and an instant its stamper can
stamp, a tunnel whose handshake has not expired sends an initiation unless one is in
flight and no resend is forced: the new initiation takes the current slot, the one
before it the previous slot, and the queue stays as it was. -/
theorem formatHandshakeInitiation_sends (hB : B.Lawful) (env : CallEnv) (forceResend : Bool)
    {t : Tunn} {dst : List UInt8} (hgo : (t.handshake.isInProgress && !forceResend) = false)
    (hexp : t.handshake.isExpired = false) (hdst : handshakeInitSz ≤ dst.length)
    {ts : Vector UInt8 12} (hts : t.handshake.stamper.stamp env.now = .ok ts) :
    ∃ m t', (formatHandshakeInitiation B env dst forceResend).run t = .ok (.writeToNetwork m) t' ∧
      t'.handshake.previous = t.handshake.state ∧ (∃ s, t'.handshake.state = .initSent s) ∧
      t'.handshake.stamper = t.handshake.stamper ∧ t'.packetQueue = t.packetQueue := by
  refine ⟨_, _, formatHandshakeInitiation_of_ok hgo hexp
    (Handshake.formatHandshakeInitiation_run hB _ _ _ dst hdst hts), ?_⟩
  cases t.handshake.isInProgress <;> simp [addTx]

/-- Without a session, what `encapsulate_in_place` sends is the initiation of a
handshake that was not in progress; no session is made. -/
theorem encapsulateInPlace_noSession (hB : B.Lawful) {t : Tunn}
    (hs : t.sessions[slot t.current] = none) (srcLen : Nat) (dst : List UInt8) :
    Triple (fun r t' => r.isWriteToNetwork = true → t.handshake.isInProgress = false ∧
        t'.handshake.isInProgress = true ∧ t'.sessions[slot t'.current] = none)
      (fun _ _ => True) (encapsulateInPlace B env srcLen dst) t := by
  unfold encapsulateInPlace
  apply triple_get_bind
  simp only [hs]
  -- queued or not, the packet goes on to an initiation from the same sessions
  have hinit : ∀ t₁ : Tunn, t₁.sessions = t.sessions → t₁.current = t.current →
      t₁.handshake = t.handshake →
      Triple (fun r t' => r.isWriteToNetwork = true → t.handshake.isInProgress = false ∧
        t'.handshake.isInProgress = true ∧ t'.sessions[slot t'.current] = none)
      (fun _ _ => True) (formatHandshakeInitiation B env dst false) t₁ := by
    intro t₁ h1 h2 h3
    refine (formatHandshakeInitiation_starts hB t₁ dst).mono (fun r t' hq hw => ?_)
      fun _ _ _ => trivial
    obtain ⟨hprog, hin, hs', hc', -⟩ := hq hw
    exact ⟨h3 ▸ hprog, hin, by simp [hs', hc', h1, h2, hs]⟩
  split
  · split
    · exact triple_modify_bind (hinit _ (by simp) (by simp) (by simp))
    · exact triple_pure fun h => by cases h
  · exact hinit t rfl rfl rfl

/-- Without a session and with no handshake in progress or expired, a packet that
fits `dst` is queued and an initiation is sent: the tunnel then has one in flight,
and the mac1 it sent to check a cookie reply against. -/
theorem encapsulateInPlace_initiates (hB : B.Lawful) (env : CallEnv) {t : Tunn}
    (hs : t.sessions[slot t.current] = none) (hprog : t.handshake.isInProgress = false)
    (hexp : t.handshake.isExpired = false) (srcLen : Nat) {dst : List UInt8} (hlen : srcLen ≠ 0)
    (hfit : srcLen + dataOffset ≤ dst.length) (hdst : handshakeInitSz ≤ dst.length)
    {ts : Vector UInt8 12} (hts : t.handshake.stamper.stamp env.now = .ok ts) :
    ∃ m t', (encapsulateInPlace B env srcLen dst).run t = .ok (.writeToNetwork m) t' ∧
      (∃ s, t'.handshake.state = .initSent s) ∧ t'.handshake.cookies.lastMac1.isSome := by
  -- the packet is queued, which leaves the handshake to start from the same state
  have hq : (encapsulateInPlace B env srcLen dst).run t =
      (formatHandshakeInitiation B env dst false).run
        (t.queuePacket ((dst.drop dataOffset).take (srcLen + dataOffset - dataOffset))) := by
    simp only [getElem_vector_fin] at hs
    simp [encapsulateInPlace, EStateM.run_bind, hs, hlen, getRange_of_le (Nat.le_add_left _ _) hfit]
  rw [hq, formatHandshakeInitiation_of_ok (by simp [hprog]) (by simpa using hexp)
    (Handshake.formatHandshakeInitiation_run hB _ env.ephemeralPrivate env.now dst hdst
      (by simpa using hts))]
  refine ⟨_, _, rfl, ?_, ?_⟩ <;> simp [hprog, addTx, timerTick]

/-- `encapsulate` is `encapsulate_in_place` on the buffer with the packet copied
in, or an error value that leaves the tunnel as it was. -/
theorem triple_encapsulate {Q : TunnResult → Tunn → Prop} {t : Tunn} (src dst : List UInt8)
    (herr : ∀ e, Q (.err e) t)
    (hin : ∀ buf, Triple Q (fun _ _ => True) (encapsulateInPlace B env src.length buf) t) :
    Triple Q (fun _ _ => True) (encapsulate B env src dst) t := by
  unfold encapsulate
  split
  · rw [copyFromSlice_eq_liftExcept]
    exact triple_liftExcept_bind (fun _ _ => trivial) fun _ _ => hin _
  · exact triple_pure (herr _)

end Specs

section Duplicate

variable {B : Backend} {env : CallEnv}

/-- With no handshake in progress or expired, an initiation into a buffer too
short for one is refused, and the tunnel is left as it was. -/
theorem formatHandshakeInitiation_short {t : Tunn} (hprog : t.handshake.isInProgress = false)
    (hexp : t.handshake.isExpired = false) {dst : List UInt8}
    (hdst : dst.length < handshakeInitSz) :
    (formatHandshakeInitiation B env dst false).run t = .ok (.err .destinationBufferTooSmall) t := by
  simp [formatHandshakeInitiation, EStateM.run_bind, hprog, hexp, onHandshake,
    Handshake.formatHandshakeInitiation_small env.ephemeralPrivate env.now hdst]

theorem getRange_copied {p dst : List UInt8} (hfit : p.length + dataOffset ≤ dst.length) :
    getRange (dst.take dataOffset ++ (p ++ dst.drop (p.length + dataOffset))) dataOffset
      (p.length + dataOffset) = some p := by
  have h16 : (dst.take dataOffset).length = dataOffset := by
    simp [dataOffset] at hfit ⊢
    omega
  rw [getRange_append_of_le (by omega) (by omega), h16, Nat.sub_self, Nat.add_sub_cancel,
    getRange_append_left (Nat.zero_le _) le_rfl, getRange_self rfl]

theorem length_copied {p dst : List UInt8} (hfit : p.length + dataOffset ≤ dst.length) :
    (dst.take dataOffset ++ (p ++ dst.drop (p.length + dataOffset))).length = dst.length := by
  simp [dataOffset] at hfit ⊢
  omega

/-- Without a session, a packet that fits `dst` is queued before the initiation
is formatted, and stays queued when the initiation does not fit. -/
theorem encapsulate_short_queues {t : Tunn} (hs : t.sessions[slot t.current] = none)
    (hprog : t.handshake.isInProgress = false) (hexp : t.handshake.isExpired = false)
    {p dst : List UInt8} (hp : p ≠ []) (hfit : p.length + dataOffset ≤ dst.length)
    (hdst : dst.length < handshakeInitSz) :
    (encapsulate B env p dst).run t = .ok (.err .destinationBufferTooSmall) (t.queuePacket p) := by
  have hlen : p.length ≠ 0 := by simpa using hp
  simp only [getElem_vector_fin] at hs
  rw [encapsulate_eq env p dst hfit]
  simp [encapsulateInPlace, EStateM.run_bind, hs, hlen, getRange_copied hfit]
  exact formatHandshakeInitiation_short (by simpa using hprog) (by simpa using hexp)
    (by rw [length_copied hfit]; exact hdst)

/-- A flush without a session and with no handshake in progress, into a `dst` that
holds the packet at the head of the queue but not an initiation: the packet goes
back to the head of the queue, and stays at its back as well. -/
theorem sendQueuedPacket_duplicates {t : Tunn} (hs : t.sessions[slot t.current] = none)
    (hprog : t.handshake.isInProgress = false) (hexp : t.handshake.isExpired = false)
    {p : List UInt8} {rest : List (List UInt8)} (hq : t.packetQueue = p :: rest)
    (hdepth : rest.length + 1 < maxQueueDepth) (hp : p ≠ []) {dst : List UInt8}
    (hfit : p.length + dataOffset ≤ dst.length) (hdst : dst.length < handshakeInitSz) :
    (sendQueuedPacket B env dst).run t =
      .ok .done { t with packetQueue := p :: (rest ++ [p]) } := by
  have henc : (encapsulate B env p dst).run { t with packetQueue := rest } =
      .ok (.err .destinationBufferTooSmall) (({ t with packetQueue := rest } : Tunn).queuePacket p) :=
    encapsulate_short_queues (t := { t with packetQueue := rest }) hs hprog hexp hp hfit hdst
  have hqueue : ({ t with packetQueue := rest } : Tunn).queuePacket p =
      { t with packetQueue := rest ++ [p] } := by
    rw [queuePacket, if_pos (show rest.length < maxQueueDepth by omega)]
  have hback : ({ t with packetQueue := rest ++ [p] } : Tunn).requeuePacket p =
      { t with packetQueue := p :: (rest ++ [p]) } := by
    rw [requeuePacket, if_pos (by simp; omega)]
  simp [-bind_pure_comp, sendQueuedPacket, dequeuePacket, EStateM.run_bind, hq, henc, hqueue, hback]

/-- A new tunnel asked to send a packet into a buffer that holds the packet but
not an initiation queues it and reports the error; the flush that follows, with
the same buffer, returns `Done` and leaves the packet queued twice. -/
theorem flush_duplicates_queued_packet (B : Backend) {staticPrivate peerStaticPublic : Key}
    {presharedKey : Option Key} {persistentKeepalive : Option UInt16} {index : UInt32}
    {rateLimiter : Option RateLimiter} {systemTime : Int} {now : Nat}
    {secretKey : Vector UInt8 16} {nonceKey : Key} {t : Tunn}
    (hnew : Tunn.new B staticPrivate peerStaticPublic presharedKey persistentKeepalive index
      rateLimiter systemTime now secretKey nonceKey = .ok t)
    (env env' : CallEnv) {p dst : List UInt8} (hp : p ≠ [])
    (hfit : p.length + dataOffset ≤ dst.length) (hdst : dst.length < handshakeInitSz) :
    ∃ t₁ t₂, (encapsulate B env p dst).run t = .ok (.err .destinationBufferTooSmall) t₁ ∧
      t₁.packetQueue = [p] ∧
      (decapsulate B env' none [] dst).run t₁ = .ok .done t₂ ∧ t₂.packetQueue = [p, p] := by
  have hfresh := fresh_of_new hnew
  have hs : t.sessions[slot t.current] = none := by simp [hfresh.sessions, hfresh.current]
  have hprog : t.handshake.isInProgress = false := by
    simp [Handshake.isInProgress, hfresh.state]
  have hexp : t.handshake.isExpired = false := by simp [Handshake.isExpired, hfresh.state]
  have hq : (t.queuePacket p).packetQueue = [p] := by
    simp [queuePacket, hfresh.packetQueue, maxQueueDepth]
  refine ⟨_, { t.queuePacket p with packetQueue := p :: ([] ++ [p]) },
    encapsulate_short_queues hs hprog hexp hp hfit hdst, hq, ?_, rfl⟩
  rw [decapsulate_nil]
  exact sendQueuedPacket_duplicates (by simpa using hs) (by simpa using hprog)
    (by simpa using hexp) hq (by simp [maxQueueDepth]) hp hfit hdst

theorem flush_duplicates_queued_packet_one_byte :
    ∃ t, Tunn.new Backend.plain (.replicate 32 1) (.replicate 32 2) none none 0 none 0 0
        (.replicate 16 0) (.replicate 32 0) = .ok t ∧
      ∃ t₁ t₂, (encapsulate Backend.plain ⟨0, .replicate 32 3⟩ [1] (.replicate 17 0)).run t =
          .ok (.err .destinationBufferTooSmall) t₁ ∧ t₁.packetQueue = [[1]] ∧
        (decapsulate Backend.plain ⟨0, .replicate 32 3⟩ none [] (.replicate 17 0)).run t₁ =
          .ok .done t₂ ∧ t₂.packetQueue = [[1], [1]] := by
  obtain ⟨t, hnew, -⟩ := new_fresh Backend.plain (.replicate 32 1) (.replicate 32 2) none none
    0 none 0 0 (.replicate 16 0) (.replicate 32 0)
  exact ⟨t, hnew, flush_duplicates_queued_packet Backend.plain hnew _ _ (by decide) (by decide)
    (by decide)⟩

end Duplicate

section Flush

variable {B : Backend} {env : CallEnv}

/-- A bound on the packets a flush still sends: with a session in use, the packets
queued; without one, the initiation it may start. -/
def flushBound (t : Tunn) : Nat :=
  match t.sessions[slot t.current] with
  | some _ => t.packetQueue.length
  | none => if t.packetQueue ≠ [] ∧ t.handshake.isInProgress = false then 1 else 0

theorem flushBound_le (t : Tunn) : t.flushBound ≤ t.packetQueue.length := by
  unfold flushBound
  split
  · exact le_rfl
  · split
    · rename_i h
      exact List.length_pos_iff.mpr h.1
    · exact Nat.zero_le _

/-- One flush that sends something lowers the bound. -/
theorem sendQueuedPacket_flushBound (hB : B.Lawful) (t : Tunn) (dst : List UInt8) :
    Triple (fun r t' => r.isWriteToNetwork = true → t'.flushBound < t.flushBound)
      (fun _ _ => True) (sendQueuedPacket B env dst) t := by
  unfold sendQueuedPacket
  cases hq : t.packetQueue with
  | nil =>
    have hrun : (dequeuePacket : EStateM (Fault WireGuardError) Tunn _).run t = .ok none t := by
      simp [dequeuePacket, EStateM.run_bind, EStateM.run_get, hq]
    refine triple_bind (triple_of_ok (Q := fun x t₁ => x = none ∧ t₁ = t) hrun ⟨rfl, rfl⟩) ?_
    rintro _ _ _ ⟨rfl, rfl⟩
    exact triple_pure fun h => by cases h
  | cons p rest =>
    have hrun : (dequeuePacket : EStateM (Fault WireGuardError) Tunn _).run t =
        .ok (some p) { t with packetQueue := rest } := by
      simp [dequeuePacket, EStateM.run_bind, EStateM.run_get, hq, EStateM.run_set, -bind_pure_comp]
    refine triple_bind (triple_of_ok (Q := fun x t₁ => x = some p ∧
      t₁ = { t with packetQueue := rest }) hrun ⟨rfl, rfl⟩) ?_
    rintro _ _ _ ⟨rfl, rfl⟩
    -- what encapsulating the head sends lowers the bound, with a session or without
    have henc : Triple (fun r t' => r.isWriteToNetwork = true → t'.flushBound < t.flushBound)
        (fun _ _ => True) (encapsulate B env p dst) { t with packetQueue := rest } := by
      refine triple_encapsulate p dst (fun _ h => by cases h) fun buf => ?_
      cases hs : t.sessions[slot t.current] with
      | some s =>
        apply (encapsulateInPlace_session (t := { t with packetQueue := rest }) hs p.length
          buf).mono _ fun _ _ _ => trivial
        intro r t' hr hw
        obtain ⟨hsome, hq'⟩ := hr hw
        obtain ⟨s', hs'⟩ := Option.isSome_iff_exists.mp hsome
        simp [flushBound, hs', hq', hs, hq]
      | none =>
        apply (encapsulateInPlace_noSession (t := { t with packetQueue := rest }) hB hs p.length
          buf).mono _ fun _ _ _ => trivial
        intro r t' hr hw
        obtain ⟨hprog, hin, hnone⟩ := hr hw
        simp [flushBound, hnone, hin, hs, hq, hprog]
    refine triple_bind henc fun r t' _ hr => ?_
    cases r
    case err e => exact triple_modify_bind (triple_pure fun h => by cases h)
    all_goals exact triple_pure hr

/-- The loop of the device's handlers that flushes a peer's queue: call
`decapsulate(None, &[], dst)` while it returns `WriteToNetwork`, the `i`-th call
reading `envs[i]`. -/
def flushQueue (B : Backend) (dst : List UInt8) (envs : List CallEnv) :
    EStateM (Fault WireGuardError) Tunn (Option Nat) :=
  callWhile (fun env => decapsulate B env none [] dst) TunnResult.isWriteToNetwork envs

/-- Given a call for every packet queued and one more, the flush loop stops
before they run out, after at most that many calls, whatever `dst` is. A panic
ends it too. -/
theorem flush_terminates (hB : B.Lawful) (t : Tunn) (dst : List UInt8) (envs : List CallEnv)
    (henvs : t.packetQueue.length + 1 ≤ envs.length) :
    Triple (fun r _ => ∃ k, r = some k ∧ k ≤ t.packetQueue.length + 1) (fun _ _ => True)
      (flushQueue B dst envs) t := by
  have hle := flushBound_le t
  have hstep : ∀ (env : CallEnv) (t' : Tunn), Triple (fun r t'' => r.isWriteToNetwork = true →
      t''.flushBound < t'.flushBound) (fun _ _ => True) (decapsulate B env none [] dst) t' := by
    intro env t'
    rw [decapsulate_nil]
    exact sendQueuedPacket_flushBound hB t' dst
  have hloop := callWhile_bound flushBound hstep envs t (by omega)
  exact hloop.mono (fun r _ ⟨k, hk, hk'⟩ => ⟨k, hk, by omega⟩) fun _ _ h => h

/-- A packet that a new tunnel queued, flushed into a buffer that holds an
initiation, with one call more than the queue holds. -/
theorem flush_terminates_queued :
    ∃ t₀ t, Tunn.new Backend.plain (.replicate 32 1) (.replicate 32 2) none none 0 none 0 0
        (.replicate 16 0) (.replicate 32 0) = .ok t₀ ∧
      (encapsulate Backend.plain ⟨0, .replicate 32 3⟩ [1] (.replicate 17 0)).run t₀ =
        .ok (.err .destinationBufferTooSmall) t ∧ t.packetQueue = [[1]] ∧
      Triple (fun r _ => ∃ k, r = some k ∧ k ≤ t.packetQueue.length + 1) (fun _ _ => True)
        (flushQueue Backend.plain (.replicate 148 0) [⟨1, .replicate 32 3⟩, ⟨2, .replicate 32 4⟩])
        t := by
  obtain ⟨t₀, hnew, hfresh⟩ := new_fresh Backend.plain (.replicate 32 1) (.replicate 32 2) none none
    0 none 0 0 (.replicate 16 0) (.replicate 32 0)
  have hs : t₀.sessions[slot t₀.current] = none := by simp [hfresh.sessions, hfresh.current]
  have hprog : t₀.handshake.isInProgress = false := by
    simp [Handshake.isInProgress, hfresh.state]
  have hexp : t₀.handshake.isExpired = false := by simp [Handshake.isExpired, hfresh.state]
  have hq : (t₀.queuePacket [1]).packetQueue = [[1]] := by
    simp [queuePacket, hfresh.packetQueue, maxQueueDepth]
  refine ⟨t₀, _, hnew, encapsulate_short_queues hs hprog hexp (by decide) (by decide) (by decide),
    hq, ?_⟩
  exact flush_terminates plain_lawful _ _ _ (by rw [hq]; decide)

end Flush

end Tunn

end Neptun.Noise
