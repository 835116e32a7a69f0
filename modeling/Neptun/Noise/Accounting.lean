import Neptun.Noise.Methods

/-! The byte counters of the tunnel. `tx_bytes` grows by the length of every
buffer a call returns in `WriteToNetwork`, and by nothing else: each of the seven
paths that send (a data message, an initiation, a response, the keepalive after a
response, a cookie reply, a flushed packet, and the keepalive or initiation of
`update_timers`) adds what it returns. `rx_bytes` grows by the size of an
initiation, a response or a cookie reply once the handshake has accepted it, even
when the call fails after that, and by `message_data_len` of what a data message
hands to the tunnel interface, a keepalive included. Both are `u64` counters and
wrap as the release build does. -/
namespace Neptun.Noise

open Lib

/-- The bytes a result hands the caller to send. -/
def TunnResult.sentBytes : TunnResult → Nat
  | .writeToNetwork packet => packet.length
  | _ => 0

namespace Tunn

/-- The bytes a data message counts as received, by what it returns: the length of
the message that carried what reaches the tunnel interface, a keepalive included. -/
def dataBytes : TunnResult → Nat
  | .writeToTunnel packet _ => messageDataLen packet.length
  | .done => messageDataLen 0
  | _ => 0

/-- The bytes a verified packet counts as received, handled from a handshake `h`
with result `r`: a handshake message or a cookie reply counts its size when the
handshake accepts it, and a data message what `dataBytes` counts. -/
def receivedBytes (B : Backend) (env : CallEnv) (packet : Packet) (dst : List UInt8)
    (h : Handshake) (r : TunnResult) : Nat :=
  match packet with
  | .handshakeInit p =>
    if returned ((Handshake.receiveHandshakeInitialization B env.ephemeralPrivate p dst).run h)
    then handshakeInitSz else 0
  | .handshakeResponse p =>
    if returned ((Handshake.receiveHandshakeResponse B p env.now).run h) then handshakeRespSz
    else 0
  | .packetCookieReply p =>
    if returned ((Handshake.receiveCookieReply B p).run h) then cookieReplySz else 0
  | .packetData _ => dataBytes r

/-- The bytes a call made from `t` counts as received when it returns `r`: only
a datagram that the rate limiter lets through, or a packet the device verified,
counts. -/
def Call.receivedBytes (B : Backend) : Call → Tunn → TunnResult → Nat
  | .decapsulate env srcAddr datagram dst, t, r =>
    if datagram.isEmpty then 0
    else
      match (RateLimiter.verifyPacket B srcAddr datagram (List.replicate cookieReplySz 0)
          env.now).run t.rateLimiter with
      | .ok packet _ => Tunn.receivedBytes B env packet dst t.handshake r
      | .error _ _ => 0
  | .handleVerifiedPacket env packet dst, t, r => Tunn.receivedBytes B env packet dst t.handshake r
  | _, _, _ => 0

/-- `t'` has the counters of `t` with `sent` bytes more sent and `received` more
received. -/
def Books (t : Tunn) (sent received : Nat) (t' : Tunn) : Prop :=
  t'.txBytes = t.txBytes + UInt64.ofNat sent ∧ t'.rxBytes = t.rxBytes + UInt64.ofNat received

theorem books_refl (t : Tunn) : Books t 0 0 t := by
  simp [Books]

theorem Books.trans {t₁ t₂ t₃ : Tunn} {a b c d : Nat} (h₁ : Books t₁ a b t₂)
    (h₂ : Books t₂ c d t₃) : Books t₁ (a + c) (b + d) t₃ := by
  obtain ⟨htx₁, hrx₁⟩ := h₁
  obtain ⟨htx₂, hrx₂⟩ := h₂
  simp only [Books, htx₂, htx₁, hrx₂, hrx₁, UInt64.ofNat_add, add_assoc]
  exact ⟨trivial, trivial⟩

/-- A tunnel with the same counters keeps the books of the first. -/
theorem Books.of_same {t t₁ t' : Tunn} {a b : Nat} (htx : t₁.txBytes = t.txBytes)
    (hrx : t₁.rxBytes = t.rxBytes) (h : Books t₁ a b t') : Books t a b t' := by
  rw [Books, ← htx, ← hrx]
  exact h

section Specs

variable {B : Backend} {env : CallEnv}

/-- A method of the handshake counts nothing, however it ends. -/
theorem onHandshake_books {α : Type} (m : EStateM (Fault WireGuardError) Handshake α) (t : Tunn) :
    Keeps (Books t 0 0) (onHandshake m) t :=
  keeps_focus fun _ => books_refl t

/-- Nor does a method of a session in the ring. -/
theorem onSession_books {α : Type} (i : Fin 8) (s : Session)
    (m : EStateM (Fault WireGuardError) Session α) (t : Tunn) :
    Keeps (Books t 0 0) (onSession i s m) t :=
  keeps_focus fun _ => books_refl t

/-- What counts nothing counts nothing when caught. -/
theorem attempt_books {α : Type} {m : EStateM (Fault WireGuardError) Tunn α} {t : Tunn}
    (h : Keeps (Books t 0 0) m t) :
    Triple (fun _ t' => Books t 0 0 t') (fun _ _ => True)
      (attempt m : EStateM (Fault WireGuardError) Tunn (Except WireGuardError α)) t :=
  h.attempt.mono (fun _ _ h => h) fun _ _ _ => trivial

/-- An initiation counts what it sends. -/
theorem formatHandshakeInitiation_books (t : Tunn) (dst : List UInt8) (forceResend : Bool) :
    Triple (fun r t' => Books t r.sentBytes 0 t') (fun _ _ => True)
      (formatHandshakeInitiation B env dst forceResend) t := by
  unfold formatHandshakeInitiation
  apply triple_get_bind
  split
  · exact triple_pure (books_refl t)
  -- an expired handshake clears the timers first; both paths go on alike
  split
  on_goal 1 => apply triple_set_bind
  all_goals
    refine triple_bind (attempt_books (onHandshake_books _ _)) fun r t₁ _ hb => ?_
    obtain ⟨htx, hrx⟩ := hb
    cases r with
    | error e => exact triple_pure ⟨htx, hrx⟩
    | ok packet =>
      dsimp only
      split
      · exact triple_modify_bind (triple_modify_bind (triple_pure (by
          simp [Books, TunnResult.sentBytes, htx, hrx])))
      · exact triple_modify_bind (triple_pure (by simp [Books, TunnResult.sentBytes, htx, hrx]))

/-- A data message counts what it sends; without a session, the initiation it
starts does. -/
theorem encapsulateInPlace_books (t : Tunn) (srcLen : Nat) (dst : List UInt8) :
    Triple (fun r t' => Books t r.sentBytes 0 t') (fun _ _ => True)
      (encapsulateInPlace B env srcLen dst) t := by
  unfold encapsulateInPlace
  apply triple_get_bind
  cases hs : t.sessions[slot t.current] with
  | some session =>
    simp only [hs]
    refine triple_bind (attempt_books (onSession_books _ session _ t)) fun r t₁ _ hb => ?_
    obtain ⟨htx, hrx⟩ := hb
    cases r with
    | error e => exact triple_pure ⟨htx, hrx⟩
    | ok packet =>
      refine triple_modify_bind ?_
      -- keepalives are not data sent, for the timers only
      split
      · exact triple_modify_bind (triple_modify_bind (triple_pure (by
          simp [Books, TunnResult.sentBytes, htx, hrx])))
      · exact triple_modify_bind (triple_pure (by simp [Books, TunnResult.sentBytes, htx, hrx]))
  | none =>
    simp only [hs]
    split
    · split
      · refine triple_modify_bind ((formatHandshakeInitiation_books _ dst false).mono
          (fun r t' h => Books.of_same (by simp) (by simp) h) fun _ _ _ => trivial)
      · exact triple_pure (books_refl t)
    · exact formatHandshakeInitiation_books t dst false

theorem encapsulate_books (t : Tunn) (src dst : List UInt8) :
    Triple (fun r t' => Books t r.sentBytes 0 t') (fun _ _ => True)
      (encapsulate B env src dst) t :=
  triple_encapsulate src dst (fun _ => books_refl t) fun _ => encapsulateInPlace_books t _ _

/-- A flush counts what encapsulating the head of the queue sends. -/
theorem sendQueuedPacket_books (t : Tunn) (dst : List UInt8) :
    Triple (fun r t' => Books t r.sentBytes 0 t') (fun _ _ => True)
      (sendQueuedPacket B env dst) t := by
  unfold sendQueuedPacket
  cases hq : t.packetQueue with
  | nil =>
    have hrun : (dequeuePacket : EStateM (Fault WireGuardError) Tunn _).run t = .ok none t := by
      simp [dequeuePacket, EStateM.run_bind, EStateM.run_get, hq]
    refine triple_bind (triple_of_ok (Q := fun x t₁ => x = none ∧ t₁ = t) hrun ⟨rfl, rfl⟩) ?_
    rintro _ _ _ ⟨rfl, rfl⟩
    exact triple_pure (books_refl _)
  | cons p rest =>
    have hrun : (dequeuePacket : EStateM (Fault WireGuardError) Tunn _).run t =
        .ok (some p) { t with packetQueue := rest } := by
      simp [dequeuePacket, EStateM.run_bind, EStateM.run_get, hq, EStateM.run_set, -bind_pure_comp]
    refine triple_bind (triple_of_ok (Q := fun x t₁ => x = some p ∧
      t₁ = { t with packetQueue := rest }) hrun ⟨rfl, rfl⟩) ?_
    rintro _ _ _ ⟨rfl, rfl⟩
    refine triple_bind (encapsulate_books _ p dst) fun r t₁ _ hb => ?_
    obtain ⟨htx, hrx⟩ := hb
    cases r
    case err e =>
      -- a packet that fails goes back to the queue, and nothing was sent
      exact triple_modify_bind (triple_pure (by simp_all [Books, TunnResult.sentBytes]))
    all_goals exact triple_pure ⟨htx, hrx⟩

/-- The books of a verified packet handled from `t`: what its result sends, and
what `receivedBytes` counts for it. -/
def HandledBooks (B : Backend) (env : CallEnv) (packet : Packet) (dst : List UInt8) (t : Tunn)
    (r : TunnResult) (t' : Tunn) : Prop :=
  Books t r.sentBytes (receivedBytes B env packet dst t.handshake r) t'

/-- The specification of a handler: the books of its result, and those of the error
value it ends with, which `handle_verified_packet` returns. -/
abbrev HandlerBooks (B : Backend) (env : CallEnv) (packet : Packet) (dst : List UInt8)
    (m : EStateM (Fault WireGuardError) Tunn TunnResult) (t : Tunn) : Prop :=
  Triple (HandledBooks B env packet dst t)
    (fun f t' => ∀ e, f = .err e → HandledBooks B env packet dst t (.err e) t') m t

theorem handleHandshakeInit_books (t : Tunn) (p : HandshakeInit) (dst : List UInt8) :
    HandlerBooks B env (.handshakeInit p) dst (handleHandshakeInit B env p dst) t := by
  unfold HandlerBooks Triple
  cases hrecv : (Handshake.receiveHandshakeInitialization B env.ephemeralPrivate p dst).run
    t.handshake with
  | ok v h' =>
    simp [handleHandshakeInit, EStateM.run_bind, onHandshake, hrecv, HandledBooks, Books,
      receivedBytes, returned, TunnResult.sentBytes, -bind_pure_comp]
  | error f h' =>
    simp [handleHandshakeInit, EStateM.run_bind, onHandshake, hrecv, HandledBooks, Books,
      receivedBytes, returned, TunnResult.sentBytes, -bind_pure_comp]

theorem handleHandshakeResponse_books (t : Tunn) (p : HandshakeResponse) (dst : List UInt8) :
    HandlerBooks B env (.handshakeResponse p) dst (handleHandshakeResponse B env p dst) t := by
  unfold HandlerBooks Triple
  cases hrecv : (Handshake.receiveHandshakeResponse B p env.now).run t.handshake with
  | ok session h' =>
    -- the response's bytes are counted before the keepalive is formatted
    cases hfmt : (Session.formatPacketData B 0 dst).run session with
    | ok v s' =>
      simp [handleHandshakeResponse, EStateM.run_bind, onHandshake, hrecv, hfmt, HandledBooks,
        Books, receivedBytes, returned, TunnResult.sentBytes, -bind_pure_comp]
    | error f s' =>
      simp [handleHandshakeResponse, EStateM.run_bind, onHandshake, hrecv, hfmt, HandledBooks,
        Books, receivedBytes, returned, TunnResult.sentBytes, -bind_pure_comp]
  | error f h' =>
    simp [handleHandshakeResponse, EStateM.run_bind, onHandshake, hrecv, HandledBooks, Books,
      receivedBytes, returned, TunnResult.sentBytes, -bind_pure_comp]

theorem handleCookieReply_books (t : Tunn) (p : PacketCookieReply) (dst : List UInt8) :
    HandlerBooks B env (.packetCookieReply p) dst (handleCookieReply B p) t := by
  unfold HandlerBooks Triple
  cases hrecv : (Handshake.receiveCookieReply B p).run t.handshake with
  | ok v h' =>
    simp [handleCookieReply, EStateM.run_bind, onHandshake, hrecv, HandledBooks, Books,
      receivedBytes, returned, TunnResult.sentBytes, -bind_pure_comp]
  | error f h' =>
    simp [handleCookieReply, EStateM.run_bind, onHandshake, hrecv, HandledBooks, Books,
      receivedBytes, returned, TunnResult.sentBytes, -bind_pure_comp]

/-- What reaches the tunnel interface is counted at the length of its message. -/
theorem validateDecapsulatedPacket_books (t : Tunn) (packet : List UInt8) :
    Triple (fun r t' => Books t r.sentBytes (dataBytes r) t') (fun _ t' => Books t 0 0 t')
      (validateDecapsulatedPacket packet) t := by
  unfold validateDecapsulatedPacket
  split
  · exact triple_modify_bind (triple_pure (by simp [Books, dataBytes, TunnResult.sentBytes]))
  refine triple_liftExcept_bind (fun _ _ => books_refl t) fun header _ => ?_
  rcases header with _ | ⟨computedLen, srcIpAddress⟩
  · exact triple_pure (books_refl t)
  · dsimp only
    split
    · rename_i data hdata
      -- the packet is cut to the length its header gives
      have hlen : data.length = computedLen := by simpa using length_of_getRange hdata
      exact triple_modify_bind (triple_pure (by simp [Books, dataBytes, TunnResult.sentBytes, hlen]))
    · exact triple_pure (books_refl t)

theorem handleData_books (t : Tunn) (packet : PacketData) (dst : List UInt8) :
    HandlerBooks B env (.packetData packet) dst (handleData B packet dst) t := by
  unfold HandlerBooks handleData
  apply triple_get_bind
  cases hs : t.sessions[slot packet.receiverIdx.toNat] with
  | none => exact triple_throw fun e he => by cases he; exact books_refl t
  | some session =>
    refine triple_bind ((onSession_books _ session _ t).mono (fun _ _ h => h)
      fun _ _ h _ _ => h) fun decapsulated t₁ _ hb => ?_
    refine triple_modify_bind ((validateDecapsulatedPacket_books _ decapsulated).mono
      (fun r t' h => ?_) fun f t' h e _ => ?_)
    · simpa [HandledBooks, receivedBytes] using hb.trans (Books.of_same (by simp) (by simp) h)
    · simpa [HandledBooks, receivedBytes, dataBytes, TunnResult.sentBytes] using
        hb.trans (Books.of_same (by simp) (by simp) h)

/-- A verified packet counts what its handler sends and what `receivedBytes` counts,
the error values of the handler included. -/
theorem handleVerifiedPacket_books (t : Tunn) (packet : Packet) (dst : List UInt8) :
    Triple (HandledBooks B env packet dst t) (fun _ _ => True)
      (handleVerifiedPacket B env packet dst) t := by
  unfold handleVerifiedPacket
  -- each handler meets its specification; what is caught is returned as it is
  have hcaught : ∀ m, HandlerBooks B env packet dst m t →
      Triple (fun x t' => (∀ r, x = .ok r → HandledBooks B env packet dst t r t') ∧
          ∀ e, x = .error e → HandledBooks B env packet dst t (.err e) t')
        (fun _ _ => True) (attempt m : EStateM (Fault WireGuardError) Tunn _) t := by
    intro m hm
    refine triple_attempt (hm.mono (fun r t' h => ⟨fun _ hr => (by cases hr; exact h),
      fun _ he => (by cases he)⟩) fun f t' hf => ?_)
    cases f with
    | err e => exact ⟨fun _ hr => (by cases hr), fun _ he => (by cases he; exact hf e rfl)⟩
    | panic => trivial
    | diverge => trivial
  cases packet
  case handshakeInit p =>
    refine triple_bind (hcaught _ (handleHandshakeInit_books t p dst)) fun x t' _ hx => ?_
    cases x
    · exact triple_pure (hx.2 _ rfl)
    · exact triple_pure (hx.1 _ rfl)
  case handshakeResponse p =>
    refine triple_bind (hcaught _ (handleHandshakeResponse_books t p dst)) fun x t' _ hx => ?_
    cases x
    · exact triple_pure (hx.2 _ rfl)
    · exact triple_pure (hx.1 _ rfl)
  case packetCookieReply p =>
    refine triple_bind (hcaught _ (handleCookieReply_books t p dst)) fun x t' _ hx => ?_
    cases x
    · exact triple_pure (hx.2 _ rfl)
    · exact triple_pure (hx.1 _ rfl)
  case packetData p =>
    refine triple_bind (hcaught _ (handleData_books t p dst)) fun x t' _ hx => ?_
    cases x
    · exact triple_pure (hx.2 _ rfl)
    · exact triple_pure (hx.1 _ rfl)

/-- A datagram counts what its answer sends, and what `receivedBytes` counts for the
packet the rate limiter lets through; a cookie reply is sent whole. -/
theorem decapsulate_books (t : Tunn) (srcAddr : Option IpAddr) (datagram dst : List UInt8) :
    Triple (fun r t' => Books t r.sentBytes
        ((Call.decapsulate env srcAddr datagram dst).receivedBytes B t r) t')
      (fun _ _ => True) (decapsulate B env srcAddr datagram dst) t := by
  by_cases hempty : datagram.isEmpty = true
  · -- an empty datagram flushes the queue
    have hrun : (decapsulate B env srcAddr datagram dst).run t =
        (sendQueuedPacket B env dst).run t := by
      simp [decapsulate, hempty, -bind_pure_comp]
    rw [triple_congr hrun]
    simpa [Call.receivedBytes, hempty] using sendQueuedPacket_books t dst
  have hne : datagram.isEmpty = false := by simpa using hempty
  cases hv : (RateLimiter.verifyPacket B srcAddr datagram (List.replicate cookieReplySz 0)
      env.now).run t.rateLimiter with
  | ok packet r₁ =>
    -- the limiter lets the packet through to its handler
    have hrun : (decapsulate B env srcAddr datagram dst).run t =
        (handleVerifiedPacket B env packet dst).run { t with rateLimiter := r₁ } := by
      simp [decapsulate, hne, EStateM.run_bind, hv, -bind_pure_comp]
    rw [triple_congr hrun]
    refine (handleVerifiedPacket_books _ packet dst).mono (fun r t' h => ?_) fun _ _ _ => trivial
    simpa [Call.receivedBytes, hne, hv, HandledBooks, Books] using h
  | error f r₁ =>
    -- a datagram the limiter stops counts nothing received
    have hrec : (Call.decapsulate env srcAddr datagram dst).receivedBytes B t = fun _ => 0 := by
      funext r
      simp [Call.receivedBytes, hne, hv]
    unfold Triple
    rcases f with (_ | e | cookie | _) | _ | _
    all_goals simp only [decapsulate, hne, EStateM.run_bind, hv, hrec, run_focus, run_attempt,
      Bool.false_eq_true, if_false]
    case err.err =>
      exact books_refl t
    case err.writeToNetwork =>
      -- the cookie reply is copied to the front of `dst` and sent whole
      have hfront : getRange (cookie ++ dst.drop cookie.length) 0 cookie.length = some cookie := by
        rw [getRange_append_left (Nat.zero_le _) le_rfl, getRange_self rfl]
      cases hd : getRange dst 0 cookie.length with
      | none => exact books_refl t
      | some d =>
        have hlen : d.length = cookie.length := by simpa using length_of_getRange hd
        simp [EStateM.run_bind, copyFromSlice_of_length hlen, hfront, Books, TunnResult.sentBytes,
          -bind_pure_comp]
    all_goals trivial

end Specs

section Timers

variable {tx rx : UInt64}

/-- The counters are `tx` and `rx`. -/
def HasCounters (tx rx : UInt64) (t : Tunn) : Prop := t.txBytes = tx ∧ t.rxBytes = rx

theorem giveUp_counters (instant persistentKeepalive : Nat) {t : Tunn} (h : HasCounters tx rx t) :
    Keeps (HasCounters tx rx) (giveUp instant persistentKeepalive) t := by
  unfold giveUp
  refine triple_modify_bind ?_
  split
  · exact triple_pure (by simpa [clearAll, HasCounters] using h)
  · exact triple_modify_bind (triple_throw (by simpa [clearAll, HasCounters] using h))

theorem retransmit_counters (instant : Nat) (r : Readings) (timeInitSent : Nat) (initiate : Bool)
    {t : Tunn} (h : HasCounters tx rx t) :
    Keeps (HasCounters tx rx) (retransmit instant r timeInitSent initiate) t := by
  unfold retransmit
  split
  · exact triple_bind (giveUp_counters instant _ h) fun _ _ _ h₁ => triple_pure h₁
  · exact triple_pure h

theorem rekeyOrKeepalive_counters (instant : Nat) (r : Readings) (initiate : Bool) {t : Tunn}
    (h : HasCounters tx rx t) :
    Keeps (HasCounters tx rx) (rekeyOrKeepalive instant r initiate) t := by
  unfold rekeyOrKeepalive
  apply triple_get_bind
  dsimp only
  simp only [pure_bind]
  split
  · -- a handshake is wanted: the flag is cleared, and nothing else is written
    refine triple_set_bind ?_
    rw [if_pos trivial]
    exact triple_pure (by simpa [HasCounters] using h)
  split
  · exact triple_pure h
  -- the keepalive flag is read and cleared; then a persistent keepalive may be due
  split
  · apply triple_get_bind
    refine triple_set_bind ?_
    apply triple_get_bind
    split
    · exact triple_set_bind (triple_pure (by simpa [HasCounters] using h))
    · exact triple_pure (by simpa [HasCounters] using h)
  · apply triple_get_bind
    split
    · exact triple_set_bind (triple_pure (by simpa [HasCounters] using h))
    · exact triple_pure h

/-- The braced block of `update_timers` counts nothing. -/
theorem timerBlock_counters (instant : Nat) {t : Tunn} (h : HasCounters tx rx t) :
    Keeps (HasCounters tx rx) (timerBlock instant) t := by
  unfold timerBlock
  apply triple_get_bind
  split
  · exact triple_throw h
  refine triple_set_bind ?_
  have h₁ : HasCounters tx rx (t.expireCookie (t.readings instant).now) := by
    simpa [HasCounters] using h
  dsimp only
  split
  on_goal 1 => refine triple_bind (giveUp_counters instant _ h₁) fun initiate t₂ _ h₂ => ?_
  on_goal 2 => simp only [pure_bind]
  -- after giving up or not, the block retransmits or rekeys from a tunnel with the counters
  all_goals
    apply triple_get_bind
    split
    · exact triple_bind (retransmit_counters instant _ _ _ (by assumption)) fun _ _ _ h₃ =>
        triple_pure h₃
    · exact rekeyOrKeepalive_counters instant _ _ (by assumption)

end Timers

section Calls

variable {B : Backend} {env : CallEnv}

/-- `update_timers` counts what the initiation or the keepalive it sends. -/
theorem updateTimers_books (t : Tunn) (dst : List UInt8) :
    Triple (fun r t' => Books t r.sentBytes 0 t') (fun _ _ => True) (updateTimers B env dst) t := by
  unfold updateTimers
  refine triple_modify_bind ?_
  have h₀ : HasCounters t.txBytes t.rxBytes (t.tickClock env.now) := by simp [HasCounters]
  refine triple_bind (R := fun _ => HasCounters t.txBytes t.rxBytes)
    ((timerBlock_counters env.now h₀).attempt.mono (fun _ _ h => h) fun _ _ _ => trivial)
    fun x t₁ _ h₁ => ?_
  obtain ⟨htx, hrx⟩ := h₁
  cases x with
  | error e => exact triple_pure (by simp [Books, TunnResult.sentBytes, htx, hrx])
  | ok v =>
    obtain ⟨initiate, keepalive⟩ := v
    dsimp only
    split
    · exact (formatHandshakeInitiation_books t₁ dst true).mono
        (fun r t' hb => Books.of_same htx hrx hb) fun _ _ _ => trivial
    · split
      · exact (encapsulate_books t₁ [] dst).mono
          (fun r t' hb => Books.of_same htx hrx hb) fun _ _ _ => trivial
      · exact triple_pure (by simp [Books, TunnResult.sentBytes, htx, hrx])

theorem setStaticPrivate_counters (staticPrivate staticPublic : Key)
    (rateLimiter : Option RateLimiter) (secretKey : Vector UInt8 16) (nonceKey : Key) (now : Nat)
    {tx rx : UInt64} {t : Tunn} (h : HasCounters tx rx t) :
    Keeps (HasCounters tx rx)
      (setStaticPrivate B staticPrivate staticPublic rateLimiter secretKey nonceKey now) t := by
  unfold setStaticPrivate onHandshake
  refine triple_modify_bind (triple_bind (keeps_focus fun _ => ?_) fun _ t₂ _ h₂ =>
    triple_modify (by simpa [HasCounters] using h₂))
  simpa [HasCounters] using h

/-- Every call counts what it sends and what `Call.receivedBytes` counts for it. -/
theorem Call.run_books (c : Call) (t : Tunn) :
    Triple (fun r t' => Books t r.sentBytes (c.receivedBytes B t r) t') (fun _ _ => True)
      (c.run B) t := by
  cases c with
  | encapsulate env src dst => exact encapsulate_books t src dst
  | encapsulateInPlace env srcLen dst => exact encapsulateInPlace_books t srcLen dst
  | decapsulate env srcAddr datagram dst => exact decapsulate_books t srcAddr datagram dst
  | handleVerifiedPacket env packet dst => exact handleVerifiedPacket_books t packet dst
  | formatHandshakeInitiation env dst forceResend =>
    exact formatHandshakeInitiation_books t dst forceResend
  | updateTimers env dst => exact updateTimers_books t dst
  | setStaticPrivate staticPrivate staticPublic rateLimiter secretKey nonceKey now =>
    have h₀ : HasCounters t.txBytes t.rxBytes t := ⟨rfl, rfl⟩
    refine triple_bind (R := fun _ => HasCounters t.txBytes t.rxBytes)
      ((setStaticPrivate_counters staticPrivate staticPublic rateLimiter secretKey nonceKey now
        h₀).attempt.mono (fun _ _ h => h) fun _ _ _ => trivial) fun x t₁ _ h₁ => ?_
    obtain ⟨htx, hrx⟩ := h₁
    cases x with
    | ok u => exact triple_pure (by simp [Books, TunnResult.sentBytes, Call.receivedBytes, htx, hrx])
    | error e =>
      exact triple_pure (by simp [Books, TunnResult.sentBytes, Call.receivedBytes, htx, hrx])
  | setPresharedKey presharedKey =>
    exact triple_modify_bind (triple_pure (by
      simp [Books, Tunn.setPresharedKey, TunnResult.sentBytes, Call.receivedBytes]))
  | setPersistentKeepalive keepalive =>
    exact triple_modify_bind (triple_pure (by
      simp [Books, Tunn.setPersistentKeepalive, TunnResult.sentBytes, Call.receivedBytes]))

end Calls

/-- Over every run of calls that all return, the bytes sent grow by the lengths of
the buffers returned in `WriteToNetwork`, and the bytes received by what
`Call.receivedBytes` counts for each call, both in `u64`. -/
theorem byte_accounting {B : Backend} (calls : List Call) (t : Tunn)
    (hret : ∀ x ∈ runCalls (Call.run B) calls t, returned x = true) :
    (afterCalls (Call.run B) calls t).txBytes =
        t.txBytes + sumCalls (Call.run B) (fun _ _ r => UInt64.ofNat r.sentBytes) calls t ∧
      (afterCalls (Call.run B) calls t).rxBytes =
        t.rxBytes + sumCalls (Call.run B) (fun c s r => UInt64.ofNat (c.receivedBytes B s r)) calls t :=
  ⟨afterCalls_ledger (·.txBytes) _
      (fun c s => (c.run_books s).mono (fun _ _ h => h.1) fun _ _ _ => trivial) calls t hret,
    afterCalls_ledger (·.rxBytes) _
      (fun c s => (c.run_books s).mono (fun _ _ h => h.2) fun _ _ _ => trivial) calls t hret⟩

/-- A new tunnel sends an initiation, then resends one: every call returns, and
each counts the initiation it sends. -/
theorem byte_accounting_initiations :
    ∃ t, Tunn.new Backend.plain (.replicate 32 1) (.replicate 32 2) none none 0 none 0 0
        (.replicate 16 0) (.replicate 32 0) = .ok t ∧
      let calls := [Call.formatHandshakeInitiation ⟨0, .replicate 32 3⟩ (.replicate 148 0) false,
        Call.formatHandshakeInitiation ⟨1, .replicate 32 4⟩ (.replicate 148 0) true]
      (∀ x ∈ runCalls (Call.run Backend.plain) calls t, returned x = true) ∧
      (afterCalls (Call.run Backend.plain) calls t).txBytes =
          t.txBytes + sumCalls (Call.run Backend.plain) (fun _ _ r => UInt64.ofNat r.sentBytes)
            calls t ∧
        (afterCalls (Call.run Backend.plain) calls t).rxBytes =
          t.rxBytes + sumCalls (Call.run Backend.plain)
            (fun c s r => UInt64.ofNat (c.receivedBytes Backend.plain s r)) calls t := by
  obtain ⟨t, hnew, hfresh⟩ := new_fresh Backend.plain (.replicate 32 1) (.replicate 32 2) none none
    0 none 0 0 (.replicate 16 0) (.replicate 32 0)
  have hdst : handshakeInitSz ≤ (List.replicate 148 (0 : UInt8)).length := by
    simp [handshakeInitSz]
  obtain ⟨ts, hts⟩ : ∃ ts, t.handshake.stamper.stamp 0 = .ok ts := by
    rw [stamper_of_new hnew]
    exact ⟨_, rfl⟩
  -- the first call starts a handshake, the second resends from the same stamper
  obtain ⟨m₁, t₁, hrun₁, -, ⟨s₁, hs₁⟩, hst₁, -⟩ :=
    formatHandshakeInitiation_sends plain_lawful ⟨0, .replicate 32 3⟩ false
      (by simp [Handshake.isInProgress, hfresh.state]) (by simp [Handshake.isExpired, hfresh.state])
      hdst hts
  obtain ⟨ts₁, hts₁⟩ : ∃ ts, t₁.handshake.stamper.stamp 1 = .ok ts := by
    rw [hst₁, stamper_of_new hnew]
    exact ⟨_, rfl⟩
  obtain ⟨m₂, t₂, hrun₂, -⟩ :=
    formatHandshakeInitiation_sends plain_lawful ⟨1, .replicate 32 4⟩ true
      (by simp) (by simp [Handshake.isExpired, hs₁]) hdst hts₁
  have hret : ∀ x ∈ runCalls (Call.run Backend.plain)
      [Call.formatHandshakeInitiation ⟨0, .replicate 32 3⟩ (.replicate 148 0) false,
        Call.formatHandshakeInitiation ⟨1, .replicate 32 4⟩ (.replicate 148 0) true] t,
      returned x = true := by
    simp only [runCalls, Call.run, hrun₁, stateOf_ok, hrun₂, List.mem_cons, List.not_mem_nil,
      or_false]
    rintro x (rfl | rfl) <;> rfl
  exact ⟨t, hnew, hret, byte_accounting _ t hret⟩

end Tunn

end Neptun.Noise
