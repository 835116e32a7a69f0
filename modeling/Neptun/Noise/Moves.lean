import Neptun.Noise.Methods
import Neptun.Noise.Responder

/-! What a call does to the parts of a tunnel that outlive it: the handshake, the
ring of sessions and the queue of packets. Every call of `Call` is a chain of
moves: a call of the handshake machine of `Noise.Slots`; a new session installed
at the slot of its index; a session of the ring written back by one of its methods,
with its index; sessions dropped; a packet queued at the back or put back at the
head while the queue has room, one taken from the head, or all of them dropped;
and updates of the other fields. The invariants of the tunnel over its runs are
then each a case analysis of one move, and the handshake inside a tunnel moves
only as the handshake machine does on its own. -/
namespace Neptun.Noise

open Lib

/-! ### What a method of a session ends in -/

namespace ReceivingKeyCounterValidator

/-- Marking a counter fails with an error value, or with a clearing loop that does
not exit; it never panics. -/
theorem markDidReceive_raises (counter : UInt64) (v : ReceivingKeyCounterValidator) :
    Raises (fun _ => True) (markDidReceive counter) v := by
  unfold markDidReceive
  apply triple_get_bind
  dsimp only
  split
  · exact triple_throw_bind (benign_err trivial)
  split
  · exact triple_set trivial
  split
  · split
    · exact triple_throw_bind (benign_err trivial)
    · exact triple_set trivial
  · split
    · exact triple_set trivial
    · exact triple_throw (benign_diverge _)

end ReceivingKeyCounterValidator

namespace Session

/-- Sealing a data message advances the sending counter, or fails before it on a
short buffer, or after it on a seal of another length; every split and copy is in
bounds. -/
theorem formatPacketData_spec (B : Backend) (payloadLen : Nat) (buf : List UInt8) (s : Session) :
    Triple (fun _ s' => s' = afterSend B s)
      (fun f s' => (f = .err .incorrectPacketLength ∧ s' = s) ∨
        (f = .err .invalidLength ∧ s' = afterSend B s))
      (formatPacketData B payloadLen buf) s := by
  unfold formatPacketData
  split
  · exact triple_throw_bind (.inl ⟨rfl, rfl⟩)
  rename_i hshort
  have hbuf : payloadLen + 32 ≤ buf.length := by simp [dataOverheadSz] at hshort; omega
  dsimp only
  apply triple_get_bind
  refine triple_set_bind ?_
  -- the buffer holds the header and the tag: every split and copy is in bounds
  simp only [splitAt_of_le (show 4 ≤ buf.length by omega), pure_bind,
    splitAt_of_le (show 4 ≤ (buf.drop 4).length by simp; omega),
    splitAt_of_le (show 8 ≤ ((buf.drop 4).drop 4).length by simp; omega)]
  have hdata : payloadLen + aeadSize ≤ (((buf.drop 4).drop 4).drop 8).length := by
    simp [aeadSize]; omega
  simp only [copyFromSlice_of_length (show (List.take 4 buf).length = (u32ToLe data).length by
      simp; omega),
    copyFromSlice_of_length (show (List.take 4 (buf.drop 4)).length = (u32ToLe s.sendingIndex).length by
      simp; omega),
    copyFromSlice_of_length (show (List.take 8 ((buf.drop 4).drop 4)).length =
      (u64ToLe (UInt64.ofNat s.sendingKeyCounter)).length by simp; omega),
    pure_bind, index_of_le (by omega : payloadLen ≤ payloadLen + aeadSize) hdata]
  have hpay : getRange (((buf.drop 4).drop 4).drop 8) 0 payloadLen =
      some ((((buf.drop 4).drop 4).drop 8).take payloadLen) := by
    rw [getRange_of_le (Nat.zero_le _) (by omega), List.drop_zero, Nat.sub_zero]
  simp only [hpay]
  rw [copyFromSlice_of_length (by simp [aeadSize]; omega), pure_bind]
  -- the message is cut from what was written; a seal of another length is an error value
  split
  · exact triple_pure rfl
  · exact triple_throw (.inr ⟨rfl, rfl⟩)

theorem receivingCounterMark_spec (counter : UInt64) (s : Session) :
    Triple (fun _ s' => ∃ v, s' = { s with receivingKeyCounter := v })
      (fun f s' => Benign (fun _ => True) f ∧ ∃ v, s' = { s with receivingKeyCounter := v })
      (receivingCounterMark counter) s := by
  unfold receivingCounterMark onValidator
  refine triple_focus (triple_bind ((ReceivingKeyCounterValidator.markDidReceive_raises counter _).mono
    (fun _ _ h => h) fun _ v h => ⟨h, v, rfl⟩) fun _ _ _ _ => triple_modify ⟨_, rfl⟩)

/-- Opening a data message writes the replay window alone, and never panics: the
plaintext is copied into `dst` only after its length is checked. -/
theorem receivePacketData_spec (B : Backend) (packet : PacketData) (dst : List UInt8) (s : Session) :
    Triple (fun _ s' => ∃ v, s' = { s with receivingKeyCounter := v })
      (fun f s' => Benign (fun _ => True) f ∧ ∃ v, s' = { s with receivingKeyCounter := v })
      (receivePacketData B packet dst) s := by
  have hs : ∃ v, s = { s with receivingKeyCounter := v } := ⟨s.receivingKeyCounter, rfl⟩
  unfold receivePacketData
  dsimp only
  split
  · exact triple_throw_bind ⟨benign_err trivial, hs⟩
  apply triple_get_bind
  split
  · exact triple_throw_bind ⟨benign_err trivial, hs⟩
  -- the index is the session's: the counter is checked before anything is written
  split
  · exact triple_throw_bind ⟨benign_err trivial, hs⟩
  split
  · rename_i slot hslot
    have hlen : slot.length = packet.encryptedEncapsulatedPacket.length := by
      simpa using length_of_getRange hslot
    refine triple_copyFromSlice_bind (fun h => absurd hlen h) fun _ => ?_
    split
    · exact triple_bind (receivingCounterMark_spec packet.counter s) fun _ _ _ h => triple_pure h
    · exact triple_throw ⟨benign_err trivial, hs⟩
  · exact triple_throw ⟨benign_err trivial, hs⟩

/-- Neither method changes the index the session is found by. -/
theorem formatPacketData_receivingIndex (B : Backend) (payloadLen : Nat) (buf : List UInt8)
    (s : Session) :
    Keeps (·.receivingIndex = s.receivingIndex) (formatPacketData B payloadLen buf) s :=
  (formatPacketData_spec B payloadLen buf s).mono (fun _ _ h => by rw [h]; rfl)
    fun _ _ h => by rcases h with ⟨-, rfl⟩ | ⟨-, rfl⟩ <;> rfl

theorem receivePacketData_receivingIndex (B : Backend) (packet : PacketData) (dst : List UInt8)
    (s : Session) :
    Keeps (·.receivingIndex = s.receivingIndex) (receivePacketData B packet dst) s :=
  (receivePacketData_spec B packet dst s).mono (fun _ _ ⟨_, h⟩ => by rw [h])
    fun _ _ ⟨_, _, h⟩ => by rw [h]

end Session

namespace Tunn

/-- One move of a tunnel. -/
inductive Move (B : Backend) (t : Tunn) : Tunn → Prop
  /-- a call of the handshake that returns or fails with an error value -/
  | handshake {h : Handshake} (hstep : Handshake.Step B t.handshake h) :
      Move B t { t with handshake := h }
  /-- a new session, at the slot of its index -/
  | install (s : Session) :
      Move B t { t with sessions := t.sessions.set (slot s.localIndex) (some s) (slot _).isLt }
  /-- a session of the ring, written back with its index -/
  | rewrite {i : Fin 8} {s : Session} (s' : Session) (hs : t.sessions[i] = some s)
      (hidx : s'.receivingIndex = s.receivingIndex) :
      Move B t { t with sessions := t.sessions.set i (some s') i.isLt }
  /-- some sessions dropped, the others left in their slots -/
  | drop {sessions : Vector (Option Session) 8}
      (hdrop : ∀ i : Fin 8, sessions[i] = none ∨ sessions[i] = t.sessions[i]) :
      Move B t { t with sessions := sessions }
  | enqueue (p : List UInt8) (hroom : t.packetQueue.length < maxQueueDepth) :
      Move B t { t with packetQueue := t.packetQueue ++ [p] }
  | requeue (p : List UInt8) (hroom : t.packetQueue.length < maxQueueDepth) :
      Move B t { t with packetQueue := p :: t.packetQueue }
  | dequeue {p : List UInt8} {rest : List (List UInt8)} (hq : t.packetQueue = p :: rest) :
      Move B t { t with packetQueue := rest }
  | flush : Move B t { t with packetQueue := [] }
  /-- an update of the other fields -/
  | frame {t' : Tunn} (hh : t'.handshake = t.handshake) (hs : t'.sessions = t.sessions)
      (hq : t'.packetQueue = t.packetQueue) : Move B t t'

section Frame

variable (t : Tunn)

@[simp] theorem handshake_addTx (n : Nat) : (t.addTx n).handshake = t.handshake := rfl
@[simp] theorem packetQueue_addTx (n : Nat) : (t.addTx n).packetQueue = t.packetQueue := rfl
@[simp] theorem handshake_addRx (n : Nat) : (t.addRx n).handshake = t.handshake := rfl
@[simp] theorem packetQueue_addRx (n : Nat) : (t.addRx n).packetQueue = t.packetQueue := rfl

@[simp] theorem handshake_timerTickSessionEstablished (isInitiator : Bool) (idx : Nat) :
    (t.timerTickSessionEstablished isInitiator idx).handshake = t.handshake := by
  simp [timerTickSessionEstablished]

@[simp] theorem packetQueue_timerTickSessionEstablished (isInitiator : Bool) (idx : Nat) :
    (t.timerTickSessionEstablished isInitiator idx).packetQueue = t.packetQueue := by
  simp [timerTickSessionEstablished]

@[simp] theorem handshake_setCurrentSession (idx : Nat) :
    (t.setCurrentSession idx).handshake = t.handshake := by
  unfold setCurrentSession
  split_ifs <;> rfl

@[simp] theorem packetQueue_setCurrentSession (idx : Nat) :
    (t.setCurrentSession idx).packetQueue = t.packetQueue := by
  unfold setCurrentSession
  split_ifs <;> rfl

end Frame

section Walk

variable {B : Backend} {env : CallEnv}

/-- An update of the fields other than the three. -/
theorem moves_frame {t t' : Tunn} (hh : t'.handshake = t.handshake) (hs : t'.sessions = t.sessions)
    (hq : t'.packetQueue = t.packetQueue) : Relation.ReflTransGen (Move B) t t' :=
  .single (.frame hh hs hq)

/-- A method of the handshake that ends where a call of the handshake machine does. -/
theorem onHandshake_moves {α : Type} {m : EStateM (Fault WireGuardError) Handshake α} {t : Tunn}
    (hm : ∀ h, EndsIn m t.handshake h → Handshake.Step B t.handshake h) :
    Steps (Move B) (onHandshake m) t := by
  unfold onHandshake Steps Resumes Triple
  rw [run_focus]
  cases hrun : m.run t.handshake with
  | ok a h => exact .single (.handshake (hm h (.inl ⟨a, hrun⟩)))
  | error f h =>
    rintro ⟨e, rfl⟩
    exact .single (.handshake (hm h (.inr ⟨e, hrun⟩)))

/-- A method of the session in slot `i` that keeps its index. -/
theorem onSession_moves {α : Type} {i : Fin 8} {s : Session} {t : Tunn}
    (hs : t.sessions[i] = some s) {m : EStateM (Fault WireGuardError) Session α}
    (hm : Keeps (·.receivingIndex = s.receivingIndex) m s) :
    Steps (Move B) (onSession i s m) t := by
  unfold onSession
  exact triple_focus (hm.mono (fun _ s' h => .single (.rewrite s' hs h))
    fun _ s' h _ => .single (.rewrite s' hs h))

/-- A new session, at the slot of its index however the index is reduced. -/
theorem moves_install {t : Tunn} (s : Session) {i : Fin 8} (hi : i = slot s.localIndex) :
    Relation.ReflTransGen (Move B) t { t with sessions := t.sessions.set i (some s) i.isLt } := by
  subst hi
  exact .single (.install s)

theorem moves_queuePacket (t : Tunn) (p : List UInt8) :
    Relation.ReflTransGen (Move B) t (t.queuePacket p) := by
  unfold queuePacket
  split
  · rename_i hroom
    exact .single (.enqueue p hroom)
  · exact .refl

theorem moves_requeuePacket (t : Tunn) (p : List UInt8) :
    Relation.ReflTransGen (Move B) t (t.requeuePacket p) := by
  unfold requeuePacket
  split
  · rename_i hroom
    exact .single (.requeue p hroom)
  · exact .refl

/-- A call of the handshake machine whose run is `m` followed by a return. -/
theorem handshake_step {α : Type} (c : Handshake.Call) {m : EStateM (Fault WireGuardError) Handshake α}
    {k : α → EStateM (Fault WireGuardError) Handshake Handshake.Reply}
    (hc : c.run B = m >>= k) (hk : ∀ a h, ∃ r, (k a).run h = .ok r h) {h h' : Handshake}
    (he : EndsIn m h h') : Handshake.Step B h h' :=
  ⟨c, hc ▸ he.bind_pure hk⟩

/-- A setter of the handshake is a call of the handshake machine. -/
theorem handshake_step_modify (c : Handshake.Call) {g : Handshake → Handshake}
    (hc : c.run B = (do modify g; pure ⟨none, none⟩)) (h : Handshake) :
    Handshake.Step B h (g h) :=
  ⟨c, .inl ⟨⟨none, none⟩, by rw [hc]; rfl⟩⟩

/-- The sessions dropped, the queue emptied, and the timers cleared. -/
theorem moves_clearAll (t : Tunn) (now : Nat) :
    Relation.ReflTransGen (Move B) t (t.clearAll now) := by
  have hdrop : Relation.ReflTransGen (Move B) t { t with sessions := .replicate 8 none } :=
    .single (.drop fun _ => .inl (by simp))
  exact (hdrop.tail .flush).tail (.frame rfl rfl rfl)

/-- The clock tick drops the sessions past `REJECT_AFTER_TIME` and writes timers. -/
theorem moves_tickClock (t : Tunn) (instant : Nat) :
    Relation.ReflTransGen (Move B) t (t.tickClock instant) := by
  have hframe : Relation.ReflTransGen (Move B) t { t.tickClock instant with sessions := t.sessions } :=
    moves_frame (by simp) rfl (by unfold tickClock updateSessionTimers; split <;> rfl)
  refine hframe.tail (.drop fun i => ?_)
  unfold tickClock updateSessionTimers
  split <;> simp only [getElem_vector_fin, Vector.getElem_ofFn] <;> split <;> simp

theorem moves_expireCookie (t : Tunn) (now : Nat) :
    Relation.ReflTransGen (Move B) t (t.expireCookie now) := by
  unfold expireCookie
  split
  · exact .single (.handshake (handshake_step_modify .clearCookie rfl _))
  · exact .refl

theorem formatHandshakeInitiation_moves (t : Tunn) (dst : List UInt8) (forceResend : Bool) :
    Steps (Move B) (formatHandshakeInitiation B env dst forceResend) t := by
  unfold formatHandshakeInitiation
  apply triple_get_bind
  split
  · exact steps_pure _ _
  -- an expired handshake clears the timers first; both paths go on alike
  split
  on_goal 1 => refine steps_set_bind (moves_frame rfl rfl rfl) ?_
  all_goals
    refine (Steps.attempt (onHandshake_moves fun h he =>
      handshake_step (.formatHandshakeInitiation _ _ _) rfl (fun _ _ => ⟨_, rfl⟩) he)).bind
      fun r t₁ _ => ?_
    cases r with
    | error e => exact steps_pure _ _
    | ok packet =>
      dsimp only
      split
      · exact steps_modify_bind (moves_frame (by simp) (by simp) (by simp))
          (steps_modify_bind (moves_frame (by simp) (by simp) (by simp)) (steps_pure _ _))
      · exact steps_modify_bind (moves_frame (by simp) (by simp) (by simp)) (steps_pure _ _)

theorem encapsulateInPlace_moves (t : Tunn) (srcLen : Nat) (dst : List UInt8) :
    Steps (Move B) (encapsulateInPlace B env srcLen dst) t := by
  unfold encapsulateInPlace
  apply triple_get_bind
  cases hs : t.sessions[slot t.current] with
  | some session =>
    simp only [hs]
    refine (Steps.attempt (onSession_moves hs
      (Session.formatPacketData_receivingIndex B srcLen dst session))).bind fun r t₁ _ => ?_
    cases r with
    | error e => exact steps_pure _ _
    | ok packet =>
      refine steps_modify_bind (moves_frame (by simp) (by simp) (by simp)) ?_
      split
      · exact steps_modify_bind (moves_frame (by simp) (by simp) (by simp))
          (steps_modify_bind (moves_frame rfl rfl rfl) (steps_pure _ _))
      · exact steps_modify_bind (moves_frame rfl rfl rfl) (steps_pure _ _)
  | none =>
    simp only [hs]
    split
    · split
      · exact steps_modify_bind (moves_queuePacket _ _) (formatHandshakeInitiation_moves _ dst false)
      · exact steps_pure _ _
    · exact formatHandshakeInitiation_moves t dst false

theorem encapsulate_moves (t : Tunn) (src dst : List UInt8) :
    Steps (Move B) (encapsulate B env src dst) t := by
  unfold encapsulate
  split
  · exact triple_copyFromSlice_bind (fun _ ⟨_, he⟩ => by cases he) fun _ =>
      encapsulateInPlace_moves t _ _
  · exact steps_pure _ _

theorem handleHandshakeInit_moves (t : Tunn) (p : HandshakeInit) (dst : List UInt8) :
    Steps (Move B) (handleHandshakeInit B env p dst) t := by
  unfold handleHandshakeInit
  refine (onHandshake_moves fun h he => handshake_step (.receiveHandshakeInitialization _ _ _) rfl
    (fun _ _ => ⟨_, rfl⟩) he).bind fun ⟨packet, session⟩ t₁ _ => ?_
  dsimp only
  -- the session goes to the slot of its index, and the timers are ticked
  refine steps_modify_bind (moves_frame rfl rfl rfl) (steps_modify_bind (moves_install session rfl) ?_)
  exact steps_modify_bind (moves_frame (by simp) (by simp) (by simp))
    (steps_modify_bind (moves_frame rfl rfl rfl) (steps_pure _ _))

theorem slot_mod (n : Nat) : slot (n % nSessions) = slot n := by
  ext
  simp [slot]

theorem handleHandshakeResponse_moves (t : Tunn) (p : HandshakeResponse) (dst : List UInt8) :
    Steps (Move B) (handleHandshakeResponse B env p dst) t := by
  unfold handleHandshakeResponse
  refine (onHandshake_moves fun h he => handshake_step (.receiveHandshakeResponse _ _) rfl
    (fun _ _ => ⟨_, rfl⟩) he).bind fun session t₁ _ => ?_
  refine steps_modify_bind (moves_frame rfl rfl rfl) ?_
  -- the keepalive is sealed by the new session before it is installed
  refine (steps_onLocal _ _ _).bind fun ⟨keepalive, session'⟩ t₂ _ => ?_
  dsimp only
  exact steps_modify_bind (moves_install session' (slot_mod _))
    (steps_modify_bind (moves_frame (by simp) (by simp) (by simp)) (steps_pure _ _))

theorem handleCookieReply_moves (t : Tunn) (p : PacketCookieReply) :
    Steps (Move B) (handleCookieReply B p) t := by
  unfold handleCookieReply
  exact (onHandshake_moves fun h he => handshake_step (.receiveCookieReply _) rfl
    (fun _ _ => ⟨_, rfl⟩) he).bind fun _ _ _ =>
      steps_modify_bind (moves_frame (by simp) (by simp) (by simp)) (steps_pure _ _)

theorem validateDecapsulatedPacket_moves (t : Tunn) (packet : List UInt8) :
    Steps (Move B) (validateDecapsulatedPacket packet) t := by
  unfold validateDecapsulatedPacket
  split
  · exact steps_modify_bind (moves_frame rfl rfl rfl) (steps_pure _ _)
  refine triple_liftExcept_bind (fun _ _ _ => .refl) fun header _ => ?_
  rcases header with _ | ⟨computedLen, srcIpAddress⟩
  · exact steps_pure _ _
  · dsimp only
    split
    · exact steps_modify_bind (moves_frame (by simp) (by simp) (by simp)) (steps_pure _ _)
    · exact steps_pure _ _

theorem handleData_moves (t : Tunn) (packet : PacketData) (dst : List UInt8) :
    Steps (Move B) (handleData B packet dst) t := by
  unfold handleData
  apply triple_get_bind
  cases hs : t.sessions[slot packet.receiverIdx.toNat] with
  | none => exact steps_throw _ _
  | some session =>
    refine (onSession_moves hs (Session.receivePacketData_receivingIndex B packet dst session)).bind
      fun decapsulated t₁ _ => ?_
    exact steps_modify_bind (moves_frame (by simp) (by simp) (by simp))
      (validateDecapsulatedPacket_moves _ _)

theorem handleVerifiedPacket_moves (t : Tunn) (packet : Packet) (dst : List UInt8) :
    Steps (Move B) (handleVerifiedPacket B env packet dst) t := by
  unfold handleVerifiedPacket
  -- what a handler returns or fails with is returned as it is
  cases packet
  case handshakeInit p =>
    exact (handleHandshakeInit_moves t p dst).attempt.bind fun r _ _ => by
      cases r <;> exact steps_pure _ _
  case handshakeResponse p =>
    exact (handleHandshakeResponse_moves t p dst).attempt.bind fun r _ _ => by
      cases r <;> exact steps_pure _ _
  case packetCookieReply p =>
    exact (handleCookieReply_moves t p).attempt.bind fun r _ _ => by
      cases r <;> exact steps_pure _ _
  case packetData p =>
    exact (handleData_moves t p dst).attempt.bind fun r _ _ => by
      cases r <;> exact steps_pure _ _

theorem dequeuePacket_moves (t : Tunn) :
    Steps (Move B) (dequeuePacket : EStateM (Fault WireGuardError) Tunn _) t := by
  unfold dequeuePacket
  apply triple_get_bind
  split
  · exact steps_pure _ _
  · rename_i p rest hq
    exact steps_set_bind (.single (.dequeue hq)) (steps_pure _ _)

theorem sendQueuedPacket_moves (t : Tunn) (dst : List UInt8) :
    Steps (Move B) (sendQueuedPacket B env dst) t := by
  unfold sendQueuedPacket
  refine (dequeuePacket_moves t).bind fun x t₁ _ => ?_
  cases x with
  | none => exact steps_pure _ _
  | some packet =>
    dsimp only
    refine (encapsulate_moves t₁ packet dst).bind fun r t₂ _ => ?_
    -- a packet that fails goes back to the head of the queue
    cases r
    case err e => exact steps_modify_bind (moves_requeuePacket _ _) (steps_pure _ _)
    all_goals exact steps_pure _ _

theorem decapsulate_moves (t : Tunn) (srcAddr : Option IpAddr) (datagram dst : List UInt8) :
    Steps (Move B) (decapsulate B env srcAddr datagram dst) t := by
  unfold decapsulate
  split
  · exact sendQueuedPacket_moves t dst
  -- the rate limiter writes its own field alone
  refine (steps_focus fun _ => moves_frame rfl rfl rfl).bind fun v t₁ _ => ?_
  rcases v with (_ | e | cookie | _) | packet
  · exact steps_throw _ _
  · exact steps_pure _ _
  · -- the cookie reply is copied to the front of `dst`
    dsimp only
    split
    · exact triple_copyFromSlice_bind (fun _ ⟨_, he⟩ => by cases he) fun _ =>
        steps_modify_bind (moves_frame rfl rfl rfl) (by split <;> exact steps_pure _ _)
    · exact steps_pure _ _
  · exact steps_throw _ _
  · exact handleVerifiedPacket_moves t₁ packet dst

theorem giveUp_moves (t : Tunn) (instant persistentKeepalive : Nat) :
    Steps (Move B) (giveUp instant persistentKeepalive) t := by
  unfold giveUp
  refine steps_modify_bind (moves_clearAll t instant) ?_
  split
  · exact steps_pure _ _
  · exact steps_modify_bind (.single (.handshake (handshake_step_modify .setExpired rfl _)))
      (steps_throw _ _)

theorem retransmit_moves (t : Tunn) (instant : Nat) (r : Readings) (timeInitSent : Nat)
    (initiate : Bool) : Steps (Move B) (retransmit instant r timeInitSent initiate) t := by
  unfold retransmit
  split
  · exact (giveUp_moves t instant _).bind fun _ _ _ => steps_pure _ _
  · exact steps_pure _ _

theorem rekeyOrKeepalive_moves (t : Tunn) (instant : Nat) (r : Readings) (initiate : Bool) :
    Steps (Move B) (rekeyOrKeepalive instant r initiate) t := by
  unfold rekeyOrKeepalive
  apply triple_get_bind
  dsimp only
  simp only [pure_bind]
  -- every write here is to the timers
  split
  · refine steps_set_bind (moves_frame rfl rfl rfl) ?_
    rw [if_pos trivial]
    exact steps_pure _ _
  split
  · exact steps_pure _ _
  split
  · apply triple_get_bind
    refine steps_set_bind (moves_frame rfl rfl rfl) ?_
    apply triple_get_bind
    split
    · exact steps_set_bind (moves_frame (by simp) (by simp) (by simp)) (steps_pure _ _)
    · exact steps_pure _ _
  · apply triple_get_bind
    split
    · exact steps_set_bind (moves_frame (by simp) (by simp) (by simp)) (steps_pure _ _)
    · exact steps_pure _ _

theorem timerBlock_moves (t : Tunn) (instant : Nat) :
    Steps (Move B) (timerBlock instant) t := by
  unfold timerBlock
  apply triple_get_bind
  split
  · exact steps_throw _ _
  refine steps_set_bind (moves_expireCookie t _) ?_
  dsimp only
  split
  on_goal 1 => refine (giveUp_moves _ instant _).bind fun initiate t₂ h₂ => ?_
  on_goal 2 => simp only [pure_bind]
  -- after giving up or not, the block retransmits or rekeys
  all_goals
    apply triple_get_bind
    split
    · exact (retransmit_moves _ instant _ _ _).bind fun _ _ _ => steps_pure _ _
    · exact rekeyOrKeepalive_moves _ instant _ _

theorem updateTimers_moves (t : Tunn) (dst : List UInt8) :
    Steps (Move B) (updateTimers B env dst) t := by
  unfold updateTimers
  refine steps_modify_bind (moves_tickClock t env.now) ?_
  refine (timerBlock_moves _ env.now).attempt.bind fun x t₁ _ => ?_
  cases x with
  | error e => exact steps_pure _ _
  | ok v =>
    obtain ⟨initiate, keepalive⟩ := v
    dsimp only
    split
    · exact formatHandshakeInitiation_moves t₁ dst true
    · split
      · exact encapsulate_moves t₁ [] dst
      · exact steps_pure _ _

theorem setStaticPrivate_moves (t : Tunn) (staticPrivate staticPublic : Key)
    (rateLimiter : Option RateLimiter) (secretKey : Vector UInt8 16) (nonceKey : Key) (now : Nat) :
    Steps (Move B)
      (setStaticPrivate B staticPrivate staticPublic rateLimiter secretKey nonceKey now) t := by
  unfold setStaticPrivate
  refine steps_modify_bind (moves_frame rfl rfl rfl) ?_
  refine (onHandshake_moves fun h he => handshake_step (.setStaticPrivate _ _) rfl
    (fun _ _ => ⟨_, rfl⟩) he).bind fun _ t₁ _ => ?_
  exact steps_modify_bind (.single (.drop fun _ => .inl (by simp))) (steps_pure _ _)

/-- Every call of the tunnel's owner is a chain of moves, wherever its caller goes on. -/
theorem Call.run_moves (c : Call) (t : Tunn) : Steps (Move B) (c.run B) t := by
  cases c with
  | encapsulate env src dst => exact encapsulate_moves t src dst
  | encapsulateInPlace env srcLen dst => exact encapsulateInPlace_moves t srcLen dst
  | decapsulate env srcAddr datagram dst => exact decapsulate_moves t srcAddr datagram dst
  | handleVerifiedPacket env packet dst => exact handleVerifiedPacket_moves t packet dst
  | formatHandshakeInitiation env dst forceResend =>
    exact formatHandshakeInitiation_moves t dst forceResend
  | updateTimers env dst => exact updateTimers_moves t dst
  | setStaticPrivate staticPrivate staticPublic rateLimiter secretKey nonceKey now =>
    exact (setStaticPrivate_moves t staticPrivate staticPublic rateLimiter secretKey nonceKey
      now).attempt.bind fun x _ _ => by cases x <;> exact steps_pure _ _
  | setPresharedKey presharedKey =>
    -- the handshake takes the key, and the sessions are dropped
    have hpsk : Relation.ReflTransGen (Move B) t (t.setPresharedKey presharedKey) :=
      (Relation.ReflTransGen.single (.handshake (handshake_step_modify (.setPresharedKey presharedKey)
        rfl t.handshake))).tail (.drop fun _ => .inl (by simp))
    exact steps_modify_bind hpsk (steps_pure _ _)
  | setPersistentKeepalive keepalive =>
    exact steps_modify_bind (moves_frame rfl rfl rfl) (steps_pure _ _)

end Walk

/-! ### Runs -/

/-- One call, after which its caller goes on with the tunnel. -/
def Step (B : Backend) (t t' : Tunn) : Prop := ∃ c : Call, EndsIn (c.run B) t t'

def Reachable (B : Backend) : Tunn → Tunn → Prop := Relation.ReflTransGen (Step B)

section Runs

variable {B : Backend} {t t' : Tunn}

theorem Reachable.moves (hr : Reachable B t t') : Relation.ReflTransGen (Move B) t t' :=
  reflTransGen_of_steps (fun c s => Call.run_moves c s) hr

/-- A move changes the handshake by a call of the handshake machine, or not at all. -/
theorem Move.handshake_reachable (hm : Move B t t') :
    Handshake.Reachable B t.handshake t'.handshake := by
  cases hm with
  | handshake hstep => exact .single hstep
  | frame hh _ _ =>
    rw [hh]
    exact .refl
  | _ => exact .refl

/-- Each session of the ring sits at the slot of its index. -/
def Slotted (t : Tunn) : Prop :=
  ∀ (i : Fin 8) (s : Session), t.sessions[i] = some s → slot s.localIndex = i

theorem Move.slotted (hm : Move B t t') (h : Slotted t) : Slotted t' := by
  cases hm with
  | install s =>
    intro i s' hs'
    by_cases hi : slot s.localIndex = i
    · subst hi
      simp at hs'
      rw [← hs']
    · simp [Fin.val_ne_of_ne hi] at hs'
      exact h i s' hs'
  | rewrite s' hs hidx =>
    rename_i i₀ s₀
    intro i s'' hs''
    by_cases hi : i₀ = i
    · subst hi
      simp at hs''
      rw [← hs'', ← h i₀ s₀ hs, Session.localIndex, Session.localIndex, hidx]
    · simp [Fin.val_ne_of_ne hi] at hs''
      exact h i s'' hs''
  | drop hdrop =>
    intro i s hs
    rcases hdrop i with h0 | h0
    · rw [h0] at hs
      cases hs
    · exact h i s (h0 ▸ hs)
  | frame _ hs _ =>
    intro i s hs'
    rw [hs] at hs'
    exact h i s hs'
  | _ => exact h

/-- The queue holds at most `MAX_QUEUE_DEPTH` packets. -/
def QueueBounded (t : Tunn) : Prop := t.packetQueue.length ≤ maxQueueDepth

theorem Move.queueBounded (hm : Move B t t') (h : QueueBounded t) : QueueBounded t' := by
  unfold QueueBounded at h ⊢
  cases hm with
  | enqueue p hroom => simp; omega
  | requeue p hroom => simp; omega
  | dequeue hq => rw [hq] at h; simp at h; dsimp only; omega
  | flush => simp
  | frame _ _ hq => rw [hq]; exact h
  | _ => exact h

theorem Slotted.reachable (h : Slotted t) (hr : Reachable B t t') : Slotted t' :=
  invariant_of_reflTransGen (fun _ _ hm hs => hm.slotted hs) hr.moves h

theorem QueueBounded.reachable (h : QueueBounded t) (hr : Reachable B t t') : QueueBounded t' :=
  invariant_of_reflTransGen (fun _ _ hm hq => hm.queueBounded hq) hr.moves h

/-- A run goes on with an initiation sent into a buffer of `HANDSHAKE_INIT_SZ`
bytes at an instant the stamper can stamp, while the handshake has not expired: the
initiation in the current slot moves to the previous one. -/
theorem Reachable.initiate (hB : B.Lawful) {t₀ : Tunn} (hr : Reachable B t₀ t) (env : CallEnv)
    {dst : List UInt8} (hexp : t.handshake.isExpired = false)
    (hdst : handshakeInitSz ≤ dst.length) {ts : Vector UInt8 12}
    (hts : t.handshake.stamper.stamp env.now = .ok ts) :
    ∃ t', Reachable B t₀ t' ∧ t'.handshake.previous = t.handshake.state ∧
      (∃ s, t'.handshake.state = .initSent s) ∧ t'.handshake.stamper = t.handshake.stamper := by
  obtain ⟨m, t', hrun, hprev, hst, hstamp, -⟩ :=
    formatHandshakeInitiation_sends hB env true (by simp) hexp hdst hts
  exact ⟨t', hr.tail ⟨.formatHandshakeInitiation env dst true, .inl ⟨_, hrun⟩⟩, hprev, hst, hstamp⟩

/-- A new tunnel that has sent an initiation and then a second one: its handshake
holds one in each slot. -/
theorem reachable_two_initiations :
    ∃ t₀ t, Tunn.new Backend.plain (.replicate 32 1) (.replicate 32 2) none none 0 none 0 0
        (.replicate 16 0) (.replicate 32 0) = .ok t₀ ∧ Reachable Backend.plain t₀ t ∧
      ∃ s s', t.handshake.state = .initSent s ∧ t.handshake.previous = .initSent s' := by
  obtain ⟨t₀, hnew, hfresh⟩ := new_fresh Backend.plain (.replicate 32 1) (.replicate 32 2) none none
    0 none 0 0 (.replicate 16 0) (.replicate 32 0)
  have hdst : handshakeInitSz ≤ (List.replicate 148 (0 : UInt8)).length := by
    simp [handshakeInitSz]
  obtain ⟨ts, hts⟩ : ∃ ts, t₀.handshake.stamper.stamp 0 = .ok ts := by
    rw [stamper_of_new hnew]
    exact ⟨_, rfl⟩
  obtain ⟨t₁, hr₁, -, ⟨s₁, hs₁⟩, hst₁⟩ := Reachable.initiate plain_lawful
    (.refl : Reachable _ t₀ t₀) ⟨0, .replicate 32 3⟩ (by simp [Handshake.isExpired, hfresh.state])
    hdst hts
  obtain ⟨t₂, hr₂, hp₂, ⟨s₂, hs₂⟩, -⟩ := hr₁.initiate plain_lawful ⟨0, .replicate 32 4⟩
    (by simp [Handshake.isExpired, hs₁]) hdst (hst₁ ▸ hts)
  exact ⟨t₀, t₂, hnew, hr₂, s₂, s₁, hs₂, hp₂.trans hs₁⟩

/-- Every run of a tunnel moves its handshake by a run of the handshake machine of
`Noise.Slots`: the calls the tunnel makes on it, each returning or failing with an
error value. What the handshake machine keeps, the handshake of a tunnel keeps. -/
theorem handshake_refines (hr : Reachable B t t') :
    Handshake.Reachable B t.handshake t'.handshake :=
  hr.moves.lift' Tunn.handshake fun _ _ hm => hm.handshake_reachable

theorem handshake_refines_two_initiations :
    ∃ t₀ t, Tunn.new Backend.plain (.replicate 32 1) (.replicate 32 2) none none 0 none 0 0
        (.replicate 16 0) (.replicate 32 0) = .ok t₀ ∧ Reachable Backend.plain t₀ t ∧
      (∃ s s', t.handshake.state = .initSent s ∧ t.handshake.previous = .initSent s') ∧
      Handshake.Reachable Backend.plain t₀.handshake t.handshake := by
  obtain ⟨t₀, t, hnew, hr, hslots⟩ := reachable_two_initiations
  exact ⟨t₀, t, hnew, hr, hslots, handshake_refines hr⟩

section New

variable {staticPrivate peerStaticPublic : Key} {presharedKey : Option Key}
  {persistentKeepalive : Option UInt16} {index : UInt32} {rateLimiter : Option RateLimiter}
  {systemTime : Int} {now : Nat} {secretKey : Vector UInt8 16} {nonceKey : Key} {t₀ : Tunn}

/-- Along every run of a tunnel that `Tunn::new` made, the initiation in the
handshake's current slot carries the last index drawn, and the two initiations it
holds at once have different indices: a response names one of them. -/
theorem initiation_slots_distinct (hB : B.Lawful)
    (hnew : Tunn.new B staticPrivate peerStaticPublic presharedKey persistentKeepalive index
      rateLimiter systemTime now secretKey nonceKey = .ok t₀)
    (hr : Reachable B t₀ t) : Handshake.Slots t.handshake := by
  have h0 : Handshake.Slots t₀.handshake :=
    Handshake.slots_of_state fun _ hs => by rw [(fresh_of_new hnew).state] at hs; cases hs
  exact Handshake.slots_reachable hB h0 (handshake_refines hr)

/-- A new tunnel asked to send a packet into a buffer too short for an initiation:
the packet is queued, the call returns an error value, and the tunnel goes on. -/
theorem reachable_queued :
    ∃ t₀ t, Tunn.new Backend.plain (.replicate 32 1) (.replicate 32 2) none none 0 none 0 0
        (.replicate 16 0) (.replicate 32 0) = .ok t₀ ∧ Reachable Backend.plain t₀ t ∧
      t.packetQueue = [[1]] := by
  obtain ⟨t₀, hnew, hfresh⟩ := new_fresh Backend.plain (.replicate 32 1) (.replicate 32 2) none none
    0 none 0 0 (.replicate 16 0) (.replicate 32 0)
  have hs : t₀.sessions[slot t₀.current] = none := by simp [hfresh.sessions, hfresh.current]
  have hprog : t₀.handshake.isInProgress = false := by
    simp [Handshake.isInProgress, hfresh.state]
  have hexp : t₀.handshake.isExpired = false := by simp [Handshake.isExpired, hfresh.state]
  have henc : (encapsulate Backend.plain ⟨0, .replicate 32 3⟩ [1] (.replicate 17 0)).run t₀ =
      .ok (.err .destinationBufferTooSmall) (t₀.queuePacket [1]) :=
    encapsulate_short_queues hs hprog hexp (by decide) (by decide) (by decide)
  refine ⟨t₀, _, hnew, .single ⟨.encapsulate ⟨0, .replicate 32 3⟩ [1] (.replicate 17 0),
    .inl ⟨_, henc⟩⟩, ?_⟩
  simp [queuePacket, hfresh.packetQueue, maxQueueDepth]

theorem initiation_slots_distinct_two_initiations :
    ∃ t₀ t, Tunn.new Backend.plain (.replicate 32 1) (.replicate 32 2) none none 0 none 0 0
        (.replicate 16 0) (.replicate 32 0) = .ok t₀ ∧ Reachable Backend.plain t₀ t ∧
      (∃ s s', t.handshake.state = .initSent s ∧ t.handshake.previous = .initSent s') ∧
      Handshake.Slots t.handshake := by
  obtain ⟨t₀, t, hnew, hr, hslots⟩ := reachable_two_initiations
  exact ⟨t₀, t, hnew, hr, hslots, initiation_slots_distinct plain_lawful hnew hr⟩

/-- Along every run of a tunnel that `Tunn::new` made, each session of the ring sits
at the slot of its index modulo `N_SESSIONS`, where `handle_data` looks it up: both
handshake handlers install a session where its index says, and every other write
keeps the index or drops the session. -/
theorem sessions_at_their_slots
    (hnew : Tunn.new B staticPrivate peerStaticPublic presharedKey persistentKeepalive index
      rateLimiter systemTime now secretKey nonceKey = .ok t₀)
    (hr : Reachable B t₀ t) (i : Fin 8) (s : Session) (hs : t.sessions[i] = some s) :
    slot s.localIndex = i := by
  have h0 : Slotted t₀ := fun i s hs => by
    rw [(fresh_of_new hnew).sessions] at hs
    simp at hs
  exact h0.reachable hr i s hs

/-- Along every run of a tunnel that `Tunn::new` made, the queue of packets waiting
for a session never holds more than `MAX_QUEUE_DEPTH`: a packet is queued, or put
back after a failed flush, only while there is room. -/
theorem queue_bounded
    (hnew : Tunn.new B staticPrivate peerStaticPublic presharedKey persistentKeepalive index
      rateLimiter systemTime now secretKey nonceKey = .ok t₀)
    (hr : Reachable B t₀ t) : t.packetQueue.length ≤ maxQueueDepth := by
  have h0 : QueueBounded t₀ := by
    simp [QueueBounded, (fresh_of_new hnew).packetQueue, maxQueueDepth]
  exact h0.reachable hr

theorem sessions_at_their_slots_answered :
    let ourKey : Key := .replicate 32 1
    let peerKey : Key := .replicate 32 2
    ∃ t₀ t s, Tunn.new Backend.plain ourKey peerKey none none 0 none 0 0 (.replicate 16 0)
        (.replicate 32 0) = .ok t₀ ∧ Reachable Backend.plain t₀ t ∧
      t.sessions[slot 1] = some s ∧ slot s.localIndex = slot 1 := by
  intro ourKey peerKey
  -- the peer's handshake, whose initiation the new tunnel answers
  let hA : Handshake := ⟨NoiseParams.new Backend.plain peerKey (Backend.plain.x25519Public peerKey)
    (Backend.plain.x25519Public ourKey) none, 0, .none, .none, ⟨none, 0, none⟩, Tai64N.zero,
    ⟨0, 0⟩, none⟩
  let t₀ : Tunn := ⟨⟨NoiseParams.new Backend.plain ourKey (Backend.plain.x25519Public ourKey) peerKey
      none, (0 : UInt32) <<< 8, .none, .none, ⟨none, 0, none⟩, Tai64N.zero, ⟨0, 0⟩, none⟩,
    .replicate 8 none, 0, [], Timers.new none true 0, 0, 0,
    RateLimiter.new Backend.plain (Backend.plain.x25519Public ourKey) peerHandshakeRateLimit
      (.replicate 16 0) (.replicate 32 0) 0, peerKey⟩
  have hnew : Tunn.new Backend.plain ourKey peerKey none none 0 none 0 0 (.replicate 16 0)
      (.replicate 32 0) = .ok t₀ := rfl
  have hparse : Tai64N.parse (#v[64, 0, 0, 0, 0, 0, 0, 38, 0, 0, 0, 0] : Vector UInt8 12).toList =
      .ok ⟨0x4000000000000026, 0⟩ := by decide
  obtain ⟨m, session, t, hrun, hidx, hs, -⟩ := @decapsulate_initiationDatagram Backend.plain
    plain_lawful hA ⟨0, ourKey⟩ t₀ none (List.replicate 92 0)
    (NoiseParams.peers_new Backend.plain peerKey ourKey none) rfl (by decide)
    (by simp [handshakeRespSz]) peerKey _ _ hparse (by decide)
  have hslot : slot session.localIndex = slot 1 := by
    rw [Session.localIndex, hidx]
    decide
  have hs1 : t.sessions[slot 1] = some session := by
    rw [hs, ← hslot]
    simp
  have hr : Reachable Backend.plain t₀ t := .single ⟨.decapsulate ⟨0, ourKey⟩ none _ _, .inl ⟨_, hrun⟩⟩
  exact ⟨t₀, t, session, hnew, hr, hs1, sessions_at_their_slots hnew hr (slot 1) session hs1⟩

theorem queue_bounded_queued :
    ∃ t₀ t, Tunn.new Backend.plain (.replicate 32 1) (.replicate 32 2) none none 0 none 0 0
        (.replicate 16 0) (.replicate 32 0) = .ok t₀ ∧ Reachable Backend.plain t₀ t ∧
      t.packetQueue = [[1]] ∧ t.packetQueue.length ≤ maxQueueDepth := by
  obtain ⟨t₀, t, hnew, hr, hq⟩ := reachable_queued
  exact ⟨t₀, t, hnew, hr, hq, queue_bounded hnew hr⟩

end New

end Runs

end Tunn

end Neptun.Noise
