import Neptun.Noise.Moves
import Neptun.Noise.Atomicity
import Neptun.Noise.Decapsulated

/-! Where the tunnel can panic, and why it does not. The model marks each place
where the source can panic: a slice indexed or split out of range, a copy between
slices of different lengths, an unwrap, the seconds of a timestamp past
`u64::MAX`, the assertion of `set_static_private`, and the last arm of
`decapsulate`, which the rate limiter's verdicts are not meant to reach. Each is
unreachable from what the code checks before it, given three things of what the
owner hands a call: an instant whose stamp is in range, a packet with the field
sizes the parser cuts, and a private key that matches its public key. Each method
is specified once by the faults it can end with (`Raises`), and its callers cite
that. -/
namespace Neptun.Noise

open Lib

/-! ### What the calls assume of their inputs -/

/-- The seconds of a stamp at instant `now` fit in `u64`: adding the two
`Duration`s does not overflow. -/
def TimeStamper.InRange (t : TimeStamper) (now : Nat) : Prop :=
  (now - t.instantAtStart + t.durationAtStart) / 10 ^ 9 < 2 ^ 64

instance (t : TimeStamper) (now : Nat) : Decidable (t.InRange now) :=
  inferInstanceAs (Decidable (_ < _))

theorem TimeStamper.stamp_of_inRange {t : TimeStamper} {now : Nat} (h : t.InRange now) :
    ∃ v, t.stamp now = .ok v := by
  unfold TimeStamper.stamp
  dsimp only
  rw [if_neg (Nat.not_le.mpr h)]
  exact ⟨_, rfl⟩

/-- The sizes of the fields of a packet as the parser cuts them, which the
handlers copy and convert without checking. -/
def Packet.WellFormed : Packet → Prop
  | .handshakeInit p => p.encryptedStatic.length = 48 ∧ p.encryptedTimestamp.length = 28
  | .handshakeResponse p => p.encryptedNothing.length = 16
  | .packetCookieReply p => p.nonce.length = 24
  | .packetData _ => True

instance Packet.decWellFormed : (p : Packet) → Decidable p.WellFormed
  | .handshakeInit _ => inferInstanceAs (Decidable (_ ∧ _))
  | .handshakeResponse _ => inferInstanceAs (Decidable (_ = _))
  | .packetCookieReply _ => inferInstanceAs (Decidable (_ = _))
  | .packetData _ => inferInstanceAs (Decidable True)

/-- What the parser accepts is well formed, and at least as long as the two macs
of a handshake message. -/
theorem parseIncomingPacket_wellFormed {src : List UInt8} {p : Packet}
    (h : Tunn.parseIncomingPacket src = .ok p) : p.WellFormed ∧ 32 ≤ src.length := by
  obtain ⟨hlen, h1 | h2 | h3 | h4⟩ := (parseIncomingPacket_ok_iff src).mp ⟨p, h⟩
  all_goals
    simp only [Tunn.parseIncomingPacket, if_neg (Nat.not_lt.mpr hlen)] at h
  · simp [index, getRange_of_le, tryIntoArray_of_length, u32FromLe_eq_iff, h1, handshakeInit,
      handshakeInitSz] at h
    cases h
    simp [Packet.WellFormed, h1]
  · simp [index, getRange_of_le, tryIntoArray_of_length, u32FromLe_eq_iff, h2, handshakeInit,
      handshakeResp, handshakeRespSz] at h
    cases h
    simp [Packet.WellFormed, h2]
  · simp [index, getRange_of_le, tryIntoArray_of_length, u32FromLe_eq_iff, h3, handshakeInit,
      handshakeResp, cookieReply, cookieReplySz] at h
    cases h
    simp [Packet.WellFormed, h3]
  · -- a data message has no fixed size: its fields are read at offsets below 16
    have h8 : 8 ≤ src.length := by omega
    have h16 : 16 ≤ src.length := by omega
    simp [index, getRange_of_le, tryIntoArray_of_length, u32FromLe_eq_iff, h4, hlen, h8, h16,
      handshakeInit, handshakeResp, cookieReply, data, dataOverheadSz] at h
    have hr : (List.take 4 (List.drop 4 src)).length = 4 := by simp; omega
    have hc : (List.take 8 (List.drop 8 src)).length = 8 := by simp; omega
    simp only [tryIntoArray_of_length hr, tryIntoArray_of_length hc] at h
    cases h
    exact ⟨trivial, h4.2⟩

theorem parseIncomingPacket_raises (src : List UInt8) :
    ExceptRaises (· = .invalidPacket) (Tunn.parseIncomingPacket src) := by
  by_cases hf : Framed src
  · obtain ⟨p, hp⟩ := parseIncomingPacket_of_framed hf
    rw [hp]
    exact exceptRaises_ok p
  · rw [parseIncomingPacket_of_not_framed hf]
    exact exceptRaises_err rfl

/-! ### The primitives -/

section Crypto

variable {B : Backend}

/-- Opening into a buffer sized for the plaintext fails only on the tag: a lawful
AEAD opens to a plaintext of the buffer's length. -/
theorem aeadChacha20Open_raises (hB : B.Lawful) {buffer data : List UInt8} (key : Key)
    (counter : UInt64) (aad : List UInt8) (hlen : data.length = buffer.length + 16) :
    ExceptRaises (fun _ => True) (aeadChacha20Open B buffer key counter data aad) := by
  cases hopen : B.aeadOpen key (counterNonce counter) aad data with
  | none =>
    rw [aeadChacha20Open_of_none hopen]
    exact exceptRaises_err trivial
  | some plaintext =>
    have hp : buffer.length = plaintext.length := by
      have := hB.open_length _ _ _ _ _ hopen
      omega
    rw [aeadChacha20Open_eq hopen hp]
    exact exceptRaises_ok _

/-- A timestamp is split only after its length is checked. -/
theorem Tai64N.parse_raises (buf : List UInt8) :
    ExceptRaises (fun _ => True) (Tai64N.parse buf) := by
  unfold Tai64N.parse
  split
  · exact exceptRaises_err trivial
  rename_i hshort
  rw [splitAt_of_le (by omega), pure_bind]
  dsimp only
  split
  · split
    · exact exceptRaises_ok _
    · exact exceptRaises_err trivial
  · exact exceptRaises_err trivial

theorem Benign.mapErr {ε ε' : Type} {E : ε → Prop} {E' : ε' → Prop} {g : ε → ε'} {f : Fault ε}
    (h : Benign E f) (hg : ∀ e, E e → E' (g e)) : Benign E' (Fault.mapErr g f) := by
  rcases h with rfl | ⟨e, rfl, he⟩
  · exact benign_diverge E'
  · exact benign_err (hg e he)

theorem exceptRaises_mapErr {ε ε' α : Type} {E : ε → Prop} {E' : ε' → Prop} {g : ε → ε'}
    {x : Except (Fault ε) α} (hx : ExceptRaises E x) (hg : ∀ e, E e → E' (g e)) :
    ExceptRaises E' (x.mapError (Fault.mapErr g)) := by
  cases x with
  | ok a => exact exceptRaises_ok a
  | error f =>
    intro f' hf'
    cases hf'
    exact Benign.mapErr (hx f rfl) hg

end Crypto

/-! ### The handshake -/

namespace Handshake

section Raises

variable {B : Backend}

/-- An initiation panics only past the timestamp's range: every split and copy of
the buffer is in bounds once its size is checked. -/
theorem formatHandshakeInitiation_raises (hB : B.Lawful) (h : Handshake) (eph : Key) (now : Nat)
    (dst : List UInt8) (hclock : h.stamper.InRange now) :
    Raises (fun _ => True) (formatHandshakeInitiation B eph now dst) h := by
  by_cases hdst : dst.length < handshakeInitSz
  · exact triple_of_error (formatHandshakeInitiation_small eph now hdst) (benign_err trivial)
  · obtain ⟨ts, hts⟩ := TimeStamper.stamp_of_inRange hclock
    exact triple_of_ok (formatHandshakeInitiation_run hB h eph now dst (Nat.not_lt.mp hdst) hts)
      trivial

theorem formatHandshakeResponse_raises (hB : B.Lawful) (h : Handshake) (eph : Key)
    (dst : List UInt8) : Raises (fun _ => True) (formatHandshakeResponse B eph dst) h := by
  by_cases hdst : dst.length < handshakeRespSz
  · exact triple_of_error (formatHandshakeResponse_small h eph hdst) (benign_err trivial)
  cases hs : h.state with
  | initReceived hash chainingKey pe peerIndex =>
    exact triple_of_ok (formatHandshakeResponse_run hB h eph dst (Nat.not_lt.mp hdst) hs) trivial
  | _ =>
    -- without an initiation received, the response is refused before the buffer is cut
    unfold formatHandshakeResponse
    rw [if_neg hdst]
    refine triple_get_bind (triple_set_bind ?_)
    simp only [hs]
    exact triple_throw (benign_err trivial)

theorem openInitiation_raises (hB : B.Lawful) (h : Handshake) {p : HandshakeInit}
    (hs : p.encryptedStatic.length = 48) (ht : p.encryptedTimestamp.length = 28) :
    ExceptRaises (fun _ => True) (openInitiation B h p) := by
  unfold openInitiation
  refine (aeadChacha20Open_raises hB _ _ _ (by simpa using hs)).bind fun key _ => ?_
  split
  · exact exceptRaises_err trivial
  · refine (aeadChacha20Open_raises hB _ _ _ (by simpa using ht)).bind fun bytes _ => ?_
    exact (Tai64N.parse_raises bytes).bind fun _ _ => exceptRaises_ok _

theorem receiveHandshakeInitialization_raises (hB : B.Lawful) (h : Handshake) (eph : Key)
    {p : HandshakeInit} (dst : List UInt8) (hs : p.encryptedStatic.length = 48)
    (ht : p.encryptedTimestamp.length = 28) :
    Raises (fun _ => True) (receiveHandshakeInitialization B eph p dst) h := by
  unfold Raises Ensures Triple
  rw [receiveHandshakeInitialization_run_eq]
  rcases hopen : openInitiation B h p with f | ⟨t, hash, chainingKey⟩
  · exact openInitiation_raises hB h hs ht f hopen
  · dsimp only
    by_cases hafter : t.after h.lastHandshakeTimestamp = true
    · rw [if_pos hafter]
      exact formatHandshakeResponse_raises hB _ eph dst
    · rw [if_neg hafter]
      exact benign_err trivial

theorem receiveHandshakeResponse_raises (hB : B.Lawful) (h : Handshake) {p : HandshakeResponse}
    (now : Nat) (hn : p.encryptedNothing.length = 16) :
    Raises (fun _ => True) (receiveHandshakeResponse B p now) h := by
  unfold receiveHandshakeResponse
  apply triple_get_bind
  split
  · rename_i isPrevious _
    refine triple_liftExcept_bind
      (fun f hf => aeadChacha20Open_raises hB _ _ _ (by simpa using hn) f hf) fun _ _ => ?_
    cases isPrevious
    · exact triple_set_bind (triple_pure trivial)
    · exact triple_set_bind (triple_pure trivial)
  · exact triple_of_error rfl (benign_err trivial)

/-- The nonce is converted to an array without a check: a nonce of the parser's
size converts. -/
theorem receiveCookieReply_raises (h : Handshake) {p : PacketCookieReply}
    (hn : p.nonce.length = 24) : Raises (fun _ => True) (receiveCookieReply B p) h := by
  simp only [receiveCookieReply, tryIntoArray_of_length hn]
  apply triple_get_bind
  split
  · split
    · exact triple_of_error rfl (benign_err trivial)
    -- the mac and the opened cookie: each read fails with an error or leads to the next
    split
    · split
      · split
        · exact triple_set trivial
        · exact triple_of_error rfl (benign_err trivial)
      · exact triple_of_error rfl (benign_err trivial)
    · exact triple_of_error rfl (benign_err trivial)
  · exact triple_of_error rfl (benign_err trivial)

theorem setStaticPrivate_raises (h : Handshake) {privateKey publicKey : Key}
    (hkey : B.x25519Public privateKey = publicKey) :
    Raises (fun _ => True) (setStaticPrivate B privateKey publicKey) h := by
  unfold setStaticPrivate NoiseParams.setStaticPrivate
  apply triple_focus
  rw [if_neg (not_not.mpr hkey)]
  exact triple_of_ok rfl trivial

end Raises

section Stamper

variable {B : Backend}

/-- No call of the handshake writes its stamper. -/
theorem Call.run_stamper (c : Call) (h : Handshake) :
    Keeps (·.stamper = h.stamper) (c.run B) h := by
  cases c with
  | formatHandshakeInitiation eph now dst =>
    exact triple_bind (formatHandshakeInitiation_keeps h eph now dst rfl rfl (fun _ _ => rfl)
      fun _ _ _ => rfl) fun _ _ _ hs => triple_pure hs
  | receiveHandshakeInitialization eph p dst =>
    exact triple_bind (receiveHandshakeInitialization_keeps h eph p dst rfl fun _ _ _ _ _ =>
      formatHandshakeResponse_keeps _ eph dst rfl rfl rfl fun _ => rfl) fun _ _ _ hs => triple_pure hs
  | receiveHandshakeResponse p now =>
    exact triple_bind (receiveHandshakeResponse_keeps h p now rfl (fun _ => rfl) fun _ => rfl)
      fun _ _ _ hs => triple_pure hs
  | receiveCookieReply p =>
    exact triple_bind (receiveCookieReply_keeps h p rfl fun _ => rfl) fun _ _ _ hs => triple_pure hs
  | setStaticPrivate privateKey publicKey =>
    exact triple_bind (setStaticPrivate_keeps h privateKey publicKey fun _ => rfl)
      fun _ _ _ hs => triple_pure hs
  | setPresharedKey psk => exact triple_modify_bind (triple_pure rfl)
  | setExpired => exact triple_modify_bind (triple_pure rfl)
  | clearCookie => exact triple_modify_bind (triple_pure rfl)

theorem Reachable.stamper {h h' : Handshake} (hr : Reachable B h h') : h'.stamper = h.stamper := by
  have hstep : ∀ h₁ h₂, Step B h₁ h₂ → h₁.stamper = h.stamper → h₂.stamper = h.stamper :=
    fun h₁ _ ⟨c, he⟩ hs => ((Call.run_stamper c h₁).resumes.endsIn he).trans hs
  exact invariant_of_reflTransGen hstep hr rfl

end Stamper

end Handshake

/-! ### The rate limiter -/

namespace RateLimiter

variable {B : Backend}

/-- What the rate limiter refuses a datagram with: an error the tunnel returns, or
a cookie reply it sends. -/
def Refusal (r : TunnResult) : Prop := (∃ e, r = .err e) ∨ ∃ c, r = .writeToNetwork c

theorem refusal_err (e : WireGuardError) : Refusal (.err e) := .inl ⟨e, rfl⟩

/-- An error of a primitive, mapped to the result the tunnel returns, is a refusal. -/
theorem refuses_mapErr {α : Type} {E : WireGuardError → Prop}
    {x : Except (Fault WireGuardError) α} (hx : ExceptRaises E x) :
    ExceptRaises Refusal (x.mapError (Fault.mapErr TunnResult.err)) :=
  exceptRaises_mapErr hx fun e _ => refusal_err e

theorem b2sKeyedMac16_raises (key data : List UInt8) :
    ExceptRaises (fun _ => True) (b2sKeyedMac16 B key data) := fun f hf => by
  rw [b2sKeyedMac16_error hf]
  exact benign_err trivial

theorem b2sKeyedMac162_raises (key data1 data2 : List UInt8) :
    ExceptRaises (fun _ => True) (b2sKeyedMac162 B key data1 data2) := fun f hf => by
  unfold b2sKeyedMac162 at hf
  split at hf <;> cases hf
  exact benign_err trivial

/-- Counting a handshake message: the rest runs on whether the count had reached
the limit, with the count one higher. -/
theorem triple_isUnderLoad_bind {α : Type} {Q : α → RateLimiter → Prop}
    {F : Fault TunnResult → RateLimiter → Prop}
    {k : Bool → EStateM (Fault TunnResult) RateLimiter α} {r : RateLimiter}
    (h : Triple Q F (k (decide (r.limit ≤ r.count))) { r with count := r.count + 1 }) :
    Triple Q F (isUnderLoad >>= k) r :=
  h

theorem formatCookieReply_raises (hB : B.Lawful) (idx : UInt32) (cookie : Vector UInt8 16)
    (mac1 dst : List UInt8) (r : RateLimiter) :
    Raises (· = .destinationBufferTooSmall) (formatCookieReply B idx cookie mac1 dst) r := by
  by_cases hdst : dst.length < cookieReplySz
  · have hrun : (formatCookieReply B idx cookie mac1 dst).run r =
        .error (.err .destinationBufferTooSmall) r := by
      simp only [formatCookieReply, hdst, if_true]
      rfl
    exact triple_of_error hrun (benign_err rfl)
  · exact triple_of_ok (formatCookieReply_run hB r idx cookie mac1 dst (Nat.not_lt.mp hdst)) trivial

/-- The rate limiter refuses a datagram with an error or a cookie reply, and passes
on only a packet that the parser cut; it never panics. -/
theorem verifyPacket_spec (hB : B.Lawful) (srcAddr : Option IpAddr) (src dst : List UInt8)
    (now : Nat) (r : RateLimiter) :
    Ensures Refusal (fun p _ => p.WellFormed) (verifyPacket B srcAddr src dst now) r := by
  unfold verifyPacket
  refine triple_liftExcept_bind (refuses_mapErr (parseIncomingPacket_raises src))
    fun packet hp => ?_
  have hparse : Tunn.parseIncomingPacket src = .ok packet := by
    cases hq : Tunn.parseIncomingPacket src <;> rw [hq] at hp <;> cases hp
    rfl
  obtain ⟨hwf, hlen⟩ := parseIncomingPacket_wellFormed hparse
  split
  · -- the two macs are the last 32 bytes, which a handshake message has
    rw [splitAt_of_le (Nat.sub_le _ _), pure_bind]
    dsimp only
    rw [splitAt_of_le (by simp; omega), pure_bind]
    dsimp only
    apply triple_get_bind
    refine triple_liftExcept_bind (refuses_mapErr (b2sKeyedMac16_raises _ _)) fun mac1 _ => ?_
    split
    · split
      · exact triple_throw_bind (benign_err (refusal_err _))
      refine triple_isUnderLoad_bind ?_
      split
      · split
        · refine triple_liftExcept_bind (refuses_mapErr (b2sKeyedMac162_raises _ _ _))
            fun cookie _ => ?_
          refine triple_liftExcept_bind (refuses_mapErr (b2sKeyedMac162_raises _ _ _))
            fun mac2 _ => ?_
          split
          · split
            · -- a cookie reply is sent instead
              refine triple_bind (triple_adaptExcept ((formatCookieReply_raises hB _ _ _ dst _).mono
                (fun _ _ h => h) fun _ _ h => Benign.mapErr h fun e _ => refusal_err e))
                fun c _ _ _ => triple_throw_bind (benign_err (.inr ⟨c, rfl⟩))
            · exact triple_pure hwf
          · exact triple_throw_bind (benign_err (refusal_err _))
        · exact triple_throw_bind (benign_err (refusal_err _))
      · exact triple_pure hwf
    · exact triple_throw (benign_err (refusal_err _))
  · exact triple_pure hwf

end RateLimiter

/-! ### The sessions and the tunnel -/

namespace Session

theorem formatPacketData_raises (B : Backend) (payloadLen : Nat) (buf : List UInt8) (s : Session) :
    Raises (fun _ => True) (formatPacketData B payloadLen buf) s :=
  (formatPacketData_spec B payloadLen buf s).mono (fun _ _ _ => trivial) fun _ _ h => by
    rcases h with ⟨rfl, -⟩ | ⟨rfl, -⟩ <;> exact benign_err trivial

theorem receivePacketData_raises (B : Backend) (packet : PacketData) (dst : List UInt8)
    (s : Session) : Raises (fun _ => True) (receivePacketData B packet dst) s :=
  (receivePacketData_spec B packet dst s).mono (fun _ _ _ => trivial) fun _ _ h => h.1

end Session

namespace Tunn

section Walk

variable {B : Backend} {env : CallEnv}

/-- No move writes the handshake's stamper. -/
theorem moves_stamper {t t' : Tunn} (h : Relation.ReflTransGen (Move B) t t') :
    t'.handshake.stamper = t.handshake.stamper :=
  Handshake.Reachable.stamper (h.lift' Tunn.handshake fun _ _ hm => hm.handshake_reachable)

theorem InRange.moves {t t' : Tunn} {now : Nat} (h : Relation.ReflTransGen (Move B) t t')
    (hclock : t.handshake.stamper.InRange now) : t'.handshake.stamper.InRange now := by
  rw [moves_stamper h]
  exact hclock

theorem raises_onHandshake {α : Type} {m : EStateM (Fault WireGuardError) Handshake α} {t : Tunn}
    (h : Raises (fun _ => True) m t.handshake) : Raises (fun _ => True) (onHandshake m) t :=
  triple_focus h

theorem raises_onSession {α : Type} {i : Fin 8} {s : Session}
    {m : EStateM (Fault WireGuardError) Session α} {t : Tunn} (h : Raises (fun _ => True) m s) :
    Raises (fun _ => True) (onSession i s m) t :=
  triple_focus h

theorem formatHandshakeInitiation_raises (hB : B.Lawful) (t : Tunn) (dst : List UInt8)
    (forceResend : Bool) (hclock : t.handshake.stamper.InRange env.now) :
    Raises (fun _ => True) (formatHandshakeInitiation B env dst forceResend) t := by
  unfold formatHandshakeInitiation
  apply triple_get_bind
  split
  · exact triple_pure trivial
  split
  on_goal 1 => refine triple_set_bind ?_
  all_goals
    refine triple_bind (Raises.attempt (raises_onHandshake
      (Handshake.formatHandshakeInitiation_raises hB _ env.ephemeralPrivate env.now dst hclock)))
      fun r _ _ _ => ?_
    cases r with
    | error e => exact triple_pure trivial
    | ok packet =>
      dsimp only
      split
      · exact triple_modify_bind (triple_modify_bind (triple_pure trivial))
      · exact triple_modify_bind (triple_pure trivial)

theorem encapsulateInPlace_raises (hB : B.Lawful) (t : Tunn) (srcLen : Nat) (dst : List UInt8)
    (hclock : t.handshake.stamper.InRange env.now) :
    Raises (fun _ => True) (encapsulateInPlace B env srcLen dst) t := by
  unfold encapsulateInPlace
  apply triple_get_bind
  cases hs : t.sessions[slot t.current] with
  | some session =>
    simp only [hs]
    refine triple_bind (Raises.attempt (raises_onSession
      (Session.formatPacketData_raises B srcLen dst session))) fun r _ _ _ => ?_
    cases r with
    | error e => exact triple_pure trivial
    | ok packet =>
      refine triple_modify_bind ?_
      split
      · exact triple_modify_bind (triple_modify_bind (triple_pure trivial))
      · exact triple_modify_bind (triple_pure trivial)
  | none =>
    -- without a session the packet is queued and an initiation formatted
    simp only [hs]
    split
    · split
      · exact triple_modify_bind (formatHandshakeInitiation_raises hB _ dst false
          (InRange.moves (moves_queuePacket (B := B) _ _) hclock))
      · exact triple_pure trivial
    · exact formatHandshakeInitiation_raises hB t dst false hclock

theorem encapsulate_raises (hB : B.Lawful) (t : Tunn) (src dst : List UInt8)
    (hclock : t.handshake.stamper.InRange env.now) :
    Raises (fun _ => True) (encapsulate B env src dst) t := by
  unfold encapsulate
  split
  · rename_i d hd
    -- the slice taken has the length of the packet copied into it
    have hlen : d.length = src.length := by simpa using length_of_getRange hd
    exact triple_copyFromSlice_bind (fun hne => absurd hlen hne) fun _ =>
      encapsulateInPlace_raises hB t _ _ hclock
  · exact triple_pure trivial

theorem handleHandshakeInit_raises (hB : B.Lawful) (t : Tunn) {p : HandshakeInit}
    (dst : List UInt8) (hs : p.encryptedStatic.length = 48) (ht : p.encryptedTimestamp.length = 28) :
    Raises (fun _ => True) (handleHandshakeInit B env p dst) t := by
  unfold handleHandshakeInit
  refine triple_bind (raises_onHandshake
    (Handshake.receiveHandshakeInitialization_raises hB _ _ dst hs ht)) fun r _ _ _ => ?_
  exact triple_modify_bind (triple_modify_bind (triple_modify_bind (triple_modify_bind
    (triple_pure trivial))))

theorem handleHandshakeResponse_raises (hB : B.Lawful) (t : Tunn) {p : HandshakeResponse}
    (dst : List UInt8) (hn : p.encryptedNothing.length = 16) :
    Raises (fun _ => True) (handleHandshakeResponse B env p dst) t := by
  unfold handleHandshakeResponse
  refine triple_bind (raises_onHandshake
    (Handshake.receiveHandshakeResponse_raises hB _ env.now hn)) fun session _ _ _ => ?_
  refine triple_modify_bind (triple_bind (triple_onLocal (Q := fun _ _ => True)
    (Session.formatPacketData_raises B 0 dst session)) fun r _ _ _ => ?_)
  exact triple_modify_bind (triple_modify_bind (triple_pure trivial))

theorem handleCookieReply_raises (t : Tunn) {p : PacketCookieReply} (hn : p.nonce.length = 24) :
    Raises (fun _ => True) (handleCookieReply B p) t := by
  unfold handleCookieReply
  exact triple_bind (raises_onHandshake (Handshake.receiveCookieReply_raises _ hn))
    fun _ _ _ _ => triple_modify_bind (triple_pure trivial)

theorem validateDecapsulatedPacket_raises (t : Tunn) (packet : List UInt8) :
    Raises (fun _ => True) (validateDecapsulatedPacket packet) t := by
  unfold validateDecapsulatedPacket
  split
  · exact triple_modify_bind (triple_pure trivial)
  rename_i hlen
  obtain ⟨v, hv⟩ := ipHeader_ok (List.ne_nil_of_length_pos (Nat.pos_of_ne_zero hlen))
  rw [hv, liftExcept_ok, pure_bind]
  rcases v with _ | ⟨computedLen, srcIpAddress⟩
  · exact triple_pure trivial
  · dsimp only
    split
    · exact triple_modify_bind (triple_pure trivial)
    · exact triple_pure trivial

theorem handleData_raises (t : Tunn) (packet : PacketData) (dst : List UInt8) :
    Raises (fun _ => True) (handleData B packet dst) t := by
  unfold handleData
  apply triple_get_bind
  cases hs : t.sessions[slot packet.receiverIdx.toNat] with
  | none => exact triple_throw (benign_err trivial)
  | some session =>
    refine triple_bind (raises_onSession (Session.receivePacketData_raises B packet dst session))
      fun _ _ _ _ => ?_
    exact triple_modify_bind (validateDecapsulatedPacket_raises _ _)

/-- A handler panics only on a packet cut otherwise than the parser cuts it. -/
theorem handleVerifiedPacket_raises (hB : B.Lawful) (t : Tunn) {packet : Packet} (dst : List UInt8)
    (hp : packet.WellFormed) : Raises (fun _ => True) (handleVerifiedPacket B env packet dst) t := by
  unfold handleVerifiedPacket
  cases packet
  case handshakeInit p =>
    exact triple_bind (Raises.attempt (handleHandshakeInit_raises hB t dst hp.1 hp.2))
      fun r _ _ _ => by cases r <;> exact triple_pure trivial
  case handshakeResponse p =>
    exact triple_bind (Raises.attempt (handleHandshakeResponse_raises hB t dst hp))
      fun r _ _ _ => by cases r <;> exact triple_pure trivial
  case packetCookieReply p =>
    exact triple_bind (Raises.attempt (handleCookieReply_raises t hp))
      fun r _ _ _ => by cases r <;> exact triple_pure trivial
  case packetData p =>
    exact triple_bind (Raises.attempt (handleData_raises t p dst))
      fun r _ _ _ => by cases r <;> exact triple_pure trivial

theorem dequeuePacket_raises (t : Tunn) :
    Raises (fun _ => True) (dequeuePacket : EStateM (Fault WireGuardError) Tunn _) t := by
  unfold dequeuePacket
  apply triple_get_bind
  split
  · exact triple_pure trivial
  · exact triple_set_bind (triple_pure trivial)

theorem sendQueuedPacket_raises (hB : B.Lawful) (t : Tunn) (dst : List UInt8)
    (hclock : t.handshake.stamper.InRange env.now) :
    Raises (fun _ => True) (sendQueuedPacket B env dst) t := by
  unfold sendQueuedPacket
  refine Raises.bind_steps (dequeuePacket_moves (B := B) t) (dequeuePacket_raises t) fun x t₁ h₁ => ?_
  cases x with
  | none => exact triple_pure trivial
  | some packet =>
    dsimp only
    refine triple_bind (encapsulate_raises hB t₁ packet dst (InRange.moves h₁ hclock))
      fun r _ _ _ => ?_
    cases r
    case err e => exact triple_modify_bind (triple_pure trivial)
    all_goals exact triple_pure trivial

/-- The last arm of `decapsulate` is never reached: the rate limiter refuses with
an error or a cookie reply, and what it passes is a packet the handlers take. -/
theorem decapsulate_raises (hB : B.Lawful) (t : Tunn) (srcAddr : Option IpAddr)
    (datagram dst : List UInt8) (hclock : t.handshake.stamper.InRange env.now) :
    Raises (fun _ => True) (decapsulate B env srcAddr datagram dst) t := by
  unfold decapsulate
  split
  · exact sendQueuedPacket_raises hB t dst hclock
  refine triple_bind (R := fun v _ => (∀ p, v = .ok p → p.WellFormed) ∧
      ∀ r, v = .error r → RateLimiter.Refusal r)
    (triple_focus (Ensures.attempt (RateLimiter.verifyPacket_spec hB srcAddr datagram _ env.now _)))
    fun v t₁ _ hv => ?_
  rcases v with (_ | e | cookie | _) | packet
  · exact absurd (hv.2 _ rfl) (by rintro (⟨_, h⟩ | ⟨_, h⟩) <;> cases h)
  · exact triple_pure trivial
  · -- the cookie reply is copied to the front of `dst`
    dsimp only
    split
    · rename_i d hd
      have hlen : d.length = cookie.length := by simpa using length_of_getRange hd
      exact triple_copyFromSlice_bind (fun hne => absurd hlen hne) fun _ =>
        triple_modify_bind (by split <;> exact triple_pure trivial)
    · exact triple_pure trivial
  · exact absurd (hv.2 _ rfl) (by rintro (⟨_, h⟩ | ⟨_, h⟩) <;> cases h)
  · exact handleVerifiedPacket_raises hB t₁ dst (hv.1 packet rfl)

theorem giveUp_raises (t : Tunn) (instant persistentKeepalive : Nat) :
    Raises (fun _ => True) (giveUp instant persistentKeepalive) t := by
  unfold giveUp
  refine triple_modify_bind ?_
  split
  · exact triple_pure trivial
  · exact triple_modify_bind (triple_throw (benign_err trivial))

theorem retransmit_raises (t : Tunn) (instant : Nat) (r : Readings) (timeInitSent : Nat)
    (initiate : Bool) : Raises (fun _ => True) (retransmit instant r timeInitSent initiate) t := by
  unfold retransmit
  split
  · exact triple_bind (giveUp_raises t instant _) fun _ _ _ _ => triple_pure trivial
  · exact triple_pure trivial

theorem rekeyOrKeepalive_raises (t : Tunn) (instant : Nat) (r : Readings) (initiate : Bool) :
    Raises (fun _ => True) (rekeyOrKeepalive instant r initiate) t := by
  unfold rekeyOrKeepalive
  apply triple_get_bind
  dsimp only
  simp only [pure_bind]
  split
  · refine triple_set_bind ?_
    rw [if_pos trivial]
    exact triple_pure trivial
  split
  · exact triple_pure trivial
  split
  · apply triple_get_bind
    refine triple_set_bind ?_
    apply triple_get_bind
    split
    · exact triple_set_bind (triple_pure trivial)
    · exact triple_pure trivial
  · apply triple_get_bind
    split
    · exact triple_set_bind (triple_pure trivial)
    · exact triple_pure trivial

/-- The block of `update_timers` ends only with an error value it returns. -/
theorem timerBlock_raises (t : Tunn) (instant : Nat) :
    Raises (fun _ => True) (timerBlock instant) t := by
  unfold timerBlock
  apply triple_get_bind
  split
  · exact triple_throw (benign_err trivial)
  refine triple_set_bind ?_
  dsimp only
  split
  on_goal 1 => refine triple_bind (giveUp_raises _ instant _) fun initiate t₂ _ _ => ?_
  on_goal 2 => simp only [pure_bind]
  all_goals
    apply triple_get_bind
    split
    · exact triple_bind (retransmit_raises _ instant _ _ _) fun _ _ _ _ => triple_pure trivial
    · exact rekeyOrKeepalive_raises _ instant _ _

theorem updateTimers_raises (hB : B.Lawful) (t : Tunn) (dst : List UInt8)
    (hclock : t.handshake.stamper.InRange env.now) :
    Raises (fun _ => True) (updateTimers B env dst) t := by
  unfold updateTimers
  refine triple_modify_bind ?_
  -- the block may clear the cookie or expire the handshake, but not its stamper
  refine Raises.bind_steps (timerBlock_moves (B := B) _ env.now).attempt
    (Raises.attempt (timerBlock_raises _ env.now)) fun x t₁ h₁ => ?_
  have hclock₁ : t₁.handshake.stamper.InRange env.now :=
    InRange.moves h₁ (by rw [handshake_tickClock]; exact hclock)
  cases x with
  | error e => exact triple_pure trivial
  | ok v =>
    obtain ⟨initiate, keepalive⟩ := v
    dsimp only
    split
    · exact formatHandshakeInitiation_raises hB t₁ dst true hclock₁
    · split
      · exact encapsulate_raises hB t₁ [] dst hclock₁
      · exact triple_pure trivial

theorem setStaticPrivate_raises (t : Tunn) {staticPrivate staticPublic : Key}
    (rateLimiter : Option RateLimiter) (secretKey : Vector UInt8 16) (nonceKey : Key) (now : Nat)
    (hkey : B.x25519Public staticPrivate = staticPublic) :
    Raises (fun _ => True)
      (setStaticPrivate B staticPrivate staticPublic rateLimiter secretKey nonceKey now) t := by
  unfold setStaticPrivate
  refine triple_modify_bind (triple_bind (raises_onHandshake
    (Handshake.setStaticPrivate_raises _ hkey)) fun _ _ _ _ => ?_)
  exact triple_modify_bind (triple_pure trivial)

end Walk

/-- What a call of the tunnel's owner is given that the code relies on without a
check: an instant whose stamp is in range for the stamper, a packet cut as the
parser cuts it, and a new private key whose public key it is. -/
def Call.Sound (B : Backend) (stamper : TimeStamper) : Call → Prop
  | .encapsulate env _ _ => stamper.InRange env.now
  | .encapsulateInPlace env _ _ => stamper.InRange env.now
  | .decapsulate env _ _ _ => stamper.InRange env.now
  | .handleVerifiedPacket _ packet _ => packet.WellFormed
  | .formatHandshakeInitiation env _ _ => stamper.InRange env.now
  | .updateTimers env _ => stamper.InRange env.now
  | .setStaticPrivate staticPrivate staticPublic _ _ _ _ => B.x25519Public staticPrivate = staticPublic
  | .setPresharedKey _ => True
  | .setPersistentKeepalive _ => True

instance Call.decSound (B : Backend) (stamper : TimeStamper) :
    (c : Call) → Decidable (c.Sound B stamper)
  | .encapsulate env _ _ => inferInstanceAs (Decidable (stamper.InRange env.now))
  | .encapsulateInPlace env _ _ => inferInstanceAs (Decidable (stamper.InRange env.now))
  | .decapsulate env _ _ _ => inferInstanceAs (Decidable (stamper.InRange env.now))
  | .handleVerifiedPacket _ packet _ => inferInstanceAs (Decidable packet.WellFormed)
  | .formatHandshakeInitiation env _ _ => inferInstanceAs (Decidable (stamper.InRange env.now))
  | .updateTimers env _ => inferInstanceAs (Decidable (stamper.InRange env.now))
  | .setStaticPrivate staticPrivate staticPublic _ _ _ _ =>
    inferInstanceAs (Decidable (B.x25519Public staticPrivate = staticPublic))
  | .setPresharedKey _ => inferInstanceAs (Decidable True)
  | .setPersistentKeepalive _ => inferInstanceAs (Decidable True)

/-- A call given what it relies on never panics, from any state of the tunnel. -/
theorem Call.run_raises {B : Backend} (hB : B.Lawful) (c : Call) (t : Tunn)
    (hc : c.Sound B t.handshake.stamper) : Raises (fun _ => True) (c.run B) t := by
  cases c with
  | encapsulate env src dst => exact encapsulate_raises hB t src dst hc
  | encapsulateInPlace env srcLen dst => exact encapsulateInPlace_raises hB t srcLen dst hc
  | decapsulate env srcAddr datagram dst => exact decapsulate_raises hB t srcAddr datagram dst hc
  | handleVerifiedPacket env packet dst => exact handleVerifiedPacket_raises hB t dst hc
  | formatHandshakeInitiation env dst forceResend =>
    exact formatHandshakeInitiation_raises hB t dst forceResend hc
  | updateTimers env dst => exact updateTimers_raises hB t dst hc
  | setStaticPrivate staticPrivate staticPublic rateLimiter secretKey nonceKey now =>
    exact triple_bind (Raises.attempt (setStaticPrivate_raises t rateLimiter secretKey nonceKey now hc))
      fun x _ _ _ => by cases x <;> exact triple_pure trivial
  | setPresharedKey presharedKey => exact triple_modify_bind (triple_pure trivial)
  | setPersistentKeepalive keepalive => exact triple_modify_bind (triple_pure trivial)

section New

variable {B : Backend} {staticPrivate peerStaticPublic : Key} {presharedKey : Option Key}
  {persistentKeepalive : Option UInt16} {index : UInt32} {rateLimiter : Option RateLimiter}
  {systemTime : Int} {now : Nat} {secretKey : Vector UInt8 16} {nonceKey : Key} {t₀ t : Tunn}

/-- Along every run of a tunnel that `Tunn::new` made, no call panics that is given
an instant whose seconds since the epoch of the system time at creation fit in
`u64`, a packet cut as the parser cuts it, and a private key with its own public
key. Every slice the code indexes, splits or copies is in range, every unwrap
finds its value, and the last arm of `decapsulate` is never reached. -/
theorem calls_never_panic (hB : B.Lawful)
    (hnew : Tunn.new B staticPrivate peerStaticPublic presharedKey persistentKeepalive index
      rateLimiter systemTime now secretKey nonceKey = .ok t₀)
    (hr : Reachable B t₀ t) (c : Call) (hc : c.Sound B ⟨systemTime.toNat, now⟩) (t' : Tunn) :
    (c.run B).run t ≠ .error .panic t' := by
  -- the stamper the call reads is the one `Tunn::new` made: no move writes it
  have hstamper : t.handshake.stamper = ⟨systemTime.toNat, now⟩ := by
    rw [moves_stamper hr.moves, stamper_of_new hnew]
  exact Ensures.not_panic (Call.run_raises hB c t (hstamper ▸ hc)) t'

/-- The queued packet of `reachable_queued` flushed by an empty datagram: with no
session the flush formats an initiation, which reads the clock. -/
theorem calls_never_panic_flush :
    ∃ t₀ t, Tunn.new Backend.plain (.replicate 32 1) (.replicate 32 2) none none 0 none 0 0
        (.replicate 16 0) (.replicate 32 0) = .ok t₀ ∧ Reachable Backend.plain t₀ t ∧
      (Call.decapsulate ⟨0, .replicate 32 3⟩ none [] (.replicate 148 0)).Sound Backend.plain
        ⟨(0 : Int).toNat, 0⟩ ∧
      ∀ t', ((Call.decapsulate ⟨0, .replicate 32 3⟩ none [] (.replicate 148 0)).run
        Backend.plain).run t ≠ .error .panic t' := by
  obtain ⟨t₀, t, hnew, hr, -⟩ := reachable_queued
  have hc : (Call.decapsulate ⟨0, .replicate 32 3⟩ none [] (.replicate 148 0)).Sound Backend.plain
      ⟨(0 : Int).toNat, 0⟩ := by decide
  exact ⟨t₀, t, hnew, hr, hc, calls_never_panic plain_lawful hnew hr _ hc⟩

end New

end Tunn

end Neptun.Noise
