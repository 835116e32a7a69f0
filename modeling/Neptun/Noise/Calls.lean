import Neptun.Lib.Run
import Neptun.Noise.Formats

/-! The handshake as an object the tunnel calls. Each method below is walked
once, through every path, error paths included, to the states it can leave: the
tunnel's `onHandshake` keeps the handshake a failed call leaves. A property of
handshakes that holds of each of those states is kept by the method. The calls
the tunnel makes are then one type, `Call`, whose runs `Lib.Run` describes. -/
namespace Neptun.Noise

open Lib

namespace Handshake

section Keeps

variable {B : Backend} {P : Handshake → Prop}

theorem triple_incIndex_bind {α : Type} {Q : α → Handshake → Prop}
    {F : Fault WireGuardError → Handshake → Prop}
    {k : UInt32 → EStateM (Fault WireGuardError) Handshake α} {h : Handshake}
    (hk : Triple Q F (k (indexAfter h.nextIndex)) { h with nextIndex := indexAfter h.nextIndex }) :
    Triple Q F (incIndex >>= k) h :=
  hk

/-- The states `append_mac1_and_mac2` can leave, and the faults it can end with:
an index out of range, a key too long for the mac, a copy of the wrong length. -/
theorem appendMac1AndMac2_spec {E : Fault WireGuardError → Prop} (h : Handshake)
    (localIndex : UInt32) (dst : List UInt8) (h0 : P h)
    (h1 : ∀ m, P { h with cookies := { h.cookies with index := localIndex, lastMac1 := some m } })
    (hidx : E (.err .invalidIndex)) (hlen : E (.err .invalidLength)) (hpanic : E .panic) :
    Triple (fun _ => P) (fun f h' => E f ∧ P h') (appendMac1AndMac2 B localIndex dst) h := by
  have hmac : ∀ {key data : List UInt8} f, b2sKeyedMac16 B key data = .error f → E f ∧ P h :=
    fun f hf => ⟨by rw [b2sKeyedMac16_error hf]; exact hlen, h0⟩
  have hcopy : ∀ {dst src : List UInt8} f,
      (copyFromSlice dst src : Except (Fault WireGuardError) _) = .error f → E f ∧ P h :=
    fun f hf => ⟨by rw [copyFromSlice_error hf]; exact hpanic, h0⟩
  simp only [appendMac1AndMac2, copyFromSlice_eq_liftExcept]
  apply triple_get_bind
  split
  · exact triple_of_error rfl ⟨hidx, h0⟩
  split
  · refine triple_liftExcept_bind hmac fun msgMac1 _ => ?_
    split
    · refine triple_liftExcept_bind hcopy fun mac1 _ => ?_
      -- mac2 under the cookie, or zeros: the two arms end alike
      split
      · split
        · refine triple_liftExcept_bind hmac fun msgMac2 _ => ?_
          split
          · refine triple_liftExcept_bind hcopy fun mac2 _ => ?_
            exact triple_set_bind (triple_pure (h1 _))
          · exact triple_of_error rfl ⟨hidx, h0⟩
        · exact triple_of_error rfl ⟨hidx, h0⟩
      · rw [pure_bind]
        split
        · refine triple_liftExcept_bind hcopy fun mac2 _ => ?_
          exact triple_set_bind (triple_pure (h1 _))
        · exact triple_of_error rfl ⟨hidx, h0⟩
    · exact triple_of_error rfl ⟨hidx, h0⟩
  · exact triple_of_error rfl ⟨hidx, h0⟩

theorem appendMac1AndMac2_keeps (h : Handshake) (localIndex : UInt32) (dst : List UInt8)
    (h0 : P h)
    (h1 : ∀ m, P { h with cookies := { h.cookies with index := localIndex, lastMac1 := some m } }) :
    Keeps P (appendMac1AndMac2 B localIndex dst) h :=
  (appendMac1AndMac2_spec (E := fun _ => True) h localIndex dst h0 h1 trivial trivial trivial).mono
    (fun _ _ hp => hp) (fun _ _ hp => hp.2)

/-- The states an initiation can leave: the handshake as it was, the index
drawn, the initiation in flight, and its mac1 remembered. -/
theorem formatHandshakeInitiation_keeps (h : Handshake) (eph : Key) (now : Nat)
    (dst : List UInt8) (h0 : P h) (h1 : P { h with nextIndex := indexAfter h.nextIndex })
    (h2 : ∀ hash chainingKey, P { h with
      nextIndex := indexAfter h.nextIndex
      previous := h.state
      state := .initSent ⟨indexAfter h.nextIndex, hash, chainingKey, eph, now⟩ })
    (h3 : ∀ hash chainingKey m, P { h with
      nextIndex := indexAfter h.nextIndex
      previous := h.state
      state := .initSent ⟨indexAfter h.nextIndex, hash, chainingKey, eph, now⟩
      cookies := { h.cookies with index := indexAfter h.nextIndex, lastMac1 := some m } }) :
    Keeps P (formatHandshakeInitiation B eph now dst) h := by
  simp only [formatHandshakeInitiation, splitAt_eq_liftExcept, copyFromSlice_eq_liftExcept]
  split
  · exact triple_of_error rfl h0
  -- the five pieces of the buffer
  refine triple_liftExcept_bind (fun _ _ => h0) fun _ _ => ?_
  refine triple_liftExcept_bind (fun _ _ => h0) fun _ _ => ?_
  refine triple_liftExcept_bind (fun _ _ => h0) fun _ _ => ?_
  refine triple_liftExcept_bind (fun _ _ => h0) fun _ _ => ?_
  refine triple_liftExcept_bind (fun _ _ => h0) fun _ _ => ?_
  refine triple_incIndex_bind (triple_get_bind ?_)
  -- three fields copied, the static key sealed, the stamp taken and sealed
  refine triple_liftExcept_bind (fun _ _ => h1) fun _ _ => ?_
  refine triple_liftExcept_bind (fun _ _ => h1) fun _ _ => ?_
  refine triple_liftExcept_bind (fun _ _ => h1) fun _ _ => ?_
  refine triple_liftExcept_bind (fun _ _ => h1) fun _ _ => ?_
  refine triple_liftExcept_bind (fun _ _ => h1) fun _ _ => ?_
  refine triple_liftExcept_bind (fun _ _ => h1) fun _ _ => ?_
  apply triple_set_bind
  split
  · exact appendMac1AndMac2_keeps _ _ _ (h2 _ _) (h3 _ _)
  · exact triple_of_error rfl (h2 _ _)

/-- The states a response can leave: the handshake as it was, the initiation
received consumed, the index drawn, and the response's mac1 remembered; and the
faults it can end with. -/
theorem formatHandshakeResponse_spec {E : Fault WireGuardError → Prop} (h : Handshake) (eph : Key)
    (dst : List UInt8) (h0 : P h) (h1 : P { h with state := .none })
    (h2 : P { h with state := .none, nextIndex := indexAfter h.nextIndex })
    (h3 : ∀ m, P { h with
      state := .none
      nextIndex := indexAfter h.nextIndex
      cookies := { h.cookies with index := indexAfter h.nextIndex, lastMac1 := some m } })
    (hsmall : E (.err .destinationBufferTooSmall)) (hunexpected : E (.err .unexpectedPacket))
    (htag : E (.err .invalidAeadTag)) (hidx : E (.err .invalidIndex))
    (hlen : E (.err .invalidLength)) (hpanic : E .panic) :
    Triple (fun _ => P) (fun f h' => E f ∧ P h') (formatHandshakeResponse B eph dst) h := by
  have hsplit : ∀ {xs : List UInt8} {n : Nat} f,
      (splitAt xs n : Except (Fault WireGuardError) _) = .error f → E f ∧ P { h with state := .none } :=
    fun f hf => ⟨by rw [splitAt_error hf]; exact hpanic, h1⟩
  have hcopy : ∀ {dst src : List UInt8} f,
      (copyFromSlice dst src : Except (Fault WireGuardError) _) = .error f → E f ∧ P { h with
        state := .none, nextIndex := indexAfter h.nextIndex } :=
    fun f hf => ⟨by rw [copyFromSlice_error hf]; exact hpanic, h2⟩
  simp only [formatHandshakeResponse, splitAt_eq_liftExcept, copyFromSlice_eq_liftExcept]
  split
  · exact triple_of_error rfl ⟨hsmall, h0⟩
  refine triple_get_bind (triple_set_bind ?_)
  split
  · refine triple_liftExcept_bind hsplit fun _ _ => ?_
    refine triple_liftExcept_bind hsplit fun _ _ => ?_
    refine triple_liftExcept_bind hsplit fun _ _ => ?_
    refine triple_liftExcept_bind hsplit fun _ _ => ?_
    refine triple_liftExcept_bind hsplit fun _ _ => ?_
    refine triple_incIndex_bind ?_
    refine triple_liftExcept_bind hcopy fun _ _ => ?_
    refine triple_liftExcept_bind hcopy fun _ _ => ?_
    refine triple_liftExcept_bind hcopy fun _ _ => ?_
    refine triple_liftExcept_bind hcopy fun _ _ => ?_
    refine triple_liftExcept_bind (fun f hf => ⟨?_, h2⟩) fun _ _ => ?_
    · rcases aeadChacha20Seal_error hf with rfl | rfl
      · exact htag
      · exact hpanic
    split
    · exact triple_bind (appendMac1AndMac2_spec _ _ _ h2 h3 hidx hlen hpanic)
        fun _ _ _ hp => triple_pure hp
    · exact triple_of_error rfl ⟨hidx, h2⟩
  · exact triple_of_error rfl ⟨hunexpected, h1⟩

theorem formatHandshakeResponse_keeps (h : Handshake) (eph : Key) (dst : List UInt8)
    (h0 : P h) (h1 : P { h with state := .none })
    (h2 : P { h with state := .none, nextIndex := indexAfter h.nextIndex })
    (h3 : ∀ m, P { h with
      state := .none
      nextIndex := indexAfter h.nextIndex
      cookies := { h.cookies with index := indexAfter h.nextIndex, lastMac1 := some m } }) :
    Keeps P (formatHandshakeResponse B eph dst) h :=
  (formatHandshakeResponse_spec (E := fun _ => True) h eph dst h0 h1 h2 h3 trivial trivial trivial
    trivial trivial trivial).mono (fun _ _ hp => hp) (fun _ _ hp => hp.2)

theorem receiveHandshakeResponse_keeps (h : Handshake) (p : HandshakeResponse) (now : Nat)
    (h0 : P h) (h1 : ∀ rtt, P { h with lastRtt := rtt, previous := .none })
    (h2 : ∀ rtt, P { h with lastRtt := rtt, state := .none }) :
    Keeps P (receiveHandshakeResponse B p now) h := by
  unfold receiveHandshakeResponse
  apply triple_get_bind
  split
  · rename_i isPrevious _
    refine triple_liftExcept_bind (fun _ _ => h0) fun _ _ => ?_
    cases isPrevious
    · exact triple_set_bind (triple_pure (h2 _))
    · exact triple_set_bind (triple_pure (h1 _))
  · exact triple_of_error rfl h0

theorem receiveCookieReply_keeps (h : Handshake) (p : PacketCookieReply) (h0 : P h)
    (h1 : ∀ cookie, P { h with cookies := { h.cookies with writeCookie := some cookie } }) :
    Keeps P (receiveCookieReply B p) h := by
  simp only [receiveCookieReply]
  apply triple_get_bind
  split
  · split
    · exact triple_of_error rfl h0
    -- the mac, the nonce, the opened cookie: each read fails or leads to the next
    split
    · split
      · split
        · split
          · exact triple_set (h1 _)
          · exact triple_of_error rfl h0
        · exact triple_of_error rfl h0
      · exact triple_of_error rfl h0
    · exact triple_of_error rfl h0
  · exact triple_of_error rfl h0

theorem setStaticPrivate_keeps (h : Handshake) (privateKey publicKey : Key)
    (h1 : ∀ params, P { h with params := params }) :
    Keeps P (setStaticPrivate B privateKey publicKey) h := by
  unfold setStaticPrivate NoiseParams.setStaticPrivate
  apply triple_focus
  split
  · exact triple_of_error rfl (h1 _)
  · exact triple_modify (h1 _)

end Keeps

section Initiation

variable (B : Backend)

/-- The checks `receive_handshake_initialization` makes before it writes the
handshake: the initiator's static key opened and compared with the peer's, the
timestamp opened and parsed. With the timestamp come the transcript hash and the
chaining key the handshake is then written with. -/
def openInitiation (h : Handshake) (packet : HandshakeInit) :
    Except (Fault WireGuardError) (Tai64N × Key × Key) := do
  let chainingKey := initialChainKey
  let hash := b2sHash B initialChainHash.toList h.params.staticPublic.toList
  let peerEphemeralPublic := packet.unencryptedEphemeral
  let hash := b2sHash B hash.toList peerEphemeralPublic.toList
  let chainingKey := b2sHmac B (b2sHmac B chainingKey.toList peerEphemeralPublic.toList).toList [1]
  let ephemeralShared := B.x25519 h.params.staticPrivate peerEphemeralPublic
  let temp := b2sHmac B chainingKey.toList ephemeralShared.toList
  let chainingKey := b2sHmac B temp.toList [1]
  let key := b2sHmac2 B temp.toList chainingKey.toList [2]
  let peerStaticPublicDecrypted ←
    aeadChacha20Open B (List.replicate 32 0) key 0 packet.encryptedStatic hash.toList
  if h.params.peerStaticPublic.toList ≠ peerStaticPublicDecrypted then throw (.err .wrongKey)
  let hash := b2sHash B hash.toList packet.encryptedStatic
  let temp := b2sHmac B chainingKey.toList h.params.staticShared.toList
  let chainingKey := b2sHmac B temp.toList [1]
  let key := b2sHmac2 B temp.toList chainingKey.toList [2]
  let timestamp ←
    aeadChacha20Open B (List.replicate 12 0) key 0 packet.encryptedTimestamp hash.toList
  let timestamp ← Tai64N.parse timestamp
  pure (timestamp, b2sHash B hash.toList packet.encryptedTimestamp, chainingKey)

variable {B}

/-- `receive_handshake_initialization` is its checks, then the timestamp compared
with the last one, then the handshake written and the response formatted: every
failure before the write leaves the handshake as it was. -/
theorem receiveHandshakeInitialization_run_eq (h : Handshake) (eph : Key) (p : HandshakeInit)
    (dst : List UInt8) :
    (receiveHandshakeInitialization B eph p dst).run h =
      match openInitiation B h p with
      | .ok (t, hash, chainingKey) =>
        if t.after h.lastHandshakeTimestamp then
          (formatHandshakeResponse B eph dst).run { h with
            lastHandshakeTimestamp := t
            previous := h.state
            state := .initReceived hash chainingKey p.unencryptedEphemeral p.senderIdx }
        else .error (.err .wrongTai64nTimestamp) h
      | .error f => .error f h := by
  simp only [receiveHandshakeInitialization, openInitiation, EStateM.run_bind, EStateM.run_get,
    except_bind_eq]
  -- the two computations share each opened value: case on it in both at once
  generalize aeadChacha20Open B (List.replicate 32 0) _ 0 p.encryptedStatic _ = opened
  cases opened with
  | error f => rfl
  | ok key =>
    simp only [liftExcept_ok, EStateM.run_pure]
    by_cases hkey : h.params.peerStaticPublic.toList = key
    · subst hkey
      simp only [ne_eq, not_true_eq_false, if_false]
      generalize aeadChacha20Open B (List.replicate 12 0) _ 0 p.encryptedTimestamp _ = opened
      cases opened with
      | error f => rfl
      | ok bytes =>
        simp only [liftExcept_ok, pure_bind]
        generalize Tai64N.parse bytes = parsed
        cases parsed with
        | error f => rfl
        | ok t =>
          simp only [liftExcept_ok, pure_bind]
          cases hafter : t.after h.lastHandshakeTimestamp
          · simp only [pure, Except.pure, hafter, Bool.not_false, if_true, Bool.false_eq_true,
              if_false]
            rfl
          · simp only [pure, Except.pure, hafter, Bool.not_true, Bool.false_eq_true, if_false,
              if_true]
            rfl
    · simp only [hkey, ne_eq, not_false_eq_true, if_true]
      rfl

theorem receiveHandshakeInitialization_keeps {P : Handshake → Prop} (h : Handshake) (eph : Key)
    (p : HandshakeInit) (dst : List UInt8) (h0 : P h)
    (h1 : ∀ t hash chainingKey, openInitiation B h p = .ok (t, hash, chainingKey) →
      t.after h.lastHandshakeTimestamp = true →
      Keeps P (formatHandshakeResponse B eph dst) { h with
        lastHandshakeTimestamp := t
        previous := h.state
        state := .initReceived hash chainingKey p.unencryptedEphemeral p.senderIdx }) :
    Keeps P (receiveHandshakeInitialization B eph p dst) h := by
  rw [keeps_iff, receiveHandshakeInitialization_run_eq]
  rcases hopen : openInitiation B h p with f | ⟨t, hash, chainingKey⟩
  · exact h0
  · dsimp only
    split
    · rename_i hafter
      exact keeps_iff.mp (h1 t hash chainingKey hopen hafter)
    · exact h0

end Initiation

/-- The calls the tunnel makes on its handshake, each with what it is given. -/
inductive Call where
  | formatHandshakeInitiation (ephemeralPrivate : Key) (now : Nat) (dst : List UInt8)
  | receiveHandshakeInitialization (ephemeralPrivate : Key) (packet : HandshakeInit)
      (dst : List UInt8)
  | receiveHandshakeResponse (packet : HandshakeResponse) (now : Nat)
  | receiveCookieReply (packet : PacketCookieReply)
  | setStaticPrivate (privateKey publicKey : Key)
  | setPresharedKey (presharedKey : Option Key)
  | setExpired
  | clearCookie

/-- What a call hands the tunnel: a message to send, a session to install. -/
structure Reply where
  message : Option (List UInt8)
  session : Option Session

def Call.run (B : Backend) : Call → EStateM (Fault WireGuardError) Handshake Reply
  | .formatHandshakeInitiation eph now dst => do
    let packet ← Handshake.formatHandshakeInitiation B eph now dst
    pure ⟨some packet, none⟩
  | .receiveHandshakeInitialization eph p dst => do
    let (packet, session) ← Handshake.receiveHandshakeInitialization B eph p dst
    pure ⟨some packet, some session⟩
  | .receiveHandshakeResponse p now => do
    let session ← Handshake.receiveHandshakeResponse B p now
    pure ⟨none, some session⟩
  | .receiveCookieReply p => do
    Handshake.receiveCookieReply B p
    pure ⟨none, none⟩
  | .setStaticPrivate privateKey publicKey => do
    Handshake.setStaticPrivate B privateKey publicKey
    pure ⟨none, none⟩
  | .setPresharedKey psk => do
    modify (Handshake.setPresharedKey · psk)
    pure ⟨none, none⟩
  | .setExpired => do
    modify Handshake.setExpired
    pure ⟨none, none⟩
  | .clearCookie => do
    modify Handshake.clearCookie
    pure ⟨none, none⟩

end Handshake

end Neptun.Noise
