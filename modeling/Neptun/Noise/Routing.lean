import Neptun.Noise.Calls
import Neptun.Noise.Tunn

/-! Replies find their peer. `Tunn::new` starts the handshake's indices at
`index << 8`, and `inc_index` counts in the low byte only, wrapping within it,
so every index the handshake draws keeps the peer's index in its upper 24 bits,
which is what the device reads back with `>> 8`. Along any run of the calls the
tunnel makes on its handshake, the indices written into initiations and
responses, the indices of the sessions handed out, and the index a cookie reply
must name all route to the peer. -/
namespace Neptun.Noise

open Lib

/-- A handshake in flight was sent from an index with `k` in its upper 24 bits. -/
def HandshakeState.SentFrom (k : UInt32) : HandshakeState → Prop
  | .initSent s => s.localIndex >>> 8 = k
  | _ => True

theorem HandshakeState.eq_of_sentTo {st : HandshakeState} {i : UInt32}
    {s : HandshakeInitSentState} (h : st.sentTo i = some s) : st = .initSent s := by
  unfold HandshakeState.sentTo at h
  split at h
  · split at h
    · cases h
      rfl
    · cases h
  · cases h

namespace Handshake

theorem shiftRight_indexAfter (x : UInt32) : indexAfter x >>> 8 = x >>> 8 := by
  rw [indexAfter]
  apply UInt32.toBitVec_inj.mp
  simp only [UInt32.toBitVec_shiftRight, UInt32.toBitVec_or, UInt32.toBitVec_and,
    UInt32.toBitVec_not]
  ext i hi
  -- the new low byte is below 256, so no bit of it reaches the upper 24
  have hlow : ∀ y : BitVec 32, y.toNat < 256 → y.getLsbD (8 + i) = false := by
    intro y hy
    rw [BitVec.getLsbD, Nat.testBit_lt_two_pow]
    calc y.toNat < 2 ^ 8 := hy
      _ ≤ 2 ^ (8 + i) := Nat.pow_le_pow_right (by omega) (by omega)
  have hb := hlow ((x.toBitVec % 256#32 + 1#32) % 256#32)
    (by rw [BitVec.toNat_umod]; exact Nat.mod_lt _ (by decide))
  simp [BitVec.getElem_ushiftRight, hb]
  intro hx
  by_cases h24 : i < 24
  · have hmask : ∀ j < 24, Nat.testBit 4294967040 (8 + j) = true := by decide
    simp [BitVec.getLsbD_ofNat, hmask i h24]
    omega
  · rw [BitVec.getLsbD_of_ge _ _ (by omega)] at hx
    cases hx

theorem shiftLeft_shiftRight {k : UInt32} (hk : k < 2 ^ 24) : k <<< 8 >>> 8 = k := by
  apply UInt32.toNat_inj.mp
  have hk' : k.toNat < 2 ^ 24 := UInt32.lt_iff_toNat_lt.mp hk
  simp only [UInt32.toNat_shiftRight, UInt32.toNat_shiftLeft]
  simp
  omega

/-- Every index the handshake holds, and every one it will draw, has `k` in its
upper 24 bits. The cookie index counts once a message has been sent. -/
structure Routed (k : UInt32) (h : Handshake) : Prop where
  next : h.nextIndex >>> 8 = k
  state : h.state.SentFrom k
  previous : h.previous.SentFrom k
  cookie : h.cookies.lastMac1.isSome → h.cookies.index >>> 8 = k

section Routed

variable {B : Backend} {k : UInt32} {h : Handshake}

theorem Routed.indexAfter (hR : Routed k h) : indexAfter h.nextIndex >>> 8 = k := by
  rw [shiftRight_indexAfter, hR.next]

theorem routed_new {staticPrivate staticPublic peerStaticPublic : Key}
    {presharedKey : Option Key} {systemTime : Int} {now : Nat} (hk : k < 2 ^ 24)
    (hnew : Handshake.new B staticPrivate staticPublic peerStaticPublic (k <<< 8) presharedKey
      systemTime now = .ok h) : Routed k h := by
  unfold Handshake.new at hnew
  cases hs : TimeStamper.new systemTime now with
  | error e =>
    rw [hs] at hnew
    cases hnew
  | ok stamper =>
    rw [hs] at hnew
    cases hnew
    exact ⟨shiftLeft_shiftRight hk, trivial, trivial, fun h => by cases h⟩

theorem formatHandshakeInitiation_routed (hR : Routed k h) (eph : Key) (now : Nat)
    (dst : List UInt8) : Keeps (Routed k) (formatHandshakeInitiation B eph now dst) h :=
  formatHandshakeInitiation_keeps h eph now dst hR
    ⟨hR.indexAfter, hR.state, hR.previous, hR.cookie⟩
    (fun _ _ => ⟨hR.indexAfter, hR.indexAfter, hR.state, hR.cookie⟩)
    (fun _ _ _ => ⟨hR.indexAfter, hR.indexAfter, hR.state, fun _ => hR.indexAfter⟩)

theorem formatHandshakeResponse_routed (hR : Routed k h) (eph : Key) (dst : List UInt8) :
    Keeps (Routed k) (formatHandshakeResponse B eph dst) h :=
  formatHandshakeResponse_keeps h eph dst hR ⟨hR.next, trivial, hR.previous, hR.cookie⟩
    ⟨hR.indexAfter, trivial, hR.previous, hR.cookie⟩
    (fun _ => ⟨hR.indexAfter, trivial, hR.previous, fun _ => hR.indexAfter⟩)

theorem receiveHandshakeInitialization_routed (hR : Routed k h) (eph : Key) (p : HandshakeInit)
    (dst : List UInt8) : Keeps (Routed k) (receiveHandshakeInitialization B eph p dst) h :=
  receiveHandshakeInitialization_keeps h eph p dst hR fun _ _ _ _ _ => by
    -- the initiation is written over the handshake: the state moves to `previous`
    apply formatHandshakeResponse_routed
    exact ⟨hR.next, trivial, hR.state, hR.cookie⟩

theorem receiveHandshakeResponse_routed (hR : Routed k h) (p : HandshakeResponse) (now : Nat) :
    Keeps (Routed k) (receiveHandshakeResponse B p now) h :=
  receiveHandshakeResponse_keeps h p now hR (fun _ => ⟨hR.next, hR.state, trivial, hR.cookie⟩)
    (fun _ => ⟨hR.next, trivial, hR.previous, hR.cookie⟩)

theorem receiveCookieReply_routed (hR : Routed k h) (p : PacketCookieReply) :
    Keeps (Routed k) (receiveCookieReply B p) h :=
  receiveCookieReply_keeps h p hR fun _ => ⟨hR.next, hR.state, hR.previous, hR.cookie⟩

theorem setStaticPrivate_routed (hR : Routed k h) (privateKey publicKey : Key) :
    Keeps (Routed k) (setStaticPrivate B privateKey publicKey) h :=
  setStaticPrivate_keeps h privateKey publicKey fun _ =>
    ⟨hR.next, hR.state, hR.previous, hR.cookie⟩

end Routed

section Replies

variable {B : Backend}

/-- A response is answered from the handshake in flight in `state`, or else in
`previous`, and the session takes that handshake's index. -/
theorem receiveHandshakeResponse_localIndex (h : Handshake) (p : HandshakeResponse) (now : Nat) :
    Triple (fun session _ => ∃ s, (h.state = .initSent s ∨ h.previous = .initSent s) ∧
        session.receivingIndex = s.localIndex)
      (fun _ _ => True) (receiveHandshakeResponse B p now) h := by
  unfold receiveHandshakeResponse
  apply triple_get_bind
  split
  · rename_i s isPrevious hsel
    have hs : h.state = .initSent s ∨ h.previous = .initSent s := by
      cases hst : h.state.sentTo p.receiverIdx with
      | some s' =>
        simp only [hst, Option.map_some, Option.orElse_some, Option.some.injEq,
          Prod.mk.injEq] at hsel
        rw [← hsel.1]
        exact .inl (HandshakeState.eq_of_sentTo hst)
      | none =>
        simp only [hst, Option.map_none, Option.orElse_none, Option.map_eq_some_iff,
          Prod.mk.injEq] at hsel
        obtain ⟨s', hprev, rfl, -⟩ := hsel
        exact .inr (HandshakeState.eq_of_sentTo hprev)
    refine triple_liftExcept_bind (fun _ _ => trivial) fun _ _ => ?_
    cases isPrevious
    · exact triple_set_bind (triple_pure ⟨s, hs, rfl⟩)
    · exact triple_set_bind (triple_pure ⟨s, hs, rfl⟩)
  · exact triple_of_error rfl trivial

theorem formatHandshakeInitiation_senderIdx (hB : B.Lawful) {h h' : Handshake} {eph : Key}
    {now : Nat} {dst m : List UInt8} (hrun : (formatHandshakeInitiation B eph now dst).run h = .ok m h') :
    ∃ p, Tunn.parseIncomingPacket m = .ok p ∧ p.handshakeSenderIdx = some (indexAfter h.nextIndex) := by
  obtain ⟨ts, -, rfl, -⟩ := formatHandshakeInitiation_ok hB hrun
  exact ⟨_, parseIncomingPacket_initiation hB h eph ts (length_macs B h _), rfl⟩

/-- A response formatted for an initiation carries the next index as its sender
index, and its session takes the same index. -/
theorem receiveHandshakeInitialization_senderIdx (hB : B.Lawful) {h h' : Handshake} {eph : Key}
    {p : HandshakeInit} {dst m : List UInt8} {session : Session}
    (hrun : (receiveHandshakeInitialization B eph p dst).run h = .ok (m, session) h') :
    (∃ p', Tunn.parseIncomingPacket m = .ok p' ∧
      p'.handshakeSenderIdx = some (indexAfter h.nextIndex)) ∧
    session.receivingIndex = indexAfter h.nextIndex := by
  rw [receiveHandshakeInitialization_run_eq] at hrun
  rcases hopen : openInitiation B h p with f | ⟨t, hash, chainingKey⟩
  · rw [hopen] at hrun
    cases hrun
  · rw [hopen] at hrun
    dsimp only at hrun
    split at hrun
    · obtain ⟨hdst, -⟩ := formatHandshakeResponse_ok hrun
      rw [formatHandshakeResponse_run hB _ eph dst hdst rfl] at hrun
      cases hrun
      exact ⟨⟨_, parseIncomingPacket_response hB _ _ _ _ _ _ (length_macs B _ _), rfl⟩, rfl⟩
    · cases hrun

/-- The indices a reply carries: the sender index of its message, as the peer
reads it, and the index of its session. -/
def Reply.RoutedTo (k : UInt32) (r : Reply) : Prop :=
  (∀ m ∈ r.message, ∀ p, Tunn.parseIncomingPacket m = .ok p →
    ∀ i ∈ p.handshakeSenderIdx, i >>> 8 = k) ∧
  ∀ s ∈ r.session, s.receivingIndex >>> 8 = k

theorem Reply.routedTo_mk {k : UInt32} {m : Option (List UInt8)} {s : Option Session}
    (hm : ∀ x ∈ m, ∃ p, Tunn.parseIncomingPacket x = .ok p ∧ ∀ i ∈ p.handshakeSenderIdx, i >>> 8 = k)
    (hs : ∀ x ∈ s, x.receivingIndex >>> 8 = k) : Reply.RoutedTo k ⟨m, s⟩ := by
  refine ⟨fun x hx p hp => ?_, hs⟩
  obtain ⟨p', hp', hi⟩ := hm x hx
  rw [hp] at hp'
  cases hp'
  exact hi

/-- One call of a run: it keeps the handshake routed to `k`, and what it hands
out is routed to `k`. -/
theorem Call.run_routed (hB : B.Lawful) {k : UInt32} (c : Call) {h : Handshake}
    (hR : Routed k h) :
    Triple (fun r h' => r.RoutedTo k ∧ Routed k h') (fun _ => Routed k) (c.run B) h := by
  cases c with
  | formatHandshakeInitiation eph now dst =>
    refine triple_bind_pure (((triple_of_forall_ok fun m _ hrun => ?_).and
      (formatHandshakeInitiation_routed hR eph now dst)).mono (fun _ _ hq => hq)
        (fun _ _ hf => hf.2))
    refine Reply.routedTo_mk (fun x hx => ?_) (fun x hx => by cases hx)
    cases hx
    obtain ⟨p, hp, hi⟩ := formatHandshakeInitiation_senderIdx hB hrun
    refine ⟨p, hp, fun i hpi => ?_⟩
    rw [hi] at hpi
    cases hpi
    exact hR.indexAfter
  | receiveHandshakeInitialization eph p dst =>
    refine triple_bind (R := fun r h' => Reply.RoutedTo k ⟨some r.1, some r.2⟩ ∧ Routed k h')
      (((triple_of_forall_ok fun r _ hrun => ?_).and
        (receiveHandshakeInitialization_routed hR eph p dst)).mono (fun _ _ hq => hq)
          (fun _ _ hf => hf.2)) fun ⟨m, session⟩ _ _ hq => triple_pure hq
    obtain ⟨⟨p', hp, hi⟩, hsession⟩ := receiveHandshakeInitialization_senderIdx hB hrun
    refine Reply.routedTo_mk (fun x hx => ?_) (fun x hx => ?_)
    · cases hx
      refine ⟨p', hp, fun i hpi => ?_⟩
      rw [hi] at hpi
      cases hpi
      exact hR.indexAfter
    · cases hx
      rw [hsession]
      exact hR.indexAfter
  | receiveHandshakeResponse p now =>
    refine triple_bind_pure (((receiveHandshakeResponse_localIndex h p now).and
      (receiveHandshakeResponse_routed hR p now)).mono (fun session _ hq => ?_)
        (fun _ _ hf => hf.2))
    obtain ⟨⟨s, hs, hidx⟩, hR'⟩ := hq
    refine ⟨Reply.routedTo_mk (fun x hx => by cases hx) (fun x hx => ?_), hR'⟩
    cases hx
    rw [hidx]
    rcases hs with hs | hs
    · simpa [hs, HandshakeState.SentFrom] using hR.state
    · simpa [hs, HandshakeState.SentFrom] using hR.previous
  | receiveCookieReply p =>
    exact triple_bind (receiveCookieReply_routed hR p) fun _ _ _ hR' =>
      triple_pure ⟨Reply.routedTo_mk (fun x hx => by cases hx) (fun x hx => by cases hx), hR'⟩
  | setStaticPrivate privateKey publicKey =>
    exact triple_bind (setStaticPrivate_routed hR privateKey publicKey) fun _ _ _ hR' =>
      triple_pure ⟨Reply.routedTo_mk (fun x hx => by cases hx) (fun x hx => by cases hx), hR'⟩
  | setPresharedKey psk =>
    exact triple_modify_bind (triple_pure ⟨Reply.routedTo_mk (fun x hx => by cases hx)
      (fun x hx => by cases hx), ⟨hR.next, hR.state, hR.previous, hR.cookie⟩⟩)
  | setExpired =>
    exact triple_modify_bind (triple_pure ⟨Reply.routedTo_mk (fun x hx => by cases hx)
      (fun x hx => by cases hx), ⟨hR.next, trivial, trivial, hR.cookie⟩⟩)
  | clearCookie =>
    exact triple_modify_bind (triple_pure ⟨Reply.routedTo_mk (fun x hx => by cases hx)
      (fun x hx => by cases hx), ⟨hR.next, hR.state, hR.previous, hR.cookie⟩⟩)

end Replies

end Handshake

namespace Tunn

theorem new_handshake {B : Backend} {staticPrivate peerStaticPublic : Key}
    {presharedKey : Option Key} {persistentKeepalive : Option UInt16} {index : UInt32}
    {rateLimiter : Option RateLimiter} {systemTime : Int} {now : Nat}
    {secretKey : Vector UInt8 16} {nonceKey : Key} {t : Tunn}
    (hnew : Tunn.new B staticPrivate peerStaticPublic presharedKey persistentKeepalive index
      rateLimiter systemTime now secretKey nonceKey = .ok t) :
    Handshake.new B staticPrivate (B.x25519Public staticPrivate) peerStaticPublic (index <<< 8)
      presharedKey systemTime now = .ok t.handshake := by
  unfold Tunn.new at hnew
  dsimp only at hnew
  cases hh : Handshake.new B staticPrivate (B.x25519Public staticPrivate) peerStaticPublic
    (index <<< 8) presharedKey systemTime now with
  | error e =>
    rw [hh] at hnew
    cases hnew
  | ok h =>
    rw [hh] at hnew
    cases hnew
    rfl

end Tunn

namespace Handshake

/-- The tunnel of the peer created with index `index` writes, along any run of
calls on its handshake, only sender indices and session indices whose upper 24
bits are `index`, so that `peers_by_idx.get(receiver_idx >> 8)` finds that peer
for every reply, cookie reply and data packet addressed to them. -/
theorem sender_indices_route_to_peer {B : Backend} (hB : B.Lawful)
    {staticPrivate peerStaticPublic : Key} {presharedKey : Option Key}
    {persistentKeepalive : Option UInt16} {index : UInt32} {rateLimiter : Option RateLimiter}
    {systemTime : Int} {now : Nat} {secretKey : Vector UInt8 16} {nonceKey : Key} {t : Tunn}
    (hindex : index < 2 ^ 24)
    (hnew : Tunn.new B staticPrivate peerStaticPublic presharedKey persistentKeepalive index
      rateLimiter systemTime now secretKey nonceKey = .ok t)
    (calls : List Call) :
    ∀ x ∈ runCalls (Call.run B) calls t.handshake, ∀ r h, x = .ok r h →
      (∀ m ∈ r.message, ∀ p, Tunn.parseIncomingPacket m = .ok p →
        ∀ i ∈ p.handshakeSenderIdx, i >>> 8 = index) ∧
      ∀ s ∈ r.session, s.receivingIndex >>> 8 = index := by
  have hR : Routed index t.handshake := routed_new hindex (Tunn.new_handshake hnew)
  intro x hx r h hr
  exact (runCalls_invariant (fun c _ hs => Call.run_routed hB c hs) calls _ hR x hx).2 r h hr

theorem sender_indices_route_to_peer_five :
    (5 : UInt32) < 2 ^ 24 ∧
    ∃ t, Tunn.new Backend.plain (.replicate 32 1) (.replicate 32 2) none none 5 none 0 0
        (.replicate 16 0) (.replicate 32 0) = .ok t ∧
      let calls := [Call.formatHandshakeInitiation (.replicate 32 3) 0 (List.replicate 148 0)]
      ∀ x ∈ runCalls (Call.run Backend.plain) calls t.handshake, ∀ r h, x = .ok r h →
        (∀ m ∈ r.message, ∀ p, Tunn.parseIncomingPacket m = .ok p →
          ∀ i ∈ p.handshakeSenderIdx, i >>> 8 = 5) ∧
        ∀ s ∈ r.session, s.receivingIndex >>> 8 = 5 := by
  have hnew : Tunn.new Backend.plain (.replicate 32 1) (.replicate 32 2) none none 5 none 0 0
      (.replicate 16 0) (.replicate 32 0) = .ok _ := rfl
  exact ⟨by decide, _, hnew, sender_indices_route_to_peer plain_lawful (by decide) hnew _⟩

end Handshake

end Neptun.Noise
