import Neptun.Noise.Formats

/-! The two sides of a handshake agree. Each receiving method recomputes the
other side's chain of hashes and key derivations with its own Diffie-Hellman
calls: `receivedValues` is the responder's view of an initiation and
`respondedValues` the initiator's view of a response. Between two peers
configured toward each other (`NoiseParams.Peers`) these views are the values
the sender computed, by commutativity of Diffie-Hellman, so every AEAD opens and
the two sessions hold the same keys crosswise. -/
namespace Neptun.Noise

open Lib

namespace Handshake

variable (B : Backend)

/-- The handshake values the responder computes from an initiation: those of
`IK.initiation` from its own keys, with `es` as `DH(static_private, ephemeral)`. -/
def receivedValues (h : Handshake) (peerEphemeralPublic : Key) (ts : List UInt8) :
    IK.Initiation :=
  IK.initiation B h.params.peerStaticPublic h.params.staticPublic peerEphemeralPublic
    (B.x25519 h.params.staticPrivate peerEphemeralPublic) h.params.staticShared ts

/-- The handshake values the initiator computes from a response to the initiation
`s`: those of `IK.response`, with `ee` and `se` from its own private keys. -/
def respondedValues (h : Handshake) (s : HandshakeInitSentState) (peerEphemeralPublic : Key) :
    IK.Response :=
  IK.response B s.hash s.chainingKey peerEphemeralPublic
    (B.x25519 s.ephemeralPrivate peerEphemeralPublic)
    (B.x25519 h.params.staticPrivate peerEphemeralPublic)
    (h.params.presharedKey.getD (.replicate 32 0))

variable {B}

theorem receiveHandshakeInitialization_run (hB : B.Lawful) (h : Handshake) (eph : Key)
    (p : HandshakeInit) (dst : List UInt8) {ts : Vector UInt8 12} {t : Tai64N}
    (hs : p.encryptedStatic = (receivedValues B h p.unencryptedEphemeral ts.toList).encryptedStatic)
    (ht : p.encryptedTimestamp = (receivedValues B h p.unencryptedEphemeral ts.toList).encryptedTimestamp)
    (hparse : Tai64N.parse ts.toList = .ok t) (hafter : t.after h.lastHandshakeTimestamp = true) :
    (receiveHandshakeInitialization B eph p dst).run h =
      (formatHandshakeResponse B eph dst).run
        { h with
          lastHandshakeTimestamp := t
          previous := h.state
          state := .initReceived (receivedValues B h p.unencryptedEphemeral ts.toList).hash
            (receivedValues B h p.unencryptedEphemeral ts.toList).chainingKey p.unencryptedEphemeral p.senderIdx } := by
  obtain ⟨idx, e, es, et⟩ := p
  simp only at hs ht
  subst hs ht
  simp [receiveHandshakeInitialization, EStateM.run_bind, EStateM.run_get, EStateM.run_set,
    receivedValues, IK.initiation, IK.kdf1, IK.kdf2, IK.aead, IK.mixHash, IK.hmac,
    b2sHash, b2sHmac, b2sHmac2, aeadChacha20Open_seal hB, hparse, hafter]

/-- A response to the initiation `s`, found in the current slot or else in the
previous one, gives the initiator's session and clears that slot. -/
theorem receiveHandshakeResponse_run (hB : B.Lawful) (h : Handshake) (p : HandshakeResponse)
    (now : Nat) {s : HandshakeInitSentState} {isPrevious : Bool}
    (hsel : ((h.state.sentTo p.receiverIdx).map (·, false)).orElse
      (fun _ => (h.previous.sentTo p.receiverIdx).map (·, true)) = some (s, isPrevious))
    (hn : p.encryptedNothing = (respondedValues B h s p.unencryptedEphemeral).encryptedNothing) :
    (receiveHandshakeResponse B p now).run h =
      .ok (Session.new s.localIndex p.senderIdx
          (IK.transport B (respondedValues B h s p.unencryptedEphemeral).chainingKey).2
          (IK.transport B (respondedValues B h s p.unencryptedEphemeral).chainingKey).1)
        (if isPrevious then
          { h with lastRtt := some (UInt32.ofNat ((now - s.timeSent) / 10 ^ 6)), previous := .none }
        else
          { h with lastRtt := some (UInt32.ofNat ((now - s.timeSent) / 10 ^ 6)), state := .none }) := by
  obtain ⟨rIdx, sIdx, e, en⟩ := p
  simp only at hn hsel
  subst hn
  simp only [receiveHandshakeResponse, EStateM.run_bind, EStateM.run_get]
  rw [hsel]
  cases isPrevious <;>
    simp [EStateM.run_bind, EStateM.run_set, respondedValues, IK.response, IK.transport, IK.kdf1,
      IK.kdf2, IK.kdf3, IK.aead, IK.mixHash, IK.hmac, b2sHash, b2sHmac, b2sHmac2,
      aeadChacha20Open_seal hB, -bind_pure_comp]

end Handshake

/-- Two peers configured toward each other: each holds the public key of its own
private key, the other's public key as its peer key, the Diffie-Hellman value of
the two static keys, and the same preshared key. -/
structure NoiseParams.Peers (B : Backend) (a b : NoiseParams) : Prop where
  publicA : a.staticPublic = B.x25519Public a.staticPrivate
  publicB : b.staticPublic = B.x25519Public b.staticPrivate
  peerA : a.peerStaticPublic = b.staticPublic
  peerB : b.peerStaticPublic = a.staticPublic
  sharedA : a.staticShared = B.x25519 a.staticPrivate a.peerStaticPublic
  sharedB : b.staticShared = B.x25519 b.staticPrivate b.peerStaticPublic
  psk : a.presharedKey = b.presharedKey

theorem NoiseParams.peers_new (B : Backend) (a b : Key) (psk : Option Key) :
    NoiseParams.Peers B (NoiseParams.new B a (B.x25519Public a) (B.x25519Public b) psk)
      (NoiseParams.new B b (B.x25519Public b) (B.x25519Public a) psk) :=
  ⟨rfl, rfl, rfl, rfl, rfl, rfl, rfl⟩

namespace Handshake

variable {B : Backend}

section Peers

variable (hB : B.Lawful) {hA hR : Handshake} (hp : NoiseParams.Peers B hA.params hR.params)
include hB hp

/-- The responder recomputes the initiator's handshake values: `es` and `ss` agree
by commutativity of Diffie-Hellman. -/
theorem receivedValues_eq (eph : Key) (ts : Vector UInt8 12) :
    receivedValues B hR (B.x25519Public eph) ts.toList = initiationValues B hA eph ts := by
  have hes : B.x25519 hR.params.staticPrivate (B.x25519Public eph) =
      B.x25519 eph hA.params.peerStaticPublic := by
    rw [hB.dh_comm, hp.peerA, hp.publicB]
  have hss : hR.params.staticShared = hA.params.staticShared := by
    rw [hp.sharedB, hp.sharedA, hp.peerB, hp.publicA, hB.dh_comm, hp.peerA, hp.publicB]
  rw [receivedValues, initiationValues, hes, hss, hp.peerB, ← hp.peerA]

/-- The initiator recomputes the responder's handshake values: `ee` and `se`
agree by commutativity of Diffie-Hellman. -/
theorem respondedValues_eq (s : HandshakeInitSentState) (ephR : Key) :
    respondedValues B hA s (B.x25519Public ephR) =
      responseValues B hR ephR s.hash s.chainingKey (B.x25519Public s.ephemeralPrivate) := by
  have hee : B.x25519 s.ephemeralPrivate (B.x25519Public ephR) =
      B.x25519 ephR (B.x25519Public s.ephemeralPrivate) := hB.dh_comm _ _
  have hse : B.x25519 hA.params.staticPrivate (B.x25519Public ephR) =
      B.x25519 ephR hR.params.peerStaticPublic := by
    rw [hB.dh_comm, hp.peerB, hp.publicA]
  rw [respondedValues, responseValues, hee, hse, hp.psk]

end Peers

theorem handshake_agreement (hB : B.Lawful) {hA hR : Handshake}
    (hp : NoiseParams.Peers B hA.params hR.params) (ephA ephR : Key) (now : Nat)
    (dstA dstR : List UInt8) (hdA : handshakeInitSz ≤ dstA.length)
    (hdR : handshakeRespSz ≤ dstR.length) {ts : Vector UInt8 12} {t : Tai64N}
    (hts : hA.stamper.stamp now = .ok ts) (hparse : Tai64N.parse ts.toList = .ok t)
    (hafter : t.after hR.lastHandshakeTimestamp = true) :
    ∃ m1 hA₁ p1 m2 sessionR hR₁ p2,
      (formatHandshakeInitiation B ephA now dstA).run hA = .ok m1 hA₁ ∧
      Tunn.parseIncomingPacket m1 = .ok (.handshakeInit p1) ∧
      (receiveHandshakeInitialization B ephR p1 dstR).run hR = .ok (m2, sessionR) hR₁ ∧
      Tunn.parseIncomingPacket m2 = .ok (.handshakeResponse p2) ∧
      ∀ hA₂, (hA₂ = hA₁ ∨ ∃ eph now' dst m,
          (formatHandshakeInitiation B eph now' dst).run hA₁ = .ok m hA₂) →
        ∀ nowR, ∃ sessionA hA₃, (receiveHandshakeResponse B p2 nowR).run hA₂ = .ok sessionA hA₃ ∧
          sessionA.sender = sessionR.receiver ∧ sessionA.receiver = sessionR.sender ∧
          sessionA.sendingIndex = sessionR.receivingIndex ∧
          sessionR.sendingIndex = sessionA.receivingIndex := by
  -- the initiation, and the responder's state once it has read it
  let p1 := initiationMessage B hA ephA ts
  let v := initiationValues B hA ephA ts
  have hrecv : receivedValues B hR p1.unencryptedEphemeral ts.toList = v :=
    receivedValues_eq hB hp ephA ts
  let hR' : Handshake := { hR with
    lastHandshakeTimestamp := t
    previous := hR.state
    state := .initReceived v.hash v.chainingKey p1.unencryptedEphemeral p1.senderIdx }
  let p2 := responseMessage B hR' ephR v.hash v.chainingKey p1.unencryptedEphemeral p1.senderIdx
  let s1 : HandshakeInitSentState := ⟨indexAfter hA.nextIndex, v.hash, v.chainingKey, ephA, now⟩
  have hlen1 : p1.encryptedStatic.length = 48 ∧ p1.encryptedTimestamp.length = 28 := by
    simp [p1, initiationMessage, initiationValues, IK.initiation, IK.aead, hB.seal_length]
  have hlen2 : p2.encryptedNothing.length = 16 := by
    simp [p2, responseMessage, responseValues, IK.response, IK.aead, hB.seal_length]
  have hrun2 := receiveHandshakeInitialization_run hB hR ephR p1 dstR (by rw [hrecv]; rfl)
    (by rw [hrecv]; rfl) hparse hafter
  rw [hrecv, formatHandshakeResponse_run hB hR' ephR dstR hdR rfl] at hrun2
  refine ⟨_, _, p1, _, _, _, p2, formatHandshakeInitiation_run hB hA ephA now dstA hdA hts,
    parseIncomingPacket_handshakeInit p1 hlen1.1 hlen1.2 (length_macs B hA p1.body), hrun2,
    parseIncomingPacket_handshakeResponse p2 hlen2 (length_macs B hR' p2.body), ?_⟩
  · intro hA₂ h₂ nowR
    -- the response answers `s1`: in the current slot, or in the previous one after
    -- a further initiation moved it there
    obtain ⟨isPrevious, hsel, hparams⟩ : ∃ isPrevious,
        ((hA₂.state.sentTo p2.receiverIdx).map (·, false)).orElse
          (fun _ => (hA₂.previous.sentTo p2.receiverIdx).map (·, true)) = some (s1, isPrevious) ∧
        hA₂.params = hA.params := by
      rcases h₂ with rfl | ⟨eph, now', dst, m, hrun⟩
      · exact ⟨false, by simp [p2, responseMessage, p1, initiationMessage, s1, v,
          HandshakeState.sentTo], rfl⟩
      · obtain ⟨ts', -, -, rfl⟩ := formatHandshakeInitiation_ok hB hrun
        refine ⟨true, ?_, rfl⟩
        simp [p2, responseMessage, p1, initiationMessage, s1, v, HandshakeState.sentTo,
          indexAfter_ne]
    have hp₂ : NoiseParams.Peers B hA₂.params hR'.params := hparams ▸ hp
    have hresp : respondedValues B hA₂ s1 p2.unencryptedEphemeral =
        responseValues B hR' ephR v.hash v.chainingKey p1.unencryptedEphemeral :=
      respondedValues_eq hB hp₂ s1 ephR
    refine ⟨_, _, receiveHandshakeResponse_run hB hA₂ p2 nowR hsel (by rw [hresp]; rfl), ?_⟩
    rw [hresp]
    simp [Session.new, p2, responseMessage, s1, p1, initiationMessage, hR']

/-- Two peers with zero keys under the plain backend complete a handshake. -/
theorem handshake_agreement_plain :
    let key : Key := .replicate 32 0
    let params := NoiseParams.new Backend.plain key (Backend.plain.x25519Public key)
      (Backend.plain.x25519Public key) none
    let h : Handshake := ⟨params, 0, .none, .none, ⟨none, 0, none⟩, Tai64N.zero, ⟨0, 0⟩, none⟩
    ∃ m1 hA₁ p1 m2 sessionR hR₁ p2,
      (formatHandshakeInitiation Backend.plain key 0 (List.replicate 148 0)).run h = .ok m1 hA₁ ∧
      Tunn.parseIncomingPacket m1 = .ok (.handshakeInit p1) ∧
      (receiveHandshakeInitialization Backend.plain key p1 (List.replicate 92 0)).run h =
        .ok (m2, sessionR) hR₁ ∧
      Tunn.parseIncomingPacket m2 = .ok (.handshakeResponse p2) ∧
      ∃ sessionA hA₃, (receiveHandshakeResponse Backend.plain p2 0).run hA₁ = .ok sessionA hA₃ ∧
        sessionA.sender = sessionR.receiver ∧ sessionA.sendingIndex = sessionR.receivingIndex := by
  intro key params h
  obtain ⟨m1, hA₁, p1, m2, sessionR, hR₁, p2, h1, h2, h3, h4, h5⟩ :=
    @handshake_agreement Backend.plain plain_lawful h h
      (NoiseParams.peers_new Backend.plain key key none) key key 0 (List.replicate 148 0)
      (List.replicate 92 0) (by simp [handshakeInitSz]) (by simp [handshakeRespSz])
      #v[64, 0, 0, 0, 0, 0, 0, 37, 0, 0, 0, 0] ⟨0x4000000000000025, 0⟩ (by decide) (by decide)
      (by decide)
  obtain ⟨sessionA, hA₃, h6, h7, -, h8, -⟩ := h5 hA₁ (Or.inl rfl) 0
  exact ⟨m1, hA₁, p1, m2, sessionR, hR₁, p2, h1, h2, h3, h4, sessionA, hA₃, h6, h7, h8⟩

end Handshake

end Neptun.Noise
