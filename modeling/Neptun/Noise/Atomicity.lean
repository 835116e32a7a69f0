import Neptun.Noise.Responder

/-! The error paths of the two handshake handlers. Both write the handshake
before the destination buffer is checked: `receive_handshake_initialization`
commits the peer's timestamp and the new state, then `format_handshake_response`
refuses a buffer below 92 bytes; `handle_handshake_response` consumes the
initiation in flight and counts the received bytes, then `format_packet_data`
refuses a buffer below 32 bytes. The tunnel keeps what was written. -/
namespace Neptun.Noise

open Lib

namespace Handshake

variable {B : Backend}

theorem formatHandshakeResponse_small (h : Handshake) (eph : Key) {dst : List UInt8}
    (hdst : dst.length < handshakeRespSz) :
    (formatHandshakeResponse B eph dst).run h = .error (.err .destinationBufferTooSmall) h := by
  simp [formatHandshakeResponse, hdst]

theorem receiveHandshakeInitialization_small (hB : B.Lawful) {hA h : Handshake}
    (hp : NoiseParams.Peers B hA.params h.params) (eph ephR : Key) (ts : Vector UInt8 12)
    {t : Tai64N} {dst : List UInt8} (hdst : dst.length < handshakeRespSz)
    (hparse : Tai64N.parse ts.toList = .ok t) (hafter : t.after h.lastHandshakeTimestamp = true) :
    ∃ h', (receiveHandshakeInitialization B ephR (initiationMessage B hA eph ts) dst).run h =
        .error (.err .destinationBufferTooSmall) h' ∧
      h'.lastHandshakeTimestamp = t ∧ h'.previous = h.state ∧ h'.nextIndex = h.nextIndex ∧
      ∃ hash chainingKey, h'.state = .initReceived hash chainingKey
        (initiationMessage B hA eph ts).unencryptedEphemeral
        (initiationMessage B hA eph ts).senderIdx := by
  have hrecv := receivedValues_eq hB hp eph ts
  have hrun := receiveHandshakeInitialization_run hB h ephR (initiationMessage B hA eph ts) dst
    (by rw [initiationMessage, hrecv]) (by rw [initiationMessage, hrecv]) hparse hafter
  rw [formatHandshakeResponse_small _ ephR hdst] at hrun
  exact ⟨_, hrun, rfl, rfl, rfl, _, _, rfl⟩

end Handshake

namespace Tunn

variable {B : Backend}

theorem handleHandshakeInit_of_error (env : CallEnv) (t : Tunn) (p : HandshakeInit)
    (dst : List UInt8) {e : WireGuardError} {h' : Handshake}
    (hrecv : (Handshake.receiveHandshakeInitialization B env.ephemeralPrivate p dst).run
      t.handshake = .error (.err e) h') :
    (handleHandshakeInit B env p dst).run t = .error (.err e) { t with handshake := h' } := by
  simp [-bind_pure_comp, handleHandshakeInit, EStateM.run_bind, onHandshake, hrecv]

/-- An initiation that passes the rate limiter and fails in the handshake is
answered with the error, and the tunnel keeps the handshake the failed call
left. -/
theorem decapsulate_handshakeInit_of_error (env : CallEnv) (t : Tunn) (srcAddr : Option IpAddr)
    (body mac2 dst : List UInt8) {p : HandshakeInit}
    (hparse : parseIncomingPacket
      (body ++ ((B.blake2sMac16 t.rateLimiter.mac1Key.toList body).toList ++ mac2)) =
        .ok (.handshakeInit p))
    (hm : mac2.length = 16) (hload : t.rateLimiter.count < t.rateLimiter.limit)
    {e : WireGuardError} {h' : Handshake}
    (hrecv : (Handshake.receiveHandshakeInitialization B env.ephemeralPrivate p dst).run
      t.handshake = .error (.err e) h') :
    (decapsulate B env srcAddr
        (body ++ ((B.blake2sMac16 t.rateLimiter.mac1Key.toList body).toList ++ mac2)) dst).run t =
      .ok (.err e) { t with
        rateLimiter := { t.rateLimiter with count := t.rateLimiter.count + 1 }
        handshake := h' } := by
  have hverify := RateLimiter.verifyPacket_of_not_underLoad t.rateLimiter body mac2
    (List.replicate cookieReplySz 0) env.now hparse rfl hm srcAddr hload
  have hrun := handleHandshakeInit_of_error env
    { t with rateLimiter := { t.rateLimiter with count := t.rateLimiter.count + 1 } } p dst hrecv
  have hne : (body ++ ((B.blake2sMac16 t.rateLimiter.mac1Key.toList body).toList ++ mac2)).isEmpty =
      false := by
    simp
  simp [-bind_pure_comp, decapsulate, hne, EStateM.run_bind, hverify, handleVerifiedPacket, hrun]

/-- An initiation of the tunnel's peer with a fresh timestamp, decapsulated into
a buffer too small for the response: the result is `DestinationBufferTooSmall`,
and the handshake has taken the timestamp and the state of the initiation. -/
theorem decapsulate_initiationDatagram_small (hB : B.Lawful) {hA : Handshake} (env : CallEnv)
    (t : Tunn) (srcAddr : Option IpAddr) {dst : List UInt8}
    (hp : NoiseParams.Peers B hA.params t.handshake.params)
    (hkey : t.rateLimiter.mac1Key = hA.params.sendingMac1Key)
    (hload : t.rateLimiter.count < t.rateLimiter.limit) (hdst : dst.length < handshakeRespSz)
    (eph : Key) (ts : Vector UInt8 12) {stamp : Tai64N} (hparse : Tai64N.parse ts.toList = .ok stamp)
    (hafter : stamp.after t.handshake.lastHandshakeTimestamp = true) :
    ∃ t', (decapsulate B env srcAddr (Handshake.initiationDatagram B hA eph ts) dst).run t =
        .ok (.err .destinationBufferTooSmall) t' ∧
      t'.handshake.lastHandshakeTimestamp = stamp ∧
      t'.handshake.previous = t.handshake.state ∧
      (∃ hash chainingKey pe peerIndex,
        t'.handshake.state = .initReceived hash chainingKey pe peerIndex) ∧
      t'.sessions = t.sessions ∧ t'.current = t.current ∧ t'.rxBytes = t.rxBytes := by
  obtain ⟨h', hrecv, hlast, hprev, -, hash, ck, hstate⟩ :=
    Handshake.receiveHandshakeInitialization_small hB hp eph env.ephemeralPrivate ts hdst hparse
      hafter
  let p := Handshake.initiationMessage B hA eph ts
  have hlen : p.encryptedStatic.length = 48 ∧ p.encryptedTimestamp.length = 28 := by
    simp [p, Handshake.initiationMessage, Handshake.initiationValues, IK.initiation, IK.aead,
      hB.seal_length]
  have hparse' := parseIncomingPacket_handshakeInit p hlen.1 hlen.2 (Handshake.length_macs B hA p.body)
  simp only [Handshake.macs, ← hkey] at hparse'
  have hrun := decapsulate_handshakeInit_of_error env t srcAddr p.body _ dst hparse' (by simp)
    hload hrecv
  refine ⟨{ t with
      rateLimiter := { t.rateLimiter with count := t.rateLimiter.count + 1 }
      handshake := h' }, ?_, hlast, hprev, ⟨hash, ck, _, _, hstate⟩, rfl, rfl, rfl⟩
  simpa [Handshake.initiationDatagram, Handshake.macs, ← hkey] using hrun

/-- A fresh tunnel decapsulates an initiation of its peer into an empty buffer:
the call returns `DestinationBufferTooSmall`, yet the handshake has taken the
initiation's timestamp and state. -/
theorem handshake_error_keeps_initiation :
    let ourKey : Key := .replicate 32 1
    let peerKey : Key := .replicate 32 2
    let hA : Handshake := ⟨NoiseParams.new Backend.plain peerKey (Backend.plain.x25519Public peerKey)
      (Backend.plain.x25519Public ourKey) none, 0, .none, .none, ⟨none, 0, none⟩, Tai64N.zero,
      ⟨0, 0⟩, none⟩
    let datagram := Handshake.initiationDatagram Backend.plain hA peerKey
      #v[64, 0, 0, 0, 0, 0, 0, 38, 0, 0, 0, 0]
    ∃ t₀ t',
      Tunn.new Backend.plain ourKey peerKey none none 0 none 0 0 (.replicate 16 0) (.replicate 32 0) =
        .ok t₀ ∧
      (decapsulate Backend.plain ⟨0, ourKey⟩ none datagram []).run t₀ =
        .ok (.err .destinationBufferTooSmall) t' ∧
      t'.handshake.lastHandshakeTimestamp ≠ t₀.handshake.lastHandshakeTimestamp ∧
      t'.handshake.state ≠ t₀.handshake.state := by
  intro ourKey peerKey hA datagram
  let t₀ : Tunn := ⟨⟨NoiseParams.new Backend.plain ourKey (Backend.plain.x25519Public ourKey) peerKey
      none, (0 : UInt32) <<< 8, .none, .none, ⟨none, 0, none⟩, Tai64N.zero, ⟨0, 0⟩, none⟩,
    .replicate 8 none, 0, [], Timers.new none true 0, 0, 0,
    RateLimiter.new Backend.plain (Backend.plain.x25519Public ourKey) peerHandshakeRateLimit
      (.replicate 16 0) (.replicate 32 0) 0, peerKey⟩
  have hnew : Tunn.new Backend.plain ourKey peerKey none none 0 none 0 0 (.replicate 16 0)
      (.replicate 32 0) = .ok t₀ := rfl
  have ht : AcceptsFrom Backend.plain hA t₀ :=
    ⟨NoiseParams.peers_new Backend.plain peerKey ourKey none, rfl⟩
  obtain ⟨t', hrun, hlast, -, ⟨hash, ck, pe, idx, hstate⟩, -⟩ :=
    decapsulate_initiationDatagram_small plain_lawful ⟨0, ourKey⟩ t₀ none ht.peers ht.mac1
      (by decide) (show ([] : List UInt8).length < handshakeRespSz by simp [handshakeRespSz])
      peerKey #v[64, 0, 0, 0, 0, 0, 0, 38, 0, 0, 0, 0]
      (show Tai64N.parse [64, 0, 0, 0, 0, 0, 0, 38, 0, 0, 0, 0] = .ok ⟨0x4000000000000026, 0⟩ by
        decide) (by decide)
  refine ⟨t₀, t', hnew, hrun, ?_, ?_⟩
  · rw [hlast]
    decide
  · rw [hstate]
    intro h
    cases h

end Tunn

end Neptun.Noise
