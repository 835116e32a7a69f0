import Neptun.Noise.Transport
import Neptun.Noise.Agreement
import Neptun.Noise.Cookie

/-! The tunnel as responder. `handle_handshake_init` stores the responder's
session in the ring slot `local_index % 8` and leaves `current`, the index of the
session in use, as it was. The handshake's index advances by one in its low byte
on every initiation answered, so eight answered initiations bring it back to the
slot it started in: when that is the slot of the session in use, the new
responder session replaces it there, and `encapsulate` seals under a session the
peer has not yet confirmed by sending data under it. -/
namespace Neptun.Noise

open Lib

namespace Handshake

variable {B : Backend}

/-- The datagram of an initiation the handshake `h` formats: its body and macs. -/
def initiationDatagram (B : Backend) (h : Handshake) (eph : Key) (ts : Vector UInt8 12) :
    List UInt8 :=
  (initiationMessage B h eph ts).body ++ macs B h (initiationMessage B h eph ts).body

theorem receiveHandshakeInitialization_initiation (hB : B.Lawful) {hA h : Handshake}
    (hp : NoiseParams.Peers B hA.params h.params) (eph ephR : Key) (ts : Vector UInt8 12)
    {t : Tai64N} (dst : List UInt8) (hdst : handshakeRespSz ≤ dst.length)
    (hparse : Tai64N.parse ts.toList = .ok t) (hafter : t.after h.lastHandshakeTimestamp = true) :
    ∃ m session h', (receiveHandshakeInitialization B ephR (initiationMessage B hA eph ts) dst).run h =
        .ok (m, session) h' ∧ session.receivingIndex = indexAfter h.nextIndex ∧
      h'.nextIndex = indexAfter h.nextIndex ∧ h'.params = h.params ∧
      h'.lastHandshakeTimestamp = t := by
  have hrecv := receivedValues_eq hB hp eph ts
  have hrun := receiveHandshakeInitialization_run hB h ephR (initiationMessage B hA eph ts) dst
    (by rw [initiationMessage, hrecv]) (by rw [initiationMessage, hrecv]) hparse hafter
  rw [formatHandshakeResponse_run hB _ ephR dst hdst rfl] at hrun
  exact ⟨_, _, _, hrun, rfl, rfl, rfl, rfl⟩

/-- The ring slot of a new index follows the last one: the low byte wraps at 256,
a multiple of 8. -/
theorem toNat_indexAfter_mod (x : UInt32) : (indexAfter x).toNat % 8 = (x.toNat + 1) % 8 := by
  have h := congrArg UInt8.toNat (toUInt8_indexAfter x)
  simp [UInt8.toNat_add, UInt32.toNat_toUInt8] at h
  omega

theorem toNat_iterate_indexAfter_mod (x : UInt32) (n : Nat) :
    (indexAfter^[n] x).toNat % 8 = (x.toNat + n) % 8 := by
  induction n generalizing x with
  | zero => rfl
  | succ n ih =>
    rw [Function.iterate_succ_apply, ih, Nat.add_mod, toNat_indexAfter_mod, ← Nat.add_mod]
    omega

end Handshake

namespace Tunn

variable {B : Backend}

/-- Answering an initiation stores the responder's session in the slot of its
own index; the session in use stays the one it was. -/
theorem handleHandshakeInit_run (env : CallEnv) (t : Tunn) (p : HandshakeInit) (dst : List UInt8)
    {m : List UInt8} {session : Session} {h' : Handshake}
    (hrecv : (Handshake.receiveHandshakeInitialization B env.ephemeralPrivate p dst).run
      t.handshake = .ok (m, session) h') :
    ∃ t', (handleHandshakeInit B env p dst).run t = .ok (.writeToNetwork m) t' ∧
      t'.handshake = h' ∧
      t'.sessions = t.sessions.set (slot session.localIndex) (some session) (slot _).isLt ∧
      t'.current = t.current ∧ t'.rateLimiter = t.rateLimiter := by
  simp [-bind_pure_comp, handleHandshakeInit, EStateM.run_bind, onHandshake, hrecv]
  -- the timers and byte counters are the only other fields written
  all_goals and_intros <;> rfl

/-- An initiation with a right mac1, while the limiter is not under load, is
answered as `handle_handshake_init` answers it. -/
theorem decapsulate_handshakeInit (env : CallEnv) (t : Tunn) (srcAddr : Option IpAddr)
    (body mac2 dst : List UInt8) {p : HandshakeInit}
    (hparse : parseIncomingPacket
      (body ++ ((B.blake2sMac16 t.rateLimiter.mac1Key.toList body).toList ++ mac2)) =
        .ok (.handshakeInit p))
    (hm : mac2.length = 16) (hload : t.rateLimiter.count < t.rateLimiter.limit)
    {m : List UInt8} {session : Session} {h' : Handshake}
    (hrecv : (Handshake.receiveHandshakeInitialization B env.ephemeralPrivate p dst).run
      t.handshake = .ok (m, session) h') :
    ∃ t', (decapsulate B env srcAddr
        (body ++ ((B.blake2sMac16 t.rateLimiter.mac1Key.toList body).toList ++ mac2)) dst).run t =
        .ok (.writeToNetwork m) t' ∧
      t'.handshake = h' ∧
      t'.sessions = t.sessions.set (slot session.localIndex) (some session) (slot _).isLt ∧
      t'.current = t.current ∧
      t'.rateLimiter = { t.rateLimiter with count := t.rateLimiter.count + 1 } := by
  have hverify := RateLimiter.verifyPacket_of_not_underLoad t.rateLimiter body mac2
    (List.replicate cookieReplySz 0) env.now hparse rfl hm srcAddr hload
  obtain ⟨t', hrun, hh, hs, hc, hr⟩ := handleHandshakeInit_run env
    { t with rateLimiter := { t.rateLimiter with count := t.rateLimiter.count + 1 } } p dst hrecv
  have hne : (body ++ ((B.blake2sMac16 t.rateLimiter.mac1Key.toList body).toList ++ mac2)).isEmpty =
      false := by
    simp
  simp [-bind_pure_comp, decapsulate, hne, EStateM.run_bind, hverify, handleVerifiedPacket, hrun]
  exact ⟨hh, hs, hc, hr⟩

/-- The tunnel answers an initiation its peer formatted, with a fresh timestamp,
while its limiter is not under load: the responder's session goes to the slot
of the next index. -/
theorem decapsulate_initiationDatagram (hB : B.Lawful) {hA : Handshake} (env : CallEnv)
    (t : Tunn) (srcAddr : Option IpAddr) (dst : List UInt8)
    (hp : NoiseParams.Peers B hA.params t.handshake.params)
    (hkey : t.rateLimiter.mac1Key = hA.params.sendingMac1Key)
    (hload : t.rateLimiter.count < t.rateLimiter.limit) (hdst : handshakeRespSz ≤ dst.length)
    (eph : Key) (ts : Vector UInt8 12) {stamp : Tai64N} (hparse : Tai64N.parse ts.toList = .ok stamp)
    (hafter : stamp.after t.handshake.lastHandshakeTimestamp = true) :
    ∃ m session t', (decapsulate B env srcAddr (Handshake.initiationDatagram B hA eph ts) dst).run t =
        .ok (.writeToNetwork m) t' ∧
      session.receivingIndex = Handshake.indexAfter t.handshake.nextIndex ∧
      t'.sessions = t.sessions.set (slot session.localIndex) (some session) ∧
      t'.handshake.nextIndex = Handshake.indexAfter t.handshake.nextIndex ∧
      t'.handshake.params = t.handshake.params ∧ t'.handshake.lastHandshakeTimestamp = stamp ∧
      t'.current = t.current ∧
      t'.rateLimiter = { t.rateLimiter with count := t.rateLimiter.count + 1 } := by
  obtain ⟨m, session, h', hrecv, hidx, hnext, hparams, hlast⟩ :=
    Handshake.receiveHandshakeInitialization_initiation hB hp eph env.ephemeralPrivate ts dst hdst
      hparse hafter
  let p := Handshake.initiationMessage B hA eph ts
  have hlen : p.encryptedStatic.length = 48 ∧ p.encryptedTimestamp.length = 28 := by
    simp [p, Handshake.initiationMessage, Handshake.initiationValues, IK.initiation, IK.aead,
      hB.seal_length]
  have hparse' := parseIncomingPacket_handshakeInit p hlen.1 hlen.2 (Handshake.length_macs B hA p.body)
  simp only [Handshake.macs, ← hkey] at hparse'
  obtain ⟨t', hrun, hh, hs, hc, hr⟩ := decapsulate_handshakeInit env t srcAddr p.body _ dst hparse'
    (by simp) hload hrecv
  refine ⟨m, session, t', ?_, hidx, hs, by rw [hh]; exact hnext, by rw [hh]; exact hparams,
    by rw [hh]; exact hlast, hc, hr⟩
  simpa [Handshake.initiationDatagram, Handshake.macs, ← hkey] using hrun

/-- The tunnel's side of the configuration toward the peer whose handshake is `hA`:
the keys agree, and the rate limiter checks the mac1 that `hA` computes. -/
structure AcceptsFrom (B : Backend) (hA : Handshake) (t : Tunn) : Prop where
  peers : NoiseParams.Peers B hA.params t.handshake.params
  mac1 : t.rateLimiter.mac1Key = hA.params.sendingMac1Key

/-- A run of initiations from the peer, each with its ephemeral key, its stamp
bytes and the timestamp they parse to, the timestamps increasing. Each is
answered; the last responder session sits in the slot of the handshake's index,
and the session in use is never switched. -/
theorem decapsulate_initiationDatagrams (hB : B.Lawful) (hA : Handshake) (env : CallEnv)
    (srcAddr : Option IpAddr) (dst : List UInt8) (hdst : handshakeRespSz ≤ dst.length)
    (inits : List (Key × Vector UInt8 12 × Tai64N))
    (hparse : ∀ x ∈ inits, Tai64N.parse x.2.1.toList = .ok x.2.2) (t : Tunn)
    (ht : AcceptsFrom B hA t)
    (hchain : List.IsChain (fun a b : Tai64N => b.after a = true)
      (t.handshake.lastHandshakeTimestamp :: inits.map (·.2.2)))
    (hcount : t.rateLimiter.count.toNat + inits.length ≤ t.rateLimiter.limit.toNat) :
    ∃ rs t', ((inits.map fun x => Handshake.initiationDatagram B hA x.1 x.2.1).mapM
        fun d => decapsulate B env srcAddr d dst).run t = .ok rs t' ∧
      t'.current = t.current ∧
      t'.handshake.nextIndex = Handshake.indexAfter^[inits.length] t.handshake.nextIndex ∧
      (inits ≠ [] → ∃ s, t'.sessions[slot t'.handshake.nextIndex.toNat] = some s ∧
        s.receivingIndex = t'.handshake.nextIndex) := by
  induction inits generalizing t with
  | nil => exact ⟨[], t, rfl, rfl, rfl, fun h => absurd rfl h⟩
  | cons x rest ih =>
    obtain ⟨eph, ts, stamp⟩ := x
    rw [List.map_cons, List.isChain_cons_cons] at hchain
    have hload : t.rateLimiter.count < t.rateLimiter.limit := by
      rw [UInt64.lt_iff_toNat_lt]
      simp at hcount
      omega
    obtain ⟨m, session, t₁, hrun, hidx, hs, hnext, hparams, hlast, hc, hr⟩ :=
      decapsulate_initiationDatagram hB env t srcAddr dst ht.peers ht.mac1 hload hdst eph ts
        (hparse (eph, ts, stamp) (by simp)) hchain.1
    have ht₁ : AcceptsFrom B hA t₁ := ⟨hparams ▸ ht.peers, by rw [hr]; exact ht.mac1⟩
    have hcount₁ : t₁.rateLimiter.count.toNat + rest.length ≤ t₁.rateLimiter.limit.toNat := by
      have := t.rateLimiter.limit.toNat_lt
      rw [hr]
      simp [UInt64.toNat_add] at hcount ⊢
      omega
    obtain ⟨rs, t', hrun', hc', hnext', hslot'⟩ :=
      ih (fun x hx => hparse x (by simp [hx])) t₁ ht₁ (by rw [hlast]; exact hchain.2) hcount₁
    refine ⟨.writeToNetwork m :: rs, t', ?_, hc'.trans hc, ?_, ?_⟩
    · simp only [List.map_cons, List.mapM_cons, EStateM.run_bind, hrun, hrun']
      rfl
    · rw [hnext', hnext, List.length_cons, Function.iterate_succ_apply]
    · intro _
      by_cases hr : rest = []
      · subst hr
        -- no further datagram: the state is the one the last answer left
        obtain rfl : t' = t₁ := by
          cases hrun'
          rfl
        refine ⟨session, ?_, by rw [hnext, hidx]⟩
        rw [hs]
        simp [hnext, ← hidx, Session.localIndex]
      · exact hslot' hr

/-- Eight answered initiations bring the handshake's index back to the ring slot
it started in. If that is the slot of the session in use, it now holds the last
responder session, whose index is not the one in use. -/
theorem initiations_take_current_slot (hB : B.Lawful) (hA : Handshake) (env : CallEnv)
    (srcAddr : Option IpAddr) (dst : List UInt8) (hdst : handshakeRespSz ≤ dst.length)
    (inits : List (Key × Vector UInt8 12 × Tai64N)) (hlen : inits.length = 8)
    (hparse : ∀ x ∈ inits, Tai64N.parse x.2.1.toList = .ok x.2.2) (t : Tunn)
    (ht : AcceptsFrom B hA t)
    (hchain : List.IsChain (fun a b : Tai64N => b.after a = true)
      (t.handshake.lastHandshakeTimestamp :: inits.map (·.2.2)))
    (hcount : t.rateLimiter.count.toNat + 8 ≤ t.rateLimiter.limit.toNat)
    (hslot : t.handshake.nextIndex.toNat % 8 = t.current % 8) :
    ∃ rs t' s, ((inits.map fun x => Handshake.initiationDatagram B hA x.1 x.2.1).mapM
        fun d => decapsulate B env srcAddr d dst).run t = .ok rs t' ∧
      t'.current = t.current ∧ t'.sessions[slot t'.current] = some s ∧
      s.receivingIndex = Handshake.indexAfter^[8] t.handshake.nextIndex := by
  obtain ⟨rs, t', hrun, hc, hnext, hlast⟩ := decapsulate_initiationDatagrams hB hA env srcAddr dst
    hdst inits hparse t ht hchain (by rw [hlen]; exact hcount)
  obtain ⟨s, hs, hidx⟩ := hlast (by rintro rfl; cases hlen)
  have hsame : slot t'.handshake.nextIndex.toNat = slot t'.current := by
    apply Fin.ext
    simp only [slot, nSessions]
    rw [hnext, hlen, Handshake.toNat_iterate_indexAfter_mod, hc, ← hslot]
    omega
  simp only [hsame] at hs
  exact ⟨rs, t', s, hrun, hc, hs, by rw [hidx, hnext, hlen]⟩

/-- A tunnel fresh from `Tunn::new` with index 0 answers eight initiations of its
peer, retried with increasing timestamps: the eighth responder session, index 8,
lands in slot 0 of the session in use (index 0). -/
theorem eight_initiations_fill_current_slot :
    let ourKey : Key := .replicate 32 1
    let peerKey : Key := .replicate 32 2
    let hA : Handshake := ⟨NoiseParams.new Backend.plain peerKey (Backend.plain.x25519Public peerKey)
      (Backend.plain.x25519Public ourKey) none, 0, .none, .none, ⟨none, 0, none⟩, Tai64N.zero,
      ⟨0, 0⟩, none⟩
    let stampAt (k : Nat) : Vector UInt8 12 := #v[64, 0, 0, 0, 0, 0, 0, 38 + UInt8.ofNat k, 0, 0, 0, 0]
    let datagrams := (List.range 8).map fun k =>
      Handshake.initiationDatagram Backend.plain hA peerKey (stampAt k)
    ∃ t₀ rs t s,
      Tunn.new Backend.plain ourKey peerKey none none 0 none 0 0 (.replicate 16 0) (.replicate 32 0) =
        .ok t₀ ∧
      (datagrams.mapM fun d => decapsulate Backend.plain ⟨0, ourKey⟩ none d (List.replicate 92 0)).run
        t₀ = .ok rs t ∧
      t.sessions[slot t.current] = some s ∧ s.receivingIndex.toNat ≠ t.current := by
  intro ourKey peerKey hA stampAt datagrams
  let inits := (List.range 8).map fun k =>
    (peerKey, stampAt k, (⟨0x4000000000000026 + UInt64.ofNat k, 0⟩ : Tai64N))
  let t₀ : Tunn := ⟨⟨NoiseParams.new Backend.plain ourKey (Backend.plain.x25519Public ourKey) peerKey
      none, (0 : UInt32) <<< 8, .none, .none, ⟨none, 0, none⟩, Tai64N.zero, ⟨0, 0⟩, none⟩, .replicate 8 none, 0,
    [], Timers.new none true 0, 0, 0, RateLimiter.new Backend.plain (Backend.plain.x25519Public ourKey)
      peerHandshakeRateLimit (.replicate 16 0) (.replicate 32 0) 0, peerKey⟩
  have hnew : Tunn.new Backend.plain ourKey peerKey none none 0 none 0 0 (.replicate 16 0)
      (.replicate 32 0) = .ok t₀ := rfl
  have ht : AcceptsFrom Backend.plain hA t₀ :=
    ⟨NoiseParams.peers_new Backend.plain peerKey ourKey none, rfl⟩
  have hparse : ∀ x ∈ inits, Tai64N.parse x.2.1.toList = .ok x.2.2 := by decide
  have hchain : List.IsChain (fun a b : Tai64N => b.after a = true)
      (t₀.handshake.lastHandshakeTimestamp :: inits.map (·.2.2)) := by decide
  obtain ⟨rs, t, s, hrun, hc, hs, hidx⟩ := initiations_take_current_slot plain_lawful hA ⟨0, ourKey⟩
    none (List.replicate 92 0) (by simp [handshakeRespSz]) inits rfl hparse t₀ ht hchain (by decide)
    (by decide)
  refine ⟨t₀, rs, t, s, hnew, hrun, hs, ?_⟩
  rw [hidx, hc]
  decide

/-- The same tunnel then seals data under that session, before the peer has sent
anything under its keys. -/
theorem responder_session_in_current_slot :
    let ourKey : Key := .replicate 32 1
    let peerKey : Key := .replicate 32 2
    let hA : Handshake := ⟨NoiseParams.new Backend.plain peerKey (Backend.plain.x25519Public peerKey)
      (Backend.plain.x25519Public ourKey) none, 0, .none, .none, ⟨none, 0, none⟩, Tai64N.zero,
      ⟨0, 0⟩, none⟩
    let stampAt (k : Nat) : Vector UInt8 12 := #v[64, 0, 0, 0, 0, 0, 0, 38 + UInt8.ofNat k, 0, 0, 0, 0]
    let datagrams := (List.range 8).map fun k =>
      Handshake.initiationDatagram Backend.plain hA peerKey (stampAt k)
    ∃ t₀ rs t s t',
      Tunn.new Backend.plain ourKey peerKey none none 0 none 0 0 (.replicate 16 0) (.replicate 32 0) =
        .ok t₀ ∧
      (datagrams.mapM fun d => decapsulate Backend.plain ⟨0, ourKey⟩ none d (List.replicate 92 0)).run
        t₀ = .ok rs t ∧
      t.sessions[slot t.current] = some s ∧ s.receivingIndex.toNat ≠ t.current ∧
      (encapsulate Backend.plain ⟨0, ourKey⟩ (List.replicate 20 0) (List.replicate 52 0)).run t =
        .ok (.writeToNetwork (Session.dataMessage Backend.plain s (List.replicate 20 0)).bytes) t' := by
  obtain ⟨t₀, rs, t, s, hnew, hrun, hs, hidx⟩ := eight_initiations_fill_current_slot
  obtain ⟨t', henc, -⟩ := encapsulate_run plain_lawful ⟨0, .replicate 32 1⟩ t (List.replicate 20 0)
    (List.replicate 52 0) hs (by simp [dataOverheadSz])
  exact ⟨t₀, rs, t, s, t', hnew, hrun, hs, hidx, henc⟩

end Tunn

end Neptun.Noise
