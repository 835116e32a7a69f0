import Neptun.Noise.Timestamps

/-! The device picks the peer an initiation is for before any tunnel sees it:
`parse_handshake_anon` repeats the responder's computation up to the first AEAD
and returns the static key that AEAD opens to, and the device looks the peer up
by that key. The computation is written out twice in the source, once there and
once in `receive_handshake_initialization`; the two agree. -/
namespace Neptun.Noise

open Lib

namespace Handshake

variable {B : Backend}

/-- Where the anonymous parse fails, the tunnel's checks fail with it. -/
theorem openInitiation_of_anon_error {h : Handshake} {p : HandshakeInit}
    {f : Fault WireGuardError}
    (hf : parseHandshakeAnon B h.params.staticPrivate h.params.staticPublic p = .error f) :
    openInitiation B h p = .error f := by
  simp only [parseHandshakeAnon, openInitiation, except_bind_eq] at hf ⊢
  -- both open the same ciphertext under the same key and aad
  generalize aeadChacha20Open B (List.replicate 32 0) _ 0 p.encryptedStatic _ = opened at hf ⊢
  cases opened with
  | ok key => cases hf
  | error f' =>
    cases hf
    rfl

/-- Where the anonymous parse opens a key, the tunnel's checks open the same one:
they stop at the key check if it is not the peer's, and otherwise fail, if at
all, only at the timestamp. -/
theorem openInitiation_of_anon_ok {h : Handshake} {p : HandshakeInit} {idx : UInt32}
    {key : List UInt8}
    (hk : parseHandshakeAnon B h.params.staticPrivate h.params.staticPublic p = .ok (idx, key)) :
    idx = p.senderIdx ∧
    (h.params.peerStaticPublic.toList ≠ key → openInitiation B h p = .error (.err .wrongKey)) ∧
    (h.params.peerStaticPublic.toList = key → ∀ f, openInitiation B h p = .error f →
      f = .err .invalidAeadTag ∨ f = .panic ∨ f = .err .invalidTai64nTimestamp) := by
  simp only [parseHandshakeAnon, openInitiation, except_bind_eq] at hk ⊢
  generalize aeadChacha20Open B (List.replicate 32 0) _ 0 p.encryptedStatic _ = opened at hk ⊢
  cases opened with
  | error f => cases hk
  | ok key' =>
    cases hk
    refine ⟨rfl, fun hne => ?_, fun heq f hf => ?_⟩
    · dsimp only
      rw [if_pos hne]
      rfl
    · subst heq
      dsimp only at hf
      rw [if_neg (not_not_intro rfl)] at hf
      -- past the key check: the second open, then the timestamp's parse
      generalize hts : aeadChacha20Open B (List.replicate 12 0) _ 0 p.encryptedTimestamp _ = opened at hf
      cases opened with
      | error f' =>
        cases hf
        rcases aeadChacha20Open_error hts with h | h
        · exact .inl h
        · exact .inr (.inl h)
      | ok bytes =>
        dsimp only at hf
        generalize hparse : Tai64N.parse bytes = parsed at hf
        cases parsed with
        | error f' =>
          cases hf
          rcases Tai64N.parse_error hparse with h | h
          · exact .inr (.inr h)
          · exact .inr (.inl h)
        | ok t => cases hf

/-- The anonymous parse agrees with the tunnel of every peer whose handshake
holds the device's static key pair. Where the parse fails, the tunnel fails at
its first open, with the same fault and nothing written. Where it returns a
sender's index and a static key, the index is the packet's, and the tunnel stops
at its key check exactly when its peer's key is another one. -/
theorem parseHandshakeAnon_agrees (h : Handshake) (eph : Key) (p : HandshakeInit)
    (dst : List UInt8) :
    (∀ f, parseHandshakeAnon B h.params.staticPrivate h.params.staticPublic p = .error f →
      (receiveHandshakeInitialization B eph p dst).run h = .error f h) ∧
    ∀ idx key, parseHandshakeAnon B h.params.staticPrivate h.params.staticPublic p = .ok (idx, key) →
      idx = p.senderIdx ∧
      (key ≠ h.params.peerStaticPublic.toList →
        (receiveHandshakeInitialization B eph p dst).run h = .error (.err .wrongKey) h) ∧
      (key = h.params.peerStaticPublic.toList → ∀ h',
        (receiveHandshakeInitialization B eph p dst).run h ≠ .error (.err .wrongKey) h') := by
  refine ⟨fun f hf => ?_, fun idx key hk => ?_⟩
  · rw [receiveHandshakeInitialization_run_eq, openInitiation_of_anon_error hf]
  obtain ⟨hidx, hwrong, hright⟩ := openInitiation_of_anon_ok hk
  refine ⟨hidx, fun hkey => ?_, fun hkey h' hrun => ?_⟩
  · rw [receiveHandshakeInitialization_run_eq, hwrong (Ne.symm hkey)]
  rw [receiveHandshakeInitialization_run_eq] at hrun
  rcases hopen : openInitiation B h p with f | ⟨t, hash, chainingKey⟩
  · rw [hopen] at hrun
    cases hrun
    rcases hright hkey.symm _ hopen with hf | hf | hf <;> cases hf
  rw [hopen] at hrun
  dsimp only at hrun
  split at hrun
  · -- the response is formatted: none of its faults is a wrong key
    refine (Triple.of_error (Q := fun _ _ => True) (F := fun f _ => f ≠ .err .wrongKey ∧ True)
      ?_ hrun).1 rfl
    exact formatHandshakeResponse_spec _ eph dst trivial trivial trivial (fun _ => trivial)
      nofun nofun nofun nofun nofun nofun
  · cases hrun

end Handshake

end Neptun.Noise
