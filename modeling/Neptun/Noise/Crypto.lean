import Neptun.Lib.Slice
import Neptun.Noise.Network

/-! The primitives the code takes from crates outside `src/`
(`x25519-dalek`, `blake2`, `hmac`, `ring`, `chacha20poly1305`, and the table of
`ip_network_table` the device routes by), gathered in one structure that every model
function takes, together with the target's `usize` width. `Backend.Lawful` is what
the proofs assume of the cryptographic primitives, `IpNetworkTable.Lawful` what they
assume of the table. Hashes and MACs are
functions of everything fed to them, so two `update` calls hash the
concatenation. Over them, the helpers at the top of `handshake.rs`. -/
namespace Neptun.Noise

open Lib

structure Backend where
  /-- `PublicKey::from(&secret)` -/
  x25519Public : Key → Key
  /-- `secret.diffie_hellman(&public)` -/
  x25519 : Key → Key → Key
  /-- BLAKE2s-256 -/
  blake2s : List UInt8 → Key
  /-- HMAC-BLAKE2s, key then message; it accepts keys of any length -/
  hmacBlake2s : List UInt8 → List UInt8 → Key
  /-- keyed BLAKE2s with 16 and 24 output bytes, for keys of at most 32 bytes -/
  blake2sMac16 : List UInt8 → List UInt8 → Vector UInt8 16
  blake2sMac24 : List UInt8 → List UInt8 → Vector UInt8 24
  /-- ChaCha20-Poly1305 of `ring`: key, nonce, aad and plaintext to ciphertext and tag -/
  aeadSeal : Key → Vector UInt8 12 → List UInt8 → List UInt8 → List UInt8 × Vector UInt8 16
  /-- opening ciphertext followed by its tag: the plaintext, unless the tag is wrong -/
  aeadOpen : Key → Vector UInt8 12 → List UInt8 → List UInt8 → Option (List UInt8)
  /-- XChaCha20-Poly1305 of `chacha20poly1305`, with a 24-byte nonce -/
  xaeadSeal : Key → Vector UInt8 24 → List UInt8 → List UInt8 → List UInt8 × Vector UInt8 16
  xaeadOpen : Key → Vector UInt8 24 → List UInt8 → List UInt8 → Option (List UInt8)
  /-- the width of `usize` on the target -/
  usizeBits : Nat
  /-- the table of `ip_network_table` -/
  ipNetworkTable : IpNetworkTable

/-- What the proofs assume of the primitives: Diffie-Hellman agrees on both sides,
and each AEAD opens what it sealed under the same key, nonce and aad. -/
structure Backend.Lawful (B : Backend) : Prop where
  dh_comm : ∀ a b, B.x25519 a (B.x25519Public b) = B.x25519 b (B.x25519Public a)
  seal_length : ∀ k n a p, (B.aeadSeal k n a p).1.length = p.length
  open_seal : ∀ k n a p,
    B.aeadOpen k n a ((B.aeadSeal k n a p).1 ++ (B.aeadSeal k n a p).2.toList) = some p
  open_length : ∀ k n a c p, B.aeadOpen k n a c = some p → p.length + 16 = c.length
  xseal_length : ∀ k n a p, (B.xaeadSeal k n a p).1.length = p.length
  xopen_seal : ∀ k n a p,
    B.xaeadOpen k n a ((B.xaeadSeal k n a p).1 ++ (B.xaeadSeal k n a p).2.toList) = some p
  xopen_length : ∀ k n a c p, B.xaeadOpen k n a c = some p → p.length + 16 = c.length

/-- Map the error of a fallible call, as `map_err` does; a panic stays a panic. -/
def Fault.mapErr {ε ε' : Type} (f : ε → ε') : Fault ε → Fault ε'
  | .err e => .err (f e)
  | .panic => .panic
  | .diverge => .diverge

/-- The initial chaining key, `HASH(CONSTRUCTION)`. -/
def initialChainKey : Key := #v[96, 226, 109, 174, 243, 39, 239, 192, 46, 195, 53, 226,
  160, 37, 210, 208, 22, 235, 66, 6, 248, 114, 119, 245, 45, 56, 209, 152, 139, 120, 205, 54]

/-- The initial hash, `HASH(initial chaining key || IDENTIFIER)`. -/
def initialChainHash : Key := #v[34, 17, 179, 97, 8, 26, 197, 102, 105, 18, 67, 219, 69,
  138, 213, 50, 45, 156, 108, 102, 34, 147, 232, 183, 14, 225, 156, 101, 186, 7, 158, 243]

/-- `b"mac1----"` -/
def labelMac1 : List UInt8 := [109, 97, 99, 49, 45, 45, 45, 45]
/-- `b"cookie--"` -/
def labelCookie : List UInt8 := [99, 111, 111, 107, 105, 101, 45, 45]

section Helpers

variable (B : Backend)

def b2sHash (data1 data2 : List UInt8) : Key := B.blake2s (data1 ++ data2)

def b2sHmac (key data1 : List UInt8) : Key := B.hmacBlake2s key data1

def b2sHmac2 (key data1 data2 : List UInt8) : Key := B.hmacBlake2s key (data1 ++ data2)

/-- `Blake2sMac::new_from_slice` refuses keys longer than 32 bytes. -/
def b2sKeyedMac16 (key data1 : List UInt8) : Except (Fault WireGuardError) (Vector UInt8 16) :=
  if key.length ≤ 32 then pure (B.blake2sMac16 key data1) else throw (.err .invalidLength)

def b2sKeyedMac162 (key data1 data2 : List UInt8) :
    Except (Fault WireGuardError) (Vector UInt8 16) :=
  if key.length ≤ 32 then pure (B.blake2sMac16 key (data1 ++ data2))
  else throw (.err .invalidLength)

def b2sMac24 (key data1 : List UInt8) : Except (Fault WireGuardError) (Vector UInt8 24) :=
  if key.length ≤ 32 then pure (B.blake2sMac24 key data1) else throw (.err .invalidLength)

/-- The 12-byte nonce with the counter in its last eight bytes, little-endian. -/
def counterNonce (counter : UInt64) : Vector UInt8 12 :=
  ⟨([0, 0, 0, 0] ++ u64ToLe counter).toArray, by simp⟩

/-- Seal `data` into `ciphertext`, which must hold the ciphertext and the tag: the
new contents of `ciphertext`. -/
def aeadChacha20SealInner (ciphertext : List UInt8) (key : Key) (nonce : Vector UInt8 12)
    (data aad : List UInt8) : Except (Fault WireGuardError) (List UInt8) := do
  let some (ciphertextPart, tagPart) := splitAtChecked ciphertext data.length
    | throw (.err .invalidLength)
  let _ ← copyFromSlice ciphertextPart data
  let (sealed, tag) := B.aeadSeal key nonce aad data
  let tagPart ← copyFromSlice tagPart tag.toList
  pure (sealed ++ tagPart)

def aeadChacha20Seal (ciphertext : List UInt8) (key : Key) (counter : UInt64)
    (data aad : List UInt8) : Except (Fault WireGuardError) (List UInt8) :=
  (aeadChacha20SealInner B ciphertext key (counterNonce counter) data aad).mapError
    (Fault.mapErr fun _ => .invalidAeadTag)

/-- Open `data` (ciphertext and tag) and copy the plaintext over `buffer`. -/
def aeadChacha20OpenInner (buffer : List UInt8) (key : Key) (nonce : Vector UInt8 12)
    (data aad : List UInt8) : Except (Fault Unit) (List UInt8) := do
  let some plaintext := B.aeadOpen key nonce aad data | throw (.err ())
  copyFromSlice buffer plaintext

def aeadChacha20Open (buffer : List UInt8) (key : Key) (counter : UInt64)
    (data aad : List UInt8) : Except (Fault WireGuardError) (List UInt8) :=
  (aeadChacha20OpenInner B buffer key (counterNonce counter) data aad).mapError
    (Fault.mapErr fun _ => .invalidAeadTag)

end Helpers

section Exact

variable {B : Backend}

/-- Sealing into a buffer of exactly the plaintext's length plus a tag writes the
ciphertext and then the tag. -/
theorem aeadChacha20Seal_eq {ciphertext : List UInt8} (key : Key) (counter : UInt64)
    {data : List UInt8} (aad : List UInt8) (hlen : ciphertext.length = data.length + 16) :
    aeadChacha20Seal B ciphertext key counter data aad =
      .ok ((B.aeadSeal key (counterNonce counter) aad data).1 ++
        (B.aeadSeal key (counterNonce counter) aad data).2.toList) := by
  have hsplit : splitAtChecked ciphertext data.length =
      some (ciphertext.take data.length, ciphertext.drop data.length) :=
    splitAtChecked_of_le (by omega)
  have hct : (ciphertext.take data.length).length = data.length := by simp; omega
  have htag : (ciphertext.drop data.length).length =
      (B.aeadSeal key (counterNonce counter) aad data).2.toList.length := by simp; omega
  simp only [aeadChacha20Seal, aeadChacha20SealInner, hsplit, copyFromSlice_of_length hct,
    copyFromSlice_of_length htag]
  rfl

/-- Opening into a buffer of the plaintext's length gives the plaintext. -/
theorem aeadChacha20Open_eq {buffer plaintext : List UInt8} {key : Key} {counter : UInt64}
    {data aad : List UInt8} (hopen : B.aeadOpen key (counterNonce counter) aad data = some plaintext)
    (hlen : buffer.length = plaintext.length) :
    aeadChacha20Open B buffer key counter data aad = .ok plaintext := by
  simp only [aeadChacha20Open, aeadChacha20OpenInner, hopen, copyFromSlice_of_length hlen]
  rfl

/-- A tag that does not verify is `InvalidAeadTag`. -/
theorem aeadChacha20Open_of_none {buffer : List UInt8} {key : Key} {counter : UInt64}
    {data aad : List UInt8} (hopen : B.aeadOpen key (counterNonce counter) aad data = none) :
    aeadChacha20Open B buffer key counter data aad = .error (.err .invalidAeadTag) := by
  simp only [aeadChacha20Open, aeadChacha20OpenInner, hopen]
  rfl

/-- The AEAD helpers fail only with `InvalidAeadTag` or a panic. -/
theorem aeadChacha20Seal_error {ciphertext : List UInt8} {key : Key} {counter : UInt64}
    {data aad : List UInt8} {f : Fault WireGuardError}
    (h : aeadChacha20Seal B ciphertext key counter data aad = .error f) :
    f = .err .invalidAeadTag ∨ f = .panic := by
  simp only [aeadChacha20Seal, aeadChacha20SealInner, except_bind_eq] at h
  split at h
  · split at h
    · split at h
      · cases h
      · rename_i hcopy
        rw [copyFromSlice_error hcopy] at h
        cases h
        exact .inr rfl
    · rename_i hcopy
      rw [copyFromSlice_error hcopy] at h
      cases h
      exact .inr rfl
  · cases h
    exact .inl rfl

theorem aeadChacha20Open_error {buffer : List UInt8} {key : Key} {counter : UInt64}
    {data aad : List UInt8} {f : Fault WireGuardError}
    (h : aeadChacha20Open B buffer key counter data aad = .error f) :
    f = .err .invalidAeadTag ∨ f = .panic := by
  simp only [aeadChacha20Open, aeadChacha20OpenInner] at h
  split at h
  · cases hcopy : (copyFromSlice buffer ‹List UInt8› : Except (Fault Unit) _) with
    | ok _ =>
      rw [hcopy] at h
      cases h
    | error g =>
      rw [hcopy, copyFromSlice_error hcopy] at h
      cases h
      exact .inr rfl
  · cases h
    exact .inl rfl

theorem b2sKeyedMac16_error {key data : List UInt8} {f : Fault WireGuardError}
    (h : b2sKeyedMac16 B key data = .error f) : f = .err .invalidLength := by
  unfold b2sKeyedMac16 at h
  split at h <;> cases h
  rfl

end Exact

section Lawful

variable {B : Backend} (hB : B.Lawful)
include hB

/-- Opening into a buffer of the plaintext's length what was sealed gives the plaintext. -/
theorem aeadChacha20Open_seal (buffer : List UInt8) (key : Key) (counter : UInt64)
    (data aad : List UInt8) (hlen : buffer.length = data.length) :
    aeadChacha20Open B buffer key counter
      ((B.aeadSeal key (counterNonce counter) aad data).1 ++
        (B.aeadSeal key (counterNonce counter) aad data).2.toList) aad = .ok data := by
  simp only [aeadChacha20Open, aeadChacha20OpenInner, hB.open_seal, copyFromSlice_of_length hlen]
  rfl

end Lawful

/-- A backend of transparent primitives: every hash and Diffie-Hellman value is
zero, the AEADs append a zero tag, and the table scans its entries. It is lawful, so
the assumptions of `Backend.Lawful` are consistent, and it lets the model run on
concrete inputs. -/
def Backend.plain : Backend where
  x25519Public k := k
  x25519 _ _ := .replicate 32 0
  blake2s _ := .replicate 32 0
  hmacBlake2s _ _ := .replicate 32 0
  blake2sMac16 _ _ := .replicate 16 0
  blake2sMac24 _ _ := .replicate 24 0
  aeadSeal _ _ _ p := (p, .replicate 16 0)
  aeadOpen _ _ _ c :=
    if 16 ≤ c.length ∧ c.drop (c.length - 16) = List.replicate 16 0 then
      some (c.take (c.length - 16))
    else none
  xaeadSeal _ _ _ p := (p, .replicate 16 0)
  xaeadOpen _ _ _ c :=
    if 16 ≤ c.length ∧ c.drop (c.length - 16) = List.replicate 16 0 then
      some (c.take (c.length - 16))
    else none
  usizeBits := 64
  ipNetworkTable := .linear

theorem plain_lawful : Backend.plain.Lawful where
  dh_comm _ _ := rfl
  seal_length _ _ _ _ := rfl
  open_seal _ _ _ p := by simp [Backend.plain]
  open_length _ _ _ c p h := by
    simp only [Backend.plain] at h
    split at h
    · cases h
      simp
      omega
    · cases h
  xseal_length _ _ _ _ := rfl
  xopen_seal _ _ _ p := by simp [Backend.plain]
  xopen_length _ _ _ c p h := by
    simp only [Backend.plain] at h
    split at h
    · cases h
      simp
      omega
    · cases h

end Neptun.Noise
