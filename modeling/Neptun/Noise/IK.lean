import Neptun.Noise.Crypto

/-! The values of one WireGuard handshake (the Noise IK pattern), as the protocol
defines them: mixing data into the transcript hash, the key derivations
KDF1..KDF3 built from HMAC, and the AEAD of a handshake message under nonce 0.
The first message is determined by the initiator's and responder's static
public keys, the initiator's ephemeral public key, the two Diffie-Hellman values
`es` and `ss`, and the timestamp; the second by the first, the responder's
ephemeral public key, the values `ee` and `se`, and the preshared key. The
transport keys come from the final chaining key. Each side of the code computes
these values with its own Diffie-Hellman calls. -/
namespace Neptun.Noise

namespace IK

variable (B : Backend)

/-- `HASH(h || data)` -/
def mixHash (h : Key) (data : List UInt8) : Key := B.blake2s (h.toList ++ data)

def hmac (key : Key) (data : List UInt8) : Key := B.hmacBlake2s key.toList data

def kdf1 (c : Key) (input : List UInt8) : Key := hmac B (hmac B c input) [1]

def kdf2 (c : Key) (input : List UInt8) : Key × Key :=
  let t := hmac B c input
  let t1 := hmac B t [1]
  (t1, hmac B t (t1.toList ++ [2]))

def kdf3 (c : Key) (input : List UInt8) : Key × Key × Key :=
  let t := hmac B c input
  let t1 := hmac B t [1]
  let t2 := hmac B t (t1.toList ++ [2])
  (t1, t2, hmac B t (t2.toList ++ [3]))

/-- `AEAD(key, 0, plaintext, aad)`: the ciphertext followed by its tag. -/
def aead (key : Key) (plaintext aad : List UInt8) : List UInt8 :=
  (B.aeadSeal key (counterNonce 0) aad plaintext).1 ++
    (B.aeadSeal key (counterNonce 0) aad plaintext).2.toList

/-- The fields of the initiation and the initiator's transcript after it. -/
structure Initiation where
  encryptedStatic : List UInt8
  encryptedTimestamp : List UInt8
  hash : Key
  chainingKey : Key

/-- The initiation from `staticI` and `staticR` (static public keys), `ephemeralI`
(the initiator's ephemeral public key), `es` and `ss`. -/
def initiation (staticI staticR ephemeralI es ss : Key) (timestamp : List UInt8) : Initiation :=
  let h := mixHash B initialChainHash staticR.toList
  let c := kdf1 B initialChainKey ephemeralI.toList
  let h := mixHash B h ephemeralI.toList
  let (c, k) := kdf2 B c es.toList
  let encryptedStatic := aead B k staticI.toList h.toList
  let h := mixHash B h encryptedStatic
  let (c, k) := kdf2 B c ss.toList
  let encryptedTimestamp := aead B k timestamp h.toList
  ⟨encryptedStatic, encryptedTimestamp, mixHash B h encryptedTimestamp, c⟩

/-- The field of the response and the responder's chaining key after it. -/
structure Response where
  encryptedNothing : List UInt8
  chainingKey : Key

/-- The response to the initiation whose transcript is `hash` and `chainingKey`,
from `ephemeralR` (the responder's ephemeral public key), `ee`, `se` and the
preshared key. -/
def response (hash chainingKey ephemeralR ee se psk : Key) : Response :=
  let h := mixHash B hash ephemeralR.toList
  let c := kdf1 B chainingKey ephemeralR.toList
  let c := kdf1 B c ee.toList
  let c := kdf1 B c se.toList
  let (c, tau, k) := kdf3 B c psk.toList
  let h := mixHash B h tau.toList
  ⟨aead B k [] h.toList, c⟩

/-- The transport keys: the initiator sends with the first and receives with the
second; the responder the other way round. -/
def transport (chainingKey : Key) : Key × Key := kdf2 B chainingKey []

end IK

end Neptun.Noise
