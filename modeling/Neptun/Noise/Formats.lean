import Neptun.Noise.IK
import Neptun.Noise.Wire

/-! What each formatting method writes. For a destination buffer that is large
enough, each method is run symbolically: the buffer is cut into the pieces its
chain of `split_at_mut` takes, and the result is the layout of one message whose
fields are named here (`initiationMessage` and so on, with the handshake values
of `IK`). The parser then reads those fields back. -/
namespace Neptun.Noise

open Lib

namespace Handshake

variable (B : Backend)

theorem incIndex_run (h : Handshake) :
    incIndex.run h = .ok (indexAfter h.nextIndex) { h with nextIndex := indexAfter h.nextIndex } :=
  rfl

theorem toUInt8_indexAfter (x : UInt32) : (indexAfter x).toUInt8 = x.toUInt8 + 1 := by
  have hmask : (~~~(0xff : UInt32)).toUInt8 = 0 := by decide
  rw [indexAfter, UInt32.toUInt8_or, UInt32.toUInt8_and, UInt8.toUInt8_toUInt32, hmask,
    UInt8.and_zero, UInt8.zero_or]

/-- A new index always differs from the last one in its low byte. -/
theorem indexAfter_ne (x : UInt32) : indexAfter x ≠ x := by
  intro h
  have h8 := congrArg UInt32.toUInt8 h
  rw [toUInt8_indexAfter] at h8
  have := congrArg UInt8.toNat h8
  simp [UInt8.toNat_add] at this
  omega

/-- mac2 of a message: under the last cookie received, or zeros without one. -/
def mac2Of (c : Cookies) (msgAndMac1 : List UInt8) : Vector UInt8 16 :=
  match c.writeCookie with
  | some cookie => B.blake2sMac16 cookie.toList msgAndMac1
  | none => .replicate 16 0

/-- The 32 bytes `append_mac1_and_mac2` writes after `msg`. -/
def macs (h : Handshake) (msg : List UInt8) : List UInt8 :=
  let mac1 := B.blake2sMac16 h.params.sendingMac1Key.toList msg
  mac1.toList ++ (mac2Of B h.cookies (msg ++ mac1.toList)).toList

@[simp] theorem length_macs (h : Handshake) (msg : List UInt8) : (macs B h msg).length = 32 := by
  simp [macs]

/-- The handshake values of the initiation sent with the ephemeral key
`ephemeralPrivate` and the timestamp `ts`. -/
def initiationValues (h : Handshake) (ephemeralPrivate : Key) (ts : Vector UInt8 12) :
    IK.Initiation :=
  IK.initiation B h.params.staticPublic h.params.peerStaticPublic
    (B.x25519Public ephemeralPrivate) (B.x25519 ephemeralPrivate h.params.peerStaticPublic)
    h.params.staticShared ts.toList

def initiationMessage (h : Handshake) (ephemeralPrivate : Key) (ts : Vector UInt8 12) :
    HandshakeInit :=
  ⟨indexAfter h.nextIndex, B.x25519Public ephemeralPrivate,
    (initiationValues B h ephemeralPrivate ts).encryptedStatic,
    (initiationValues B h ephemeralPrivate ts).encryptedTimestamp⟩

/-- The handshake values of the response sent with the ephemeral key
`ephemeralPrivate` to the initiation received with transcript `hash` and
`chainingKey`. -/
def responseValues (h : Handshake) (ephemeralPrivate hash chainingKey peerEphemeralPublic : Key) :
    IK.Response :=
  IK.response B hash chainingKey (B.x25519Public ephemeralPrivate)
    (B.x25519 ephemeralPrivate peerEphemeralPublic)
    (B.x25519 ephemeralPrivate h.params.peerStaticPublic)
    (h.params.presharedKey.getD (.replicate 32 0))

def responseMessage (h : Handshake) (ephemeralPrivate hash chainingKey peerEphemeralPublic : Key)
    (peerIndex : UInt32) : HandshakeResponse :=
  ⟨indexAfter h.nextIndex, peerIndex, B.x25519Public ephemeralPrivate,
    (responseValues B h ephemeralPrivate hash chainingKey peerEphemeralPublic).encryptedNothing⟩

theorem appendMac1AndMac2_run (h : Handshake) (localIndex : UInt32) {dst : List UInt8}
    (msg rest : List UInt8) (hd : dst = msg ++ rest) (hm : rest.length = 32) :
    (appendMac1AndMac2 B localIndex dst).run h =
      .ok (msg ++ macs B h msg)
        { h with
          cookies := { h.cookies with
            index := localIndex
            lastMac1 := some (B.blake2sMac16 h.params.sendingMac1Key.toList msg) } } := by
  subst hd
  obtain ⟨m1, m2, rfl, h1⟩ := exists_split (show 16 ≤ rest.length by omega)
  have h2 : m2.length = 16 := by simp at hm; omega
  cases hc : h.cookies.writeCookie with
  | none =>
    simp [appendMac1AndMac2, EStateM.run_bind, EStateM.run_get, b2sKeyedMac16, macs, mac2Of, hc,
      getRange_append_of_le, getRange_append_left, getRange_self, copyFromSlice_of_length, h1, h2,
      EStateM.run_set, -bind_pure_comp]
  | some cookie =>
    simp [appendMac1AndMac2, EStateM.run_bind, EStateM.run_get, b2sKeyedMac16, macs, mac2Of, hc,
      getRange_append_of_le, getRange_append_left, getRange_self, copyFromSlice_of_length, h1, h2]
    -- mac2 is computed over the message and the mac1 just written
    rw [getRange_of_le (Nat.zero_le _) (by simp [h2])]
    simp only [List.drop_zero, Nat.sub_zero, List.take_length_add_append,
      List.take_left' Vector.length_toList]
    rfl

variable {B}

theorem formatHandshakeInitiation_run (hB : B.Lawful) (h : Handshake) (eph : Key) (now : Nat)
    (dst : List UInt8) (hdst : handshakeInitSz ≤ dst.length) {ts : Vector UInt8 12}
    (hts : h.stamper.stamp now = .ok ts) :
    (formatHandshakeInitiation B eph now dst).run h =
      .ok ((initiationMessage B h eph ts).body ++ macs B h (initiationMessage B h eph ts).body)
        { h with
          nextIndex := indexAfter h.nextIndex
          previous := h.state
          state := .initSent ⟨indexAfter h.nextIndex, (initiationValues B h eph ts).hash,
            (initiationValues B h eph ts).chainingKey, eph, now⟩
          cookies := { h.cookies with
            index := indexAfter h.nextIndex
            lastMac1 := some (B.blake2sMac16 h.params.sendingMac1Key.toList
              (initiationMessage B h eph ts).body) } } := by
  have hd : 4 + 4 + 32 + 48 + 28 + 32 ≤ dst.length := by simpa [handshakeInitSz] using hdst
  obtain ⟨p1, r1, rfl, h1⟩ := exists_split (show 4 ≤ dst.length by omega)
  obtain ⟨p2, r2, rfl, h2⟩ := exists_split (show 4 ≤ r1.length by simp at hd; omega)
  obtain ⟨p3, r3, rfl, h3⟩ := exists_split (show 32 ≤ r2.length by simp at hd; omega)
  obtain ⟨p4, r4, rfl, h4⟩ := exists_split (show 48 ≤ r3.length by simp at hd; omega)
  obtain ⟨p5, tail, rfl, h5⟩ := exists_split (show 28 ≤ r4.length by simp at hd; omega)
  have htail : 32 ≤ tail.length := by simp at hd; omega
  have hs4 : p4.length = (Vector.toList h.params.staticPublic).length + 16 := by simp [h4]
  have hs5 : p5.length = (Vector.toList ts).length + 16 := by simp [h5]
  simp only [formatHandshakeInitiation]
  rw [if_neg (Nat.not_lt.mpr hdst)]
  simp [EStateM.run_bind, EStateM.run_get, splitAt_append h1, splitAt_append h2,
    splitAt_append h3, splitAt_append h4, splitAt_append h5, copyFromSlice_of_length, h1, h2, h3,
    incIndex_run, aeadChacha20Seal_eq _ _ _ hs4, aeadChacha20Seal_eq _ _ _ hs5, hts]
  rw [getRange_of_le (Nat.zero_le _) (by simp [hB.seal_length, handshakeInitSz]; omega)]
  simp [List.take_append, hB.seal_length, List.take_of_length_le, handshakeInitSz]
  rw [appendMac1AndMac2_run B _ _ (initiationMessage B h eph ts).body (tail.take 32)
    (by simp [initiationMessage, initiationValues, HandshakeInit.body, IK.initiation, IK.kdf1,
      IK.kdf2, IK.aead, IK.mixHash, IK.hmac, b2sHash, b2sHmac, b2sHmac2]) (by simp; omega)]
  simp [macs, initiationValues, IK.initiation, IK.kdf1, IK.kdf2, IK.aead, IK.mixHash, IK.hmac,
    b2sHash, b2sHmac, b2sHmac2]

/-- The stamp is taken after the index is drawn: its panic leaves the new index. -/
theorem formatHandshakeInitiation_run_of_error (h : Handshake) (eph : Key) (now : Nat)
    (dst : List UInt8) (hdst : handshakeInitSz ≤ dst.length) {e : Fault WireGuardError}
    (hts : h.stamper.stamp now = .error e) :
    (formatHandshakeInitiation B eph now dst).run h =
      .error e { h with nextIndex := indexAfter h.nextIndex } := by
  have hd : 4 + 4 + 32 + 48 + 28 + 32 ≤ dst.length := by simpa [handshakeInitSz] using hdst
  obtain ⟨p1, r1, rfl, h1⟩ := exists_split (show 4 ≤ dst.length by omega)
  obtain ⟨p2, r2, rfl, h2⟩ := exists_split (show 4 ≤ r1.length by simp at hd; omega)
  obtain ⟨p3, r3, rfl, h3⟩ := exists_split (show 32 ≤ r2.length by simp at hd; omega)
  obtain ⟨p4, r4, rfl, h4⟩ := exists_split (show 48 ≤ r3.length by simp at hd; omega)
  obtain ⟨p5, tail, rfl, h5⟩ := exists_split (show 28 ≤ r4.length by simp at hd; omega)
  have hs4 : p4.length = (Vector.toList h.params.staticPublic).length + 16 := by simp [h4]
  simp only [formatHandshakeInitiation]
  rw [if_neg (Nat.not_lt.mpr hdst)]
  simp [EStateM.run_bind, EStateM.run_get, splitAt_append h1, splitAt_append h2,
    splitAt_append h3, splitAt_append h4, splitAt_append h5, copyFromSlice_of_length, h1, h2, h3,
    incIndex_run, aeadChacha20Seal_eq _ _ _ hs4, hts]
  rfl

/-- A successful initiation is the one of `formatHandshakeInitiation_run`. -/
theorem formatHandshakeInitiation_ok (hB : B.Lawful) {h : Handshake} {eph : Key} {now : Nat}
    {dst m : List UInt8} {h' : Handshake}
    (hrun : (formatHandshakeInitiation B eph now dst).run h = .ok m h') :
    ∃ ts, h.stamper.stamp now = .ok ts ∧
      m = (initiationMessage B h eph ts).body ++ macs B h (initiationMessage B h eph ts).body ∧
      h' = { h with
          nextIndex := indexAfter h.nextIndex
          previous := h.state
          state := .initSent ⟨indexAfter h.nextIndex, (initiationValues B h eph ts).hash,
            (initiationValues B h eph ts).chainingKey, eph, now⟩
          cookies := { h.cookies with
            index := indexAfter h.nextIndex
            lastMac1 := some (B.blake2sMac16 h.params.sendingMac1Key.toList
              (initiationMessage B h eph ts).body) } } := by
  by_cases hdst : dst.length < handshakeInitSz
  · simp [formatHandshakeInitiation, hdst] at hrun
  · cases hts : h.stamper.stamp now with
    | error e =>
      rw [formatHandshakeInitiation_run_of_error h eph now dst (Nat.not_lt.mp hdst) hts] at hrun
      cases hrun
    | ok ts =>
      rw [formatHandshakeInitiation_run hB h eph now dst (Nat.not_lt.mp hdst) hts] at hrun
      cases hrun
      exact ⟨ts, rfl, rfl, rfl⟩

theorem formatHandshakeResponse_run (hB : B.Lawful) (h : Handshake) (eph : Key)
    (dst : List UInt8) (hdst : handshakeRespSz ≤ dst.length) {hash chainingKey pe : Key}
    {peerIndex : UInt32} (hs : h.state = .initReceived hash chainingKey pe peerIndex) :
    (formatHandshakeResponse B eph dst).run h =
      .ok ((responseMessage B h eph hash chainingKey pe peerIndex).body ++
            macs B h (responseMessage B h eph hash chainingKey pe peerIndex).body,
          Session.new (indexAfter h.nextIndex) peerIndex
            (IK.transport B (responseValues B h eph hash chainingKey pe).chainingKey).1
            (IK.transport B (responseValues B h eph hash chainingKey pe).chainingKey).2)
        { h with
          nextIndex := indexAfter h.nextIndex
          state := .none
          cookies := { h.cookies with
            index := indexAfter h.nextIndex
            lastMac1 := some (B.blake2sMac16 h.params.sendingMac1Key.toList
              (responseMessage B h eph hash chainingKey pe peerIndex).body) } } := by
  have hd : 4 + 4 + 4 + 32 + 16 + 32 ≤ dst.length := by simpa [handshakeRespSz] using hdst
  obtain ⟨p1, r1, rfl, h1⟩ := exists_split (show 4 ≤ dst.length by omega)
  obtain ⟨p2, r2, rfl, h2⟩ := exists_split (show 4 ≤ r1.length by simp at hd; omega)
  obtain ⟨p3, r3, rfl, h3⟩ := exists_split (show 4 ≤ r2.length by simp at hd; omega)
  obtain ⟨p4, r4, rfl, h4⟩ := exists_split (show 32 ≤ r3.length by simp at hd; omega)
  obtain ⟨p5, tail, rfl, h5⟩ := exists_split (show 16 ≤ r4.length by simp at hd; omega)
  have htail : 32 ≤ tail.length := by simp at hd; omega
  have hs5 : p5.length = ([] : List UInt8).length + 16 := by simp [h5]
  simp only [formatHandshakeResponse]
  rw [if_neg (Nat.not_lt.mpr hdst)]
  -- keep the final `pure (msg, session)` a bind, so that the run of
  -- `appendMac1AndMac2` stays visible to the rewrite below
  simp [EStateM.run_bind, EStateM.run_get, EStateM.run_set, hs, splitAt_append h1,
    splitAt_append h2, splitAt_append h3, splitAt_append h4, splitAt_append h5,
    copyFromSlice_of_length, h1, h2, h3, h4, incIndex_run, aeadChacha20Seal_eq _ _ _ hs5,
    -bind_pure_comp]
  rw [getRange_of_le (Nat.zero_le _) (by simp [hB.seal_length, handshakeRespSz]; omega)]
  simp [List.take_append, hB.seal_length, List.take_of_length_le, handshakeRespSz, -bind_pure_comp]
  rw [appendMac1AndMac2_run B _ _ (responseMessage B h eph hash chainingKey pe peerIndex).body
    (tail.take 32)
    (by simp [responseMessage, responseValues, HandshakeResponse.body, IK.response, IK.kdf1,
      IK.kdf3, IK.aead, IK.mixHash, IK.hmac, b2sHash, b2sHmac, b2sHmac2]) (by simp; omega)]
  simp [macs, responseValues, IK.response, IK.transport, IK.kdf1, IK.kdf2, IK.kdf3, IK.aead,
    IK.mixHash, IK.hmac, b2sHmac, b2sHmac2]

/-- A successful response answers an initiation received into a large enough buffer. -/
theorem formatHandshakeResponse_ok {h : Handshake} {eph : Key} {dst m : List UInt8}
    {session : Session} {h' : Handshake}
    (hrun : (formatHandshakeResponse B eph dst).run h = .ok (m, session) h') :
    handshakeRespSz ≤ dst.length ∧
      ∃ hash chainingKey pe peerIndex, h.state = .initReceived hash chainingKey pe peerIndex := by
  by_cases hdst : dst.length < handshakeRespSz
  · simp [formatHandshakeResponse, hdst] at hrun
  · refine ⟨Nat.not_lt.mp hdst, ?_⟩
    simp only [formatHandshakeResponse] at hrun
    rw [if_neg hdst] at hrun
    obtain ⟨h₀, s₁, hget, hrun⟩ := run_bind_ok hrun
    cases hget
    obtain ⟨_, s₂, hset, hrun⟩ := run_bind_ok hrun
    cases hset
    cases hs : h.state with
    | initReceived hash chainingKey pe peerIndex => exact ⟨_, _, _, _, rfl⟩
    | _ =>
      rw [hs] at hrun
      cases hrun

/-- What the peer parses a formatted initiation as: the message itself, read
back from its fields. -/
theorem parseIncomingPacket_initiation (hB : B.Lawful) (h : Handshake) (eph : Key)
    (ts : Vector UInt8 12) {macs : List UInt8} (hm : macs.length = 32) :
    Tunn.parseIncomingPacket ((initiationMessage B h eph ts).body ++ macs) =
      .ok (.handshakeInit (initiationMessage B h eph ts)) :=
  parseIncomingPacket_handshakeInit _
    (by simp [initiationMessage, initiationValues, IK.initiation, IK.aead, hB.seal_length])
    (by simp [initiationMessage, initiationValues, IK.initiation, IK.aead, hB.seal_length]) hm

theorem parseIncomingPacket_response (hB : B.Lawful) (h : Handshake)
    (eph hash chainingKey pe : Key) (peerIndex : UInt32) {macs : List UInt8}
    (hm : macs.length = 32) :
    Tunn.parseIncomingPacket ((responseMessage B h eph hash chainingKey pe peerIndex).body ++ macs) =
      .ok (.handshakeResponse (responseMessage B h eph hash chainingKey pe peerIndex)) :=
  parseIncomingPacket_handshakeResponse _
    (by simp [responseMessage, responseValues, IK.response, IK.aead, hB.seal_length]) hm

end Handshake

namespace RateLimiter

variable (B : Backend)

/-- The cookie reply carrying `cookie`, sealed under the cookie key with the
next nonce and the mac1 it answers as associated data. -/
def cookieReplyMessage (r : RateLimiter) (idx : UInt32) (cookie : Vector UInt8 16)
    (mac1 : List UInt8) : PacketCookieReply :=
  let nonce := B.blake2sMac24 r.nonceKey.toList (u64ToLe r.nonceCtr)
  let sealed := B.xaeadSeal r.cookieKey nonce mac1 cookie.toList
  ⟨idx, nonce.toList, sealed.1 ++ sealed.2.toList⟩

variable {B}

theorem nonce_run (r : RateLimiter) :
    (nonce B).run r = .ok (B.blake2sMac24 r.nonceKey.toList (u64ToLe r.nonceCtr))
      { r with nonceCtr := r.nonceCtr + 1 } := by
  simp [nonce, EStateM.run_bind, EStateM.run_get, b2sMac24, EStateM.run_set, -bind_pure_comp]

theorem formatCookieReply_run (hB : B.Lawful) (r : RateLimiter) (idx : UInt32)
    (cookie : Vector UInt8 16) (mac1 dst : List UInt8) (hdst : cookieReplySz ≤ dst.length) :
    (formatCookieReply B idx cookie mac1 dst).run r =
      .ok (cookieReplyMessage B r idx cookie mac1).bytes { r with nonceCtr := r.nonceCtr + 1 } := by
  have hd : 4 + 4 + 24 + 16 + 16 ≤ dst.length := by simpa [cookieReplySz] using hdst
  obtain ⟨p1, r1, rfl, h1⟩ := exists_split (show 4 ≤ dst.length by omega)
  obtain ⟨p2, r2, rfl, h2⟩ := exists_split (show 4 ≤ r1.length by simp at hd; omega)
  obtain ⟨p3, r3, rfl, h3⟩ := exists_split (show 24 ≤ r2.length by simp at hd; omega)
  obtain ⟨p4, r4, rfl, h4⟩ := exists_split (show 16 ≤ r3.length by simp at hd; omega)
  obtain ⟨p5, tail, rfl, h5⟩ := exists_split (show 16 ≤ r4.length by simp at hd; omega)
  -- the cookie field is split off whole, then cut into the cookie and its tag
  have hcookie : (splitAt (p4 ++ (p5 ++ tail)) (16 + 16) : EStateM (Fault WireGuardError)
      RateLimiter _) = pure (p4 ++ p5, tail) := by
    rw [← List.append_assoc]
    exact splitAt_append (by simp [h4, h5])
  simp only [formatCookieReply]
  rw [if_neg (Nat.not_lt.mpr hdst)]
  simp [EStateM.run_bind, EStateM.run_get, splitAt_append h1, splitAt_append h2, splitAt_append h3,
    hcookie, splitAt_append h4, copyFromSlice_of_length, h1, h2, h3, h4, h5, nonce_run,
    tryIntoArray_of_length]
  simp only [index]
  rw [getRange_of_le (Nat.zero_le _) (by simp [hB.xseal_length, cookieReplySz]; omega)]
  simp [List.take_append, hB.xseal_length, List.take_of_length_le, cookieReplySz,
    cookieReplyMessage, PacketCookieReply.bytes]

end RateLimiter

namespace Session

variable (B : Backend)

/-- The data message sealing `payload` under the sending key and the session's
next counter. -/
def dataMessage (s : Session) (payload : List UInt8) : PacketData :=
  let counter := UInt64.ofNat s.sendingKeyCounter
  let sealed := B.aeadSeal s.sender (counterNonce counter) [] payload
  ⟨s.sendingIndex, counter, sealed.1 ++ sealed.2.toList⟩

variable {B}

theorem formatPacketData_run (hB : B.Lawful) (s : Session) (payloadLen : Nat) (buf : List UInt8)
    (hbuf : payloadLen + dataOverheadSz ≤ buf.length) :
    (formatPacketData B payloadLen buf).run s =
      .ok (dataMessage B s ((buf.drop dataOffset).take payloadLen)).bytes
        { s with sendingKeyCounter := (s.sendingKeyCounter + 1) % 2 ^ B.usizeBits } := by
  have hd : 4 + 4 + 8 + payloadLen + 16 ≤ buf.length := by simp [dataOverheadSz] at hbuf; omega
  obtain ⟨p1, r1, rfl, h1⟩ := exists_split (show 4 ≤ buf.length by omega)
  obtain ⟨p2, r2, rfl, h2⟩ := exists_split (show 4 ≤ r1.length by simp at hd; omega)
  obtain ⟨p3, r3, rfl, h3⟩ := exists_split (show 8 ≤ r2.length by simp at hd; omega)
  obtain ⟨payload, r4, rfl, h4⟩ := exists_split (show payloadLen ≤ r3.length by simp at hd; omega)
  obtain ⟨p5, tail, rfl, h5⟩ := exists_split (show 16 ≤ r4.length by simp at hd; omega)
  have hpay : ((p1 ++ (p2 ++ (p3 ++ (payload ++ (p5 ++ tail))))).drop dataOffset).take payloadLen =
      payload := by
    rw [← List.append_assoc, ← List.append_assoc,
      List.drop_left' (by simp [h1, h2, h3, dataOffset]), List.take_left' h4]
  rw [hpay]
  simp only [formatPacketData]
  rw [if_neg (Nat.not_lt.mpr hbuf)]
  simp [EStateM.run_bind, EStateM.run_get, EStateM.run_set, splitAt_append h1, splitAt_append h2,
    splitAt_append h3, copyFromSlice_of_length, h1, h2, h3, h4, h5, getRange_append_left,
    getRange_self, index, getRange_append_of_le, aeadSize]
  rw [getRange_of_le (Nat.zero_le _) (by simp [hB.seal_length, dataOffset]; omega)]
  simp +arith [List.take_append, hB.seal_length, List.take_of_length_le, dataOffset,
    PacketData.bytes, dataMessage, h4]

end Session

/-! ## The parser reads back what the encoders write -/

section RoundTrip

variable {B : Backend}

theorem wire_format_round_trip (hB : B.Lawful) :
    (∀ src, (∃ p, Tunn.parseIncomingPacket src = .ok p) ↔ Framed src) ∧
    (∀ src, ¬ Framed src → Tunn.parseIncomingPacket src = .error (.err .invalidPacket)) ∧
    (∀ (h : Handshake) eph now dst ts, handshakeInitSz ≤ dst.length →
      h.stamper.stamp now = .ok ts →
      let p := Handshake.initiationMessage B h eph ts
      ∃ macs h', (Handshake.formatHandshakeInitiation B eph now dst).run h = .ok (p.body ++ macs) h' ∧
        Tunn.parseIncomingPacket (p.body ++ macs) = .ok (.handshakeInit p)) ∧
    (∀ (h : Handshake) eph dst hash chainingKey pe peerIndex, handshakeRespSz ≤ dst.length →
      h.state = .initReceived hash chainingKey pe peerIndex →
      let p := Handshake.responseMessage B h eph hash chainingKey pe peerIndex
      ∃ macs session h', (Handshake.formatHandshakeResponse B eph dst).run h =
          .ok (p.body ++ macs, session) h' ∧
        Tunn.parseIncomingPacket (p.body ++ macs) = .ok (.handshakeResponse p)) ∧
    (∀ (r : RateLimiter) idx cookie mac1 dst, cookieReplySz ≤ dst.length →
      let p := RateLimiter.cookieReplyMessage B r idx cookie mac1
      ∃ r', (RateLimiter.formatCookieReply B idx cookie mac1 dst).run r = .ok p.bytes r' ∧
        Tunn.parseIncomingPacket p.bytes = .ok (.packetCookieReply p)) ∧
    (∀ (s : Session) payloadLen buf, payloadLen + dataOverheadSz ≤ buf.length →
      let p := Session.dataMessage B s ((buf.drop dataOffset).take payloadLen)
      ∃ s', (Session.formatPacketData B payloadLen buf).run s = .ok p.bytes s' ∧
        Tunn.parseIncomingPacket p.bytes = .ok (.packetData p)) := by
  refine ⟨parseIncomingPacket_ok_iff, fun _ => parseIncomingPacket_of_not_framed, ?_, ?_, ?_, ?_⟩
  · intro h eph now dst ts hdst hts p
    refine ⟨_, _, Handshake.formatHandshakeInitiation_run hB h eph now dst hdst hts, ?_⟩
    exact parseIncomingPacket_handshakeInit p
      (by simp [p, Handshake.initiationMessage, Handshake.initiationValues, IK.initiation, IK.aead,
        hB.seal_length])
      (by simp [p, Handshake.initiationMessage, Handshake.initiationValues, IK.initiation, IK.aead,
        hB.seal_length])
      (Handshake.length_macs B h _)
  · intro h eph dst hash chainingKey pe peerIndex hdst hs p
    refine ⟨_, _, _, Handshake.formatHandshakeResponse_run hB h eph dst hdst hs, ?_⟩
    exact parseIncomingPacket_handshakeResponse p
      (by simp [p, Handshake.responseMessage, Handshake.responseValues, IK.response, IK.aead,
        hB.seal_length])
      (Handshake.length_macs B h _)
  · intro r idx cookie mac1 dst hdst p
    refine ⟨_, RateLimiter.formatCookieReply_run hB r idx cookie mac1 dst hdst, ?_⟩
    exact parseIncomingPacket_packetCookieReply p (by simp [p, RateLimiter.cookieReplyMessage])
      (by simp [p, RateLimiter.cookieReplyMessage, hB.xseal_length])
  · intro s payloadLen buf hbuf p
    refine ⟨_, Session.formatPacketData_run hB s payloadLen buf hbuf, ?_⟩
    exact parseIncomingPacket_packetData p (by simp [p, Session.dataMessage, aeadSize])

/-- A fresh session's first data message with a 16-byte payload parses back. -/
theorem wire_format_round_trip_data :
    let s := Session.new 1 2 (.replicate 32 0) (.replicate 32 0)
    let p := Session.dataMessage Backend.plain s (List.replicate 16 7)
    ∃ s', (Session.formatPacketData Backend.plain 16 (List.replicate 16 0 ++ List.replicate 16 7 ++
        List.replicate 16 0)).run s = .ok p.bytes s' ∧
      Tunn.parseIncomingPacket p.bytes = .ok (.packetData p) :=
  (wire_format_round_trip plain_lawful).2.2.2.2.2 _ 16 _ (by decide)

end RoundTrip

end Neptun.Noise
