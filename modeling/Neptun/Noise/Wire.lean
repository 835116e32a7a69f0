import Neptun.Noise.RateLimiter

/-! The wire format of the four messages. `Tunn::parse_incoming_packet` reads
fixed slice ranges, while the formatting methods lay their fields out by chains
of `split_at_mut`. Here the inputs the parser accepts are described once, as
`Framed`, and the layout of each message as the concatenation of its fields, so
that the encoders and the parser meet at the same byte strings. -/
namespace Neptun.Noise

open Lib

theorem u32FromLe_u32ToLe (x : UInt32) (h : (u32ToLe x).toArray.size = 4) :
    u32FromLe ⟨(u32ToLe x).toArray, h⟩ = x := by
  have := x.toNat_lt
  simp [u32FromLe, u32ToLe, ofLeBytes_leBytes, Nat.mod_eq_of_lt this]

theorem u64FromLe_u64ToLe (x : UInt64) (h : (u64ToLe x).toArray.size = 8) :
    u64FromLe ⟨(u64ToLe x).toArray, h⟩ = x := by
  have := x.toNat_lt
  simp [u64FromLe, u64ToLe, ofLeBytes_leBytes, Nat.mod_eq_of_lt this]

/-- The type field compares equal to a constant exactly when its bytes, read
little-endian, are that constant: the three reserved bytes must be zero. -/
theorem u32FromLe_eq_iff (v : Vector UInt8 4) (n : UInt32) :
    u32FromLe v = n ↔ ofLeBytes v.toList = n.toNat := by
  have hlt : ofLeBytes v.toList < 4294967296 := by
    have := ofLeBytes_lt v.toList
    simpa using this
  constructor
  · rintro rfl
    simp [u32FromLe, Nat.mod_eq_of_lt hlt]
  · intro h
    simp [u32FromLe, h]

/-! ## What the parser accepts -/

/-- A datagram of one of the four kinds: a little-endian type of 1, 2 or 3 with
the exact size of its message, or 4 with at least the data overhead. -/
def Framed (src : List UInt8) : Prop :=
  4 ≤ src.length ∧
    ((ofLeBytes (src.take 4) = 1 ∧ src.length = 148) ∨
      (ofLeBytes (src.take 4) = 2 ∧ src.length = 92) ∨
      (ofLeBytes (src.take 4) = 3 ∧ src.length = 64) ∨
      (ofLeBytes (src.take 4) = 4 ∧ 32 ≤ src.length))

-- Once the size is known, every slice the parser takes is in range. A data
-- message has no fixed size, so its buffer is first taken apart into the
-- fields the parser reads.
theorem parseIncomingPacket_of_framed {src : List UInt8} (h : Framed src) :
    ∃ p, Tunn.parseIncomingPacket src = .ok p := by
  obtain ⟨hlen, h1 | h2 | h3 | h4⟩ := h
  all_goals
    simp only [Tunn.parseIncomingPacket, if_neg (Nat.not_lt.mpr hlen)]
  · simp [index, getRange_of_le, tryIntoArray_of_length, u32FromLe_eq_iff, h1, handshakeInit,
      handshakeInitSz]
    exact ⟨_, rfl⟩
  · simp [index, getRange_of_le, tryIntoArray_of_length, u32FromLe_eq_iff, h2, handshakeInit,
      handshakeResp, handshakeRespSz]
    exact ⟨_, rfl⟩
  · simp [index, getRange_of_le, tryIntoArray_of_length, u32FromLe_eq_iff, h3, handshakeInit,
      handshakeResp, cookieReply, cookieReplySz]
    exact ⟨_, rfl⟩
  · obtain ⟨t, r1, rfl, ht⟩ := exists_split hlen
    obtain ⟨ri, r2, rfl, hri⟩ := exists_split (show 4 ≤ r1.length by simp at h4; omega)
    obtain ⟨c, payload, rfl, hc⟩ := exists_split (show 8 ≤ r2.length by simp at h4; omega)
    have hp : 16 ≤ payload.length := by simp at h4; omega
    simp only [List.take_left' ht] at h4
    simp +arith [index, getRange_append_left, getRange_append_of_le, getRange_self,
      tryIntoArray_of_length, u32FromLe_eq_iff, handshakeInit, handshakeResp, cookieReply, data,
      dataOverheadSz, hp, ht, hri, hc, h4]
    exact ⟨_, rfl⟩

/-- Every other input, of any length, is an `InvalidPacket` error, never a panic. -/
theorem parseIncomingPacket_of_not_framed {src : List UInt8} (h : ¬ Framed src) :
    Tunn.parseIncomingPacket src = .error (.err .invalidPacket) := by
  by_cases hlen : src.length < 4
  · simp [Tunn.parseIncomingPacket, hlen]
    rfl
  · have hlen' : 4 ≤ src.length := Nat.not_lt.mp hlen
    have ht : (src.take 4).length = 4 := by simp; omega
    simp only [Framed, not_and, not_or] at h
    obtain ⟨h1, h2, h3, h4⟩ := h hlen'
    simp [Tunn.parseIncomingPacket, hlen, index, getRange_of_le (Nat.zero_le 4) hlen',
      tryIntoArray_of_length ht, u32FromLe_eq_iff, handshakeInit, handshakeInitSz, handshakeResp,
      handshakeRespSz, cookieReply, cookieReplySz, data, dataOverheadSz]
    rw [if_neg (by simpa using h1), if_neg (by simpa using h2), if_neg (by simpa using h3),
      if_neg (by simpa using h4)]
    rfl

theorem parseIncomingPacket_ok_iff (src : List UInt8) :
    (∃ p, Tunn.parseIncomingPacket src = .ok p) ↔ Framed src := by
  constructor
  · rintro ⟨p, hp⟩
    by_contra hf
    rw [parseIncomingPacket_of_not_framed hf] at hp
    cases hp
  · exact parseIncomingPacket_of_framed

/-! ## The layout of each message -/

/-- The bytes of an initiation that its mac1 covers. -/
def HandshakeInit.body (p : HandshakeInit) : List UInt8 :=
  u32ToLe handshakeInit ++ u32ToLe p.senderIdx ++ p.unencryptedEphemeral.toList ++
    p.encryptedStatic ++ p.encryptedTimestamp

/-- The bytes of a response that its mac1 covers. -/
def HandshakeResponse.body (p : HandshakeResponse) : List UInt8 :=
  u32ToLe handshakeResp ++ u32ToLe p.senderIdx ++ u32ToLe p.receiverIdx ++
    p.unencryptedEphemeral.toList ++ p.encryptedNothing

def PacketCookieReply.bytes (p : PacketCookieReply) : List UInt8 :=
  u32ToLe cookieReply ++ u32ToLe p.receiverIdx ++ p.nonce ++ p.encryptedCookie

def PacketData.bytes (p : PacketData) : List UInt8 :=
  u32ToLe data ++ u32ToLe p.receiverIdx ++ u64ToLe p.counter ++ p.encryptedEncapsulatedPacket

section Layout

variable {macs : List UInt8}

theorem parseIncomingPacket_handshakeInit (p : HandshakeInit)
    (hs : p.encryptedStatic.length = 48) (ht : p.encryptedTimestamp.length = 28)
    (hm : macs.length = 32) :
    Tunn.parseIncomingPacket (p.body ++ macs) = .ok (.handshakeInit p) := by
  simp [Tunn.parseIncomingPacket, HandshakeInit.body, index, getRange_append_left,
    getRange_append_of_le, getRange_self, tryIntoArray_of_length, u32FromLe_u32ToLe, hs, ht, hm,
    handshakeInitSz, handshakeInit]
  rfl

theorem parseIncomingPacket_handshakeResponse (p : HandshakeResponse)
    (hn : p.encryptedNothing.length = 16) (hm : macs.length = 32) :
    Tunn.parseIncomingPacket (p.body ++ macs) = .ok (.handshakeResponse p) := by
  simp [Tunn.parseIncomingPacket, HandshakeResponse.body, index, getRange_append_left,
    getRange_append_of_le, getRange_self, tryIntoArray_of_length, u32FromLe_u32ToLe, hn, hm,
    handshakeInit, handshakeInitSz, handshakeResp, handshakeRespSz]
  rfl

theorem parseIncomingPacket_packetCookieReply (p : PacketCookieReply)
    (hn : p.nonce.length = 24) (hc : p.encryptedCookie.length = 32) :
    Tunn.parseIncomingPacket p.bytes = .ok (.packetCookieReply p) := by
  simp [Tunn.parseIncomingPacket, PacketCookieReply.bytes, index, getRange_append_left,
    getRange_append_of_le, getRange_self, tryIntoArray_of_length, u32FromLe_u32ToLe, hn, hc,
    handshakeInit, handshakeResp, cookieReply, cookieReplySz]
  rfl

theorem parseIncomingPacket_packetData (p : PacketData)
    (hp : aeadSize ≤ p.encryptedEncapsulatedPacket.length) :
    Tunn.parseIncomingPacket p.bytes = .ok (.packetData p) := by
  simp only [aeadSize] at hp
  simp only [Tunn.parseIncomingPacket, PacketData.bytes]
  simp +arith [index, getRange_append_left, getRange_append_of_le, getRange_self,
    tryIntoArray_of_length, u32FromLe_u32ToLe, u64FromLe_u64ToLe, handshakeInit, handshakeResp,
    cookieReply, data, dataOverheadSz, hp]
  rfl

end Layout

end Neptun.Noise
