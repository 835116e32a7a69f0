import Neptun.Noise.Transport

/-! What the tunnel does with a plaintext once a data message has opened: the
IP header is read for the packet's length and source address, and the prefix of
that length goes to the tunnel. A keepalive is empty and is counted but not
passed on. -/
namespace Neptun.Noise

open Lib

namespace Tunn

section Header

variable {b : UInt8} {rest : List UInt8}

/- The fields of the header are inside the minimum header of the version, so
the reads at fixed offsets never fail. -/
theorem index_header (min : Nat) (hlen : min ≤ rest.length + 1) {a n : Nat}
    (h : a + n ≤ min) :
    (index (b :: rest) a (a + n) : Except (Fault WireGuardError) _) =
      pure (((b :: rest).drop a).take n) := by
  rw [index_of_le (by omega) (by simp; omega), Nat.add_sub_cancel_left]

theorem ipHeader_v4 (hb : b >>> 4 = 4) (hlen : ipv4MinHeaderSize ≤ rest.length + 1) :
    ipHeader (b :: rest) = .ok (some
      ((u16FromBe ⟨((rest.drop 1).take 2).toArray, by
          simp [ipv4MinHeaderSize] at hlen ⊢; omega⟩).toNat,
        .v4 ⟨((rest.drop 11).take 4).toArray, by simp [ipv4MinHeaderSize] at hlen ⊢; omega⟩)) := by
  simp only [ipHeader, List.getElem?_cons_zero, orPanic_some, pure_bind, hb, List.length_cons,
    hlen, and_self, if_true, ipv4LenOff, ipLenSz, ipv4SrcIpOff, ipv4IpSz,
    index_header _ hlen (show 2 + 2 ≤ 20 by omega), index_header _ hlen (show 12 + 4 ≤ 20 by omega)]
  rw [tryIntoArray_of_length (by simp [ipv4MinHeaderSize] at hlen ⊢; omega),
    tryIntoArray_of_length (by simp [ipv4MinHeaderSize] at hlen ⊢; omega)]
  rfl

theorem ipHeader_v6 (hb : b >>> 4 = 6) (hlen : ipv6MinHeaderSize ≤ rest.length + 1) :
    ipHeader (b :: rest) = .ok (some
      ((u16FromBe ⟨((rest.drop 3).take 2).toArray, by
          simp [ipv6MinHeaderSize] at hlen ⊢; omega⟩).toNat + ipv6MinHeaderSize,
        .v6 ⟨((rest.drop 7).take 16).toArray, by simp [ipv6MinHeaderSize] at hlen ⊢; omega⟩)) := by
  simp only [ipHeader, List.getElem?_cons_zero, orPanic_some, pure_bind, hb,
    List.length_cons, hlen, and_self, if_true, ipv6LenOff, ipLenSz, ipv6SrcIpOff,
    ipv6IpSz, index_header _ hlen (show 4 + 2 ≤ 40 by omega),
    index_header _ hlen (show 8 + 16 ≤ 40 by omega)]
  rw [tryIntoArray_of_length (by simp [ipv6MinHeaderSize] at hlen ⊢; omega),
    tryIntoArray_of_length (by simp [ipv6MinHeaderSize] at hlen ⊢; omega)]
  rfl

theorem ipHeader_other (h4 : ¬ (b >>> 4 = 4 ∧ ipv4MinHeaderSize ≤ rest.length + 1))
    (h6 : ¬ (b >>> 4 = 6 ∧ ipv6MinHeaderSize ≤ rest.length + 1)) :
    ipHeader (b :: rest) = .ok none := by
  simp only [ipHeader, List.getElem?_cons_zero, orPanic_some, pure_bind, List.length_cons, h4, h6,
    if_false]
  rfl

/-- The header is read without a panic from every packet that is not empty. -/
theorem ipHeader_ok {p : List UInt8} (hp : p ≠ []) : ∃ h, ipHeader p = .ok h := by
  obtain ⟨b, rest, rfl⟩ := List.exists_cons_of_ne_nil hp
  by_cases h4 : b >>> 4 = 4 ∧ ipv4MinHeaderSize ≤ rest.length + 1
  · exact ⟨_, ipHeader_v4 h4.1 h4.2⟩
  · by_cases h6 : b >>> 4 = 6 ∧ ipv6MinHeaderSize ≤ rest.length + 1
    · exact ⟨_, ipHeader_v6 h6.1 h6.2⟩
    · exact ⟨_, ipHeader_other h4 h6⟩

end Header

section Validate

variable (t : Tunn) {p : List UInt8}

theorem validateDecapsulatedPacket_of_header {len : Nat} {addr : IpAddr}
    (hip : ipHeader p = .ok (some (len, addr))) (hlen : len ≤ p.length) :
    (validateDecapsulatedPacket p).run t =
      .ok (.writeToTunnel (p.take len) addr)
        ((t.timerTick .timeLastDataPacketReceived).addRx (messageDataLen len)) := by
  have hne : p.length ≠ 0 := by simpa using ne_nil_of_ipHeader hip
  simp [-bind_pure_comp, validateDecapsulatedPacket, hne, hip, EStateM.run_bind,
    getRange_of_le (Nat.zero_le len) hlen]

end Validate

/-- An IPv4 plaintext whose total-length field is below the minimum header size
is not refused: its first bytes, fewer than a header, go to the tunnel. -/
theorem truncated_ipv4_reaches_tunnel (t : Tunn) (ihl : Fin 16) (tos : UInt8) (len : Fin 20)
    (hdr : Vector UInt8 16) (rest : List UInt8) :
    let p := UInt8.ofNat (64 + ihl) :: tos :: 0 :: UInt8.ofNat len :: (hdr.toList ++ rest)
    ∃ addr, (validateDecapsulatedPacket p).run t =
        .ok (.writeToTunnel (p.take len) addr)
          ((t.timerTick .timeLastDataPacketReceived).addRx (messageDataLen len)) ∧
      (p.take len).length < ipv4MinHeaderSize := by
  intro p
  have hb : UInt8.ofNat (64 + ihl) >>> 4 = 4 := by
    revert ihl
    decide
  have hlen : ipv4MinHeaderSize ≤ (tos :: 0 :: UInt8.ofNat len :: (hdr.toList ++ rest)).length + 1 := by
    simp [ipv4MinHeaderSize]
  have hfield : (u16FromBe ⟨(((tos :: 0 :: UInt8.ofNat len :: (hdr.toList ++ rest)).drop 1).take
      2).toArray, by simp⟩).toNat = len := by
    have hl := len.isLt
    simp [u16FromBe, ofBeBytes, ofLeBytes, Nat.mod_eq_of_lt (show (len : Nat) < 256 by omega)]
    omega
  have hip := ipHeader_v4 hb hlen
  rw [hfield] at hip
  refine ⟨_, validateDecapsulatedPacket_of_header t hip (by simp [p]; omega), ?_⟩
  have hl := len.isLt
  rw [List.length_take, ipv4MinHeaderSize]
  omega

end Tunn

end Neptun.Noise
