import Neptun.Noise.Responder

/-! The device reads each packet from its interface into a buffer of
`MAX_PKT_SIZE` bytes, at `WG_HEADER_OFFSET`, and has the peer's tunnel
encapsulate it in place. `CheckedMtu::new` admits an MTU when a packet of that
size fits the buffer after the offset; the session that seals the packet asks for
`DATA_OVERHEAD_SZ` bytes more than the payload, which is 16 bytes more than the
offset leaves. -/
namespace Neptun.Device

open Lib Noise

def maxPktSize : Nat := 1550
def wgHeaderOffset : Nat := 16

/-- An MTU that `CheckedMtu::new` admitted. -/
structure CheckedMtu where
  get : Nat
  fits : get + wgHeaderOffset ≤ maxPktSize

namespace CheckedMtu

def new (mtu : Nat) : Option CheckedMtu :=
  if h : mtu + wgHeaderOffset > maxPktSize then none else some ⟨mtu, by omega⟩

theorem new_eq_some_iff {mtu : Nat} :
    (∃ m, new mtu = some m ∧ m.get = mtu) ↔ mtu + wgHeaderOffset ≤ maxPktSize := by
  unfold new
  split
  · rename_i h
    simp only [reduceCtorEq, false_and, exists_false, false_iff]
    omega
  · rename_i h
    exact ⟨fun _ => by omega, fun _ => ⟨_, rfl, rfl⟩⟩

end CheckedMtu

/-- `read_packet`: the interface writes at most `mtu` bytes of a packet into the
buffer at `WG_HEADER_OFFSET`; the buffer and the length of the payload. -/
def readPacket (buf : Vector UInt8 maxPktSize) (mtu : CheckedMtu) (packet : List UInt8) :
    List UInt8 × Nat :=
  let payload := packet.take mtu.get
  (buf.toList.take wgHeaderOffset ++ payload ++ buf.toList.drop (wgHeaderOffset + payload.length),
    payload.length)

theorem readPacket_length (buf : Vector UInt8 maxPktSize) (mtu : CheckedMtu) (packet : List UInt8) :
    (readPacket buf mtu packet).1.length = maxPktSize ∧
      (readPacket buf mtu packet).2 = min packet.length mtu.get := by
  have := mtu.fits
  simp only [readPacket, List.length_append, List.length_take, Vector.length_toList,
    List.length_drop]
  constructor <;> simp only [wgHeaderOffset, maxPktSize] at this ⊢ <;> omega

/-- A packet read whole at an admitted MTU above `MAX_PKT_SIZE - DATA_OVERHEAD_SZ`
is refused by the session in use: the tunnel reports `IncorrectPacketLength` and is
left as it was. -/
theorem encapsulateInPlace_readPacket (B : Backend) (env : CallEnv) (t : Tunn) {s : Session}
    (hs : t.sessions[slot t.current] = some s) (buf : Vector UInt8 maxPktSize) (mtu : CheckedMtu)
    (packet : List UInt8) (hlen : maxPktSize < (readPacket buf mtu packet).2 + dataOverheadSz) :
    (Tunn.encapsulateInPlace B env (readPacket buf mtu packet).2 (readPacket buf mtu packet).1).run t =
      .ok (.err .incorrectPacketLength) t :=
  Tunn.encapsulateInPlace_short env t _ _ hs (by rw [(readPacket_length buf mtu packet).1]; exact hlen)

/-- The MTU of the unit test, `MAX_PKT_SIZE - WG_HEADER_OFFSET`, is admitted. A
tunnel with a session in use (here the one of the eight answered initiations)
then refuses a full-size packet read at that MTU, and a full-size packet queued
before the session existed is put back by every flush into a `MAX_PKT_SIZE`
buffer. -/
theorem checked_mtu_admits_unsealable_packet :
    let ourKey : Key := .replicate 32 1
    let peerKey : Key := .replicate 32 2
    let hA : Handshake := ⟨NoiseParams.new Backend.plain peerKey (Backend.plain.x25519Public peerKey)
      (Backend.plain.x25519Public ourKey) none, 0, .none, .none, ⟨none, 0, none⟩, Tai64N.zero,
      ⟨0, 0⟩, none⟩
    let stampAt (k : Nat) : Vector UInt8 12 := #v[64, 0, 0, 0, 0, 0, 0, 38 + UInt8.ofNat k, 0, 0, 0, 0]
    let datagrams := (List.range 8).map fun k =>
      Handshake.initiationDatagram Backend.plain hA peerKey (stampAt k)
    ∃ mtu t₀ rs t, CheckedMtu.new 1534 = some mtu ∧
      Tunn.new Backend.plain ourKey peerKey none none 0 none 0 0 (.replicate 16 0) (.replicate 32 0) =
        .ok t₀ ∧
      (datagrams.mapM fun d => Tunn.decapsulate Backend.plain ⟨0, ourKey⟩ none d
        (List.replicate 92 0)).run t₀ = .ok rs t ∧
      (∃ s, t.sessions[slot t.current] = some s) ∧
      ∀ (buf : Vector UInt8 maxPktSize) (packet : Vector UInt8 1534) (env : CallEnv),
        (readPacket buf mtu packet.toList).2 = 1534 ∧
        (Tunn.encapsulateInPlace Backend.plain env (readPacket buf mtu packet.toList).2
          (readPacket buf mtu packet.toList).1).run t = .ok (.err .incorrectPacketLength) t ∧
        (Tunn.decapsulate Backend.plain env none [] (List.replicate maxPktSize 0)).run
          { t with packetQueue := [packet.toList] } = .ok .done { t with packetQueue := [packet.toList] } := by
  intro ourKey peerKey hA stampAt datagrams
  obtain ⟨t₀, rs, t, s, hnew, hrun, hs, -⟩ := Tunn.eight_initiations_fill_current_slot
  refine ⟨⟨1534, by decide⟩, t₀, rs, t, rfl, hnew, hrun, ⟨s, hs⟩, fun buf packet env => ?_⟩
  have hread : (readPacket buf ⟨1534, by decide⟩ packet.toList).2 = 1534 := by
    simp [(readPacket_length buf _ _).2]
  refine ⟨hread, encapsulateInPlace_readPacket _ env t hs buf _ _ (by rw [hread]; decide), ?_⟩
  rw [Tunn.decapsulate_nil]
  exact Tunn.sendQueuedPacket_short env { t with packetQueue := [packet.toList] } _ rfl (by decide) hs
    (by rw [List.length_replicate, Vector.length_toList]; decide)
    (by rw [List.length_replicate, Vector.length_toList]; decide)

end Neptun.Device
