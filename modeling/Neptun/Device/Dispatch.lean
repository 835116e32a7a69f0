import Neptun.Device.Outbound
import Neptun.Noise.Routing

/-! Replies reach the tunnel that waits for them. The handler of the listening
socket hands a handshake response or a cookie reply to the peer that `peers_by_idx`
has for the upper 24 bits of its receiver index. A tunnel's handshake writes into
its messages only indices whose upper 24 bits are its peer's index
(`Noise.Routing`), the device drives each tunnel by the tunnel's own calls
(`Device.Drive`), and `peers_by_idx` maps the index of every peer the device has
back to it (`Device.Indices`): so along every run of the device's threads, the
response to an initiation a peer's tunnel has in flight, and the cookie reply to
the message it last sent, are given to that tunnel and to no other. -/
namespace Neptun.Noise.Handshake

open Lib

variable {B : Backend} {k : UInt32} {h h' : Handshake}

theorem Routed.reachable (hB : B.Lawful) (hR : Routed k h) (hr : Reachable B h h') : Routed k h' := by
  induction hr with
  | refl => exact hR
  | tail _ hs ih =>
    obtain ⟨c, ⟨a, hrun⟩ | ⟨e, hrun⟩⟩ := hs
    · exact ((Call.run_routed hB c ih).of_ok hrun).2
    · exact (Call.run_routed hB c ih).of_error hrun

/-- An initiation that a response names was sent from an index with `k` in its upper
24 bits. -/
theorem sentFrom_of_sentTo {st : HandshakeState} (hst : st.SentFrom k) {i : UInt32}
    (hs : (st.sentTo i).isSome) : i >>> 8 = k := by
  obtain ⟨s, hs⟩ := Option.isSome_iff_exists.mp hs
  obtain ⟨rfl, rfl⟩ := HandshakeState.sentTo_eq_some.mp hs
  exact hst

end Neptun.Noise.Handshake

namespace Neptun.Device

open Lib Noise IndexLfsr

set_option linter.dupNamespace false

variable {B : Backend} {p : Peer}

/-- A driven peer with a 24-bit index: its tunnel's handshake is routed to it. -/
theorem Peer.Driven.routed (hB : B.Lawful) (h : p.Driven B) (hi : p.index < 2 ^ 24) :
    Handshake.Routed p.index p.tunnel.handshake := by
  obtain ⟨t₀, ⟨_, _, _, _, _, _, _, _, _, hnew⟩, hr, -⟩ := h
  have h₀ : Handshake.Routed p.index t₀.handshake :=
    Handshake.routed_new hi (Tunn.new_handshake hnew)
  -- the tunnel's runs move its handshake by the handshake's own calls
  exact h₀.reachable hB hr.handshake_reachable

namespace Device

variable {seed mask : UInt32} {j : Nat} {d : Device} {k : Key} {r : PeerRef}

/-- A peer the device has holds a 24-bit index that `peers_by_idx` maps back to it. -/
theorem IndexedAt.live (hseed : 0 < seed.toNat ∧ seed.toNat < 2 ^ 24) (hmask : mask.toNat < 2 ^ 24)
    (h : IndexedAt seed mask j d) (hk : d.peers.get k = some r) (hp : d.heap[r]? = some p) :
    p.index < 2 ^ 24 ∧ d.peersByIdx.get p.index = some r := by
  have hr : d.indexOf r = some p.index := by rw [indexOf, hp, Option.map_some]
  obtain ⟨i, -, hi⟩ := h.drawn k r hk
  have hidx : p.index = nth seed mask i := Option.some.inj (hr.symm.trans hi)
  refine ⟨?_, (h.byIdx p.index r).mpr ⟨k, hk, hr⟩⟩
  rw [UInt32.lt_iff_toNat_lt, hidx]
  exact nth_lt hseed hmask i

end Device

/-- Along every run of a device's threads from a new device, whatever the
interleaving, for every peer the device has: each handshake response that its
tunnel's handshake would take as the answer to an initiation it holds, in its
current slot or the previous one, and each cookie reply to the index its tunnel
last sent a message from, is handed by the listening socket's handler to that
peer's tunnel. -/
theorem replies_reach_their_tunnel {cfg : Config} (hB : B.Lawful) {seedDraws maskDraws : List UInt32}
    {seed mask : UInt32} (hseed : IndexLfsr.randomIndex seedDraws = some seed)
    (hmask : IndexLfsr.randomIndex maskDraws = some mask) {h : Host}
    (hr : Host.Reachable B cfg (Host.new (.default seed mask)) h) {k : Key} {r : PeerRef}
    (hk : h.device.peers.get k = some r) (hp : h.device.heap[r]? = some p) (sk pk : Key) :
    (∀ q : HandshakeResponse, (p.tunnel.handshake.state.sentTo q.receiverIdx).isSome ∨
        (p.tunnel.handshake.previous.sentTo q.receiverIdx).isSome →
      peerFor B sk pk h.device (.handshakeResponse q) = some r) ∧
    ∀ q : PacketCookieReply, p.tunnel.handshake.cookies.lastMac1.isSome →
      q.receiverIdx = p.tunnel.handshake.cookies.index →
      peerFor B sk pk h.device (.packetCookieReply q) = some r := by
  -- `random_index` draws a nonzero 24-bit seed and a 24-bit mask
  have hseed' := IndexLfsr.randomIndex_spec hseed
  obtain ⟨⟨j, hj⟩, hdriven⟩ := Host.inv_reachable hseed' hr
  obtain ⟨hlt, hidx⟩ := hj.live hseed' (IndexLfsr.randomIndex_spec hmask).2 hk hp
  have hR := (hdriven r p hp).routed hB hlt
  refine ⟨fun q hq => ?_, fun q hmac hq => ?_⟩
  · -- the initiation answered was sent from an index that carries the peer's
    have hsent : q.receiverIdx >>> 8 = p.index := by
      rcases hq with hq | hq
      · exact Handshake.sentFrom_of_sentTo hR.state hq
      · exact Handshake.sentFrom_of_sentTo hR.previous hq
    show h.device.peersByIdx.get (q.receiverIdx >>> 8) = some r
    rw [hsent, hidx]
  · show h.device.peersByIdx.get (q.receiverIdx >>> 8) = some r
    rw [hq, hR.cookie hmac, hidx]

/-- The command-line tool's host, after its configuration interface has set a key
and added one peer, and the peer's tunnel has sent an initiation for a packet from
the interface: the response to that initiation and a cookie reply to it are handed
to the peer. -/
theorem replies_reach_initiating_peer :
    ∃ (h : Host) (p : Peer),
      IndexLfsr.randomIndex [1] = some 1 ∧ IndexLfsr.randomIndex [0, 5] = some 5 ∧
      Host.Reachable Backend.plain (Config.cli true) (Host.new (.default 1 5)) h ∧
      h.device.peers.get (.replicate 32 1) = some 0 ∧ h.device.heap[0]? = some p ∧
      (∃ i, (p.tunnel.handshake.state.sentTo i).isSome) ∧
      p.tunnel.handshake.cookies.lastMac1.isSome ∧
      (∀ q : HandshakeResponse, (p.tunnel.handshake.state.sentTo q.receiverIdx).isSome ∨
          (p.tunnel.handshake.previous.sentTo q.receiverIdx).isSome →
        peerFor Backend.plain (.replicate 32 7) (.replicate 32 7) h.device (.handshakeResponse q) =
          some 0) ∧
      ∀ q : PacketCookieReply, p.tunnel.handshake.cookies.lastMac1.isSome →
        q.receiverIdx = p.tunnel.handshake.cookies.index →
        peerFor Backend.plain (.replicate 32 7) (.replicate 32 7) h.device (.packetCookieReply q) =
          some 0 := by
  obtain ⟨h, p, hr, hk, hp, ⟨s, hs⟩, hmac⟩ := Host.reachable_initiating 5
  -- the seed is the first draw; the mask the first nonzero one
  have hseed : IndexLfsr.randomIndex [1] = some 1 := by decide
  have hmask : IndexLfsr.randomIndex [0, 5] = some 5 := by decide
  have hsent : (p.tunnel.handshake.state.sentTo s.localIndex).isSome := by
    rw [HandshakeState.sentTo_eq_some.mpr ⟨hs, rfl⟩]
    rfl
  exact ⟨h, p, hseed, hmask, hr, hk, hp, ⟨_, hsent⟩, hmac,
    replies_reach_their_tunnel plain_lawful hseed hmask hr hk hp _ _⟩

end Neptun.Device
