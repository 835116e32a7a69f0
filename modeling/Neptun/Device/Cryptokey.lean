import Neptun.Device.Indices

/-! Cryptokey routing. A device keeps the allowed IPs of its peers twice: in
`peers_by_ip`, the device-wide longest-prefix table that picks the peer a packet
from the tunnel goes to, and in each peer's own table, which `is_allowed_ip`
consults on a decrypted packet before it is written to the tunnel. `update_peer`
writes both, but `peers_by_ip.insert` hands an equal network to the new peer while
the peer that had it keeps it in its own table. -/
namespace Neptun.Device

open Lib Noise IndexLfsr

set_option linter.dupNamespace false

namespace Device

variable (B : Backend) (env : Env) {d : Device}

/-- `set_key` on a device without peers: the key pair, and a new limiter for it
that the device holds. -/
theorem setKey_run_of_no_peers (hp : d.peers.entries = []) (privateKey : Key)
    (hnew : some (B.x25519Public privateKey) ≠ d.keyPair.map (·.2)) :
    (setKey B env privateKey).run d =
      .ok () { d with
        keyPair := some (privateKey, B.x25519Public privateKey)
        rateLimiter := some d.limiters.length
        limiters := d.limiters ++ [RateLimiter.new B (B.x25519Public privateKey) handshakeRateLimit
          env.secretKey env.nonceKey env.now] } := by
  have hvalues : d.peers.values = [] := by rw [AssocMap.values, hp, List.map_nil]
  simp only [setKey, EStateM.run_bind, EStateM.run_get, hnew, if_false, hvalues]
  rfl

/-- `update_peer` of a key the device does not have: a new peer holds the next
index and a new tunnel, and is entered in the three tables. -/
theorem updatePeer_run_new {k : Key} (hk : d.peers.get k = none) {sk pk : Key}
    (hkp : d.keyPair = some (sk, pk)) (hnext : step d.nextIndex.lfsr ≠ d.nextIndex.initial)
    (replaceIps : Bool) (endpoint : Option SocketAddr) (ips : List AllowedIP)
    (keepalive : Option UInt16) (psk : Option Key) {t : Tunn}
    (ht : Tunn.new B sk k psk keepalive ((d.nextIndex.lfsr - 1) ^^^ d.nextIndex.mask) none
      env.systemTime env.now env.secretKey env.nonceKey = .ok t) :
    (updatePeer B env k false false replaceIps endpoint ips keepalive psk).run d =
      .ok () { d with
        nextIndex := { d.nextIndex with lfsr := step d.nextIndex.lfsr }
        heap := d.heap ++
          [Peer.new B.ipNetworkTable t ((d.nextIndex.lfsr - 1) ^^^ d.nextIndex.mask) endpoint ips psk]
        peers := d.peers.insert k d.heap.length
        peersByIdx := d.peersByIdx.insert ((d.nextIndex.lfsr - 1) ^^^ d.nextIndex.mask) d.heap.length
        peersByIp := d.peersByIp.insertAll B.ipNetworkTable ips d.heap.length } := by
  simp only [updatePeer, newPeer, nextIndexOp, Bool.false_eq_true, if_false, EStateM.run_bind,
    EStateM.run_get, hk, run_discard, run_focus, next_run _ hnext]
  simp only [hkp, ht, Except.mapError]
  rfl

end Device

/-- Two peers given the same network, one after the other, on a device that has a
key and no peers, whatever the table's implementation: `peers_by_ip` routes the
network to the second, while the first keeps it in its own table, and its inbound
filter still accepts packets from it. -/
theorem cryptokey_routing_diverges (B : Backend) (hN : B.ipNetworkTable.Lawful) :
    let env : Env := ⟨0, 0, .replicate 16 0, .replicate 32 0, none, true⟩
    let net : AllowedIP := ⟨.v4 #v[10, 0, 0, 0], 8⟩
    let addr : IpAddr := .v4 #v[10, 1, 2, 3]
    ∃ d₁ d₂ d₃ : Device,
      (Device.setKey B env (.replicate 32 7)).run (Device.new (default 1 0)) = .ok () d₁ ∧
      d₁.peers.entries = [] ∧
      (Device.updatePeer B env (.replicate 32 1) false false false none [net] none none).run d₁ =
        .ok () d₂ ∧
      (Device.updatePeer B env (.replicate 32 2) false false false none [net] none none).run d₂ =
        .ok () d₃ ∧
      d₃.peers.get (.replicate 32 1) = some 0 ∧ d₃.peers.get (.replicate 32 2) = some 1 ∧
      (d₃.heap[0]?.map fun p => p.isAllowedIp B.ipNetworkTable addr) = some true ∧
      d₃.peersByIp.find B.ipNetworkTable addr = some 1 := by
  intro env net addr
  obtain ⟨t₁, ht₁, -⟩ := Tunn.new_fresh B (.replicate 32 7) (.replicate 32 1) none none ((1 - 1) ^^^ 0)
    none 0 0 (.replicate 16 0) (.replicate 32 0)
  obtain ⟨t₂, ht₂, -⟩ := Tunn.new_fresh B (.replicate 32 7) (.replicate 32 2) none none
    ((step 1 - 1) ^^^ 0) none 0 0 (.replicate 16 0) (.replicate 32 0)
  have hn : IpNetwork.newTruncate net.addr net.cidr = some ⟨false, 8, 10⟩ := by decide
  have hc : IpNetwork.contains ⟨false, 8, 10⟩ addr = true := by decide
  refine ⟨_, _, _, Device.setKey_run_of_no_peers B env rfl _ (by simp [Device.new]), rfl,
    Device.updatePeer_run_new B env (by rfl) (by rfl) (by exact show step 1 ≠ 1 by decide) false none
      [net] none none ht₁,
    Device.updatePeer_run_new B env ?_ (by rfl) (by exact show step (step 1) ≠ 1 by decide) false
      none [net] none none ht₂, ?_, ?_, ?_, ?_⟩
  -- what remains reads the tables, which hold no tunnel
  · show (AssocMap.empty.insert (Vector.replicate 32 1) (0 : PeerRef)).get (Vector.replicate 32 2) = none
    decide
  · show ((AssocMap.empty.insert (Vector.replicate 32 1) (0 : PeerRef)).insert (Vector.replicate 32 2)
      1).get (Vector.replicate 32 1) = some 0
    decide
  · show ((AssocMap.empty.insert (Vector.replicate 32 1) (0 : PeerRef)).insert (Vector.replicate 32 2)
      1).get (Vector.replicate 32 2) = some 1
    decide
  · -- the first peer's own table holds the network, which contains the address
    show some ((AllowedIps.new.insert B.ipNetworkTable net.addr net.cidr ()).1.find
      B.ipNetworkTable addr).isSome = some true
    rw [AllowedIps.find_isSome hN ((AllowedIps.mem_insert_iff hN hn () _).mpr (.inl rfl)) hc]
  · -- `peers_by_ip` holds the network once, for the second peer
    show ((AllowedIps.new.insert B.ipNetworkTable net.addr net.cidr (0 : PeerRef)).1.insert
      B.ipNetworkTable net.addr net.cidr 1).1.find B.ipNetworkTable addr = some 1
    refine AllowedIps.find_eq_of_only hN ((AllowedIps.mem_insert_iff hN hn 1 _).mpr (.inl rfl)) hc
      fun e he _ => ?_
    rcases (AllowedIps.mem_insert_iff hN hn 1 e).mp he with rfl | ⟨he', hne⟩
    · rfl
    · rcases (AllowedIps.mem_insert_iff hN hn 0 e).mp he' with rfl | ⟨he'', -⟩
      · exact absurd rfl hne
      · exact absurd he'' List.not_mem_nil

theorem cryptokey_routing_diverges_plain :
    let env : Env := ⟨0, 0, .replicate 16 0, .replicate 32 0, none, true⟩
    let net : AllowedIP := ⟨.v4 #v[10, 0, 0, 0], 8⟩
    let addr : IpAddr := .v4 #v[10, 1, 2, 3]
    Backend.plain.ipNetworkTable.Lawful ∧
    ∃ d₁ d₂ d₃ : Device,
      (Device.setKey Backend.plain env (.replicate 32 7)).run (Device.new (default 1 0)) =
        .ok () d₁ ∧
      d₁.peers.entries = [] ∧
      (Device.updatePeer Backend.plain env (.replicate 32 1) false false false none [net] none
        none).run d₁ = .ok () d₂ ∧
      (Device.updatePeer Backend.plain env (.replicate 32 2) false false false none [net] none
        none).run d₂ = .ok () d₃ ∧
      d₃.peers.get (.replicate 32 1) = some 0 ∧ d₃.peers.get (.replicate 32 2) = some 1 ∧
      (d₃.heap[0]?.map fun p => p.isAllowedIp Backend.plain.ipNetworkTable addr) = some true ∧
      d₃.peersByIp.find Backend.plain.ipNetworkTable addr = some 1 :=
  ⟨IpNetworkTable.linear_lawful, cryptokey_routing_diverges Backend.plain IpNetworkTable.linear_lawful⟩

end Neptun.Device
