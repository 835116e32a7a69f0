import Neptun.Device.Cryptokey

/-! The routes of a device. `peers_by_ip` is the table that picks the peer a
packet read from the tunnel is sent to. Every network in it routes to a peer the
device has: `remove_peer` takes the networks of its peer out of the table,
`clear_peers` clears it, and `update_peer` enters networks only for the peer it
updates or the one it creates, so no operation leaves a route to a peer that is
gone. -/
namespace Neptun.Device

open Lib Noise

set_option linter.dupNamespace false

namespace Device

/-- Every network of `peers_by_ip` routes to a peer of `peers`. -/
def RoutesLive (d : Device) : Prop := ∀ e ∈ d.peersByIp.ips, ∃ k, d.peers.get k = some e.2

/-- What the routes depend on. -/
def routeView (d : Device) : AssocMap Key PeerRef × AllowedIps PeerRef := (d.peers, d.peersByIp)

variable {d d' : Device}

theorem RoutesLive.of_view (h : d.RoutesLive) (hv : d'.routeView = d.routeView) : d'.RoutesLive := by
  simp only [routeView, Prod.mk.injEq] at hv
  rw [RoutesLive, hv.1, hv.2]
  exact h

theorem routesLive_new (l : IndexLfsr) : (Device.new l).RoutesLive := nofun

theorem RoutesLive.clearPeers (d : Device) : d.clearPeers.RoutesLive := nofun

theorem routeView_modifyPeer (d : Device) (r : PeerRef) (f : Peer → Peer) :
    (d.modifyPeer r f).routeView = d.routeView := rfl

section Laws

variable {N : IpNetworkTable} (hN : N.Lawful)
include hN

theorem RoutesLive.removePeer (h : d.RoutesLive) (k : Key) : (d.removePeer N k).RoutesLive := by
  unfold Device.removePeer
  split
  · rename_i r hr
    intro e he
    obtain ⟨he, hne⟩ := AllowedIps.mem_remove hN he
    obtain ⟨k', hk'⟩ := h e he
    -- the key of the route is not the one removed, whose peer is `r`
    have hkk : k' ≠ k := by
      rintro rfl
      rw [hr] at hk'
      simp_all
    exact ⟨k', by simp [hkk, hk']⟩
  · exact h

/-- A peer the device has may be given any networks. -/
theorem RoutesLive.insertAll (h : d.RoutesLive) {k : Key} {r : PeerRef} (hr : d.peers.get k = some r)
    (ips : List AllowedIP) :
    ({ d with peersByIp := d.peersByIp.insertAll N ips r } : Device).RoutesLive := by
  intro e he
  rcases AllowedIps.mem_insertAll hN ips he with h' | h'
  · exact ⟨k, h' ▸ hr⟩
  · exact h e h'

theorem RoutesLive.updateExisting (h : d.RoutesLive) {k : Key} {r : PeerRef}
    (hr : d.peers.get k = some r) (replaceIps : Bool) (endpoint : Option SocketAddr)
    (ips : List AllowedIP) (keepalive : Option UInt16) (psk : Option Key) :
    (d.updateExisting N r replaceIps endpoint ips keepalive psk).RoutesLive :=
  -- no step changes the keys; the setters leave the routes, the others are the two
  -- changes of `peers_by_ip` above
  (updateExisting_keeps (fun d' => d'.peers = d.peers ∧ d'.RoutesLive) N r replaceIps endpoint
    ips keepalive psk
    (fun _ _ _ h₁ => ⟨h₁.1, h₁.2.of_view (routeView_modifyPeer _ _ _)⟩)
    (fun _ h₁ => ⟨h₁.1, fun e he => h₁.2 e (AllowedIps.mem_remove hN he).1⟩)
    (fun _ h₁ => ⟨h₁.1, h₁.2.insertAll hN (h₁.1 ▸ hr) ips⟩) ⟨rfl, h⟩).2

end Laws

section Ops

variable (B : Backend) (env : Env)

theorem nextIndexOp_routeView : Keeps (fun d' => d'.routeView = d.routeView) nextIndexOp d :=
  keeps_focus fun _ => rfl

theorem newPeer_routesLive (hN : B.ipNetworkTable.Lawful) (h : d.RoutesLive) {k : Key}
    (hk : d.peers.get k = none)
    (endpoint : Option SocketAddr) (ips : List AllowedIP) (keepalive : Option UInt16)
    (psk : Option Key) : Keeps RoutesLive (newPeer B env k endpoint ips keepalive psk) d := by
  unfold newPeer
  refine triple_bind (nextIndexOp_routeView.mono (fun _ _ hv => hv) fun _ _ hv => h.of_view hv) ?_
  intro _ d₁ _ hv
  -- after the draw, a failure leaves the routes as they were
  have h₁ : d₁.RoutesLive := h.of_view hv
  apply triple_get_bind
  split
  · refine triple_liftExcept_bind (fun _ _ => h₁) fun _ _ => ?_
    apply triple_get_bind
    apply triple_set_bind
    refine triple_pure fun e he => ?_
    have hk₁ : d₁.peers.get k = none := by
      simp only [routeView, Prod.mk.injEq] at hv
      rw [hv.1, hk]
    rcases AllowedIps.mem_insertAll hN ips he with h' | h'
    · exact ⟨k, by simp [h']⟩
    · obtain ⟨k', hk'⟩ := h₁ e h'
      have hne : k' ≠ k := by
        rintro rfl
        rw [hk₁] at hk'
        cases hk'
      exact ⟨k', by simp [hne, hk']⟩
  · exact triple_throw h₁

theorem updatePeer_routesLive (hN : B.ipNetworkTable.Lawful) (h : d.RoutesLive) (k : Key) (updateOnly remove replaceIps : Bool)
    (endpoint : Option SocketAddr) (ips : List AllowedIP) (keepalive : Option UInt16)
    (psk : Option Key) :
    Keeps RoutesLive (updatePeer B env k updateOnly remove replaceIps endpoint ips keepalive psk) d := by
  unfold updatePeer
  cases remove
  · apply triple_get_bind
    split
    · rename_i r hr
      exact triple_modify (h.updateExisting hN hr replaceIps endpoint ips keepalive psk)
    · rename_i hk
      cases updateOnly
      · exact triple_bind_pure (newPeer_routesLive B env hN h hk endpoint ips keepalive psk)
      · exact triple_pure h
  · exact triple_modify_bind (triple_pure (h.removePeer hN k))

theorem routeView_putTunnel (d : Device) (r : PeerRef) (t : Tunn) :
    (d.putTunnel r t).routeView = d.routeView := by
  unfold putTunnel
  split <;> rfl

theorem onTunnel_routeView {α : Type} (r : PeerRef) (m : EStateM (Fault Error) Tunn α) :
    Keeps (fun d' => d'.routeView = d.routeView) (onTunnel r m) d := by
  unfold onTunnel
  apply triple_get_bind
  split
  · exact triple_bind_pure (triple_focus (triple_of_forall
      (fun _ _ => routeView_putTunnel _ _ _) fun _ _ => routeView_putTunnel _ _ _))
  · exact triple_pure rfl

theorem setKey_routeView (privateKey : Key) :
    Keeps (fun d' => d'.routeView = d.routeView) (setKey B env privateKey) d := by
  unfold setKey
  apply triple_get_bind
  split
  · exact triple_pure rfl
  · apply triple_set_bind
    refine triple_bind (keeps_forM (fun s hs r => ?_) d.peers.values _ rfl)
      fun _ _ _ hs => triple_modify hs
    exact triple_modify_bind ((triple_bind_pure (onTunnel_routeView r _)).mono
      (fun _ _ h => Eq.trans h hs) fun _ _ h => Eq.trans h hs)

theorem openListenSocket_routeView (port : UInt16) :
    Keeps (fun d' => d'.routeView = d.routeView) (openListenSocket env port) d := by
  unfold openListenSocket
  split
  · exact triple_modify rfl
  · exact triple_throw rfl

theorem setFwmark_routeView (mark : UInt32) :
    Keeps (fun d' => d'.routeView = d.routeView) (setFwmark env mark) d := by
  unfold setFwmark
  apply triple_modify_bind
  split
  · exact triple_throw rfl
  · exact triple_pure rfl

theorem exec_routesLive (hN : B.ipNetworkTable.Lawful) (h : d.RoutesLive) (op : Op) :
    Keeps RoutesLive (op.exec B env) d := by
  -- the settings of the device keep the peers and the routes
  have hview : ∀ {α : Type} {m : EStateM (Fault Error) Device α},
      Keeps (fun d' => d'.routeView = d.routeView) m d → Keeps RoutesLive m d :=
    fun hm => hm.mono (fun _ _ hv => h.of_view hv) fun _ _ hv => h.of_view hv
  cases op with
  | updatePeer k updateOnly remove replaceIps endpoint ips keepalive psk =>
    exact updatePeer_routesLive B env hN h k updateOnly remove replaceIps endpoint ips keepalive psk
  | removePeer k => exact triple_modify (h.removePeer hN k)
  | clearPeers => exact triple_modify (RoutesLive.clearPeers d)
  | setKey privateKey => exact hview (setKey_routeView B env privateKey)
  | openListenSocket port => exact hview (openListenSocket_routeView env port)
  | setFwmark mark => exact hview (setFwmark_routeView env mark)

end Ops

theorem RoutesLive.step {B : Backend} (hN : B.ipNetworkTable.Lawful) (h : d.RoutesLive)
    (hs : Step B d d') : d'.RoutesLive := by
  obtain ⟨env, op, ⟨_, hrun⟩ | ⟨_, hrun⟩⟩ := hs
  · exact (exec_routesLive B env hN h op).of_ok hrun
  · exact (exec_routesLive B env hN h op).of_error hrun

/-- On every device that its operations reach from a new one, every network of
`peers_by_ip` routes to a peer the device has: a packet from the tunnel is never
handed to a removed peer. -/
theorem routes_to_live_peers (B : Backend) (hN : B.ipNetworkTable.Lawful) (l : IndexLfsr)
    (h : Reachable B (Device.new l) d) : ∀ e ∈ d.peersByIp.ips, ∃ k, d.peers.get k = some e.2 := by
  induction h with
  | refl => exact routesLive_new l
  | tail _ hs ih => exact RoutesLive.step hN ih hs

/-- A device given a key and two peers, with the networks `10.0.0.0/8` and
`192.168.0.0/16`, after the first peer is removed: the second peer's network is the
one route left, and it leads to the second peer. -/
theorem routes_to_live_peers_after_remove :
    ∃ d : Device, Backend.plain.ipNetworkTable.Lawful ∧
      Reachable Backend.plain (Device.new (IndexLfsr.default 1 0)) d ∧
      d.peers.get (.replicate 32 1) = none ∧ d.peers.get (.replicate 32 2) = some 1 ∧
      d.peersByIp.ips.length = 1 ∧
      ∀ e ∈ d.peersByIp.ips, ∃ k, d.peers.get k = some e.2 := by
  let env : Env := ⟨0, 0, .replicate 16 0, .replicate 32 0, none, true⟩
  let B := Backend.plain
  obtain ⟨t₁, ht₁, -⟩ := Tunn.new_fresh B (.replicate 32 7) (.replicate 32 1) none none ((1 - 1) ^^^ 0)
    none 0 0 (.replicate 16 0) (.replicate 32 0)
  obtain ⟨t₂, ht₂, -⟩ := Tunn.new_fresh B (.replicate 32 7) (.replicate 32 2) none none
    ((IndexLfsr.step 1 - 1) ^^^ 0) none 0 0 (.replicate 16 0) (.replicate 32 0)
  -- the key, the two peers, and the removal of the first
  have hr : Reachable B (Device.new (IndexLfsr.default 1 0)) _ :=
    (((Relation.ReflTransGen.single ⟨env, .setKey (.replicate 32 7),
      .inl ⟨(), setKey_run_of_no_peers B env rfl _ (by simp [Device.new])⟩⟩).tail
      ⟨env, .updatePeer _ false false false none [⟨.v4 #v[10, 0, 0, 0], 8⟩] none none, .inl ⟨(),
        updatePeer_run_new B env (by rfl) (by rfl) (by exact show IndexLfsr.step 1 ≠ 1 by decide)
          false none _ none none ht₁⟩⟩).tail
      ⟨env, .updatePeer _ false false false none [⟨.v4 #v[192, 168, 0, 0], 16⟩] none none, .inl ⟨(),
        updatePeer_run_new B env (k := .replicate 32 2)
          (by show (AssocMap.empty.insert (Vector.replicate 32 1) (0 : PeerRef)).get
                (Vector.replicate 32 2) = none
              decide) (by rfl)
          (by exact show IndexLfsr.step (IndexLfsr.step 1) ≠ 1 by decide) false none _ none none ht₂⟩⟩).tail
      ⟨env, .removePeer (.replicate 32 1), .inl ⟨(), rfl⟩⟩
  refine ⟨_, IpNetworkTable.linear_lawful, hr, ?_, ?_, ?_,
    routes_to_live_peers B IpNetworkTable.linear_lawful _ hr⟩
  -- what remains reads the tables, which hold no tunnel
  · show (((AssocMap.empty.insert (Vector.replicate 32 1) (0 : PeerRef)).insert
      (Vector.replicate 32 2) 1).remove (Vector.replicate 32 1)).get (Vector.replicate 32 1) = none
    decide
  · show (((AssocMap.empty.insert (Vector.replicate 32 1) (0 : PeerRef)).insert
      (Vector.replicate 32 2) 1).remove (Vector.replicate 32 1)).get (Vector.replicate 32 2) = some 1
    decide
  · show (((AllowedIps.new.insertAll IpNetworkTable.linear [⟨.v4 #v[10, 0, 0, 0], 8⟩] (0 : PeerRef)).insertAll
      IpNetworkTable.linear [⟨.v4 #v[192, 168, 0, 0], 16⟩] 1).remove IpNetworkTable.linear
        (· == 0)).ips.length = 1
    decide

end Device

end Neptun.Device
