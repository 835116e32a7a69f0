import Neptun.Device.Peers

/-! The indices of the peers. `new_peer` numbers each peer with the next value of
the device's `IndexLfsr`, and `peers_by_idx` maps the numbers back to the peers, for
the packets that name their receiver by index. The values of the generator are
distinct until it panics, so no two peers ever share an index, and every
operation keeps `peers_by_idx` the inverse of the indices of `peers`. -/
namespace Neptun.Device

open Lib Noise IndexLfsr

set_option linter.dupNamespace false

namespace Peer

variable (p : Peer)

@[simp] theorem index_setEndpoint (addr : SocketAddr) : (p.setEndpoint addr).index = p.index := by
  unfold setEndpoint
  split <;> rfl

@[simp] theorem index_addAllowedIps (N : IpNetworkTable) (ips : List AllowedIP) :
    (p.addAllowedIps N ips).index = p.index :=
  rfl

@[simp] theorem index_setAllowedIps (N : IpNetworkTable) (ips : List AllowedIP) :
    (p.setAllowedIps N ips).index = p.index :=
  rfl

@[simp] theorem index_setPresharedKey (key : Key) : (p.setPresharedKey key).index = p.index := rfl

/-- What `update_peer` does to a peer it has: one of its setters. -/
inductive Setter (N : IpNetworkTable) : Peer → Peer → Prop
  | endpoint (p : Peer) (addr : SocketAddr) : Setter N p (p.setEndpoint addr)
  | allowedIps (p : Peer) (ips : List AllowedIP) : Setter N p (p.setAllowedIps N ips)
  | addAllowedIps (p : Peer) (ips : List AllowedIP) : Setter N p (p.addAllowedIps N ips)
  | keepalive (p : Peer) (keepalive : UInt16) :
      Setter N p { p with tunnel := p.tunnel.setPersistentKeepalive keepalive }
  | presharedKey (p : Peer) (key : Key) : Setter N p (p.setPresharedKey key)

theorem Setter.index {N : IpNetworkTable} {p p' : Peer} (h : Setter N p p') :
    p'.index = p.index := by
  cases h with
  | endpoint addr => exact index_setEndpoint _ addr
  | allowedIps => rfl
  | addAllowedIps => rfl
  | keepalive => rfl
  | presharedKey => rfl

end Peer

namespace Device

/-- What the indices of the peers depend on. -/
def indexView (d : Device) :
    AssocMap Key PeerRef × AssocMap UInt32 PeerRef × IndexLfsr × List UInt32 :=
  (d.peers, d.peersByIdx, d.nextIndex, d.heap.map (·.index))

theorem indexOf_eq (d : Device) (r : PeerRef) : d.indexOf r = (d.heap.map (·.index))[r]? := by
  rw [indexOf, List.getElem?_map]

theorem indexOf_congr {d d' : Device} (h : d'.indexView = d.indexView) : d'.indexOf = d.indexOf := by
  funext r
  simp only [indexView, Prod.mk.injEq] at h
  rw [indexOf_eq, indexOf_eq, h.2.2.2]

theorem lt_of_indexOf_eq_some {d : Device} {r : PeerRef} {i : UInt32} (h : d.indexOf r = some i) :
    r < d.heap.length := by
  obtain ⟨p, hp, -⟩ := Option.map_eq_some_iff.mp h
  exact (List.getElem?_eq_some_iff.mp hp).1

section Append

variable {d d' : Device} {p : Peer} (hh : d'.heap = d.heap ++ [p])
include hh

theorem indexOf_of_heap_append {r : PeerRef} (hr : r < d.heap.length) : d'.indexOf r = d.indexOf r := by
  rw [indexOf, indexOf, hh, List.getElem?_append_left hr]

theorem indexOf_of_heap_append_self : d'.indexOf d.heap.length = some p.index := by
  rw [indexOf, hh, List.getElem?_concat_length, Option.map_some]

end Append

/-! ### The branch of `update_peer` for a peer the device has -/

/-- A property of devices that each step of the branch keeps, the branch keeps: a
setter on the peer at `r`, the routes to `r` taken out, the networks entered for
`r`. -/
theorem updateExisting_keeps (P : Device → Prop) (N : IpNetworkTable) (r : PeerRef)
    (replaceIps : Bool) (endpoint : Option SocketAddr) (allowedIps : List AllowedIP)
    (keepalive : Option UInt16) (presharedKey : Option Key)
    (hset : ∀ d (f : Peer → Peer), (∀ p, Peer.Setter N p (f p)) → P d → P (d.modifyPeer r f))
    (hdrop : ∀ d, P d → P { d with peersByIp := d.peersByIp.remove N (· == r) })
    (hins : ∀ d, P d → P { d with peersByIp := d.peersByIp.insertAll N allowedIps r })
    {d : Device} (h : P d) :
    P (d.updateExisting N r replaceIps endpoint allowedIps keepalive presharedKey) := by
  -- an optional setter, as the endpoint, the keepalive and the preshared key are
  have hopt : ∀ {β : Type} (o : Option β) (g : β → Peer → Peer), (∀ b p, Peer.Setter N p (g b p)) →
      ∀ d₁, P d₁ → P (o.elim d₁ fun b => d₁.modifyPeer r (g b)) := by
    intro β o g hg d₁ h₁
    cases o with
    | none => exact h₁
    | some b => exact hset d₁ (g b) (hg b) h₁
  have hend := hopt endpoint (fun addr p => p.setEndpoint addr) (fun addr p => .endpoint p addr) d h
  unfold updateExisting
  -- the steps from the last: the routes, the preshared key, the keepalive, the allowed IPs
  apply hins
  apply hopt presharedKey (fun key p => p.setPresharedKey key) (fun key p => .presharedKey p key)
  apply hopt keepalive (fun k p => { p with tunnel := p.tunnel.setPersistentKeepalive k })
    (fun k p => .keepalive p k)
  cases replaceIps with
  | true =>
    rw [if_pos rfl]
    exact hset _ _ (fun p => .allowedIps p allowedIps) (hdrop _ hend)
  | false =>
    rw [if_neg Bool.false_ne_true]
    exact hset _ _ (fun p => .addAllowedIps p allowedIps) hend

theorem indexView_modifyPeer (d : Device) (r : PeerRef) (f : Peer → Peer)
    (hf : ∀ p, (f p).index = p.index) : (d.modifyPeer r f).indexView = d.indexView := by
  have hidx : (d.heap.modify r f).map (·.index) = d.heap.map (·.index) := by
    apply List.ext_getElem?
    intro i
    simp only [List.getElem?_map, List.getElem?_modify]
    cases d.heap[i]? <;> simp [apply_ite, hf]
  simp only [indexView, modifyPeer, hidx]

theorem indexView_updateExisting (N : IpNetworkTable) (d : Device) (r : PeerRef)
    (replaceIps : Bool) (endpoint : Option SocketAddr) (allowedIps : List AllowedIP)
    (keepalive : Option UInt16) (presharedKey : Option Key) :
    (d.updateExisting N r replaceIps endpoint allowedIps keepalive presharedKey).indexView =
      d.indexView :=
  -- the setters keep the peer's index, and the routes are not part of the view
  updateExisting_keeps (fun d' => d'.indexView = d.indexView) N r replaceIps endpoint allowedIps
    keepalive presharedKey (fun d₁ f hf h₁ => (indexView_modifyPeer d₁ r f fun p => (hf p).index).trans h₁)
    (fun _ h₁ => h₁) (fun _ h₁ => h₁) rfl

/-- The invariant of the indices, for the generator started from `seed` and `mask`
that has made `j` draws, fewer than its period: every peer holds one of them, no
two peers the same one, and `peers_by_idx` maps the index of each peer to it and
holds nothing else. -/
structure IndexedAt (seed mask : UInt32) (j : Nat) (d : Device) : Prop where
  lt : j < 2 ^ 24 - 1
  next : d.nextIndex = ⟨seed, step^[j] seed, mask⟩
  drawn : ∀ k r, d.peers.get k = some r → ∃ i < j, d.indexOf r = some (nth seed mask i)
  distinct : ∀ k k' r r', d.peers.get k = some r → d.peers.get k' = some r' → k ≠ k' →
    d.indexOf r ≠ d.indexOf r'
  byIdx : ∀ i r, d.peersByIdx.get i = some r ↔ ∃ k, d.peers.get k = some r ∧ d.indexOf r = some i

def Indexed (seed mask : UInt32) (d : Device) : Prop := ∃ j, IndexedAt seed mask j d

variable {seed mask : UInt32} {j : Nat} {d d' : Device}

theorem indexedAt_new : IndexedAt seed mask 0 (Device.new (default seed mask)) where
  lt := by decide
  next := rfl
  drawn := by simp [Device.new]
  distinct := by simp [Device.new]
  byIdx := by simp [Device.new]

theorem IndexedAt.of_indexView (h : IndexedAt seed mask j d) (hv : d'.indexView = d.indexView) :
    IndexedAt seed mask j d' := by
  have hidx := indexOf_congr hv
  simp only [indexView, Prod.mk.injEq] at hv
  obtain ⟨hp, hi, hn, -⟩ := hv
  exact ⟨h.lt, hn ▸ h.next, hp ▸ hidx ▸ h.drawn, hp ▸ hidx ▸ h.distinct,
    hp ▸ hi ▸ hidx ▸ h.byIdx⟩

/-- A draw that leaves the peers as they are. -/
theorem IndexedAt.draw (h : IndexedAt seed mask j d) (hlt : j + 1 < 2 ^ 24 - 1) :
    IndexedAt seed mask (j + 1) { d with nextIndex := ⟨seed, step^[j + 1] seed, mask⟩ } where
  lt := hlt
  next := rfl
  drawn k r hk := by
    obtain ⟨i, hi, hr⟩ := h.drawn k r hk
    exact ⟨i, by omega, hr⟩
  distinct := h.distinct
  byIdx := h.byIdx

theorem indexedAt_clearPeers (h : IndexedAt seed mask j d) : IndexedAt seed mask j d.clearPeers where
  lt := h.lt
  next := h.next
  drawn := by simp [clearPeers]
  distinct := by simp [clearPeers]
  byIdx := by simp [clearPeers]

theorem indexedAt_removePeer (h : IndexedAt seed mask j d) (N : IpNetworkTable) (k : Key) :
    IndexedAt seed mask j (d.removePeer N k) := by
  unfold removePeer
  split
  · rename_i r hk
    obtain ⟨i, -, hi⟩ := h.drawn k r hk
    obtain ⟨p, hp, -⟩ := Option.map_eq_some_iff.mp hi
    have hr : d.indexOf r = some p.index := by rw [indexOf, hp, Option.map_some]
    simp only [hp]
    refine ⟨h.lt, h.next, fun k' r' hk' => ?_, fun k₁ k₂ r₁ r₂ h₁ h₂ hne => ?_, fun i' r' => ?_⟩
    · rw [AssocMap.get_remove] at hk'
      split at hk'
      · contradiction
      · exact h.drawn k' r' hk'
    · rw [AssocMap.get_remove] at h₁ h₂
      -- the removed key finds nothing, so both keys are others
      split at h₁
      · contradiction
      split at h₂
      · contradiction
      exact h.distinct _ _ _ _ h₁ h₂ hne
    · -- the index of the removed peer is no other peer's
      have hother : ∀ k' r', d.peers.get k' = some r' → k' ≠ k → d.indexOf r' ≠ some p.index :=
        fun k' r' hk' hne => hr ▸ h.distinct k' k r' r hk' hk hne
      show (d.peersByIdx.remove p.index).get i' = some r' ↔
        ∃ k', (d.peers.remove k).get k' = some r' ∧ d.indexOf r' = some i'
      simp only [AssocMap.get_remove]
      by_cases hi' : i' = p.index
      · subst hi'
        simp only [if_true, reduceCtorEq, false_iff, not_exists, not_and]
        intro k' hk' hidx
        split at hk'
        · contradiction
        · exact hother k' r' hk' ‹_› hidx
      · rw [if_neg hi', h.byIdx]
        constructor
        · rintro ⟨k', hk', hidx⟩
          refine ⟨k', ?_, hidx⟩
          rw [if_neg]
          · exact hk'
          · rintro rfl
            rw [hk, Option.some.injEq] at hk'
            subst hk'
            exact hi' (Option.some.inj (hidx.symm.trans hr))
        · rintro ⟨k', hk', hidx⟩
          split at hk'
          · contradiction
          · exact ⟨k', hk', hidx⟩
  · exact h

section Seed

variable (hseed : 0 < seed.toNat ∧ seed.toNat < 2 ^ 24)
include hseed

/-- A new peer at the end of the heap, under a key that had none, holding the next
draw. -/
theorem IndexedAt.addPeer (h : IndexedAt seed mask j d) (hlt : j + 1 < 2 ^ 24 - 1) {k : Key}
    (hk : d.peers.get k = none) {p : Peer} (hp : p.index = nth seed mask j)
    (hnext : d'.nextIndex = ⟨seed, step^[j + 1] seed, mask⟩) (hh : d'.heap = d.heap ++ [p])
    (hpeers : d'.peers = d.peers.insert k d.heap.length)
    (hidx : d'.peersByIdx = d.peersByIdx.insert p.index d.heap.length) :
    IndexedAt seed mask (j + 1) d' := by
  -- the peers that were there keep their indices, all drawn before the new one
  have hold : ∀ k' r', d.peers.get k' = some r' →
      d'.indexOf r' = d.indexOf r' ∧ ∃ i < j, d.indexOf r' = some (nth seed mask i) := by
    intro k' r' hk'
    obtain ⟨i, hi, hr⟩ := h.drawn k' r' hk'
    exact ⟨indexOf_of_heap_append hh (lt_of_indexOf_eq_some hr), i, hi, hr⟩
  have hnew : d'.indexOf d.heap.length = some (nth seed mask j) := hp ▸ indexOf_of_heap_append_self hh
  have hfresh : ∀ k' r', d.peers.get k' = some r' → d.indexOf r' ≠ some (nth seed mask j) := by
    intro k' r' hk' heq
    obtain ⟨-, i, hi, hr⟩ := hold k' r' hk'
    have := nth_injOn hseed (by omega) h.lt (Option.some.inj (hr.symm.trans heq))
    omega
  refine ⟨hlt, hnext, fun k' r' hk' => ?_, fun k₁ k₂ r₁ r₂ h₁ h₂ hne => ?_, fun i r' => ?_⟩
  · rw [hpeers, AssocMap.get_insert] at hk'
    split at hk'
    · cases hk'
      exact ⟨j, by omega, hnew⟩
    · obtain ⟨heq, i, hi, hr⟩ := hold k' r' hk'
      exact ⟨i, by omega, heq ▸ hr⟩
  · rw [hpeers, AssocMap.get_insert] at h₁ h₂
    split at h₁ <;> split at h₂
    · exact absurd (‹k₁ = k›.trans ‹k₂ = k›.symm) hne
    · cases h₁
      rw [hnew, (hold _ _ h₂).1]
      exact fun heq => hfresh _ _ h₂ heq.symm
    · cases h₂
      rw [hnew, (hold _ _ h₁).1]
      exact hfresh _ _ h₁
    · rw [(hold _ _ h₁).1, (hold _ _ h₂).1]
      exact h.distinct _ _ _ _ h₁ h₂ hne
  · rw [hidx, AssocMap.get_insert, hp]
    by_cases hi : i = nth seed mask j
    · subst hi
      rw [if_pos rfl, Option.some.injEq]
      constructor
      · rintro rfl
        exact ⟨k, by rw [hpeers, AssocMap.get_insert, if_pos rfl], hnew⟩
      · rintro ⟨k', hk', hr⟩
        rw [hpeers, AssocMap.get_insert] at hk'
        split at hk'
        · exact Option.some.inj hk'
        · rw [(hold _ _ hk').1] at hr
          exact absurd hr (hfresh _ _ hk')
    · rw [if_neg hi, h.byIdx]
      constructor
      · rintro ⟨k', hk', hr⟩
        have hne : k' ≠ k := by
          rintro rfl
          rw [hk] at hk'
          cases hk'
        refine ⟨k', by rw [hpeers, AssocMap.get_insert, if_neg hne]; exact hk', ?_⟩
        rw [(hold _ _ hk').1]
        exact hr
      · rintro ⟨k', hk', hr⟩
        rw [hpeers, AssocMap.get_insert] at hk'
        split at hk'
        · cases hk'
          rw [hnew] at hr
          exact absurd (Option.some.inj hr).symm hi
        · exact ⟨k', hk', (hold _ _ hk').1 ▸ hr⟩

variable (B : Backend) (env : Env)

theorem nextIndexOp_spec (h : IndexedAt seed mask j d) :
    Triple (fun v d' => j + 1 < 2 ^ 24 - 1 ∧ v = nth seed mask j ∧
        d' = { d with nextIndex := ⟨seed, step^[j + 1] seed, mask⟩ })
      (fun f _ => f = .panic) nextIndexOp d := by
  apply triple_focus
  rw [h.next]
  exact (next_spec hseed h.lt).mono (fun _ _ ⟨hlt, hv, hl⟩ => ⟨hlt, hv, by rw [hl]⟩)
    (fun _ _ hf => hf)

theorem newPeer_indexed (h : IndexedAt seed mask j d) {k : Key} (hk : d.peers.get k = none)
    (endpoint : Option SocketAddr) (ips : List AllowedIP) (keepalive : Option UInt16)
    (psk : Option Key) :
    Triple (fun _ => Indexed seed mask) (fun f d' => f = .panic ∨ Indexed seed mask d')
      (newPeer B env k endpoint ips keepalive psk) d := by
  unfold newPeer
  refine triple_bind ((nextIndexOp_spec hseed h).mono (fun _ _ h => h) (fun _ _ hf => .inl hf)) ?_
  rintro v d₁ - ⟨hlt, rfl, rfl⟩
  -- after the draw, a failure leaves the peers as they were
  have h₁ := h.draw hlt
  apply triple_get_bind
  split
  · apply triple_liftExcept_bind (fun _ _ => .inr ⟨_, h₁⟩)
    intro tunn _
    apply triple_get_bind
    apply triple_set_bind
    exact triple_pure ⟨j + 1, h.addPeer hseed hlt hk rfl rfl rfl rfl rfl⟩
  · exact triple_throw (.inr ⟨_, h₁⟩)

theorem updatePeer_indexed (h : IndexedAt seed mask j d) (k : Key) (updateOnly remove replaceIps : Bool)
    (endpoint : Option SocketAddr) (ips : List AllowedIP) (keepalive : Option UInt16)
    (psk : Option Key) :
    Triple (fun _ => Indexed seed mask) (fun f d' => f = .panic ∨ Indexed seed mask d')
      (updatePeer B env k updateOnly remove replaceIps endpoint ips keepalive psk) d := by
  unfold updatePeer
  cases remove
  · apply triple_get_bind
    split
    · exact triple_modify ⟨j, h.of_indexView (indexView_updateExisting ..)⟩
    · rename_i hk
      cases updateOnly
      · exact triple_bind_pure (newPeer_indexed hseed B env h hk endpoint ips keepalive psk)
      · exact triple_pure ⟨j, h⟩
  · exact triple_modify_bind (triple_pure ⟨j, indexedAt_removePeer h _ k⟩)

end Seed

/-! The operations on the device's own settings leave the peer tables and the
indices alone. -/

section Settings

variable (B : Backend) (env : Env)

theorem indexView_putTunnel (d : Device) (r : PeerRef) (t : Tunn) :
    (d.putTunnel r t).indexView = d.indexView := by
  unfold putTunnel
  split <;> exact indexView_modifyPeer d r (fun p => { p with tunnel := t }) fun _ => rfl

theorem onTunnel_indexView {α : Type} (r : PeerRef) (m : EStateM (Fault Error) Tunn α) :
    Keeps (fun d' => d'.indexView = d.indexView) (onTunnel r m) d := by
  unfold onTunnel
  apply triple_get_bind
  split
  · exact triple_bind_pure (triple_focus (triple_of_forall
      (fun _ _ => indexView_putTunnel _ _ _) (fun _ _ => indexView_putTunnel _ _ _)))
  · exact triple_pure rfl

theorem setKey_indexView (privateKey : Key) :
    Keeps (fun d' => d'.indexView = d.indexView) (setKey B env privateKey) d := by
  unfold setKey
  apply triple_get_bind
  split
  · exact triple_pure rfl
  · apply triple_set_bind
    -- each pass of the loop gives one tunnel the limiter and sets its key
    refine triple_bind (keeps_forM (fun s hs r => ?_) d.peers.values _ rfl)
      fun _ _ _ hs => triple_modify hs
    have hshare := (indexView_modifyPeer s r (fun p => { p with sharedLimiter := some d.limiters.length })
      fun _ => rfl).trans hs
    exact triple_modify_bind ((triple_bind_pure (onTunnel_indexView r _)).mono
      (fun _ _ h => Eq.trans h hshare) fun _ _ h => Eq.trans h hshare)

theorem openListenSocket_indexView (port : UInt16) :
    Keeps (fun d' => d'.indexView = d.indexView) (openListenSocket env port) d := by
  unfold openListenSocket
  split
  · exact triple_modify rfl
  · exact triple_throw rfl

theorem setFwmark_indexView (mark : UInt32) :
    Keeps (fun d' => d'.indexView = d.indexView) (setFwmark env mark) d := by
  unfold setFwmark
  apply triple_modify_bind
  split
  · exact triple_throw rfl
  · exact triple_pure rfl

end Settings

section Runs

variable (B : Backend) (hseed : 0 < seed.toNat ∧ seed.toNat < 2 ^ 24)
include hseed

theorem exec_indexed (env : Env) (h : IndexedAt seed mask j d) (op : Op) :
    Triple (fun _ => Indexed seed mask) (fun f d' => f = .panic ∨ Indexed seed mask d')
      (op.exec B env) d := by
  -- the settings keep the view the invariant is stated on
  have hview : ∀ {α : Type} {m : EStateM (Fault Error) Device α},
      Keeps (fun d' => d'.indexView = d.indexView) m d →
        Triple (fun _ => Indexed seed mask) (fun f d' => f = .panic ∨ Indexed seed mask d') m d :=
    fun hm => hm.mono (fun _ _ hv => ⟨j, h.of_indexView hv⟩) (fun _ _ hv => .inr ⟨j, h.of_indexView hv⟩)
  cases op with
  | updatePeer k updateOnly remove replaceIps endpoint ips keepalive psk =>
    exact updatePeer_indexed hseed B env h k updateOnly remove replaceIps endpoint ips keepalive psk
  | removePeer k => exact triple_modify ⟨j, indexedAt_removePeer h _ k⟩
  | clearPeers => exact triple_modify ⟨j, indexedAt_clearPeers h⟩
  | setKey privateKey => exact hview (setKey_indexView B env privateKey)
  | openListenSocket port => exact hview (openListenSocket_indexView env port)
  | setFwmark mark => exact hview (setFwmark_indexView env mark)

theorem indexed_step (h : Indexed seed mask d) (hstep : Step B d d') : Indexed seed mask d' := by
  obtain ⟨j, h⟩ := h
  obtain ⟨env, op, ⟨a, hrun⟩ | ⟨e, hrun⟩⟩ := hstep
  · exact (exec_indexed B hseed env h op).of_ok hrun
  · exact ((exec_indexed B hseed env h op).of_error hrun).resolve_left nofun

theorem indexed_reachable (h : Reachable B (Device.new (default seed mask)) d) :
    Indexed seed mask d := by
  induction h with
  | refl => exact ⟨0, indexedAt_new⟩
  | tail _ hstep ih => exact indexed_step B hseed ih hstep

end Runs

/-- The first `2^24 - 2` calls of `IndexLfsr::next` return distinct 24-bit values
and do not panic; on every device reachable from a new one, each peer holds a
24-bit index, distinct peers hold distinct indices, and `peers_by_idx` maps
exactly those indices to those peers. -/
theorem peer_indices_unique (B : Backend) (hseed : 0 < seed.toNat ∧ seed.toNat < 2 ^ 24)
    (hmask : mask.toNat < 2 ^ 24) :
    (∀ n ≤ 2 ^ 24 - 2, ∃ vs s,
      ((List.replicate n ()).mapM fun _ => (next : EStateM (Fault Error) IndexLfsr UInt32)).run
          (default seed mask) = .ok vs s ∧
        vs.length = n ∧ vs.Nodup ∧ ∀ v ∈ vs, v.toNat < 2 ^ 24) ∧
    ∀ d, Reachable B (Device.new (default seed mask)) d →
      (∀ k r, d.peers.get k = some r → ∃ i, d.indexOf r = some i ∧ i.toNat < 2 ^ 24) ∧
      (∀ k k' r r', d.peers.get k = some r → d.peers.get k' = some r' → k ≠ k' →
        d.indexOf r ≠ d.indexOf r') ∧
      ∀ i r, d.peersByIdx.get i = some r ↔ ∃ k, d.peers.get k = some r ∧ d.indexOf r = some i := by
  refine ⟨fun n hn => nexts_distinct hseed hmask n hn, fun d hd => ?_⟩
  obtain ⟨j, h⟩ := indexed_reachable B hseed hd
  refine ⟨fun k r hk => ?_, h.distinct, h.byIdx⟩
  obtain ⟨i, -, hr⟩ := h.drawn k r hk
  exact ⟨_, hr, nth_lt hseed hmask i⟩

theorem peer_indices_unique_plain :
    (0 < (1 : UInt32).toNat ∧ (1 : UInt32).toNat < 2 ^ 24) ∧ (0 : UInt32).toNat < 2 ^ 24 ∧
    (∀ n ≤ 2 ^ 24 - 2, ∃ vs s,
      ((List.replicate n ()).mapM fun _ => (next : EStateM (Fault Error) IndexLfsr UInt32)).run
          (default 1 0) = .ok vs s ∧
        vs.length = n ∧ vs.Nodup ∧ ∀ v ∈ vs, v.toNat < 2 ^ 24) ∧
    ∀ d, Reachable Backend.plain (Device.new (default 1 0)) d →
      (∀ k r, d.peers.get k = some r → ∃ i, d.indexOf r = some i ∧ i.toNat < 2 ^ 24) ∧
      (∀ k k' r r', d.peers.get k = some r → d.peers.get k' = some r' → k ≠ k' →
        d.indexOf r ≠ d.indexOf r') ∧
      ∀ i r, d.peersByIdx.get i = some r ↔ ∃ k, d.peers.get k = some r ∧ d.indexOf r = some i :=
  ⟨by decide, by decide, peer_indices_unique Backend.plain (by decide) (by decide)⟩

end Device

end Neptun.Device
