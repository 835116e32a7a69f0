import Neptun.Device.Routes
import Neptun.Noise.Moves

/-! The tunnels a device drives. A peer's tunnel is made by `Tunn::new` for the
peer's index, and from then on the device only calls the tunnel's own methods on
it: the configuration interface its setters, the handlers of the traffic its
packet and timer methods. So each tunnel of a device is reached from a new one by a
run of `Noise.Tunn.Call`s, and what the tunnel keeps along its runs holds of it.

Traffic does less than configuration: it moves tunnels, sets endpoints and counts
in the device's rate limiter, and leaves the tables and the indices alone. That is
`Device.Moved`, which each handler is a chain of. -/
namespace Neptun.Noise.Tunn

open Lib

variable {B : Backend}

/-- A tunnel that `Tunn::new` made for a peer numbered `index`. -/
def Made (B : Backend) (index : UInt32) (t : Tunn) : Prop :=
  ∃ staticPrivate peerStaticPublic presharedKey persistentKeepalive rateLimiter systemTime now
    secretKey nonceKey, Tunn.new B staticPrivate peerStaticPublic presharedKey persistentKeepalive
      index rateLimiter systemTime now secretKey nonceKey = .ok t

/-- A call of the tunnel's owner goes on at a tunnel one step on. -/
theorem Call.steps (c : Call) (t : Tunn) : Steps (Step B) (c.run B) t := by
  unfold Steps Resumes Triple
  split
  · rename_i a t' hrun
    exact .single ⟨c, .inl ⟨a, hrun⟩⟩
  · rename_i f t' hrun
    rintro ⟨e, rfl⟩
    exact .single ⟨c, .inr ⟨e, hrun⟩⟩

/-- `set_static_private` as the device calls it goes on where the call of `Call`
that catches its error values does. -/
theorem steps_setStaticPrivate (staticPrivate staticPublic : Key)
    (rateLimiter : Option RateLimiter) (secretKey : Vector UInt8 16) (nonceKey : Key) (now : Nat)
    (t : Tunn) :
    Steps (Step B)
      (setStaticPrivate B staticPrivate staticPublic rateLimiter secretKey nonceKey now) t := by
  unfold Steps Resumes Triple
  split
  · rename_i a t' hrun
    exact .single ⟨.setStaticPrivate staticPrivate staticPublic rateLimiter secretKey nonceKey now,
      .inl ⟨.done, by simp [Call.run, EStateM.run_bind, hrun]⟩⟩
  · rename_i f t' hrun
    rintro ⟨e, rfl⟩
    exact .single ⟨.setStaticPrivate staticPrivate staticPublic rateLimiter secretKey nonceKey now,
      .inl ⟨.err e, by simp [Call.run, EStateM.run_bind, hrun]⟩⟩

theorem step_setPersistentKeepalive (t : Tunn) (keepalive : UInt16) :
    Step B t (t.setPersistentKeepalive keepalive) :=
  ⟨.setPersistentKeepalive keepalive, .inl ⟨.done, rfl⟩⟩

theorem step_setPresharedKey (t : Tunn) (presharedKey : Option Key) :
    Step B t (t.setPresharedKey presharedKey) :=
  ⟨.setPresharedKey presharedKey, .inl ⟨.done, rfl⟩⟩

/-- A step of a tunnel the device holds: one of its own calls, or a change of the
rate limiter it shares by another holder of the `Arc`. -/
inductive HeldStep (B : Backend) : Tunn → Tunn → Prop
  | call {t t' : Tunn} (hs : Step B t t') : HeldStep B t t'
  | limiter (t : Tunn) (r : RateLimiter) : HeldStep B t { t with rateLimiter := r }

def Held (B : Backend) : Tunn → Tunn → Prop := Relation.ReflTransGen (HeldStep B)

variable {t t' : Tunn}

theorem Reachable.held (h : Reachable B t t') : Held B t t' :=
  h.lift id fun _ _ hs => .call hs

theorem held_limiter (t : Tunn) (r : RateLimiter) : Held B t { t with rateLimiter := r } :=
  .single (.limiter t r)

/-- The holders of a shared rate limiter leave the handshake alone: it moves by the
handshake's own calls. -/
theorem Held.handshake_reachable (h : Held B t t') :
    Handshake.Reachable B t.handshake t'.handshake := by
  induction h with
  | refl => exact .refl
  | tail _ hs ih =>
    cases hs with
    | call hs =>
      exact ih.trans ((Reachable.moves (.single hs)).lift' Tunn.handshake
        fun _ _ hm => hm.handshake_reachable)
    | limiter => exact ih

end Neptun.Noise.Tunn

namespace Neptun.Device

open Lib Noise

set_option linter.dupNamespace false

namespace Peer

variable {B : Backend} {p p' p'' : Peer}

/-- The tunnel of the peer is one that `Tunn::new` made for the peer's index, moved
on since by its own calls and by the holders of the rate limiter it shares; a tunnel
that shares none has moved by its own calls only. -/
def Driven (B : Backend) (p : Peer) : Prop :=
  ∃ t₀, Tunn.Made B p.index t₀ ∧ Tunn.Held B t₀ p.tunnel ∧
    (p.sharedLimiter = none → Tunn.Reachable B t₀ p.tunnel)

theorem Driven.retune (h : p.Driven B) (hi : p'.index = p.index)
    (hs : p'.sharedLimiter = p.sharedLimiter) (ht : Tunn.Reachable B p.tunnel p'.tunnel) :
    p'.Driven B := by
  obtain ⟨t₀, hm, hh, hr⟩ := h
  exact ⟨t₀, hi ▸ hm, hh.trans ht.held, fun hn => (hr (hs ▸ hn)).trans ht⟩

/-- A peer given the device's rate limiter by `set_key`. -/
theorem Driven.share (h : p.Driven B) (i : Nat) : { p with sharedLimiter := some i }.Driven B := by
  obtain ⟨t₀, hm, hh, -⟩ := h
  exact ⟨t₀, hm, hh, fun hn => absurd hn (Option.some_ne_none i)⟩

theorem driven_new {t : Tunn} {index : UInt32} (ht : Tunn.Made B index t) (N : IpNetworkTable)
    (endpoint : Option SocketAddr) (allowedIps : List AllowedIP) (presharedKey : Option Key) :
    (Peer.new N t index endpoint allowedIps presharedKey).Driven B :=
  ⟨t, ht, .refl, fun _ => .refl⟩

/-- What traffic does to a peer: its tunnel moves by its own calls and by the
holders of the rate limiter it shares, by its own calls only if it shares none, and
its endpoint may change; its index, its allowed IPs and the limiter it shares
stay. -/
structure Moved (B : Backend) (p p' : Peer) : Prop where
  tunnel : Tunn.Held B p.tunnel p'.tunnel
  own : p.sharedLimiter = none → Tunn.Reachable B p.tunnel p'.tunnel
  sharedLimiter : p'.sharedLimiter = p.sharedLimiter
  index : p'.index = p.index
  allowedIps : p'.allowedIps = p.allowedIps

theorem moved_refl (p : Peer) : Moved B p p := ⟨.refl, fun _ => .refl, rfl, rfl, rfl⟩

theorem Moved.trans (h : Moved B p p') (h' : Moved B p' p'') : Moved B p p'' :=
  ⟨h.tunnel.trans h'.tunnel, fun hn => (h.own hn).trans (h'.own (h.sharedLimiter ▸ hn)),
    h'.sharedLimiter.trans h.sharedLimiter, h'.index.trans h.index,
    h'.allowedIps.trans h.allowedIps⟩

theorem Driven.moved (h : p.Driven B) (hm : Moved B p p') : p'.Driven B := by
  obtain ⟨t₀, hmade, hh, hr⟩ := h
  refine ⟨t₀, hm.index ▸ hmade, hh.trans hm.tunnel, fun hn => ?_⟩
  have hn' : p.sharedLimiter = none := hm.sharedLimiter ▸ hn
  exact (hr hn').trans (hm.own hn')

theorem moved_setEndpoint (p : Peer) (addr : SocketAddr) : Moved B p (p.setEndpoint addr) := by
  unfold setEndpoint
  split
  · exact moved_refl p
  · exact ⟨.refl, fun _ => .refl, rfl, rfl, rfl⟩

theorem moved_tunnel (p : Peer) {t : Tunn} (ht : Tunn.Held B p.tunnel t)
    (hown : p.sharedLimiter = none → Tunn.Reachable B p.tunnel t) :
    Moved B p { p with tunnel := t } :=
  ⟨ht, hown, rfl, rfl, rfl⟩

/-- A setter of `update_peer` keeps a peer driven: the keepalive and the preshared
key are set by the tunnel's own calls. -/
theorem Setter.driven {N : IpNetworkTable} (hs : Setter N p p') (h : p.Driven B) : p'.Driven B := by
  cases hs with
  | endpoint addr => exact h.moved (moved_setEndpoint p addr)
  | allowedIps => exact h.retune rfl rfl .refl
  | addAllowedIps => exact h.retune rfl rfl .refl
  | keepalive keepalive =>
    exact h.retune rfl rfl (.single (Tunn.step_setPersistentKeepalive p.tunnel keepalive))
  | presharedKey key => exact h.retune rfl rfl (.single (Tunn.step_setPresharedKey p.tunnel _))

end Peer

theorem optionRel_trans {α : Type} {rel : α → α → Prop} (ht : ∀ a b c, rel a b → rel b c → rel a c)
    {x y z : Option α} (h₁ : Option.Rel rel x y) (h₂ : Option.Rel rel y z) : Option.Rel rel x z := by
  cases h₁ with
  | none => exact h₂
  | some hab =>
    cases h₂ with
    | some hbc => exact .some (ht _ _ _ hab hbc)

namespace Device

variable {B : Backend} {d d' d'' : Device}

/-! ### Traffic moves a device -/

/-- What traffic does to a device: each peer moves as `Peer.Moved` says, and the
rate limiters may count; the key pair, the tables, the generator of indices and the
device's rate limiter stay. -/
structure Moved (B : Backend) (d d' : Device) : Prop where
  heap : ∀ r : PeerRef, Option.Rel (Peer.Moved B) d.heap[r]? d'.heap[r]?
  keyPair : d'.keyPair = d.keyPair
  peers : d'.peers = d.peers
  peersByIp : d'.peersByIp = d.peersByIp
  peersByIdx : d'.peersByIdx = d.peersByIdx
  nextIndex : d'.nextIndex = d.nextIndex
  rateLimiter : d'.rateLimiter = d.rateLimiter

theorem moved_refl (d : Device) : Moved B d d := by
  refine ⟨fun r => ?_, rfl, rfl, rfl, rfl, rfl, rfl⟩
  cases d.heap[r]? with
  | none => exact .none
  | some p => exact .some (Peer.moved_refl p)

theorem Moved.trans (h : Moved B d d') (h' : Moved B d' d'') : Moved B d d'' :=
  ⟨fun r => optionRel_trans (fun _ _ _ hab hbc => hab.trans hbc) (h.heap r) (h'.heap r),
    h'.keyPair.trans h.keyPair, h'.peers.trans h.peers, h'.peersByIp.trans h.peersByIp,
    h'.peersByIdx.trans h.peersByIdx, h'.nextIndex.trans h.nextIndex,
    h'.rateLimiter.trans h.rateLimiter⟩

theorem Moved.of_reflTransGen (h : Relation.ReflTransGen (Moved B) d d') : Moved B d d' := by
  induction h with
  | refl => exact moved_refl d
  | tail _ hm ih => exact ih.trans hm

/-- The peer at each reference, moved. -/
theorem Moved.peer_of (h : Moved B d d') {r : PeerRef} {p' : Peer} (hp' : d'.heap[r]? = some p') :
    ∃ p, d.heap[r]? = some p ∧ Peer.Moved B p p' := by
  have hr := h.heap r
  rw [hp'] at hr
  generalize d.heap[r]? = x at hr
  cases hr with
  | some hp => exact ⟨_, rfl, hp⟩

theorem moved_modifyPeer (d : Device) (r : PeerRef) {f : Peer → Peer}
    (hf : ∀ p, d.heap[r]? = some p → Peer.Moved B p (f p)) : Moved B d (d.modifyPeer r f) := by
  refine ⟨fun r' => ?_, rfl, rfl, rfl, rfl, rfl, rfl⟩
  simp only [modifyPeer, List.getElem?_modify]
  cases hp : d.heap[r']? with
  | none => exact .none
  | some p =>
    simp only [Option.map_eq_map, Option.map_some]
    split
    · subst r'
      exact .some (hf p hp)
    · exact .some (Peer.moved_refl p)

/-- The rate limiters count. -/
theorem moved_limiters (d : Device) (limiters : List RateLimiter) :
    Moved B d { d with limiters := limiters } :=
  ⟨(moved_refl d).heap, rfl, rfl, rfl, rfl, rfl, rfl⟩

/-- The tunnel a peer's methods find is its own, or its own with the limiter it
shares. -/
theorem held_tunnelOf (d : Device) (p : Peer) : Tunn.Held B p.tunnel (d.tunnelOf p) := by
  unfold tunnelOf
  split
  · exact Tunn.held_limiter _ _
  · exact .refl

theorem tunnelOf_of_none (d : Device) {p : Peer} (hn : p.sharedLimiter = none) :
    d.tunnelOf p = p.tunnel := by
  simp [tunnelOf, hn]

/-- A tunnel written back after its own calls, and the limiter it shares with it. -/
theorem moved_putTunnel {r : PeerRef} {p : Peer} (hp : d.heap[r]? = some p) {t : Tunn}
    (ht : Tunn.Reachable B (d.tunnelOf p) t) : Moved B d (d.putTunnel r t) := by
  have hpeer : Moved B d (d.modifyPeer r fun p => { p with tunnel := t }) :=
    moved_modifyPeer d r fun q hq => by
      rw [hp, Option.some.injEq] at hq
      subst hq
      exact Peer.moved_tunnel p ((held_tunnelOf d p).trans ht.held)
        fun hn => tunnelOf_of_none d hn ▸ ht
  unfold putTunnel
  split
  · exact hpeer.trans (moved_limiters _ _)
  · exact hpeer

theorem Moved.indexView (h : Moved B d d') : d'.indexView = d.indexView := by
  have hidx : d'.heap.map (·.index) = d.heap.map (·.index) := by
    apply List.ext_getElem?
    intro r
    simp only [List.getElem?_map]
    have hr := h.heap r
    generalize d.heap[r]? = x at hr ⊢
    generalize d'.heap[r]? = y at hr ⊢
    cases hr with
    | none => rfl
    | some hp => rw [Option.map_some, Option.map_some, hp.index]
  show (d'.peers, d'.peersByIdx, d'.nextIndex, d'.heap.map (·.index)) =
    (d.peers, d.peersByIdx, d.nextIndex, d.heap.map (·.index))
  rw [h.peers, h.peersByIdx, h.nextIndex, hidx]

theorem Moved.routeView (h : Moved B d d') : d'.routeView = d.routeView := by
  show (d'.peers, d'.peersByIp) = (d.peers, d.peersByIp)
  rw [h.peers, h.peersByIp]

/-- A method of the tunnel of the peer at `r` that goes on where the tunnel's calls
take it moves the device. -/
theorem onTunnel_moved {α : Type} (r : PeerRef) {m : EStateM (Fault Error) Tunn α}
    (hm : ∀ t, Steps (Tunn.Step B) m t) : Steps (Moved B) (onTunnel r m) d := by
  unfold onTunnel
  apply triple_get_bind
  split
  · rename_i p hp
    have hmove : ∀ t, Tunn.Reachable B (d.tunnelOf p) t →
        Relation.ReflTransGen (Moved B) d (d.putTunnel r t) :=
      fun t ht => .single (moved_putTunnel hp ht)
    refine triple_map.mpr (triple_focus ?_)
    exact (hm (d.tunnelOf p)).mono (fun _ t ht => hmove t ht) fun _ t ht he => hmove t (ht he)
  · exact triple_pure .refl

/-- A call of the tunnel's owner, run on the tunnel of a peer, moves the device. -/
theorem onTunnel_call_moved (r : PeerRef) (c : Tunn.Call) :
    Steps (Moved B) (onTunnel r (attempt (c.run B) : EStateM (Fault Error) Tunn
      (Except WireGuardError TunnResult))) d :=
  onTunnel_moved r fun t => (Tunn.Call.steps c t).attempt

/-- A method that returns on the tunnel of a peer returns on the device. -/
theorem onTunnel_run {α : Type} {r : PeerRef} {p : Peer} (hp : d.heap[r]? = some p)
    {m : EStateM (Fault Error) Tunn α} {a : α} {t : Tunn} (hrun : m.run (d.tunnelOf p) = .ok a t) :
    (onTunnel r m).run d = .ok (some a) (d.putTunnel r t) := by
  simp [onTunnel, EStateM.run_bind, hp, hrun]

theorem getElem?_putTunnel_self {r : PeerRef} {p : Peer} (hp : d.heap[r]? = some p) (t : Tunn) :
    (d.putTunnel r t).heap[r]? = some { p with tunnel := t } := by
  unfold putTunnel modifyPeer
  split <;> simp [hp]

/-- Every peer of the heap is driven, the removed ones too: a worker may still hold
one. -/
def Driven (B : Backend) (d : Device) : Prop :=
  ∀ (r : PeerRef) (p : Peer), d.heap[r]? = some p → p.Driven B

theorem driven_new (B : Backend) (l : IndexLfsr) : (Device.new l).Driven B := by
  intro r p hp
  simp [Device.new] at hp

theorem Driven.of_heap (h : d.Driven B) (hh : d'.heap = d.heap) : d'.Driven B := by
  intro r p hp
  rw [hh] at hp
  exact h r p hp

theorem Driven.moved (h : d.Driven B) (hm : Moved B d d') : d'.Driven B := by
  intro r p' hp'
  obtain ⟨p, hp, hmp⟩ := hm.peer_of hp'
  exact (h r p hp).moved hmp

/-- The peer at `r` changed into one that is driven. -/
theorem Driven.modifyPeer (h : d.Driven B) (r : PeerRef) {f : Peer → Peer}
    (hf : ∀ p, p.Driven B → (f p).Driven B) : (d.modifyPeer r f).Driven B := by
  intro r' p' hp'
  simp only [Device.modifyPeer, List.getElem?_modify] at hp'
  cases hp : d.heap[r']? with
  | none => simp [hp] at hp'
  | some p =>
    simp only [hp, Option.map_eq_map, Option.map_some, Option.some.injEq] at hp'
    subst hp'
    split
    · exact hf p (h r' p hp)
    · exact h r' p hp

/-- A peer added at the end of the heap. -/
theorem Driven.append (h : d.Driven B) {p : Peer} (hp : p.Driven B) (hh : d'.heap = d.heap ++ [p]) :
    d'.Driven B := by
  intro r q hq
  rw [hh, List.getElem?_append] at hq
  split at hq
  · exact h r q hq
  · cases hk : r - d.heap.length with
    | zero =>
      rw [hk, List.getElem?_cons_zero, Option.some.injEq] at hq
      subst hq
      exact hp
    | succ k => simp [hk] at hq

theorem Driven.updateExisting (h : d.Driven B) (N : IpNetworkTable) (r : PeerRef)
    (replaceIps : Bool) (endpoint : Option SocketAddr) (allowedIps : List AllowedIP)
    (keepalive : Option UInt16) (presharedKey : Option Key) :
    (d.updateExisting N r replaceIps endpoint allowedIps keepalive presharedKey).Driven B :=
  -- the setters keep a peer driven; the changes of `peers_by_ip` leave the heap
  updateExisting_keeps (Driven B) N r replaceIps endpoint allowedIps keepalive presharedKey
    (fun _ _ hf h₁ => h₁.modifyPeer r fun p hp => (hf p).driven hp) (fun _ h₁ => h₁.of_heap rfl)
    (fun _ h₁ => h₁.of_heap rfl) h

theorem heap_removePeer (N : IpNetworkTable) (d : Device) (k : Key) :
    (d.removePeer N k).heap = d.heap := by
  unfold Device.removePeer
  split <;> rfl

section Operations

variable (B : Backend) (env : Env)

theorem openListenSocket_heap (port : UInt16) :
    Keeps (fun d' => d'.heap = d.heap) (openListenSocket env port) d := by
  unfold openListenSocket
  split
  · exact triple_modify rfl
  · exact triple_throw rfl

theorem setFwmark_heap (mark : UInt32) :
    Keeps (fun d' => d'.heap = d.heap) (setFwmark env mark) d := by
  unfold setFwmark
  apply triple_modify_bind
  split
  · exact triple_throw rfl
  · exact triple_pure rfl

theorem newPeer_driven (h : d.Driven B) (k : Key) (endpoint : Option SocketAddr)
    (ips : List AllowedIP) (keepalive : Option UInt16) (psk : Option Key) :
    Resumes (Driven B) (newPeer B env k endpoint ips keepalive psk) d := by
  unfold newPeer
  -- the draw of the index leaves the heap alone
  refine triple_bind (Keeps.resumes (keeps_focus fun _ => h.of_heap rfl)) ?_
  intro index d₁ _ h₁
  apply triple_get_bind
  split
  · rename_i sk pk _
    refine triple_liftExcept_bind (fun _ _ _ => h₁) fun t ht => ?_
    -- the new tunnel is one `Tunn::new` made for the index drawn
    have hmade : Tunn.Made B index t := by
      cases hnew : Tunn.new B sk k psk keepalive index none env.systemTime env.now env.secretKey
        env.nonceKey with
      | error e => rw [hnew] at ht; cases ht
      | ok t' =>
        rw [hnew, mapError_ok, Except.ok.injEq] at ht
        subst ht
        exact ⟨_, _, _, _, _, _, _, _, _, hnew⟩
    apply triple_get_bind
    apply triple_set_bind
    exact triple_pure (h₁.append (Peer.driven_new hmade _ endpoint ips psk) rfl)
  · exact triple_throw fun _ => h₁

theorem updatePeer_driven (h : d.Driven B) (k : Key) (updateOnly remove replaceIps : Bool)
    (endpoint : Option SocketAddr) (ips : List AllowedIP) (keepalive : Option UInt16)
    (psk : Option Key) :
    Resumes (Driven B) (updatePeer B env k updateOnly remove replaceIps endpoint ips keepalive psk) d := by
  unfold updatePeer
  cases remove
  · apply triple_get_bind
    split
    · rename_i r _
      exact triple_modify (Driven.updateExisting h _ r replaceIps endpoint ips keepalive psk)
    · cases updateOnly
      · exact triple_bind_pure (newPeer_driven B env h k endpoint ips keepalive psk)
      · exact triple_pure h
  · exact triple_modify_bind (triple_pure (h.of_heap (heap_removePeer _ d k)))

theorem setKey_driven (h : d.Driven B) (privateKey : Key) :
    Resumes (Driven B) (setKey B env privateKey) d := by
  unfold setKey
  apply triple_get_bind
  split
  · exact triple_pure h
  · apply triple_set_bind
    -- each pass of the loop gives one tunnel the limiter and moves it by
    -- `set_static_private`
    refine triple_bind (resumes_forM (fun s hs r => ?_) d.peers.values _ (h.of_heap rfl))
      fun _ _ _ hs => triple_modify (hs.of_heap rfl)
    refine triple_modify_bind ?_
    have hs' := hs.modifyPeer r fun p hp => hp.share d.limiters.length
    have hm : ∀ rateLimiter, Steps (Moved B) (onTunnel r (attempt (Tunn.setStaticPrivate B privateKey
        (B.x25519Public privateKey) rateLimiter env.secretKey env.nonceKey env.now) :
          EStateM (Fault Error) Tunn (Except WireGuardError Unit)))
          (s.modifyPeer r fun p => { p with sharedLimiter := some d.limiters.length }) :=
      fun rateLimiter => onTunnel_moved r fun t =>
        (Tunn.steps_setStaticPrivate _ _ rateLimiter _ _ _ t).attempt
    exact triple_bind_pure ((hm _).mono (fun _ _ hr => hs'.moved (Moved.of_reflTransGen hr))
      fun _ _ hr he => hs'.moved (Moved.of_reflTransGen (hr he)))

theorem exec_driven (h : d.Driven B) (op : Op) : Resumes (Driven B) (op.exec B env) d := by
  cases op with
  | updatePeer k updateOnly remove replaceIps endpoint ips keepalive psk =>
    exact updatePeer_driven B env h k updateOnly remove replaceIps endpoint ips keepalive psk
  | removePeer k => exact triple_modify (h.of_heap (heap_removePeer _ d k))
  | clearPeers => exact triple_modify (h.of_heap rfl)
  | setKey privateKey => exact setKey_driven B env h privateKey
  | openListenSocket port =>
    exact Keeps.resumes ((openListenSocket_heap env port).mono (fun _ _ hh => h.of_heap hh)
      fun _ _ hh => h.of_heap hh)
  | setFwmark mark =>
    exact Keeps.resumes ((setFwmark_heap env mark).mono (fun _ _ hh => h.of_heap hh)
      fun _ _ hh => h.of_heap hh)

end Operations

theorem Driven.step (h : d.Driven B) (hs : Step B d d') : d'.Driven B := by
  obtain ⟨env, op, ⟨_, hrun⟩ | ⟨e, hrun⟩⟩ := hs
  · exact (exec_driven B env h op).of_ok hrun
  · exact (exec_driven B env h op).of_error hrun ⟨e, rfl⟩

end Device

end Neptun.Device
