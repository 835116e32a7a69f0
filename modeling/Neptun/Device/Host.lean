import Neptun.Device.Drive
import Neptun.Device.Traffic
import Neptun.Device.Cryptokey

/-! The device as its threads run it. A host is the device with the channels from
the event loops to the workers and the connected sockets that have a handler. Its
events interleave in any order: a configuration command, a run of the handler of
the listening socket, of a connected socket, of the interface or of the timers, a
worker taking any task of its channel, and the reset of the rate limiter. Every
handler moves the device as `Device.Moved` says, so over every run the tables keep
their invariants and every tunnel stays one its own calls reach from `Tunn::new`.

Each handler runs here as one event. The threads interleave more finely, at each
call of a tunnel under its lock; what is proved here is about each tunnel's own
sequence of calls and about the tables, which no handler writes, and it holds of
the finer interleavings as well. A connected socket's handler is kept once opened,
and a worker may take the tasks of its channel in any order: both allow more runs
than the threads make. -/
namespace Neptun.Device

open Lib Noise

set_option linter.dupNamespace false

/-! ### Each handler moves the device -/

section Handlers

variable {B : Backend} {cfg : Config}

theorem verifyDatagram_moved (src : SocketAddr) (packet dst : List UInt8) (now : Nat) (d : Device) :
    Steps (Device.Moved B) (verifyDatagram B src packet dst now) d := by
  unfold verifyDatagram
  apply triple_get_bind
  split
  · -- the limiter the device shares counts the handshake messages it verifies
    refine Steps.bind (steps_focus fun _ => .single (Device.moved_limiters d _)) fun _ _ _ => ?_
    split <;> exact steps_pure _ _
  · refine Steps.bind (steps_liftExcept _ d).attempt fun _ _ _ => ?_
    split <;> exact steps_pure _ _

theorem flushTo_moved (r : PeerRef) (addr : SocketAddr) (dst : List UInt8) :
    ∀ envs d, Steps (Device.Moved B) (flushTo B r addr dst envs) d := by
  intro envs
  induction envs with
  | nil => exact fun d => steps_throw _ d
  | cons env envs ih =>
    intro d
    refine Steps.bind (Device.onTunnel_call_moved r (.decapsulate env none [] dst)) fun _ d₁ _ => ?_
    split
    · exact triple_map.mpr (ih d₁)
    · exact steps_pure _ _

theorem udpDatagram_moved (sk pk : Key) (dst : List UInt8) (g : Datagram) (d : Device) :
    Steps (Device.Moved B) (udpDatagram B cfg sk pk dst g) d := by
  unfold udpDatagram
  refine Steps.bind (verifyDatagram_moved _ _ _ _ d) fun _ d₁ _ => ?_
  split
  split
  · apply triple_get_bind
    split
    · refine Steps.bind (Device.onTunnel_call_moved _ (.handleVerifiedPacket g.env _ dst))
        fun _ d₂ _ => ?_
      split
      · apply triple_get_bind
        split
        · refine Steps.bind ?_ fun _ d₃ _ => ?_
          · split
            · exact flushTo_moved _ _ _ _ _
            · exact steps_pure _ _
          · -- the datagram's source becomes the peer's endpoint
            exact steps_modify_bind (.single (Device.moved_modifyPeer _ _ fun p _ =>
              Peer.moved_setEndpoint p _)) (steps_pure _ _)
        · exact steps_pure _ _
      · exact steps_pure _ _
    · exact steps_pure _ _
  · exact steps_pure _ _

theorem udpLoop_moved (sk pk : Key) (dst : List UInt8) :
    ∀ gs iter d, Steps (Device.Moved B) (udpLoop B cfg sk pk dst iter gs) d := by
  intro gs
  induction gs with
  | nil => exact fun _ d => steps_pure _ d
  | cons g gs ih =>
    intro iter d
    unfold udpLoop
    refine Steps.bind (udpDatagram_moved sk pk dst g d) fun _ d₁ _ => ?_
    split
    refine Steps.bind ?_ fun _ _ _ => steps_pure _ _
    split
    · split
      · exact steps_pure _ _
      · exact ih _ _
    · exact ih _ _

theorem udpHandler_moved (dst : List UInt8) (gs : List Datagram) (d : Device) :
    Steps (Device.Moved B) (udpHandler B cfg dst gs) d := by
  unfold udpHandler
  apply triple_get_bind
  split
  · exact Steps.bind (udpLoop_moved _ _ _ _ _ d) fun _ _ _ => steps_pure _ _
  · exact steps_pure _ _

theorem connDatagram_moved (r : PeerRef) (sock : SocketAddr) (g : Received) (d : Device) :
    Steps (Device.Moved B) (connDatagram B r sock g) d := by
  unfold connDatagram
  refine Steps.bind (Device.onTunnel_call_moved r (.decapsulate g.env (some sock.ip) _ _))
    fun _ d₁ _ => ?_
  split
  · exact Steps.bind (flushTo_moved _ _ _ _ d₁) fun _ _ _ => steps_pure _ _
  · exact steps_pure _ _
  · exact steps_pure _ _

theorem connBatch_moved (r : PeerRef) (sock : SocketAddr) :
    ∀ n gs d, Steps (Device.Moved B) (connBatch B r sock n gs) d := by
  intro n
  induction n with
  | zero => exact fun _ d => steps_pure _ d
  | succ n ih =>
    intro gs d
    cases gs with
    | nil => exact steps_pure _ d
    | cons g gs =>
      refine Steps.bind (connDatagram_moved r sock g d) fun _ d₁ _ => ?_
      exact Steps.bind (ih gs d₁) fun _ _ _ => steps_pure _ _

theorem connHandler_moved (r : PeerRef) (sock : SocketAddr) :
    ∀ fuel gs d, Steps (Device.Moved B) (connHandler B cfg r sock fuel gs) d := by
  intro fuel
  induction fuel with
  | zero => exact fun _ d => steps_throw _ d
  | succ fuel ih =>
    intro gs d
    refine Steps.bind (connBatch_moved r sock _ gs d) fun _ d₁ _ => ?_
    split
    split
    · exact steps_pure _ _
    · exact Steps.bind (ih _ d₁) fun _ _ _ => steps_pure _ _

/-- The interface's handler only reads the device. -/
theorem dispatchIfaceRead_keeps (mtu : CheckedMtu) :
    ∀ fuel reads d, Keeps (· = d) (dispatchIfaceRead B cfg mtu fuel reads) d := by
  intro fuel
  induction fuel with
  | zero => exact fun _ d => triple_throw rfl
  | succ fuel ih =>
    intro reads d
    apply triple_get_bind
    split
    split
    · exact triple_pure rfl
    · exact triple_pure rfl
    · exact triple_bind (ih _ d) fun _ _ _ h => triple_pure h

theorem ifaceHandler_keeps (mtu fuel : Nat) (reads : List IfaceRead) (d : Device) :
    Keeps (· = d) (ifaceHandler B cfg mtu fuel reads) d := by
  unfold ifaceHandler
  split
  · exact dispatchIfaceRead_keeps _ _ _ d
  · exact triple_pure rfl

theorem encapsulateAndSend_moved (env : CallEnv) (r : PeerRef) (buf : List UInt8) (len : Nat)
    (d : Device) : Steps (Device.Moved B) (encapsulateAndSend B env r buf len) d := by
  unfold encapsulateAndSend
  refine Steps.bind (Device.onTunnel_call_moved r (.encapsulateInPlace env len buf))
    fun _ d₁ _ => ?_
  split
  · apply triple_get_bind
    split <;> exact steps_pure _ _
  · exact steps_pure _ _

theorem writeToSocket_moved (env : CallEnv) (task : NetworkTask) (d : Device) :
    Steps (Device.Moved B) (writeToSocket B cfg env task) d := by
  unfold writeToSocket
  split
  · apply triple_get_bind
    split
    · split
      · split
        split
        · exact steps_pure _ _
        · exact triple_map.mpr (encapsulateAndSend_moved _ _ _ _ _)
      · exact steps_pure _ _
    · exact steps_pure _ _
  · exact encapsulateAndSend_moved _ _ _ _ _

theorem peerTimer_moved (dst : List UInt8) (env : CallEnv) (r : PeerRef) (d : Device) :
    Steps (Device.Moved B) (peerTimer B dst env r) d := by
  unfold peerTimer
  apply triple_get_bind
  split
  · exact steps_pure _ _
  · refine Steps.bind (Device.onTunnel_call_moved r (.updateTimers env dst)) fun _ _ _ => ?_
    split <;> exact steps_pure _ _

theorem peerTimers_moved (dst : List UInt8) (env : PeerRef → CallEnv) :
    ∀ rs d, Steps (Device.Moved B) (peerTimers B dst env rs) d := by
  intro rs
  induction rs with
  | nil => exact fun d => steps_pure _ d
  | cons r rs ih =>
    intro d
    exact Steps.bind (peerTimer_moved dst (env r) r d) fun _ d₁ _ => triple_map.mpr (ih d₁)

theorem timersHandler_moved (sockets : Bool) (dst : List UInt8) (env : PeerRef → CallEnv)
    (d : Device) : Steps (Device.Moved B) (timersHandler B sockets dst env) d := by
  unfold timersHandler
  split
  · exact steps_pure _ _
  · exact triple_get_bind (peerTimers_moved dst env _ d)

/-- The reset counts afresh in the device's rate limiter, for the device and for the
tunnels that share it. -/
theorem moved_resetRateLimiter (now : Nat) (d : Device) : Device.Moved B d (resetRateLimiter now d) := by
  unfold resetRateLimiter
  cases hr : d.rateLimiter with
  | none => exact Device.moved_refl d
  | some i => exact ⟨(Device.moved_refl d).heap, rfl, rfl, rfl, rfl, rfl, hr.symm⟩

end Handlers

/-! ### The host -/

/-- The device, the tasks in the channels to the workers, and the connected sockets
whose handlers run. -/
structure Host where
  device : Device
  toSocket : List NetworkTask
  toTun : List TunnelTask
  conns : List (PeerRef × SocketAddr)

namespace Host

/-- A host whose device `new_with_iface` made, with nothing in flight. -/
def new (l : IndexLfsr) : Host := ⟨Device.new l, [], [], []⟩

/-- One event of a host, with what it sends and writes. A handler's event is a run
of it that returns; a configuration command's one that returns or fails. -/
inductive Step (B : Backend) (cfg : Config) : Host → List Output → Host → Prop
  | api {h : Host} {d : Device} (hs : Device.Step B h.device d) :
      Step B cfg h [] { h with device := d }
  | udp {h : Host} {dst : List UInt8} {gs : List Datagram} {a : Action} {out : List Output}
      {conns : List (PeerRef × SocketAddr)} {d : Device}
      (hrun : (udpHandler B cfg dst gs).run h.device = .ok (a, out, conns) d) :
      Step B cfg h out { h with device := d, conns := h.conns ++ conns }
  | conn {h : Host} {r : PeerRef} {sock : SocketAddr} {fuel : Nat} {gs : List Received}
      {out : List Output} {tasks : List TunnelTask} {d : Device} (hc : (r, sock) ∈ h.conns)
      (hrun : (connHandler B cfg r sock fuel gs).run h.device = .ok (out, tasks) d) :
      Step B cfg h out { h with device := d, toTun := h.toTun ++ tasks }
  | iface {h : Host} {mtu fuel : Nat} {reads : List IfaceRead} {a : Action}
      {tasks : List NetworkTask} {d : Device}
      (hrun : (ifaceHandler B cfg mtu fuel reads).run h.device = .ok (a, tasks) d) :
      Step B cfg h [] { h with device := d, toSocket := h.toSocket ++ tasks }
  | socketWorker {h : Host} {i : Nat} {env : CallEnv} {out : List Output} {d : Device}
      (hi : i < h.toSocket.length)
      (hrun : (writeToSocket B cfg env (h.toSocket.get ⟨i, hi⟩)).run h.device = .ok out d) :
      Step B cfg h out { h with device := d, toSocket := h.toSocket.eraseIdx i }
  | tunWorker {h : Host} {i : Nat} (hi : i < h.toTun.length) :
      Step B cfg h (writeToTun B cfg (h.toTun.get ⟨i, hi⟩) h.device)
        { h with toTun := h.toTun.eraseIdx i }
  | timers {h : Host} {sockets : Bool} {dst : List UInt8} {env : PeerRef → CallEnv}
      {out : List Output} {d : Device}
      (hrun : (timersHandler B sockets dst env).run h.device = .ok out d) :
      Step B cfg h out { h with device := d }
  | resetRateLimiter {h : Host} (now : Nat) :
      Step B cfg h [] { h with device := resetRateLimiter now h.device }

def Reachable (B : Backend) (cfg : Config) : Host → Host → Prop :=
  Relation.ReflTransGen fun h h' => ∃ out, Step B cfg h out h'

variable {B : Backend} {cfg : Config} {h h' : Host} {out : List Output}

/-- An event is a configuration command, or it moves the device. -/
theorem Step.api_or_moved (hs : Step B cfg h out h') :
    Device.Step B h.device h'.device ∨ Device.Moved B h.device h'.device := by
  cases hs with
  | api hs => exact .inl hs
  | udp hrun => exact .inr (Device.Moved.of_reflTransGen ((udpHandler_moved _ _ _).of_ok hrun))
  | conn _ hrun =>
    exact .inr (Device.Moved.of_reflTransGen ((connHandler_moved _ _ _ _ _).of_ok hrun))
  | iface hrun =>
    have hd := (ifaceHandler_keeps _ _ _ _).of_ok hrun
    exact .inr (hd ▸ Device.moved_refl _)
  | socketWorker _ hrun =>
    exact .inr (Device.Moved.of_reflTransGen ((writeToSocket_moved _ _ _).of_ok hrun))
  | tunWorker => exact .inr (Device.moved_refl _)
  | timers hrun =>
    exact .inr (Device.Moved.of_reflTransGen ((timersHandler_moved _ _ _ _).of_ok hrun))
  | resetRateLimiter now => exact .inr (moved_resetRateLimiter now _)

/-- What holds of a host along its runs from a new device: the indices of
`Device.IndexedAt`, and tunnels driven by their own calls. -/
structure Inv (B : Backend) (seed mask : UInt32) (h : Host) : Prop where
  indexed : Device.Indexed seed mask h.device
  driven : h.device.Driven B

theorem inv_new (B : Backend) (seed mask : UInt32) : Inv B seed mask (new (.default seed mask)) :=
  ⟨⟨0, Device.indexedAt_new⟩, Device.driven_new B _⟩

theorem Inv.step (hseed : 0 < seed.toNat ∧ seed.toNat < 2 ^ 24) (hi : Inv B seed mask h)
    (hs : Step B cfg h out h') : Inv B seed mask h' := by
  rcases hs.api_or_moved with hd | hm
  · exact ⟨Device.indexed_step B hseed hi.indexed hd, hi.driven.step hd⟩
  · obtain ⟨j, hj⟩ := hi.indexed
    exact ⟨⟨j, hj.of_indexView hm.indexView⟩, hi.driven.moved hm⟩

theorem inv_reachable (hseed : 0 < seed.toNat ∧ seed.toNat < 2 ^ 24)
    (hr : Reachable B cfg (new (.default seed mask)) h) : Inv B seed mask h := by
  induction hr with
  | refl => exact inv_new B seed mask
  | tail _ hs ih =>
    obtain ⟨_, hs⟩ := hs
    exact ih.step hseed hs

/-- A property of devices that configuration commands keep and that survives the
handlers' moves holds along every run of a host from a device that has it. -/
theorem device_reachable {P : Device → Prop} (hstep : ∀ {d d'}, P d → Device.Step B d d' → P d')
    (hmoved : ∀ {d d'}, P d → Device.Moved B d d' → P d') {h₀ : Host} (h₀P : P h₀.device)
    (hr : Reachable B cfg h₀ h) : P h.device := by
  induction hr with
  | refl => exact h₀P
  | tail _ hs ih =>
    obtain ⟨_, hs⟩ := hs
    rcases hs.api_or_moved with hd | hm
    · exact hstep ih hd
    · exact hmoved ih hm

/-- Routes lead to live peers along every run, whatever the generator of indices. -/
theorem routes_reachable (hN : B.ipNetworkTable.Lawful) {l : IndexLfsr}
    (hr : Reachable B cfg (new l) h) : h.device.RoutesLive :=
  device_reachable (fun hd hs => hd.step hN hs) (fun hd hm => hd.of_view hm.routeView)
    (Device.routesLive_new l) hr

/-- The command-line tool's host, its generator of indices seeded with 1 and masked
with `mask`, after its configuration interface has set a key and added one peer
with the endpoint `endpoint` and the allowed IPs `ips`. -/
theorem reachable_one_peer (mask : UInt32) (endpoint : Option SocketAddr) (ips : List AllowedIP) :
    ∃ (h : Host) (p : Peer), Reachable Backend.plain (Config.cli true) (new (.default 1 mask)) h ∧
      h.device.keyPair = some (.replicate 32 7, .replicate 32 7) ∧
      h.device.peers = AssocMap.empty.insert (.replicate 32 1) 0 ∧
      h.device.peersByIp = AllowedIps.new.insertAll Backend.plain.ipNetworkTable ips 0 ∧
      h.device.limiters.length = 1 ∧ h.toSocket = [] ∧ h.device.heap[0]? = some p ∧
      p.sharedLimiter = none ∧ p.endpoint = endpoint ∧
      Tunn.new Backend.plain (.replicate 32 7) (.replicate 32 1) none none ((1 - 1) ^^^ mask) none 0 0
        (.replicate 16 0) (.replicate 32 0) = .ok p.tunnel := by
  let env : Env := ⟨0, 0, .replicate 16 0, .replicate 32 0, none, true⟩
  obtain ⟨t, ht, -⟩ := Tunn.new_fresh Backend.plain (.replicate 32 7) (.replicate 32 1) none none
    ((1 - 1) ^^^ mask) none 0 0 (.replicate 16 0) (.replicate 32 0)
  have hkey := Device.setKey_run_of_no_peers Backend.plain env (d := Device.new (.default 1 mask)) rfl
    (.replicate 32 7) (by simp [Device.new])
  -- the peer is added to the device the key left
  have hr : Reachable Backend.plain (Config.cli true) (new (.default 1 mask)) _ :=
    .tail (.single ⟨[], .api ⟨env, .setKey _, .inl ⟨(), hkey⟩⟩⟩)
      ⟨[], .api ⟨env, .updatePeer _ false false false endpoint ips none none, .inl ⟨(),
        Device.updatePeer_run_new Backend.plain env (k := .replicate 32 1) (by rfl) (by rfl)
          (by exact show IndexLfsr.step 1 ≠ 1 by decide) false endpoint ips none none ht⟩⟩⟩
  exact ⟨_, _, hr, rfl, rfl, rfl, rfl, rfl, rfl, rfl, rfl, ht⟩

end Host

end Neptun.Device
