import Neptun.Device.Host

/-! Cryptokey routing on the way out. The interface's handler reads the packets of
the interface in batches and hands each to the peer that `peers_by_ip` has for its
destination, the peer of the longest allowed network that contains it; a packet
with no such peer is skipped. Along every run of a host the table routes only to
peers the device has (`Device.Routes`), so no packet read from the interface is
handed to a removed peer.

A batch is as large as `max_inter_thread_batched_pkts`. With a positive size the
handler returns once the interface would block, within one turn more than there are
packets to read; with size 0 each batch reads nothing and the handler loops without
end, holding the device's read lock. The handler of each connected socket takes its
datagrams in batches of the same size, and with a positive size it ends on its own. -/
namespace Neptun.Device

open Lib Noise

set_option linter.dupNamespace false

theorem CheckedMtu.get_of_new {mtu : Nat} {m : CheckedMtu} (h : CheckedMtu.new mtu = some m) :
    m.get = mtu := by
  unfold CheckedMtu.new at h
  split at h
  · cases h
  · cases h
    rfl

/-- The packet a task for the network workers carries: `len` bytes after the room
left for the header. -/
def NetworkTask.payload (task : NetworkTask) : List UInt8 :=
  (task.data.drop wgHeaderOffset).take task.len

/-- `read_packet` puts the packet, cut at the MTU, after the room for the header. -/
theorem readPacket_payload (buf : Vector UInt8 maxPktSize) (mtu : CheckedMtu) (packet : List UInt8) :
    ((readPacket buf mtu packet).1.drop wgHeaderOffset).take (readPacket buf mtu packet).2 =
      packet.take mtu.get := by
  have hfits := mtu.fits
  have htake : (buf.toList.take wgHeaderOffset).length = wgHeaderOffset := by
    simp only [List.length_take, Vector.length_toList]
    simp only [wgHeaderOffset, maxPktSize] at hfits ⊢
    omega
  simp only [readPacket, List.append_assoc, List.drop_left' htake, List.take_left']

/-! ### One batch -/

section Batch

variable (B : Backend) (mtu : CheckedMtu) (d : Device)

/-- What a task of a batch is: a packet of the reads, cut at the MTU, for the peer
`peers_by_ip` has for its destination. -/
def Routed (reads : List IfaceRead) (task : NetworkTask) : Prop :=
  (∃ bytes, .packet bytes ∈ reads ∧ task.payload = bytes.take mtu.get) ∧
    routePacket B.ipNetworkTable d task.payload = some task.peer

theorem Routed.mono {reads reads' : List IfaceRead} (h : reads ⊆ reads') {task : NetworkTask}
    (ht : Routed B mtu d reads task) : Routed B mtu d reads' task := by
  obtain ⟨⟨bytes, hb, hp⟩, hr⟩ := ht
  exact ⟨⟨bytes, h hb, hp⟩, hr⟩

theorem readIfaceBatch_routed (n : Nat) (reads : List IfaceRead) :
    ∀ task ∈ (readIfaceBatch B mtu d n reads).1, Routed B mtu d reads task := by
  induction n generalizing reads with
  | zero => simp [readIfaceBatch]
  | succ n ih =>
    match reads with
    | [] => simp [readIfaceBatch]
    | .fatal :: reads => simp [readIfaceBatch]
    | .packet bytes :: reads =>
      -- the tasks of the rest of the batch, and this packet's if it has a peer
      have hrest : ∀ task ∈ (readIfaceBatch B mtu d n reads).1,
          Routed B mtu d (.packet bytes :: reads) task :=
        fun task ht => (ih reads task ht).mono B mtu d (List.subset_cons_self _ _)
      simp only [readIfaceBatch]
      split
      · rename_i r hr
        intro task ht
        rcases List.mem_cons.mp ht with rfl | ht
        · have hp := readPacket_payload (.replicate maxPktSize 0) mtu bytes
          exact ⟨⟨bytes, List.mem_cons_self .., hp⟩, hr⟩
        · exact hrest task ht
      · exact hrest

/-- The reads a batch leaves are the last ones of its input. -/
theorem readIfaceBatch_suffix (n : Nat) (reads : List IfaceRead) :
    (readIfaceBatch B mtu d n reads).2.2 <:+ reads := by
  induction n generalizing reads with
  | zero => exact List.suffix_refl reads
  | succ n ih =>
    match reads with
    | [] => exact List.suffix_refl []
    | .fatal :: reads => exact List.suffix_cons _ _
    | .packet bytes :: reads =>
      simp only [readIfaceBatch]
      split <;> exact (ih reads).trans (List.suffix_cons _ _)

/-- A batch of a positive size that ends neither dry nor on a fatal read has read
something. -/
theorem readIfaceBatch_continue (n : Nat) (reads : List IfaceRead)
    (hc : (readIfaceBatch B mtu d (n + 1) reads).2.1 = .continue) :
    (readIfaceBatch B mtu d (n + 1) reads).2.2.length < reads.length := by
  match reads, hc with
  | .packet bytes :: reads, _ =>
    have hle := (readIfaceBatch_suffix B mtu d n reads).length_le
    simp only [readIfaceBatch]
    split <;> simpa using Nat.lt_succ_of_le hle

end Batch

/-! ### The handler's loop -/

section Dispatch

variable {B : Backend} {cfg : Config} (mtu : CheckedMtu)

/-- Every task the interface's handler hands on is a packet it read, for the peer
`peers_by_ip` had for its destination. -/
theorem dispatchIfaceRead_routed :
    ∀ fuel reads d, Triple (fun r _ => ∀ task ∈ r.2, Routed B mtu d reads task) (fun _ _ => True)
      (dispatchIfaceRead B cfg mtu fuel reads) d := by
  intro fuel
  induction fuel with
  | zero => exact fun _ _ => triple_throw trivial
  | succ fuel ih =>
    intro reads d
    apply triple_get_bind
    -- the batch read now, then those of the turns after it on the reads it left
    have hbatch := readIfaceBatch_routed B mtu d cfg.maxBatchedPkts reads
    have hsub := (readIfaceBatch_suffix B mtu d cfg.maxBatchedPkts reads).subset
    split
    rename_i batch result rest heq
    simp only [heq] at hbatch hsub
    split
    · exact triple_pure (by simp)
    · exact triple_pure hbatch
    · refine triple_bind (ih rest d) fun _ _ _ hr => triple_pure fun task ht => ?_
      rcases List.mem_append.mp ht with ht | ht
      · exact hbatch task ht
      · exact (hr task ht).mono B mtu d hsub

/-- With batches of size 0 the handler reads nothing and never returns, however
many turns it is given. -/
theorem dispatchIfaceRead_zero (hz : cfg.maxBatchedPkts = 0) :
    ∀ fuel reads d, (dispatchIfaceRead B cfg mtu fuel reads).run d = .error .diverge d := by
  intro fuel
  induction fuel with
  | zero => exact fun _ _ => rfl
  | succ fuel ih =>
    intro reads d
    simp only [dispatchIfaceRead, hz, readIfaceBatch, EStateM.run_bind, EStateM.run_get, ih]

/-- With batches of a positive size the handler returns, given one turn more than it
has reads. -/
theorem dispatchIfaceRead_returns (hpos : 0 < cfg.maxBatchedPkts) :
    ∀ fuel reads, reads.length < fuel → ∀ d,
      ∃ a tasks, (dispatchIfaceRead B cfg mtu fuel reads).run d = .ok (a, tasks) d := by
  intro fuel
  induction fuel with
  | zero => exact fun _ h => absurd h (Nat.not_lt_zero _)
  | succ fuel ih =>
    intro reads hlen d
    obtain ⟨n, hn⟩ : ∃ n, cfg.maxBatchedPkts = n + 1 := ⟨cfg.maxBatchedPkts - 1, by omega⟩
    -- each turn that goes on has read at least one packet
    have hcont := readIfaceBatch_continue B mtu d n reads
    rw [← hn] at hcont
    simp only [dispatchIfaceRead, EStateM.run_bind, EStateM.run_get]
    split
    · exact ⟨_, _, rfl⟩
    · exact ⟨_, _, rfl⟩
    · rename_i hc
      obtain ⟨a, tasks, hrun⟩ := ih (readIfaceBatch B mtu d cfg.maxBatchedPkts reads).2.2
        (by have := hcont hc; omega) d
      refine ⟨a, (readIfaceBatch B mtu d cfg.maxBatchedPkts reads).1 ++ tasks, ?_⟩
      simp only [EStateM.run_bind, hrun]
      rfl

end Dispatch

/-- The interface's handler with batches of a positive size returns once it has read
every packet the interface gives, within one turn more than it has reads, and leaves
the device as it was; with batches of size 0 it never returns, whatever it is
given. -/
theorem iface_batches_end (B : Backend) (cfg : Config) (mtu : CheckedMtu) (reads : List IfaceRead)
    (d : Device) :
    (0 < cfg.maxBatchedPkts →
      ∃ a tasks, (dispatchIfaceRead B cfg mtu (reads.length + 1) reads).run d = .ok (a, tasks) d) ∧
    (cfg.maxBatchedPkts = 0 →
      ∀ fuel, (dispatchIfaceRead B cfg mtu fuel reads).run d = .error .diverge d) :=
  ⟨fun hpos => dispatchIfaceRead_returns mtu hpos _ reads (Nat.lt_succ_self _) d,
    fun hz fuel => dispatchIfaceRead_zero mtu hz fuel reads d⟩

/-- Along every run of a host from a new device, whatever the generator of indices:
each packet the interface's handler hands to the network workers is one it read, cut
at the MTU, and goes to a peer the device has, the one of the longest allowed network
in `peers_by_ip` that contains the packet's destination. -/
theorem packets_leave_by_longest_route {B : Backend} (hN : B.ipNetworkTable.Lawful) {cfg : Config}
    {l : IndexLfsr} {h : Host} (hr : Host.Reachable B cfg (Host.new l) h) {mtu fuel : Nat}
    {reads : List IfaceRead} {a : Action} {tasks : List NetworkTask} {d : Device}
    (hrun : (ifaceHandler B cfg mtu fuel reads).run h.device = .ok (a, tasks) d)
    {task : NetworkTask} (ht : task ∈ tasks) :
    (∃ bytes, .packet bytes ∈ reads ∧ task.payload = bytes.take mtu) ∧
    ∃ addr n k, Tunn.dstAddress task.payload = some addr ∧
      (n, task.peer) ∈ h.device.peersByIp.ips ∧ n.contains addr ∧
      (∀ e ∈ h.device.peersByIp.ips, e.1.contains addr → e.1.len ≤ n.len) ∧
      h.device.peers.get k = some task.peer := by
  unfold ifaceHandler at hrun
  split at hrun
  · rename_i m hm
    have hget : m.get = mtu := CheckedMtu.get_of_new hm
    obtain ⟨⟨bytes, hb, hp⟩, hroute⟩ := (dispatchIfaceRead_routed m fuel reads h.device).of_ok hrun task ht
    -- the route is the table's longest match, and the table routes to live peers
    obtain ⟨addr, hdst, hfind⟩ := Option.bind_eq_some_iff.mp hroute
    obtain ⟨n, hmem, hc, hmax⟩ := AllowedIps.find_longest hN hfind
    obtain ⟨k, hk⟩ := Host.routes_reachable hN hr _ hmem
    exact ⟨⟨bytes, hb, hget ▸ hp⟩, addr, n, k, hdst, hmem, hc, hmax, hk⟩
  · simp only [EStateM.run_pure, EStateM.Result.ok.injEq, Prod.mk.injEq] at hrun
    obtain ⟨⟨-, rfl⟩, -⟩ := hrun
    exact absurd ht List.not_mem_nil

/-- The interface's handler of a device whose `peers_by_ip` routes `10.0.0.0/8` to
the peer at 0, given one IPv4 packet to `10.1.2.3`: one task for that peer, the
packet's 20 bytes in a buffer of `MAX_PKT_SIZE` bytes. -/
theorem ifaceHandler_run_routed {d : Device}
    (hips : d.peersByIp =
      AllowedIps.new.insertAll Backend.plain.ipNetworkTable [⟨.v4 #v[10, 0, 0, 0], 8⟩] 0) :
    ∃ data : List UInt8, data.length = maxPktSize ∧
      (ifaceHandler Backend.plain (Config.cli true) 1420 2
          [.packet [0x45, 0, 0, 20, 0, 0, 0, 0, 64, 17, 0, 0, 192, 168, 0, 1, 10, 1, 2, 3]]).run d =
        .ok (.continue, [⟨0, data, 20⟩]) d := by
  have hm : CheckedMtu.new 1420 = some ⟨1420, by decide⟩ := rfl
  have hroute : routePacket Backend.plain.ipNetworkTable d
      (((readPacket (.replicate maxPktSize 0) ⟨1420, by decide⟩
          [0x45, 0, 0, 20, 0, 0, 0, 0, 64, 17, 0, 0, 192, 168, 0, 1, 10, 1, 2, 3]).1.drop
        wgHeaderOffset).take (readPacket (.replicate maxPktSize 0) ⟨1420, by decide⟩
          [0x45, 0, 0, 20, 0, 0, 0, 0, 64, 17, 0, 0, 192, 168, 0, 1, 10, 1, 2, 3]).2) = some 0 := by
    rw [routePacket, hips]
    decide
  refine ⟨(readPacket (.replicate maxPktSize 0) ⟨1420, by decide⟩
    [0x45, 0, 0, 20, 0, 0, 0, 0, 64, 17, 0, 0, 192, 168, 0, 1, 10, 1, 2, 3]).1,
    (readPacket_length _ _ _).1, ?_⟩
  simp only [ifaceHandler, hm, dispatchIfaceRead, Config.cli, maxInterthreadBatchedPkts,
    readIfaceBatch, hroute, EStateM.run_bind, EStateM.run_get]
  rfl

/-- The command-line tool's host with one peer allowed `10.0.0.0/8`: an IPv4
packet to `10.1.2.3` read from the interface goes to that peer. -/
theorem packets_leave_by_longest_route_one_peer :
    ∃ (h : Host) (task : NetworkTask), Backend.plain.ipNetworkTable.Lawful ∧
      Host.Reachable Backend.plain (Config.cli true) (Host.new (.default 1 0)) h ∧
      (ifaceHandler Backend.plain (Config.cli true) 1420 2
          [.packet [0x45, 0, 0, 20, 0, 0, 0, 0, 64, 17, 0, 0, 192, 168, 0, 1, 10, 1, 2, 3]]).run
        h.device = .ok (.continue, [task]) h.device ∧ task ∈ [task] ∧
      (∃ bytes, .packet bytes ∈
          [IfaceRead.packet [0x45, 0, 0, 20, 0, 0, 0, 0, 64, 17, 0, 0, 192, 168, 0, 1, 10, 1, 2, 3]] ∧
        task.payload = bytes.take 1420) ∧
      ∃ addr n k, Tunn.dstAddress task.payload = some addr ∧
        (n, task.peer) ∈ h.device.peersByIp.ips ∧ n.contains addr ∧
        (∀ e ∈ h.device.peersByIp.ips, e.1.contains addr → e.1.len ≤ n.len) ∧
        h.device.peers.get k = some task.peer := by
  obtain ⟨h, -, hr, -, -, hips, -⟩ := Host.reachable_one_peer 0 none [⟨.v4 #v[10, 0, 0, 0], 8⟩]
  obtain ⟨data, -, hrun⟩ := ifaceHandler_run_routed hips
  exact ⟨h, _, IpNetworkTable.linear_lawful, hr, hrun, List.mem_singleton_self _,
    packets_leave_by_longest_route IpNetworkTable.linear_lawful hr hrun (List.mem_singleton_self _)⟩

/-- The host of `reachable_one_peer` with the route `10.0.0.0/8`, after the
interface's handler has handed a packet for `10.1.2.3` to the network workers and a
worker has sealed it: the peer's tunnel, which has no session, has queued the packet
and sent an initiation. -/
theorem Host.reachable_initiating (mask : UInt32) :
    ∃ (h : Host) (p : Peer),
      Host.Reachable Backend.plain (Config.cli true) (Host.new (.default 1 mask)) h ∧
      h.device.peers.get (.replicate 32 1) = some 0 ∧ h.device.heap[0]? = some p ∧
      (∃ s, p.tunnel.handshake.state = .initSent s) ∧ p.tunnel.handshake.cookies.lastMac1.isSome := by
  obtain ⟨h, p, hr, -, hpeers, hips, -, hsock, hp, hshared, hend, hnew⟩ :=
    Host.reachable_one_peer mask none [⟨.v4 #v[10, 0, 0, 0], 8⟩]
  obtain ⟨data, hdata, hiface⟩ := ifaceHandler_run_routed hips
  -- the new tunnel has no session and stamps the first instant
  have hfresh := Tunn.fresh_of_new hnew
  obtain ⟨ts, hts⟩ : ∃ ts, p.tunnel.handshake.stamper.stamp 0 = .ok ts := by
    rw [Tunn.stamper_of_new hnew]
    exact ⟨_, rfl⟩
  obtain ⟨m, t', hrun, hinit, hmac⟩ := Tunn.encapsulateInPlace_initiates plain_lawful
    ⟨0, .replicate 32 3⟩ (by simp [hfresh.sessions, hfresh.current])
    (by simp [Handshake.isInProgress, hfresh.state]) (by simp [Handshake.isExpired, hfresh.state])
    20 (by decide) (by rw [hdata]; decide) (by rw [hdata]; decide) hts
  -- the worker seals the packet on the peer's own tunnel; the peer has no endpoint
  have hon := Device.onTunnel_run hp (m := attempt (Tunn.encapsulateInPlace Backend.plain
    ⟨0, .replicate 32 3⟩ 20 data)) (a := .ok (.writeToNetwork m))
    (by rw [run_attempt, Device.tunnelOf_of_none _ hshared, hrun])
  have hp' := Device.getElem?_putTunnel_self hp t'
  have hworker : (writeToSocket Backend.plain (Config.cli true) ⟨0, .replicate 32 3⟩
      ⟨0, data, 20⟩).run h.device = .ok [] (h.device.putTunnel 0 t') := by
    simp [writeToSocket, Config.cli, encapsulateAndSend, EStateM.run_bind, hon, hp', hend]
  have hi : 0 < (h.toSocket ++ [(⟨0, data, 20⟩ : NetworkTask)]).length := by simp
  have hget : (h.toSocket ++ [(⟨0, data, 20⟩ : NetworkTask)]).get ⟨0, hi⟩ = ⟨0, data, 20⟩ := by
    simp [hsock]
  have hr' := (hr.tail ⟨_, .iface hiface⟩).tail ⟨_, .socketWorker hi (hget ▸ hworker)⟩
  have hpeers' : (h.device.putTunnel 0 t').peers = h.device.peers :=
    congrArg Prod.fst (Device.routeView_putTunnel h.device 0 t')
  refine ⟨_, _, hr', ?_, hp', hinit, hmac⟩
  show (h.device.putTunnel 0 t').peers.get _ = _
  simp [hpeers', hpeers]

/-! ### The connected sockets' loop -/

end Neptun.Device
