import Neptun.Device.Mtu
import Neptun.Device.Peers
import Neptun.Noise.Methods

/-! The traffic of a device, as its Linux build moves it. The event loops run the
handler of the listening socket, of each peer's connected socket, of the tunnel
interface and of the timers, each holding the device's read lock; two kinds of
worker threads take what the loops hand them over channels and hold no lock of the
device. The listening socket's handler verifies each datagram with the device's
rate limiter, finds its peer by the static key of an initiation or by the upper 24
bits of a receiver index, and gives it to the peer's tunnel. The interface's handler
reads packets, finds each one's peer in `peers_by_ip`, and hands them in batches
to the workers that seal and send them. What the system calls give back, the
datagrams, the packets and the clocks and keys the tunnel calls read, is input
here; what the handlers send and write is their output. -/
namespace Neptun.Noise.Tunn

open Lib

def ipv4DstIpOff : Nat := 16
def ipv6DstIpOff : Nat := 24

/-- `Tunn::dst_address`: the destination of a packet read from the interface. -/
def dstAddress (packet : List UInt8) : Option IpAddr := do
  let first ← packet.head?
  if first >>> 4 = 4 ∧ ipv4MinHeaderSize ≤ packet.length then
    let addrBytes ← tryIntoArray (← getRange packet ipv4DstIpOff (ipv4DstIpOff + ipv4IpSz)) 4
    pure (.v4 addrBytes)
  else if first >>> 4 = 6 ∧ ipv6MinHeaderSize ≤ packet.length then
    let addrBytes ← tryIntoArray (← getRange packet ipv6DstIpOff (ipv6DstIpOff + ipv6IpSz)) 16
    pure (.v6 addrBytes)
  else none

end Neptun.Noise.Tunn

namespace Neptun.Device

open Lib Noise

set_option linter.dupNamespace false

def maxItr : Nat := 100
def maxInterthreadBatchedPkts : Nat := 50

/-- The fields of `DeviceConfig` the handlers read. The firewall callbacks are given
the peer's public key and the packet, which they may rewrite in place but not
resize; the outbound one may also write packets to the tunnel interface. -/
structure Config where
  useConnectedSocket : Bool
  firewallProcessInboundCallback : Option (Key → List UInt8 → Bool × List UInt8)
  firewallProcessOutboundCallback :
    Option (Key → List UInt8 → Bool × List UInt8 × List (List UInt8))
  /-- `max_inter_thread_batched_pkts`, or `MAX_INTERTHREAD_BATCHED_PKTS` without one -/
  maxBatchedPkts : Nat
  inbound_length : ∀ f ∈ firewallProcessInboundCallback, ∀ k p, (f k p).2.length = p.length
  outbound_length : ∀ f ∈ firewallProcessOutboundCallback, ∀ k p, (f k p).2.1.length = p.length

/-- The configuration the command-line tool builds: no firewall callbacks and the
default batch size. -/
def Config.cli (useConnectedSocket : Bool) : Config where
  useConnectedSocket := useConnectedSocket
  firewallProcessInboundCallback := none
  firewallProcessOutboundCallback := none
  maxBatchedPkts := maxInterthreadBatchedPkts
  inbound_length := by simp
  outbound_length := by simp

/-- What a handler asks of the system: a datagram sent to an address, from the
listening socket or from the peer's connected one, or a packet written to the
tunnel interface. -/
inductive Output where
  | send (addr : SocketAddr) (packet : List UInt8)
  | write (packet : List UInt8)
  deriving DecidableEq, Repr

/-- What the event loop does after a handler; the handlers modelled never yield. -/
inductive Action where
  | continue
  | exit
  deriving DecidableEq, Repr

/-- A datagram as a socket gives it, with what the tunnel calls made on it read from
the system: the clock and ephemeral key of the call that receives it, and of each
turn of the flush that may follow. -/
structure Received where
  bytes : List UInt8
  env : CallEnv
  flush : List CallEnv

/-- A datagram on the listening socket, with its source. -/
structure Datagram extends Received where
  src : SocketAddr

/-- A decrypted packet on its way to the worker that writes to the interface. -/
structure TunnelTask where
  peer : PeerRef
  addr : IpAddr
  packet : List UInt8

/-- A packet read from the interface on its way to a worker that seals and sends
it: the buffer of `MAX_PKT_SIZE` bytes, with the payload of length `len` at
`WG_HEADER_OFFSET`. -/
structure NetworkTask where
  peer : PeerRef
  data : List UInt8
  len : Nat

/-- What a read of the interface gives: a packet, or an error other than
`WouldBlock` or `Interrupted`. A read that would block ends the input. -/
inductive IfaceRead where
  | packet (bytes : List UInt8)
  | fatal

inductive BatchResult where
  | continue
  | exhausted
  | fatal
  deriving DecidableEq, Repr

/-- `peer.public_key.0`, which `Peer::new` takes from the tunnel. -/
def Peer.publicKey (p : Peer) : Key := p.tunnel.peerStaticPublic

/-- A decrypted packet from the peer `p` with source `addr`: the inbound callback may
rewrite it or drop it (`none`, the `continue` of the loops), and it is written to the
interface when `addr` is an allowed IP of the peer. -/
def inboundOutputs (cfg : Config) (N : IpNetworkTable) (p : Peer) (packet : List UInt8)
    (addr : IpAddr) :
    Option (List Output) :=
  let (pass, packet) := match cfg.firewallProcessInboundCallback with
    | some callback => callback p.publicKey packet
    | none => (true, packet)
  if !pass then none
  else if p.isAllowedIp N addr then some [.write packet] else some []

/-- The peer `read_packet` hands a payload to: the one `peers_by_ip` has for its
destination, or `none` for `Skip`. -/
def routePacket (N : IpNetworkTable) (d : Device) (payload : List UInt8) : Option PeerRef :=
  (Tunn.dstAddress payload).bind (d.peersByIp.find N)

section Handlers

variable (B : Backend) (cfg : Config)

/-- The peer a verified packet is for: the one whose public key the static key of an
initiation opens to, or the one `peers_by_idx` has for the upper 24 bits of the
receiver's index. -/
def peerFor (sk pk : Key) (d : Device) : Packet → Option PeerRef
  | .handshakeInit p =>
    match parseHandshakeAnon B sk pk p with
    | .ok (_, peerStaticPublic) => (tryIntoArray peerStaticPublic 32).bind d.peers.get
    | .error _ => none
  | .handshakeResponse p => d.peersByIdx.get (p.receiverIdx >>> 8)
  | .packetCookieReply p => d.peersByIdx.get (p.receiverIdx >>> 8)
  | .packetData p => d.peersByIdx.get (p.receiverIdx >>> 8)

/-- The check of a datagram before its peer is looked up: the device's rate limiter
verifies its MACs and may answer with a cookie; without one it is only parsed. The
packet, or none with what is sent before the handler goes on to the next datagram. -/
def verifyDatagram (src : SocketAddr) (packet dst : List UInt8) (now : Nat) :
    EStateM (Fault Error) Device (Option Packet × List Output) := do
  let d ← get
  match d.rateLimiter.bind fun i => (d.limiters[i]?).map (i, ·) with
  | some (i, r) =>
    -- the count goes to the limiter the device shares with the tunnels
    let verified ← focus (fun _ => r) (fun d r => { d with limiters := d.limiters.set i r })
      (attempt (RateLimiter.verifyPacket B (some src.ip) packet dst now))
    match verified with
    | .ok parsed => pure (some parsed, [])
    | .error (.writeToNetwork cookie) => pure (none, [.send src cookie])
    | .error _ => pure (none, [])
  | none =>
    let parsed : Except WireGuardError Packet ←
      attempt (liftExcept (Tunn.parseIncomingPacket packet))
    match parsed with
    | .ok parsed => pure (some parsed, [])
    | .error _ => pure (none, [])

/-- The loop that flushes the queue of the peer at `r` after it sent something: call
`decapsulate(None, &[], dst)` while it returns `WriteToNetwork`, sending each to
`addr`. The loop has no bound of its own: it is given the clock and key of each
turn, and diverges when they run out. -/
def flushTo (r : PeerRef) (addr : SocketAddr) (dst : List UInt8) :
    List CallEnv → EStateM (Fault Error) Device (List Output)
  | [] => throw .diverge
  | env :: envs => do
    match ← Device.onTunnel r (attempt (Tunn.decapsulate B env none [] dst)) with
    | some (.ok (.writeToNetwork packet)) => (.send addr packet :: ·) <$> flushTo r addr dst envs
    | _ => pure []

/-- What the listening socket's handler does with what the tunnel of the peer at `r`
returned for a datagram from `src`: whether to flush the peer's queue, and what to
send or write; `none` is the `continue` of an error or of a packet the inbound
callback refused. -/
def resultOutputs (d : Device) (r : PeerRef) (src : SocketAddr) :
    Except WireGuardError TunnResult → Option (Bool × List Output)
  | .ok .done => some (false, [])
  | .ok (.writeToNetwork packet) => some (true, [.send src packet])
  | .ok (.writeToTunnel packet addr) =>
    match d.heap[r]? with
    | some p => (inboundOutputs cfg B.ipNetworkTable p packet addr).map ((false, ·))
    | none => some (false, [])
  | .ok (.err _) => none
  | .error _ => none

/-- The body of the loop of the listening socket's handler, for one datagram: whether
it counts towards `MAX_ITR` (one that ends in `continue` does not), what it sends
and writes, and the peer whose endpoint it connects a socket to. `recv_from` reads
at most `MAX_PKT_SIZE` bytes of it. -/
def udpDatagram (sk pk : Key) (dst : List UInt8) (g : Datagram) :
    EStateM (Fault Error) Device (Bool × List Output × Option (PeerRef × SocketAddr)) := do
  let packet := g.bytes.take maxPktSize
  let (parsed, sent) ← verifyDatagram B g.src packet dst g.env.now
  let some parsed := parsed | pure (false, sent, none)
  let some r := peerFor B sk pk (← get) parsed | pure (false, [], none)
  let some res ← Device.onTunnel r (attempt (Tunn.handleVerifiedPacket B g.env parsed dst))
    | pure (false, [], none)
  let some (flush, out) := resultOutputs B cfg (← get) r g.src res | pure (false, [], none)
  let flushed ← (if flush then flushTo B r g.src dst g.flush else pure [])
  -- the datagram was for this peer: its source becomes the peer's endpoint
  modify (·.modifyPeer r (·.setEndpoint g.src))
  pure (true, out ++ flushed, if cfg.useConnectedSocket then some (r, g.src) else none)

/-- The loop of the listening socket's handler over the datagrams `recv_from` gives,
until it would block or `iter` datagrams have reached the end of the body: the
outputs, and the connected sockets opened. -/
def udpLoop (sk pk : Key) (dst : List UInt8) :
    Nat → List Datagram → EStateM (Fault Error) Device (List Output × List (PeerRef × SocketAddr))
  | _, [] => pure ([], [])
  | iter, g :: gs => do
    let (counted, out, conn) ← udpDatagram B cfg sk pk dst g
    let rest ← (if counted then
        (if iter - 1 = 0 then pure ([], []) else udpLoop sk pk dst (iter - 1) gs)
      else udpLoop sk pk dst iter gs)
    pure (out ++ rest.1, conn.toList ++ rest.2)

/-- The handler of the listening socket. -/
def udpHandler (dst : List UInt8) (gs : List Datagram) :
    EStateM (Fault Error) Device (Action × List Output × List (PeerRef × SocketAddr)) := do
  let some (sk, pk) := (← get).keyPair | pure (.exit, [], [])
  let (out, conns) ← udpLoop B cfg sk pk dst maxItr gs
  pure (.continue, out, conns)

/-- A datagram on the socket connected to the peer at `r`, at `sock`: the tunnel
decapsulates it into a zeroed buffer; what it answers is sent back, and a decrypted
packet goes to the interface's worker. -/
def connDatagram (r : PeerRef) (sock : SocketAddr) (g : Received) :
    EStateM (Fault Error) Device (List Output × List TunnelTask) := do
  let buffer := List.replicate maxPktSize 0
  match ← Device.onTunnel r (attempt (Tunn.decapsulate B g.env (some sock.ip) (g.bytes.take maxPktSize)
      buffer)) with
  | some (.ok (.writeToNetwork packet)) =>
    let flushed ← flushTo B r sock buffer g.flush
    pure (.send sock packet :: flushed, [])
  | some (.ok (.writeToTunnel packet addr)) => pure ([], [⟨r, addr, packet⟩])
  | _ => pure ([], [])

/-- One batch of the connected socket's handler: up to `n` datagrams, those left,
and whether the socket ran dry. -/
def connBatch (r : PeerRef) (sock : SocketAddr) :
    Nat → List Received →
      EStateM (Fault Error) Device (List Output × List TunnelTask × List Received × Bool)
  | 0, gs => pure ([], [], gs, false)
  | _ + 1, [] => pure ([], [], [], true)
  | n + 1, g :: gs => do
    let (out, tasks) ← connDatagram B r sock g
    let (out', tasks', rest, dry) ← connBatch r sock n gs
    pure (out ++ out', tasks ++ tasks', rest, dry)

/-- The handler of the socket connected to the peer at `r`: batches of at most
`max_inter_thread_batched_pkts` datagrams, each handed to the interface's worker,
until the socket runs dry. Its loop has no bound of its own: `fuel` turns. -/
def connHandler (r : PeerRef) (sock : SocketAddr) :
    Nat → List Received → EStateM (Fault Error) Device (List Output × List TunnelTask)
  | 0, _ => throw .diverge
  | fuel + 1, gs => do
    let (out, batch, rest, dry) ← connBatch B r sock cfg.maxBatchedPkts gs
    if dry then pure (out, batch)
    else
      let (out', tasks) ← connHandler r sock fuel rest
      pure (out ++ out', batch ++ tasks)

/-- `read_iface_batch`: up to `n` reads, each into a zeroed buffer, the packets
that have a peer kept; the reads left. -/
def readIfaceBatch (mtu : CheckedMtu) (d : Device) :
    Nat → List IfaceRead → List NetworkTask × BatchResult × List IfaceRead
  | 0, reads => ([], .continue, reads)
  | _ + 1, [] => ([], .exhausted, [])
  | _ + 1, .fatal :: reads => ([], .fatal, reads)
  | n + 1, .packet bytes :: reads =>
    let (buf, len) := readPacket (.replicate maxPktSize 0) mtu bytes
    let (tasks, result, rest) := readIfaceBatch mtu d n reads
    match routePacket B.ipNetworkTable d ((buf.drop wgHeaderOffset).take len) with
    | some r => (⟨r, buf, len⟩ :: tasks, result, rest)
    | none => (tasks, result, rest)

/-- `dispatch_iface_read`: batches handed to the workers until the interface would
block; a fatal read drops the batch it ends. Its loop has no bound of its own:
`fuel` turns. -/
def dispatchIfaceRead (mtu : CheckedMtu) :
    Nat → List IfaceRead → EStateM (Fault Error) Device (Action × List NetworkTask)
  | 0, _ => throw .diverge
  | fuel + 1, reads => do
    let (batch, result, rest) := readIfaceBatch B mtu (← get) cfg.maxBatchedPkts reads
    match result with
    | .fatal => pure (.exit, [])
    | .exhausted => pure (.continue, batch)
    | .continue =>
      let (action, tasks) ← dispatchIfaceRead mtu fuel rest
      pure (action, batch ++ tasks)

/-- The handler of the tunnel interface, at the device's MTU. -/
def ifaceHandler (mtu fuel : Nat) (reads : List IfaceRead) :
    EStateM (Fault Error) Device (Action × List NetworkTask) :=
  match CheckedMtu.new mtu with
  | some m => dispatchIfaceRead B cfg m fuel reads
  | none => pure (.exit, [])

/-- `encapsulate_and_send`: the tunnel of the peer at `r` seals the payload in place,
and the datagram goes to the peer's endpoint. -/
def encapsulateAndSend (env : CallEnv) (r : PeerRef) (buf : List UInt8) (payloadLen : Nat) :
    EStateM (Fault Error) Device (List Output) := do
  match ← Device.onTunnel r (attempt (Tunn.encapsulateInPlace B env payloadLen buf)) with
  | some (.ok (.writeToNetwork packet)) =>
    match ((← get).heap[r]?).bind (·.endpoint) with
    | some addr => pure [.send addr packet]
    | none => pure []
  | _ => pure []

/-- `write_to_socket_worker`, for one task: the outbound callback may rewrite the
payload, drop it, or write to the interface; then the packet is sealed and sent. -/
def writeToSocket (env : CallEnv) (task : NetworkTask) :
    EStateM (Fault Error) Device (List Output) := do
  match cfg.firewallProcessOutboundCallback with
  | some callback =>
    let some p := (← get).heap[task.peer]? | pure []
    let some payload := getRange task.data wgHeaderOffset (task.len + wgHeaderOffset) | pure []
    let (pass, payload, written) := callback p.publicKey payload
    if !pass then return written.map .write
    let data := task.data.take wgHeaderOffset ++ payload ++ task.data.drop (task.len + wgHeaderOffset)
    (written.map .write ++ ·) <$> encapsulateAndSend B env task.peer data task.len
  | none => encapsulateAndSend B env task.peer task.data task.len

/-- `write_to_tun_worker`, for one task. -/
def writeToTun (task : TunnelTask) (d : Device) : List Output :=
  match d.heap[task.peer]? with
  | some p => (inboundOutputs cfg B.ipNetworkTable p task.packet task.addr).getD []
  | none => []

/-- The timers of the peer at `r`, with its clock: a peer without an endpoint is
passed over, and what the tunnel sends goes to the endpoint. An expired connection
shuts down the peer's connected socket, which is not modelled. -/
def peerTimer (dst : List UInt8) (env : CallEnv) (r : PeerRef) :
    EStateM (Fault Error) Device (List Output) := do
  match ((← get).heap[r]?).bind (·.endpoint) with
  | none => pure []
  | some addr =>
    match ← Device.onTunnel r (attempt (Tunn.updateTimers B env dst)) with
    | some (.ok (.writeToNetwork packet)) => pure [.send addr packet]
    | _ => pure []

/-- The timers of the peers at `rs` in turn, each with its clock. -/
def peerTimers (dst : List UInt8) (env : PeerRef → CallEnv) :
    List PeerRef → EStateM (Fault Error) Device (List Output)
  | [] => pure []
  | r :: rs => do
    let out ← peerTimer B dst (env r) r
    (out ++ ·) <$> peerTimers dst env rs

/-- The handler run every 250 ms, when the device has its two listening sockets. -/
def timersHandler (sockets : Bool) (dst : List UInt8) (env : PeerRef → CallEnv) :
    EStateM (Fault Error) Device (List Output) := do
  if !sockets then return []
  peerTimers B dst env (← get).peers.values

end Handlers

/-- The handler run every second: the device's rate limiter counts again, for the
device and for every tunnel that shares it. -/
def resetRateLimiter (now : Nat) (d : Device) : Device :=
  d.rateLimiter.elim d fun i => { d with limiters := d.limiters.modify i (·.resetCount now) }

end Neptun.Device
