import Neptun.Device.Lfsr
import Neptun.Device.Table
import Neptun.Lib.Map
import Neptun.Lib.Run
import Neptun.Noise.Basic

/-! The peers of a device. A peer is shared between three tables: `peers` by public
key, `peers_by_idx` by the index its tunnel's sessions are numbered from, and
`peers_by_ip` by the networks it routes. The tables hold `Arc<Peer>`s; here they
hold references into a heap of peers, and two entries point to one peer when they
hold the same reference, as `Arc::ptr_eq` compares them. What a peer changes
through one table the others see. The `Arc<RateLimiter>` that `set_key` makes is
shared in the same way: the device keeps the rate limiters in a heap of their own,
and the device and each tunnel `set_key` gave one to hold its reference. A tunnel
that holds one works on it in place of its own. The sockets the device opens and
closes are not modelled: an operation that makes system calls reads their outcome
from its environment. -/
namespace Neptun.Device

open Lib Noise

set_option linter.dupNamespace false

/-- `std::net::SocketAddr`; the flow and scope of a v6 address are left out. -/
structure SocketAddr where
  ip : IpAddr
  port : UInt16
  deriving DecidableEq, Repr

structure Peer where
  tunnel : Tunn
  /-- the device's rate limiter that `set_key` gave the tunnel, by reference; none
  while the tunnel has its own -/
  sharedLimiter : Option Nat
  index : UInt32
  endpoint : Option SocketAddr
  allowedIps : AllowedIps Unit
  presharedKey : Option Key

namespace Peer

variable (N : IpNetworkTable)

def new (tunnel : Tunn) (index : UInt32) (endpoint : Option SocketAddr)
    (allowedIps : List AllowedIP) (presharedKey : Option Key) : Peer where
  tunnel := tunnel
  sharedLimiter := none
  index := index
  endpoint := endpoint
  allowedIps := AllowedIps.ofList N allowedIps ()
  presharedKey := presharedKey

/-- `set_endpoint`; the connected socket it shuts down is not modelled. -/
def setEndpoint (p : Peer) (addr : SocketAddr) : Peer :=
  if p.endpoint = some addr then p else { p with endpoint := some addr }

/-- `is_allowed_ip`: the filter on the source of a packet the peer sent. -/
def isAllowedIp (p : Peer) (addr : IpAddr) : Bool := (p.allowedIps.find N addr).isSome

def addAllowedIps (p : Peer) (newAllowedIps : List AllowedIP) : Peer :=
  { p with allowedIps := p.allowedIps.insertAll N newAllowedIps () }

def setAllowedIps (p : Peer) (allowedIps : List AllowedIP) : Peer :=
  { p with allowedIps := AllowedIps.ofList N allowedIps () }

/-- `set_preshared_key`: the key of all zeros is no key. -/
def setPresharedKey (p : Peer) (key : Key) : Peer :=
  let key := if key = Vector.replicate 32 0 then none else some key
  { p with presharedKey := key, tunnel := p.tunnel.setPresharedKey key }

end Peer

/-- A peer, by reference into the heap. -/
abbrev PeerRef := Nat

/-- The errors of the device operations modelled here: the internal errors of
`new_peer`, and the error of a system call on a socket. -/
inductive Error where
  | internalError (msg : String)
  | socket
  deriving DecidableEq, Repr

structure Device where
  keyPair : Option (Key × Key)
  listenPort : UInt16
  fwmark : Option UInt32
  peers : AssocMap Key PeerRef
  peersByIp : AllowedIps PeerRef
  peersByIdx : AssocMap UInt32 PeerRef
  nextIndex : IndexLfsr
  /-- the device's `Arc<RateLimiter>`, by reference -/
  rateLimiter : Option Nat
  /-- the rate limiters `set_key` made, at their references -/
  limiters : List RateLimiter
  closed : Bool
  /-- the peers the tables point to, at their references -/
  heap : List Peer

/-- What an operation reads from the system: the clocks and the keys drawn from
`OsRng` for a new tunnel or rate limiter, and the outcome of the socket calls. -/
structure Env where
  systemTime : Int
  now : Nat
  secretKey : Vector UInt8 16
  nonceKey : Key
  /-- the port the system gave the new listening sockets, or nothing if a call
  on them failed -/
  listen : Option UInt16
  /-- whether the mark could be set on every socket -/
  markSet : Bool

def handshakeRateLimit : UInt64 := 100

namespace Device

/-- `new_with_iface`, with the index generator `Default` drew. -/
def new (nextIndex : IndexLfsr) : Device where
  keyPair := none
  listenPort := 0
  fwmark := none
  peers := .empty
  peersByIp := .new
  peersByIdx := .empty
  nextIndex := nextIndex
  rateLimiter := none
  limiters := []
  closed := false
  heap := []

def modifyPeer (d : Device) (r : PeerRef) (f : Peer → Peer) : Device :=
  { d with heap := d.heap.modify r f }

/-- The index of the peer at `r`. -/
def indexOf (d : Device) (r : PeerRef) : Option UInt32 := (d.heap[r]?).map (·.index)

/-- The tunnel of `p` as its methods find it: with the rate limiter it shares with
the device in place of its own. -/
def tunnelOf (d : Device) (p : Peer) : Tunn :=
  match p.sharedLimiter.bind (d.limiters[·]?) with
  | some r => { p.tunnel with rateLimiter := r }
  | none => p.tunnel

/-- The tunnel of the peer at `r` written back after a method; what the method did
to a shared rate limiter, the device and the other tunnels that hold it see. -/
def putTunnel (d : Device) (r : PeerRef) (t : Tunn) : Device :=
  match (d.heap[r]?).bind (·.sharedLimiter) with
  | some i =>
    { d.modifyPeer r (fun p => { p with tunnel := t }) with limiters := d.limiters.set i t.rateLimiter }
  | none => d.modifyPeer r fun p => { p with tunnel := t }

/-- Run a method of the tunnel of the peer at `r`, under the peer's lock. -/
def onTunnel {α : Type} (r : PeerRef) (m : EStateM (Fault Error) Tunn α) :
    EStateM (Fault Error) Device (Option α) := do
  match (← get).heap[r]? with
  | some p => some <$> focus (·.tunnelOf p) (·.putTunnel r) m
  | none => pure none

def removePeer (N : IpNetworkTable) (d : Device) (pubKey : Key) : Device :=
  match d.peers.get pubKey with
  | some r =>
    let peersByIdx := match d.heap[r]? with
      | some p => d.peersByIdx.remove p.index
      | none => d.peersByIdx
    { d with
      peers := d.peers.remove pubKey
      peersByIdx := peersByIdx
      peersByIp := d.peersByIp.remove N (· == r) }
  | none => d

def clearPeers (d : Device) : Device :=
  { d with peers := .empty, peersByIdx := .empty, peersByIp := d.peersByIp.clear }

section Operations

variable (B : Backend) (env : Env)

def nextIndexOp : EStateM (Fault Error) Device UInt32 :=
  focus (·.nextIndex) (fun d l => { d with nextIndex := l }) IndexLfsr.next

def newPeer (pubKey : Key) (endpoint : Option SocketAddr) (allowedIps : List AllowedIP)
    (keepalive : Option UInt16) (presharedKey : Option Key) :
    EStateM (Fault Error) Device PeerRef := do
  let nextIndex ← nextIndexOp
  let some (staticPrivate, _) := (← get).keyPair
    | throw (.err (Error.internalError "No device keypair specified for a peer"))
  let tunn ← liftExcept ((Tunn.new B staticPrivate pubKey presharedKey keepalive nextIndex none
    env.systemTime env.now env.secretKey env.nonceKey).mapError
      (Fault.mapErr fun e => Error.internalError ("Failed to create state for peer " ++ e)))
  let peer := Peer.new B.ipNetworkTable tunn nextIndex endpoint allowedIps presharedKey
  let d ← get
  let r := d.heap.length
  set { d with
    heap := d.heap ++ [peer]
    peers := d.peers.insert pubKey r
    peersByIdx := d.peersByIdx.insert nextIndex r
    peersByIp := d.peersByIp.insertAll B.ipNetworkTable allowedIps r }
  pure r

/-- The branch of `update_peer` for a peer the device has, at `r`. -/
def updateExisting (N : IpNetworkTable) (d : Device) (r : PeerRef) (replaceIps : Bool)
    (endpoint : Option SocketAddr) (allowedIps : List AllowedIP) (keepalive : Option UInt16)
    (presharedKey : Option Key) : Device :=
  let d := endpoint.elim d fun endpoint => d.modifyPeer r (·.setEndpoint endpoint)
  let d := if replaceIps then
      { d with peersByIp := d.peersByIp.remove N (· == r) }.modifyPeer r (·.setAllowedIps N allowedIps)
    else d.modifyPeer r (·.addAllowedIps N allowedIps)
  let d := keepalive.elim d fun keepalive =>
    d.modifyPeer r fun p => { p with tunnel := p.tunnel.setPersistentKeepalive keepalive }
  let d := presharedKey.elim d fun presharedKey => d.modifyPeer r (·.setPresharedKey presharedKey)
  { d with peersByIp := d.peersByIp.insertAll N allowedIps r }

def updatePeer (pubKey : Key) (updateOnly remove replaceIps : Bool)
    (endpoint : Option SocketAddr) (allowedIps : List AllowedIP) (keepalive : Option UInt16)
    (presharedKey : Option Key) : EStateM (Fault Error) Device Unit := do
  if remove then
    modify (·.removePeer B.ipNetworkTable pubKey)
    return
  match (← get).peers.get pubKey with
  | some r =>
    modify (·.updateExisting B.ipNetworkTable r replaceIps endpoint allowedIps keepalive presharedKey)
  | none =>
    if updateOnly then return
    discard <| newPeer B env pubKey endpoint allowedIps keepalive presharedKey

/-- `set_key`. The new rate limiter is one `Arc`, at the end of the device's
limiters, that the device and every tunnel of `peers` hold. A tunnel that refuses
the key pair would put its peer in `bad_peers`, which nothing reads. -/
def setKey (privateKey : Key) : EStateM (Fault Error) Device Unit := do
  let publicKey := B.x25519Public privateKey
  let d ← get
  if some publicKey = d.keyPair.map (·.2) then return
  let rateLimiter := RateLimiter.new B publicKey handshakeRateLimit env.secretKey env.nonceKey env.now
  let shared := d.limiters.length
  set { d with limiters := d.limiters ++ [rateLimiter] }
  d.peers.values.forM fun r => do
    -- `Some(Arc::clone(&rate_limiter))` replaces the tunnel's limiter before the key
    modify (·.modifyPeer r fun p => { p with sharedLimiter := some shared })
    discard <| onTunnel r (attempt
      (Tunn.setStaticPrivate B privateKey publicKey (some rateLimiter) env.secretKey env.nonceKey
        env.now))
  modify fun d => { d with keyPair := some (privateKey, publicKey), rateLimiter := some shared }

/-- `open_listen_socket`: the port asked for, or for port 0 the one the system
chose. -/
def openListenSocket (port : UInt16) : EStateM (Fault Error) Device Unit := do
  let some assigned := env.listen | throw (.err .socket)
  let port := if port = 0 then assigned else port
  modify fun d => { d with listenPort := port }

/-- `set_fwmark`: the mark is kept even when setting it on a socket fails. -/
def setFwmark (mark : UInt32) : EStateM (Fault Error) Device Unit := do
  modify fun d => { d with fwmark := some mark }
  if !env.markSet then throw (.err .socket)

end Operations

end Device

/-- The operations the configuration interface makes on a device. -/
inductive Op where
  | updatePeer (pubKey : Key) (updateOnly remove replaceIps : Bool)
      (endpoint : Option SocketAddr) (allowedIps : List AllowedIP) (keepalive : Option UInt16)
      (presharedKey : Option Key)
  | removePeer (pubKey : Key)
  | clearPeers
  | setKey (privateKey : Key)
  | openListenSocket (port : UInt16)
  | setFwmark (mark : UInt32)

def Op.exec (B : Backend) (env : Env) : Op → EStateM (Fault Error) Device Unit
  | .updatePeer pubKey updateOnly remove replaceIps endpoint allowedIps keepalive presharedKey =>
    Device.updatePeer B env pubKey updateOnly remove replaceIps endpoint allowedIps keepalive
      presharedKey
  | .removePeer pubKey => modify (·.removePeer B.ipNetworkTable pubKey)
  | .clearPeers => modify Device.clearPeers
  | .setKey privateKey => Device.setKey B env privateKey
  | .openListenSocket port => Device.openListenSocket env port
  | .setFwmark mark => Device.setFwmark env mark

/-- One operation, with what it read from the system. An operation that fails
with an error is reported to the caller, and the device goes on from the state it
left; a panic ends the thread that holds the device. -/
def Step (B : Backend) (d d' : Device) : Prop :=
  ∃ (env : Env) (op : Op), (∃ a, (op.exec B env).run d = .ok a d') ∨
    ∃ e, (op.exec B env).run d = .error (.err e) d'

def Reachable (B : Backend) : Device → Device → Prop := Relation.ReflTransGen (Step B)

end Neptun.Device
