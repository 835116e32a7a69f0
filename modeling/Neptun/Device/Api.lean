import Neptun.Device.Peers
import Neptun.Serialization

/-! The configuration interface of `api.rs`, the text protocol of the control
socket. A client writes `get=1` or `set=1` on a line of its own. A `set=1` is
followed by lines `key=value`: the device's keys first, then a section for each
peer, opened by its `public_key` line, up to an empty line or the end of the
stream. A device key takes effect as it is read; a section is committed by one
`update_peer` when the next section or the end of the command is read, and a line
that fails ends the command with its error after what came before it took effect.

The stream is the list of what `read_line` returns, each line with its newline but
perhaps the last. The `FromStr` implementations of the standard library are
parameters. `try_writeable` always runs its function, so the `EIO` that `api_set`
answers when it does not is never answered. -/
namespace Neptun.Device

open Lib Noise

set_option linter.dupNamespace false

/-! ### Text -/

/-- The `errno` values the interface answers with, as `libc` has them on Linux. -/
def enoent : Nat := 2
def eio : Nat := 5
def einval : Nat := 22
def eproto : Nat := 71
def eaddrinuse : Nat := 98

/-- The `FromStr` implementations of the standard library that the interface
calls, each `none` where it returns an error, and the `base64` engine that
`KeyBytes::from_str` falls back to. -/
structure Parsers where
  u8 : List Char → Option UInt8
  u16 : List Char → Option UInt16
  u32 : List Char → Option UInt32
  ipAddr : List Char → Option IpAddr
  socketAddr : List Char → Option SocketAddr
  base64 : Base64

/-- The `Display` implementations of the standard library for the values the
interface writes. -/
structure Printers where
  u8 : UInt8 → List Char
  u16 : UInt16 → List Char
  u32 : UInt32 → List Char
  u64 : UInt64 → List Char
  i32 : Int → List Char
  ipAddr : IpAddr → List Char
  socketAddr : SocketAddr → List Char

/-- The line `key=value` that `writeln!` writes, and that a client writes. -/
def keyLine (key value : List Char) : List Char := key ++ '=' :: value ++ ['\n']

/-- `char::is_whitespace`: the characters of Unicode's `White_Space` property. -/
def isWhitespace (c : Char) : Bool :=
  let n := c.toNat
  (0x09 ≤ n && n ≤ 0x0D) || n == 0x20 || n == 0x85 || n == 0xA0 || n == 0x1680 ||
    (0x2000 ≤ n && n ≤ 0x200A) || n == 0x2028 || n == 0x2029 || n == 0x202F || n == 0x205F ||
    n == 0x3000

/-- `str::trim_end`. -/
def trimEnd (s : List Char) : List Char := s.rdropWhile isWhitespace

/-- A line that does not end in white space loses only its newline. -/
theorem trimEnd_line {s : List Char} (h : ∀ hs : s ≠ [], isWhitespace (s.getLast hs) = false) :
    trimEnd (s ++ ['\n']) = s := by
  rw [trimEnd, List.rdropWhile_concat_pos _ _ _ rfl, List.rdropWhile_eq_self_iff]
  intro hs
  simp [h hs]

/-- `bool::from_str`. -/
def boolFromStr (s : List Char) : Option Bool :=
  if s = "true".toList then some true else if s = "false".toList then some false else none

/-- `s.splitn(2, c)` when it gives two parts: what stands before the first `c`,
and all that follows it. -/
def splitOnce {α : Type} [DecidableEq α] (c : α) : List α → Option (List α × List α)
  | [] => none
  | x :: xs => if x = c then some ([], xs) else (splitOnce c xs).map fun (k, v) => (x :: k, v)

theorem splitOnce_append_cons {α : Type} [DecidableEq α] {c : α} {a : List α} (h : c ∉ a)
    (b : List α) : splitOnce c (a ++ c :: b) = some (a, b) := by
  induction a with
  | nil => simp [splitOnce]
  | cons x a ih =>
    have hx : x ≠ c := fun hx => h (hx ▸ List.mem_cons_self)
    simp [splitOnce, hx, ih (fun hc => h (List.mem_cons_of_mem _ hc))]

theorem splitOnce_of_not_mem {α : Type} [DecidableEq α] {c : α} {a : List α} (h : c ∉ a) :
    splitOnce c a = none := by
  induction a with
  | nil => rfl
  | cons x a ih =>
    have hx : x ≠ c := fun hx => h (hx ▸ List.mem_cons_self)
    simp [splitOnce, hx, ih (fun hc => h (List.mem_cons_of_mem _ hc))]

/-- `s.split(c)` of two parts without `c`. -/
theorem splitOn_append_cons {a b : List Char} {c : Char} (ha : c ∉ a) (hb : c ∉ b) :
    (a ++ c :: b).splitOn c = [a, b] := by
  have hnot : ∀ l : List Char, c ∉ l → ∀ x ∈ l, (x == c) = false := fun l hl x hx => by
    have : x ≠ c := fun h => hl (h ▸ hx)
    simpa using this
  rw [List.splitOn, List.splitOnP_append_cons_of_forall_mem (hnot a ha) c (by simp),
    List.splitOnP_eq_singleton (hnot b hb)]

/-- `AllowedIP::from_str`. -/
def AllowedIP.fromStr (P : Parsers) (s : List Char) : Except String AllowedIP :=
  match s.splitOn '/' with
  | [addr, cidr] =>
    match P.ipAddr addr, P.u8 cidr with
    | some (.v4 o), some cidr =>
      if cidr ≤ 32 then .ok ⟨.v4 o, cidr⟩ else .error "Invalid IP format"
    | some (.v6 o), some cidr =>
      if cidr ≤ 128 then .ok ⟨.v6 o, cidr⟩ else .error "Invalid IP format"
    | _, _ => .error "Invalid IP format"
  | _ => .error "Invalid IP format"

/-- The keys `api_set` reads before the first peer section. -/
inductive DeviceKey where
  | privateKey
  | listenPort
  | fwmark
  | replacePeers
  | publicKey
  deriving DecidableEq, Repr

def DeviceKey.text : DeviceKey → List Char
  | .privateKey => "private_key".toList
  | .listenPort => "listen_port".toList
  | .fwmark => "fwmark".toList
  | .replacePeers => "replace_peers".toList
  | .publicKey => "public_key".toList

/-- The arm of `api_set`'s `match key` that a key selects. -/
def DeviceKey.ofText (key : List Char) : Option DeviceKey :=
  [.privateKey, .listenPort, .fwmark, .replacePeers, .publicKey].find? (·.text == key)

@[simp] theorem DeviceKey.ofText_text (k : DeviceKey) : DeviceKey.ofText k.text = some k := by
  cases k <;> rfl

theorem DeviceKey.eq_not_mem_text (k : DeviceKey) : '=' ∉ k.text := by
  cases k <;> decide

/-- The keys `api_set_peer` reads in a section. -/
inductive PeerKey where
  | updateOnly
  | remove
  | presharedKey
  | endpoint
  | persistentKeepaliveInterval
  | replaceAllowedIps
  | allowedIp
  | publicKey
  | protocolVersion
  deriving DecidableEq, Repr

def PeerKey.text : PeerKey → List Char
  | .updateOnly => "update_only".toList
  | .remove => "remove".toList
  | .presharedKey => "preshared_key".toList
  | .endpoint => "endpoint".toList
  | .persistentKeepaliveInterval => "persistent_keepalive_interval".toList
  | .replaceAllowedIps => "replace_allowed_ips".toList
  | .allowedIp => "allowed_ip".toList
  | .publicKey => "public_key".toList
  | .protocolVersion => "protocol_version".toList

/-- The arm of `api_set_peer`'s `match key` that a key selects. -/
def PeerKey.ofText (key : List Char) : Option PeerKey :=
  [.updateOnly, .remove, .presharedKey, .endpoint, .persistentKeepaliveInterval,
    .replaceAllowedIps, .allowedIp, .publicKey, .protocolVersion].find? (·.text == key)

@[simp] theorem PeerKey.ofText_text (k : PeerKey) : PeerKey.ofText k.text = some k := by
  cases k <;> rfl

theorem PeerKey.eq_not_mem_text (k : PeerKey) : '=' ∉ k.text := by
  cases k <;> decide

/-! ### Setting -/

/-- The locals of `api_set_peer`: the arguments of the `update_peer` that commits
the section. -/
structure PeerSection where
  publicKey : Key
  updateOnly : Bool
  remove : Bool
  replaceIps : Bool
  endpoint : Option SocketAddr
  keepalive : Option UInt16
  presharedKey : Option Key
  allowedIps : List AllowedIP
  deriving DecidableEq

/-- The section a `public_key` line opens. -/
def PeerSection.new (publicKey : Key) : PeerSection :=
  ⟨publicKey, false, false, false, none, none, none, []⟩

def PeerSection.op (s : PeerSection) : Op :=
  .updatePeer s.publicKey s.updateOnly s.remove s.replaceIps s.endpoint s.allowedIps s.keepalive
    s.presharedKey

section Set

variable (P : Parsers) (B : Backend) (env : Env)

/-- Commit a section: `update_peer`, and `res.and(Ok(0)).unwrap_or(EINVAL)`. -/
def commitPeer (s : PeerSection) : EStateM (Fault Error) Device Nat := do
  match ← attempt (s.op.exec B env) with
  | .ok () => pure 0
  | .error _ => pure einval

/-- `api_set_peer`, from the line after the one that opened the section `s`: the
answer, and what is left of the stream. -/
def apiSetPeer (s : PeerSection) :
    List (List Char) → EStateM (Fault Error) Device (Nat × List (List Char))
  | [] => (·, []) <$> commitPeer B env s
  | line :: rest =>
    -- `pop` drops the last character: the newline, unless the stream ended first
    let cmd := line.dropLast
    if cmd.isEmpty then (·, rest) <$> commitPeer B env s
    else match splitOnce '=' cmd with
    | none => pure (eproto, rest)
    | some (key, val) =>
      match PeerKey.ofText key with
      | some .updateOnly =>
        match boolFromStr val with
        | some b => apiSetPeer { s with updateOnly := b } rest
        | none => pure (einval, rest)
      | some .remove =>
        match boolFromStr val with
        | some b => apiSetPeer { s with remove := b } rest
        | none => pure (einval, rest)
      | some .presharedKey =>
        match KeyBytes.fromStr P.base64 val with
        | .ok k => apiSetPeer { s with presharedKey := some k } rest
        | .error _ => pure (einval, rest)
      | some .endpoint =>
        match P.socketAddr val with
        | some addr => apiSetPeer { s with endpoint := some addr } rest
        | none => pure (einval, rest)
      | some .persistentKeepaliveInterval =>
        match P.u16 val with
        | some interval => apiSetPeer { s with keepalive := some interval } rest
        | none => pure (einval, rest)
      | some .replaceAllowedIps =>
        match boolFromStr val with
        | some b => apiSetPeer { s with replaceIps := b } rest
        | none => pure (einval, rest)
      | some .allowedIp =>
        match AllowedIP.fromStr P val with
        | .ok ip => apiSetPeer { s with allowedIps := s.allowedIps ++ [ip] } rest
        | .error _ => pure (einval, rest)
      | some .publicKey => do
        -- the section read so far is committed before the new key is read
        match ← attempt (s.op.exec B env) with
        | .error _ => pure (einval, rest)
        | .ok () =>
          match KeyBytes.fromStr P.base64 val with
          | .ok k => apiSetPeer (.new k) rest
          | .error _ => pure (einval, rest)
      | some .protocolVersion =>
        if P.u32 val = some 1 then apiSetPeer s rest else pure (einval, rest)
      | none => pure (einval, rest)

/-- `api_set`, from the line after `set=1`: the answer, and what is left of the
stream. -/
def apiSet : List (List Char) → EStateM (Fault Error) Device (Nat × List (List Char))
  | [] => pure (0, [])
  | line :: rest =>
    let cmd := trimEnd line
    if cmd.isEmpty then pure (0, rest)
    else match cmd.splitOn '=' with
    | [key, val] =>
      match DeviceKey.ofText key with
      | some .privateKey =>
        match KeyBytes.fromStr P.base64 val with
        | .ok k => do
          Device.setKey B env k
          apiSet rest
        | .error _ => pure (einval, rest)
      | some .listenPort =>
        match P.u16 val with
        | some port => do
          match ← attempt (Device.openListenSocket env port) with
          | .ok () => apiSet rest
          | .error _ => pure (eaddrinuse, rest)
        | none => pure (einval, rest)
      | some .fwmark =>
        match P.u32 val with
        | some mark => do
          match ← attempt (Device.setFwmark env mark) with
          | .ok () => apiSet rest
          | .error _ => pure (eaddrinuse, rest)
        | none => pure (einval, rest)
      | some .replacePeers =>
        match boolFromStr val with
        | some true => do
          modify Device.clearPeers
          apiSet rest
        | some false => apiSet rest
        | none => pure (einval, rest)
      | some .publicKey =>
        match KeyBytes.fromStr P.base64 val with
        | .ok k => apiSetPeer P B env (.new k) rest
        | .error _ => pure (einval, rest)
      | none => pure (einval, rest)
    | _ => pure (eproto, rest)

end Set

/-! ### Getting -/

section Get

variable (w : Printers) (env : Env)

/-- `last_handshake_time`: the system time, in nanoseconds from the epoch, of the
handshake of the session in use. The subtraction of `Duration`s panics if the
handshake is older than the epoch. -/
def lastHandshakeTime (t : Tunn) : Except (Fault Error) (Option Nat) :=
  match t.timeSinceLastHandshake env.now with
  | none => pure none
  | some d =>
    -- `SystemTime::now().duration_since(UNIX_EPOCH).ok()`
    if env.systemTime < 0 then pure none
    else if env.systemTime.toNat < d then throw .panic
    else pure (some (env.systemTime.toNat - d))

/-- What `api_get` writes for the peer of key `k`. -/
def peerLines (k : Key) (p : Peer) : Except (Fault Error) (List (List Char)) := do
  let tun := p.tunnel
  let lastHandshakeTime ← lastHandshakeTime env tun
  pure <|
    [keyLine "public_key".toList (hexString k)] ++
    (p.presharedKey.toList.map fun key => keyLine "preshared_key".toList (hexString key)) ++
    (tun.persistentKeepalive.toList.map fun keepalive =>
      keyLine "persistent_keepalive_interval".toList (w.u16 keepalive)) ++
    (p.endpoint.toList.map fun addr => keyLine "endpoint".toList (w.socketAddr addr)) ++
    (p.allowedIps.ips.map fun e =>
      keyLine "allowed_ip".toList (w.ipAddr e.1.networkAddress ++ '/' :: w.u8 (UInt8.ofNat e.1.len))) ++
    (lastHandshakeTime.toList.flatMap fun time =>
      [keyLine "last_handshake_time_sec".toList (w.u64 (UInt64.ofNat (time / 10 ^ 9))),
        keyLine "last_handshake_time_nsec".toList (w.u32 (UInt32.ofNat (time % 10 ^ 9)))]) ++
    [keyLine "rx_bytes".toList (w.u64 tun.rxBytes), keyLine "tx_bytes".toList (w.u64 tun.txBytes)]

/-- `api_get`, from the line after `get=1`: what it writes, the answer, and what is
left of the stream. It reads the empty line that ends the command, if there is
one; any other line is `EINVAL`, and the end of the stream is accepted. -/
def apiGet (lines : List (List Char)) :
    EStateM (Fault Error) Device (List Char × Nat × List (List Char)) := do
  let d ← get
  let device :=
    (d.keyPair.toList.map fun pair => keyLine "private_key".toList (hexString pair.1)) ++
    (if d.listenPort ≠ 0 then [keyLine "listen_port".toList (w.u16 d.listenPort)] else []) ++
    (d.fwmark.toList.map fun fwmark => keyLine "fwmark".toList (w.u32 fwmark))
  -- the peers in the order of the map; a reference outside the heap writes nothing
  let peers ← liftExcept (d.peers.entries.mapM fun e =>
    match d.heap[e.2]? with
    | some p => peerLines w env e.1 p
    | none => pure [])
  let out := (device ++ peers.flatten).flatten
  match lines with
  | [] => pure (out, 0, [])
  | buf :: rest => pure (out, if buf = ['\n'] then 0 else einval, rest)

end Get

/-! ### Commands -/

section Exec

variable (P : Parsers) (B : Backend) (w : Printers) (env : Env)

/-- What `writeln!(writer, "errno={}\n", status)` writes. -/
def errnoLines (status : Nat) : List Char := "errno=".toList ++ w.i32 status ++ ['\n', '\n']

/-- One command of `api_exec`, read from the line `cmd`: what it writes, its
status, and what is left of the stream. -/
def apiCommand (cmd : List Char) (rest : List (List Char)) :
    EStateM (Fault Error) Device (List Char × Nat × List (List Char)) := do
  if (← get).closed then pure ([], enoent, rest)
  else if cmd = "get=1\n".toList then apiGet w env rest
  else if cmd = "set=1\n".toList then (fun r => ([], r)) <$> apiSet P B env rest
  else pure ([], eio, rest)

/-- The loop of `api_exec`: a command is read and answered while the previous one
answered 0 and the stream has not ended, for at most `fuel` commands; running out
of fuel is the loop not exiting. Each command reads its own line, so the number of
lines is enough (`apiExec`). -/
def apiExecLoop : Nat → List (List Char) → EStateM (Fault Error) Device (List Char)
  | 0, _ => throw .diverge
  | _ + 1, [] => pure []
  | fuel + 1, cmd :: rest => do
    let (out, status, rest) ← apiCommand P B w env cmd rest
    let out := out ++ errnoLines w status
    if status = 0 then (out ++ ·) <$> apiExecLoop fuel rest else pure out

/-- `api_exec` on one connection: what it writes. -/
def apiExec (lines : List (List Char)) : EStateM (Fault Error) Device (List Char) :=
  apiExecLoop P B w env (lines.length + 1) lines

end Exec

end Neptun.Device
