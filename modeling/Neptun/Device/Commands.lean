import Neptun.Device.Api

/-! What a `set=1` command does, apart from its text: settings of the device in
the order they are read, then one `update_peer` for each peer section, the whole
stopping at the first operation that fails. `api_set` is sound for this reading:
whatever lines it is given, it does what some such command does, cut short where
a line does not parse. A section is committed whole or not at all, and no setting
of the device is made once the first section has begun. -/
namespace Neptun.Device

open Lib Noise

set_option linter.dupNamespace false

/-- A line of the device part of a `set=1` command, as parsed. -/
inductive Setting where
  | privateKey (k : Key)
  | listenPort (port : UInt16)
  | fwmark (mark : UInt32)
  | replacePeers (b : Bool)

/-- A `set=1` command: its settings, then its peer sections. -/
structure SetCommand where
  settings : List Setting
  peers : List PeerSection

section Run

variable (B : Backend) (env : Env)

/-- What a setting does: the answer, if it ends the command. -/
def Setting.run : Setting → EStateM (Fault Error) Device (Option Nat)
  | .privateKey k => do
    Device.setKey B env k
    pure none
  | .listenPort port => do
    match ← attempt (Device.openListenSocket env port) with
    | .ok () => pure none
    | .error _ => pure (some eaddrinuse)
  | .fwmark mark => do
    match ← attempt (Device.setFwmark env mark) with
    | .ok () => pure none
    | .error _ => pure (some eaddrinuse)
  | .replacePeers b => do
    if b then modify Device.clearPeers
    pure none

/-- The settings in turn, then `k`. -/
def runSettings (k : EStateM (Fault Error) Device Nat) :
    List Setting → EStateM (Fault Error) Device Nat
  | [] => k
  | l :: ls => do
    match ← l.run B env with
    | some e => pure e
    | none => runSettings k ls

/-- Commit a section, then `k`; a section that fails answers `EINVAL`. -/
def commitThen (s : PeerSection) (k : EStateM (Fault Error) Device Nat) :
    EStateM (Fault Error) Device Nat := do
  match ← attempt (s.op.exec B env) with
  | .ok () => k
  | .error _ => pure einval

/-- The sections committed in turn, then the answer `stop`. -/
def commitAll (stop : Nat) : List PeerSection → EStateM (Fault Error) Device Nat
  | [] => pure stop
  | s :: ss => commitThen B env s (commitAll stop ss)

/-- The sections committed in turn but the last, which is left to `last`. -/
def commitChain (last : PeerSection → EStateM (Fault Error) Device Nat) :
    PeerSection → List PeerSection → EStateM (Fault Error) Device Nat
  | s, [] => last s
  | s, t :: ts => commitThen B env s (commitChain last t ts)

theorem commitChain_commit (stop : Nat) (s : PeerSection) (ts : List PeerSection) :
    commitChain B env (fun u => commitAll B env stop [u]) s ts = commitAll B env stop (s :: ts) := by
  induction ts generalizing s with
  | nil => rfl
  | cons t ts ih => rw [commitChain, ih]; rfl

/-- A last section that is not committed: the others are, and `stop` answers. -/
theorem commitChain_drop (stop : Nat) (s : PeerSection) (ts : List PeerSection) :
    commitChain B env (fun _ => pure stop) s ts = commitAll B env stop (s :: ts).dropLast := by
  induction ts generalizing s with
  | nil => rfl
  | cons t ts ih => rw [commitChain, ih]; rfl

/-- A command run to its end answers `stop`, unless an operation fails first. -/
def SetCommand.run (c : SetCommand) (stop : Nat) : EStateM (Fault Error) Device Nat :=
  runSettings B env (commitAll B env stop c.peers) c.settings

end Run

section Sound

variable (P : Parsers) (B : Backend) (env : Env)

/-- The answers of the line that ends the reading of a command: the end of the
command, a line that is not `key=value`, and a key or value that is not
accepted. -/
def EndAnswer (stop : Nat) : Prop := stop = 0 ∨ stop = eproto ∨ stop = einval

/-- The peer sections read from the section `s` on, as parsed: the sections that
are complete, in order, and the answer of the line that ended the reading. A
section cut short by a line that does not parse is not among them. -/
def parseSections (s : PeerSection) : List (List Char) → List PeerSection × Nat
  | [] => ([s], 0)
  | line :: rest =>
    let cmd := line.dropLast
    if cmd.isEmpty then ([s], 0)
    else match splitOnce '=' cmd with
    | none => ([], eproto)
    | some (key, val) =>
      match PeerKey.ofText key with
      | some .updateOnly =>
        match boolFromStr val with
        | some b => parseSections { s with updateOnly := b } rest
        | none => ([], einval)
      | some .remove =>
        match boolFromStr val with
        | some b => parseSections { s with remove := b } rest
        | none => ([], einval)
      | some .presharedKey =>
        match KeyBytes.fromStr P.base64 val with
        | .ok k => parseSections { s with presharedKey := some k } rest
        | .error _ => ([], einval)
      | some .endpoint =>
        match P.socketAddr val with
        | some addr => parseSections { s with endpoint := some addr } rest
        | none => ([], einval)
      | some .persistentKeepaliveInterval =>
        match P.u16 val with
        | some interval => parseSections { s with keepalive := some interval } rest
        | none => ([], einval)
      | some .replaceAllowedIps =>
        match boolFromStr val with
        | some b => parseSections { s with replaceIps := b } rest
        | none => ([], einval)
      | some .allowedIp =>
        match AllowedIP.fromStr P val with
        | .ok ip => parseSections { s with allowedIps := s.allowedIps ++ [ip] } rest
        | .error _ => ([], einval)
      | some .publicKey =>
        -- the section read so far is complete, whatever the new key
        match KeyBytes.fromStr P.base64 val with
        | .ok k => (parseSections (.new k) rest).map (s :: ·) id
        | .error _ => ([s], einval)
      | some .protocolVersion =>
        if P.u32 val = some 1 then parseSections s rest else ([], einval)
      | none => ([], einval)

/-- The command with one more setting in front. -/
def SetCommand.withSetting (c : SetCommand) (l : Setting) : SetCommand := ⟨l :: c.settings, c.peers⟩

/-- The command that the lines after `set=1` hold, as parsed: the settings of
the device in the order they are read, then the complete peer sections, and the
answer of the line that ended the reading. -/
def SetCommand.parse : List (List Char) → SetCommand × Nat
  | [] => (⟨[], []⟩, 0)
  | line :: rest =>
    let cmd := trimEnd line
    if cmd.isEmpty then (⟨[], []⟩, 0)
    else match cmd.splitOn '=' with
    | [key, val] =>
      match DeviceKey.ofText key with
      | some .privateKey =>
        match KeyBytes.fromStr P.base64 val with
        | .ok k => (SetCommand.parse rest).map (·.withSetting (.privateKey k)) id
        | .error _ => (⟨[], []⟩, einval)
      | some .listenPort =>
        match P.u16 val with
        | some port => (SetCommand.parse rest).map (·.withSetting (.listenPort port)) id
        | none => (⟨[], []⟩, einval)
      | some .fwmark =>
        match P.u32 val with
        | some mark => (SetCommand.parse rest).map (·.withSetting (.fwmark mark)) id
        | none => (⟨[], []⟩, einval)
      | some .replacePeers =>
        match boolFromStr val with
        | some b => (SetCommand.parse rest).map (·.withSetting (.replacePeers b)) id
        | none => (⟨[], []⟩, einval)
      | some .publicKey =>
        -- no setting of the device is read once the first section has begun
        match KeyBytes.fromStr P.base64 val with
        | .ok k => (parseSections P (.new k) rest).map (⟨[], ·⟩) id
        | .error _ => (⟨[], []⟩, einval)
      | none => (⟨[], []⟩, einval)
    | _ => (⟨[], []⟩, eproto)

/-- A reading of peer sections does what committing the sections `r.1` does,
then answers `r.2`, the answer of a line that ends a reading. -/
def CommitsSections (m : EStateM (Fault Error) Device (Nat × List (List Char)))
    (r : List PeerSection × Nat) : Prop :=
  EndAnswer r.2 ∧ Prod.fst <$> m = commitAll B env r.2 r.1

theorem commitsSections_stop {stop : Nat} (h : EndAnswer stop) (rest : List (List Char)) :
    CommitsSections B env (pure (stop, rest)) ([], stop) :=
  ⟨h, by simp [commitAll]⟩

theorem commitPeer_eq (s : PeerSection) : commitPeer B env s = commitAll B env 0 [s] := rfl

theorem commitsSections_commitPeer (s : PeerSection) (rest : List (List Char)) :
    CommitsSections B env ((·, rest) <$> commitPeer B env s) ([s], 0) :=
  ⟨.inl rfl, by simp [commitPeer_eq]⟩

/-- Reading a section does what committing the sections parsed from it does: the
section being read is committed at the next `public_key` line or the end of the
command, and dropped with the line that fails. -/
theorem apiSetPeer_commitsSections (lines : List (List Char)) :
    ∀ s, CommitsSections B env (apiSetPeer P B env s lines) (parseSections P s lines) := by
  induction lines with
  | nil => exact fun s => commitsSections_commitPeer B env s []
  | cons line rest ih =>
    intro s
    have hinval := commitsSections_stop B env (.inr (.inr rfl)) rest
    simp only [apiSetPeer, parseSections]
    cases line.dropLast.isEmpty with
    | true => exact commitsSections_commitPeer B env s rest
    | false =>
    simp only [Bool.false_eq_true, if_false]
    cases splitOnce '=' line.dropLast with
    | none => exact commitsSections_stop B env (.inr (.inl rfl)) rest
    | some kv =>
    obtain ⟨key, val⟩ := kv
    dsimp only
    -- one arm for each key; all but `public_key` read their value or answer `EINVAL`
    cases PeerKey.ofText key with
    | none => exact hinval
    | some k =>
    cases k with
    | updateOnly | remove | replaceAllowedIps =>
      cases boolFromStr val with
      | none => exact hinval
      | some b => exact ih _
    | presharedKey =>
      cases KeyBytes.fromStr P.base64 val with
      | error _ => exact hinval
      | ok k => exact ih _
    | endpoint =>
      cases P.socketAddr val with
      | none => exact hinval
      | some addr => exact ih _
    | persistentKeepaliveInterval =>
      cases P.u16 val with
      | none => exact hinval
      | some interval => exact ih _
    | allowedIp =>
      cases AllowedIP.fromStr P val with
      | error _ => exact hinval
      | ok ip => exact ih _
    | protocolVersion =>
      by_cases hv : P.u32 val = some 1
      · simpa only [hv, if_true] using ih s
      · simpa only [hv, if_false] using hinval
    | publicKey =>
      -- the section read so far is committed before the next key is read
      cases KeyBytes.fromStr P.base64 val with
      | error _ =>
        refine ⟨.inr (.inr rfl), ?_⟩
        simp only [map_bind, commitAll, commitThen]
        congr 1
        funext r
        cases r <;> simp
      | ok k =>
        obtain ⟨hstop, hm⟩ := ih (.new k)
        refine ⟨hstop, ?_⟩
        simp only [map_bind, commitAll, commitThen, Prod.map]
        congr 1
        funext r
        cases r
        · simp
        · simpa using hm

theorem run_withSetting (c : SetCommand) (l : Setting) (stop : Nat) :
    (c.withSetting l).run B env stop = l.run B env >>= fun o => o.elim (c.run B env stop) pure := by
  simp only [SetCommand.withSetting, SetCommand.run, runSettings]
  congr 1
  funext o
  cases o <;> rfl

/-- A reading of a command does what the command `r.1` does, then answers `r.2`,
the answer of a line that ends a reading. -/
def DoesCommand (m : EStateM (Fault Error) Device (Nat × List (List Char))) (r : SetCommand × Nat) :
    Prop :=
  EndAnswer r.2 ∧ Prod.fst <$> m = r.1.run B env r.2

theorem doesCommand_stop {stop : Nat} (h : EndAnswer stop) (rest : List (List Char)) :
    DoesCommand B env (pure (stop, rest)) (⟨[], []⟩, stop) :=
  ⟨h, by simp [SetCommand.run, runSettings, commitAll]⟩

/-- A setting that does not end the command is put in front of what follows. -/
theorem DoesCommand.withSetting {m : EStateM (Fault Error) Device (Nat × List (List Char))}
    {r : SetCommand × Nat} (h : DoesCommand B env m r) (l : Setting)
    {m' : EStateM (Fault Error) Device (Nat × List (List Char))}
    (hm' : Prod.fst <$> m' = l.run B env >>= fun o => o.elim (Prod.fst <$> m) pure) :
    DoesCommand B env m' (r.map (·.withSetting l) id) :=
  ⟨h.1, by rw [hm', h.2]; exact (run_withSetting B env r.1 l r.2).symm⟩

/-- `api_set` does what the command parsed from its lines does. -/
theorem apiSet_doesCommand (lines : List (List Char)) :
    DoesCommand B env (apiSet P B env lines) (SetCommand.parse P lines) := by
  induction lines with
  | nil => exact doesCommand_stop B env (.inl rfl) []
  | cons line rest ih =>
    have hinval := doesCommand_stop B env (.inr (.inr rfl)) rest
    simp only [apiSet, SetCommand.parse]
    cases (trimEnd line).isEmpty with
    | true => exact doesCommand_stop B env (.inl rfl) rest
    | false =>
    simp only [Bool.false_eq_true, if_false]
    have hproto := doesCommand_stop B env (.inr (.inl rfl)) rest
    -- a line that is not `key=value` answers `EPROTO`
    rcases (trimEnd line).splitOn '=' with _ | ⟨key, _ | ⟨val, _ | ⟨_, _⟩⟩⟩
    · exact hproto
    · exact hproto
    · dsimp only
      -- one arm for each key: a setting is put in front of what the rest does
      cases DeviceKey.ofText key with
      | none => exact hinval
      | some k =>
      cases k with
      | privateKey =>
        cases KeyBytes.fromStr P.base64 val with
        | error _ => exact hinval
        | ok k => exact ih.withSetting B env (.privateKey k) (by simp [Setting.run])
      | listenPort =>
        cases P.u16 val with
        | none => exact hinval
        | some port =>
          refine ih.withSetting B env (.listenPort port) ?_
          simp only [Setting.run, map_bind, bind_assoc]
          congr 1
          funext r
          cases r <;> simp
      | fwmark =>
        cases P.u32 val with
        | none => exact hinval
        | some mark =>
          refine ih.withSetting B env (.fwmark mark) ?_
          simp only [Setting.run, map_bind, bind_assoc]
          congr 1
          funext r
          cases r <;> simp
      | replacePeers =>
        cases boolFromStr val with
        | none => exact hinval
        | some b => cases b <;> exact ih.withSetting B env (.replacePeers _) (by simp [Setting.run])
      | publicKey =>
        cases KeyBytes.fromStr P.base64 val with
        | error _ => exact hinval
        | ok k => exact apiSetPeer_commitsSections P B env rest (.new k)
    · exact hproto

/-- `api_set` is sound: whatever lines follow `set=1`, it does what the command
parsed from them does, run to its end or cut short by the line that ended the
reading. -/
theorem apiSet_sound (lines : List (List Char)) :
    EndAnswer (SetCommand.parse P lines).2 ∧
      Prod.fst <$> apiSet P B env lines =
        (SetCommand.parse P lines).1.run B env (SetCommand.parse P lines).2 :=
  apiSet_doesCommand P B env lines

end Sound

end Neptun.Device
