import Neptun.Device.Config
import Neptun.Device.Cryptokey
import Neptun.Device.Indices

/-! Connections to the control socket. Whatever a client writes, `api_exec`
changes the device only by the device's own operations: `api_get` reads it, and
`api_set` does what the command parsed from its lines does, one operation after
the other. Every device configured through the socket is therefore reachable by the
operations, and keeps what is proved of those. Each command reads at least its own
line, so the loop of `api_exec` ends within as many commands as there are lines. -/
namespace Neptun.Device

open Lib Noise

set_option linter.dupNamespace false

section Steps

variable (B : Backend) (env : Env)

/-- An operation is a step of the device, whether it returns or fails with an error. -/
theorem exec_steps (op : Op) (d : Device) : Steps (Step B) (op.exec B env) d := by
  cases h : (op.exec B env).run d with
  | ok a d' => exact triple_of_ok h (.single ⟨env, op, .inl ⟨a, h⟩⟩)
  | error f d' =>
    refine triple_of_error h fun ⟨e, he⟩ => ?_
    subst he
    exact .single ⟨env, op, .inr ⟨e, h⟩⟩

theorem Setting.run_steps (l : Setting) (d : Device) : Steps (Step B) (l.run B env) d := by
  cases l with
  | privateKey k => exact (exec_steps B env (.setKey k) d).bind fun _ _ _ => steps_pure _ _
  | listenPort port =>
    exact (exec_steps B env (.openListenSocket port) d).attempt.bind fun r _ _ => by
      cases r <;> exact steps_pure _ _
  | fwmark mark =>
    exact (exec_steps B env (.setFwmark mark) d).attempt.bind fun r _ _ => by
      cases r <;> exact steps_pure _ _
  | replacePeers b =>
    cases b with
    | false => exact steps_pure _ _
    | true => exact (exec_steps B env .clearPeers d).bind fun _ _ _ => steps_pure _ _

theorem commitThen_steps (s : PeerSection) {k : EStateM (Fault Error) Device Nat}
    (hk : ∀ d, Steps (Step B) k d) (d : Device) : Steps (Step B) (commitThen B env s k) d :=
  (exec_steps B env s.op d).attempt.bind fun r d' _ => by
    cases r
    · exact steps_pure _ _
    · exact hk d'

theorem commitAll_steps (stop : Nat) (ss : List PeerSection) (d : Device) :
    Steps (Step B) (commitAll B env stop ss) d := by
  induction ss generalizing d with
  | nil => exact steps_pure _ _
  | cons s ss ih => exact commitThen_steps B env s ih d

theorem runSettings_steps {k : EStateM (Fault Error) Device Nat} (hk : ∀ d, Steps (Step B) k d)
    (ls : List Setting) (d : Device) : Steps (Step B) (runSettings B env k ls) d := by
  induction ls generalizing d with
  | nil => exact hk d
  | cons l ls ih =>
    refine (Setting.run_steps B env l d).bind fun o d' _ => ?_
    cases o
    · exact ih d'
    · exact steps_pure _ _

theorem SetCommand.run_steps (c : SetCommand) (stop : Nat) (d : Device) :
    Steps (Step B) (c.run B env stop) d :=
  runSettings_steps B env (commitAll_steps B env stop c.peers) c.settings d

/-- `api_set` changes the device only by its operations, read from any lines. -/
theorem apiSet_steps (P : Parsers) (lines : List (List Char)) (d : Device) :
    Steps (Step B) (apiSet P B env lines) d := by
  have hc := SetCommand.run_steps B env (SetCommand.parse P lines).1 (SetCommand.parse P lines).2 d
  rw [← (apiSet_doesCommand P B env lines).2] at hc
  exact (triple_map (g := Prod.fst)).mp hc

variable (w : Printers)

/-- `api_get` does not change the device. -/
theorem apiGet_keeps (lines : List (List Char)) (d : Device) :
    Keeps (· = d) (apiGet w env lines) d := by
  refine triple_get_bind (triple_liftExcept_bind (fun _ _ => rfl) fun _ _ => ?_)
  cases lines <;> exact triple_pure rfl

variable (P : Parsers)

theorem apiCommand_steps (cmd : List Char) (rest : List (List Char)) (d : Device) :
    Steps (Step B) (apiCommand P B w env cmd rest) d := by
  refine triple_get_bind ?_
  split
  · exact steps_pure _ _
  split
  · exact (apiGet_keeps env w rest d).resumes.mono (fun _ _ h => h ▸ .refl) fun _ _ h he => h he ▸ .refl
  split
  · exact triple_map.mpr (apiSet_steps B env P rest d)
  · exact steps_pure _ _

theorem apiExecLoop_steps (fuel : Nat) (lines : List (List Char)) (d : Device) :
    Steps (Step B) (apiExecLoop P B w env fuel lines) d := by
  induction fuel generalizing lines d with
  | zero => exact steps_throw _ _
  | succ fuel ih =>
    cases lines with
    | nil => exact steps_pure _ _
    | cons cmd rest =>
      refine (apiCommand_steps B env w P cmd rest d).bind fun x d' _ => ?_
      obtain ⟨out, status, rest'⟩ := x
      dsimp only
      split
      · exact triple_map.mpr (ih rest' d')
      · exact steps_pure _ _

end Steps

/-- One connection to the control socket, answered by `api_exec` to its end. -/
def Session (P : Parsers) (B : Backend) (w : Printers) (d d' : Device) : Prop :=
  ∃ env lines out, (apiExec P B w env lines).run d = .ok out d'

theorem reachable_of_sessions {P : Parsers} {B : Backend} {w : Printers} {d d' : Device}
    (h : Relation.ReflTransGen (Session P B w) d d') : Reachable B d d' := by
  induction h with
  | refl => exact .refl
  | tail _ hs ih =>
    obtain ⟨env, lines, out, hrun⟩ := hs
    exact ih.trans ((apiExecLoop_steps B env w P _ lines _).of_ok hrun)

/-- A `set=1` command that answers 0 and reads the stream to its end is a
connection of its own. -/
theorem session_of_set {P : Parsers} {B : Backend} {w : Printers} {env : Env} {d d' : Device}
    (hopen : d.closed = false) {lines : List (List Char)}
    (h : (apiSet P B env lines).run d = .ok (0, []) d') : Session P B w d d' := by
  refine ⟨env, "set=1\n".toList :: lines, errnoLines w 0 ++ [], ?_⟩
  simp [apiExec, apiExecLoop, apiCommand, EStateM.run_bind, hopen, h]

/-- The lines of a private key and of a section that names only its peer's key:
`api_set` sets the key, then commits the section at the end of the stream. -/
theorem apiSet_key_section_run {P : Parsers} {B : Backend} {w : Printers} {env : Env}
    (hw : w.Inverse P) {d d₁ d₂ : Device} {k k' : Key}
    (hkey : (Device.setKey B env k).run d = .ok () d₁)
    (hpeer : (Device.updatePeer B env k' false false false none [] none none).run d₁ = .ok () d₂) :
    (apiSet P B env [(Setting.privateKey k).line w,
      keyLine PeerKey.publicKey.text (hexString k')]).run d = .ok (0, []) d₂ := by
  rw [apiSet_line P B env hw, apiSet_publicKey]
  simp [Setting.run, EStateM.run_bind, hkey, apiSetPeer, commitPeer, PeerSection.op, PeerSection.new,
    Op.exec, hpeer]

/-- Whatever clients write to the control socket of a new device, connection after
connection, each peer holds a 24-bit index, no two peers share one, and
`peers_by_idx` maps each index to its peer: the socket changes the device only by
the operations that keep this. -/
theorem sessions_keep_indices_unique (P : Parsers) (B : Backend) (w : Printers)
    {seedDraws maskDraws : List UInt32} {seed mask : UInt32}
    (hseed : IndexLfsr.randomIndex seedDraws = some seed)
    (hmask : IndexLfsr.randomIndex maskDraws = some mask) {d : Device}
    (h : Relation.ReflTransGen (Session P B w) (Device.new (IndexLfsr.default seed mask)) d) :
    (∀ k r, d.peers.get k = some r → ∃ i, d.indexOf r = some i ∧ i.toNat < 2 ^ 24) ∧
    (∀ k k' r r', d.peers.get k = some r → d.peers.get k' = some r' → k ≠ k' →
      d.indexOf r ≠ d.indexOf r') ∧
    ∀ i r, d.peersByIdx.get i = some r ↔ ∃ k, d.peers.get k = some r ∧ d.indexOf r = some i := by
  -- `random_index` draws a nonzero 24-bit seed and a 24-bit mask
  have hseed' := IndexLfsr.randomIndex_spec hseed
  obtain ⟨j, hj⟩ := Device.indexed_reachable B hseed' (reachable_of_sessions h)
  refine ⟨fun k r hk => ?_, hj.distinct, hj.byIdx⟩
  obtain ⟨i, -, hr⟩ := hj.drawn k r hk
  exact ⟨_, hr, IndexLfsr.nth_lt hseed' (IndexLfsr.randomIndex_spec hmask).2 i⟩

theorem sessions_keep_indices_unique_configured :
    ∃ d, IndexLfsr.randomIndex [1] = some 1 ∧ IndexLfsr.randomIndex [0, 5] = some 5 ∧
      Relation.ReflTransGen (Session Parsers.std Backend.plain Printers.std)
        (Device.new (IndexLfsr.default 1 5)) d ∧
      d.peers.get (.replicate 32 1) = some 0 ∧
      ((∀ k r, d.peers.get k = some r → ∃ i, d.indexOf r = some i ∧ i.toNat < 2 ^ 24) ∧
      (∀ k k' r r', d.peers.get k = some r → d.peers.get k' = some r' → k ≠ k' →
        d.indexOf r ≠ d.indexOf r') ∧
      ∀ i r, d.peersByIdx.get i = some r ↔ ∃ k, d.peers.get k = some r ∧ d.indexOf r = some i) := by
  obtain ⟨t, ht, -⟩ := Tunn.new_fresh Backend.plain (.replicate 32 7) (.replicate 32 1) none none
    ((1 - 1) ^^^ 5) none 0 0 (.replicate 16 0) (.replicate 32 0)
  -- one connection: a private key, then the section of one peer
  have hs := session_of_set (w := Printers.std) (by rfl) (apiSet_key_section_run Printers.std_inverse
    (Device.setKey_run_of_no_peers Backend.plain ⟨0, 0, .replicate 16 0, .replicate 32 0, none, true⟩
      (d := Device.new (.default 1 5)) rfl (.replicate 32 7) (by simp [Device.new]))
    (Device.updatePeer_run_new Backend.plain _ (k := .replicate 32 1) (by rfl) (by rfl)
      (by exact show IndexLfsr.step 1 ≠ 1 by decide) false none [] none none ht))
  -- the seed is the first draw; the mask the first nonzero one
  have hseed : IndexLfsr.randomIndex [1] = some 1 := by decide
  have hmask : IndexLfsr.randomIndex [0, 5] = some 5 := by decide
  exact ⟨_, hseed, hmask, .single hs, by rfl,
    sessions_keep_indices_unique Parsers.std Backend.plain Printers.std hseed hmask (.single hs)⟩

/-! ### The loop of `api_exec` ends -/

section Reads

variable (P : Parsers) (B : Backend) (w : Printers) (env : Env)

/-- What `m` leaves of the stream is a suffix of `lines`. -/
def Reads {α : Type} (lines : List (List Char))
    (m : EStateM (Fault Error) Device (α × List (List Char))) : Prop :=
  ∀ d, Triple (fun p _ => p.2 <:+ lines) (fun _ _ => True) m d

variable {lines rest : List (List Char)}

theorem reads_pure {α : Type} (a : α) (h : rest <:+ lines) : Reads lines (pure (a, rest)) :=
  fun _ => triple_pure h

theorem reads_map {α : Type} (m : EStateM (Fault Error) Device α) (h : rest <:+ lines) :
    Reads lines ((·, rest) <$> m) :=
  fun _ => triple_map.mpr (triple_of_forall (fun _ _ => h) fun _ _ => trivial)

theorem Reads.bind {α β : Type} {x : EStateM (Fault Error) Device β}
    {k : β → EStateM (Fault Error) Device (α × List (List Char))} (hk : ∀ b, Reads lines (k b)) :
    Reads lines (x >>= k) := fun _ =>
  triple_bind (R := fun _ _ => True) (triple_of_forall (fun _ _ => trivial) fun _ _ => trivial)
    fun b d' _ _ => hk b d'

theorem Reads.mono {α : Type} {m : EStateM (Fault Error) Device (α × List (List Char))}
    (h : Reads rest m) (hs : rest <:+ lines) : Reads lines m := fun d =>
  (h d).mono (fun _ _ hp => hp.trans hs) fun _ _ _ => trivial

theorem apiSetPeer_reads (lines : List (List Char)) :
    ∀ s, Reads lines (apiSetPeer P B env s lines) := by
  induction lines with
  | nil => exact fun s => reads_map _ (List.suffix_refl _)
  | cons line rest ih =>
    intro s
    have hr : rest <:+ line :: rest := List.suffix_cons _ _
    -- every arm answers with the rest, or reads on from it
    have hstop : ∀ n : Nat, Reads (line :: rest) (pure (n, rest)) := fun n => reads_pure n hr
    have hon : ∀ u, Reads (line :: rest) (apiSetPeer P B env u rest) := fun u => (ih u).mono hr
    simp only [apiSetPeer]
    cases line.dropLast.isEmpty with
    | true => exact reads_map _ hr
    | false =>
    simp only [Bool.false_eq_true, if_false]
    cases splitOnce '=' line.dropLast with
    | none => exact hstop _
    | some kv =>
    obtain ⟨key, val⟩ := kv
    dsimp only
    cases PeerKey.ofText key with
    | none => exact hstop _
    | some k =>
    cases k with
    | updateOnly | remove | replaceAllowedIps =>
      cases boolFromStr val with
      | none => exact hstop _
      | some b => exact hon _
    | presharedKey =>
      cases KeyBytes.fromStr P.base64 val with
      | error _ => exact hstop _
      | ok k => exact hon _
    | endpoint =>
      cases P.socketAddr val with
      | none => exact hstop _
      | some addr => exact hon _
    | persistentKeepaliveInterval =>
      cases P.u16 val with
      | none => exact hstop _
      | some interval => exact hon _
    | allowedIp =>
      cases AllowedIP.fromStr P val with
      | error _ => exact hstop _
      | ok ip => exact hon _
    | protocolVersion =>
      by_cases hv : P.u32 val = some 1
      · simpa only [hv, if_true] using hon s
      · simpa only [hv, if_false] using hstop einval
    | publicKey =>
      refine Reads.bind fun r => ?_
      cases r with
      | error _ => exact hstop _
      | ok _ =>
        cases KeyBytes.fromStr P.base64 val with
        | error _ => exact hstop _
        | ok k => exact hon _

theorem apiSet_reads (lines : List (List Char)) : Reads lines (apiSet P B env lines) := by
  induction lines with
  | nil => exact reads_pure _ (List.suffix_refl _)
  | cons line rest ih =>
    have hr : rest <:+ line :: rest := List.suffix_cons _ _
    have hstop : ∀ n : Nat, Reads (line :: rest) (pure (n, rest)) := fun n => reads_pure n hr
    have hon : Reads (line :: rest) (apiSet P B env rest) := ih.mono hr
    simp only [apiSet]
    cases (trimEnd line).isEmpty with
    | true => exact hstop 0
    | false =>
    simp only [Bool.false_eq_true, if_false]
    rcases (trimEnd line).splitOn '=' with _ | ⟨key, _ | ⟨val, _ | ⟨_, _⟩⟩⟩
    · exact hstop _
    · exact hstop _
    · dsimp only
      cases DeviceKey.ofText key with
      | none => exact hstop _
      | some k =>
      cases k with
      | privateKey =>
        cases KeyBytes.fromStr P.base64 val with
        | error _ => exact hstop _
        | ok k => exact Reads.bind fun _ => hon
      | listenPort =>
        cases P.u16 val with
        | none => exact hstop _
        | some port =>
          refine Reads.bind fun r => ?_
          cases r with
          | error _ => exact hstop _
          | ok _ => exact hon
      | fwmark =>
        cases P.u32 val with
        | none => exact hstop _
        | some mark =>
          refine Reads.bind fun r => ?_
          cases r with
          | error _ => exact hstop _
          | ok _ => exact hon
      | replacePeers =>
        cases boolFromStr val with
        | none => exact hstop _
        | some b =>
          cases b with
          | true => exact Reads.bind fun _ => hon
          | false => exact hon
      | publicKey =>
        cases KeyBytes.fromStr P.base64 val with
        | error _ => exact hstop _
        | ok k => exact (apiSetPeer_reads P B env rest _).mono hr
    · exact hstop _

theorem apiCommand_reads (cmd : List Char) (rest : List (List Char)) (d : Device) :
    Triple (fun p _ => p.2.2 <:+ rest) (fun _ _ => True) (apiCommand P B w env cmd rest) d := by
  refine triple_get_bind ?_
  split
  · exact triple_pure (List.suffix_refl _)
  split
  · refine triple_get_bind (triple_liftExcept_bind (fun _ _ => trivial) fun _ _ => ?_)
    cases rest with
    | nil => exact triple_pure (List.suffix_refl _)
    | cons _ rest => exact triple_pure (List.suffix_cons _ _)
  split
  · exact triple_map.mpr ((apiSet_reads P B env rest d).mono (fun _ _ h => h) fun _ _ _ => trivial)
  · exact triple_pure (List.suffix_refl _)

/-- The loop of `api_exec` never runs out of its fuel: with more than one command
a line, it runs as `apiExec` does. -/
theorem apiExecLoop_eq_apiExec (lines : List (List Char)) (fuel : Nat) (hfuel : lines.length < fuel)
    (d : Device) : (apiExecLoop P B w env fuel lines).run d = (apiExec P B w env lines).run d := by
  suffices h : ∀ fuel fuel' (lines : List (List Char)) d, lines.length < fuel → lines.length < fuel' →
      (apiExecLoop P B w env fuel lines).run d = (apiExecLoop P B w env fuel' lines).run d from
    h fuel _ lines d hfuel (Nat.lt_succ_self _)
  intro fuel
  induction fuel with
  | zero => intro _ _ _ h; omega
  | succ fuel ih =>
    intro fuel' lines d h h'
    obtain ⟨fuel', rfl⟩ : ∃ f, fuel' = f + 1 := ⟨fuel' - 1, by omega⟩
    cases lines with
    | nil => rfl
    | cons cmd rest =>
      simp only [apiExecLoop, EStateM.run_bind]
      have hreads := apiCommand_reads P B w env cmd rest d
      cases hrun : (apiCommand P B w env cmd rest).run d with
      | error _ _ => rfl
      | ok x d' =>
        obtain ⟨out, status, rest'⟩ := x
        have hlen : rest'.length ≤ rest.length := (hreads.of_ok hrun).length_le
        simp only [List.length_cons] at h h'
        dsimp only
        split
        · rw [EStateM.run_map, EStateM.run_map, ih fuel' rest' d' (by omega) (by omega)]
        · rfl

end Reads

end Neptun.Device
