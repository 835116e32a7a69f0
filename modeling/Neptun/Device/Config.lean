import Neptun.Device.Commands
import Neptun.Device.Display

/-! A command as a client writes it: each setting on a line `key=value`, each peer
section as its `public_key` line followed by a line for each of its fields, and an
empty line at the end, the values written by the standard library's `Display`.
Read back by `api_set`, such a text does what the command does: the parser loses
no line, adds none and keeps their order. -/
namespace Neptun.Device

open Lib Noise

set_option linter.dupNamespace false

/-- A network `AllowedIP::from_str` accepts: a prefix no longer than its address. -/
def AllowedIP.Valid (ip : AllowedIP) : Prop := ip.cidr.toNat ≤ ip.addr.width

def PeerSection.Valid (s : PeerSection) : Prop := ∀ ip ∈ s.allowedIps, ip.Valid

/-! ### Lines -/

def boolText (b : Bool) : List Char := if b then "true".toList else "false".toList

theorem boolFromStr_boolText (b : Bool) : boolFromStr (boolText b) = some b := by
  cases b <;> decide

theorem plain_boolText (b : Bool) : Plain (boolText b) :=
  (plain_iff_all _).mpr (by cases b <;> rfl)

theorem plain_hexString (k : Key) : Plain (hexString k) := by
  intro c hc
  obtain ⟨p, hp, hcp⟩ := List.mem_flatten.mp hc
  obtain ⟨b, -, rfl⟩ := List.mem_map.mp hp
  have hdigit : ∀ d : Fin 16, hexDigit d ≠ '=' ∧ isWhitespace (hexDigit d) = false := by decide
  simp only [hexPair, List.mem_cons, List.not_mem_nil, or_false] at hcp
  rcases hcp with rfl | rfl <;> exact hdigit _

def Setting.line (w : Printers) : Setting → List Char
  | .privateKey k => keyLine DeviceKey.privateKey.text (hexString k)
  | .listenPort port => keyLine DeviceKey.listenPort.text (w.u16 port)
  | .fwmark mark => keyLine DeviceKey.fwmark.text (w.u32 mark)
  | .replacePeers b => keyLine DeviceKey.replacePeers.text (boolText b)

/-- A line of a peer section after its `public_key` line, as parsed. -/
inductive PeerField where
  | updateOnly (b : Bool)
  | remove (b : Bool)
  | replaceAllowedIps (b : Bool)
  | endpoint (addr : SocketAddr)
  | persistentKeepaliveInterval (interval : UInt16)
  | presharedKey (k : Key)
  | allowedIp (ip : AllowedIP)

def PeerField.apply : PeerField → PeerSection → PeerSection
  | .updateOnly b, s => { s with updateOnly := b }
  | .remove b, s => { s with remove := b }
  | .replaceAllowedIps b, s => { s with replaceIps := b }
  | .endpoint addr, s => { s with endpoint := some addr }
  | .persistentKeepaliveInterval interval, s => { s with keepalive := some interval }
  | .presharedKey k, s => { s with presharedKey := some k }
  | .allowedIp ip, s => { s with allowedIps := s.allowedIps ++ [ip] }

def allowedIpText (w : Printers) (ip : AllowedIP) : List Char := w.ipAddr ip.addr ++ '/' :: w.u8 ip.cidr

def PeerField.line (w : Printers) : PeerField → List Char
  | .updateOnly b => keyLine PeerKey.updateOnly.text (boolText b)
  | .remove b => keyLine PeerKey.remove.text (boolText b)
  | .replaceAllowedIps b => keyLine PeerKey.replaceAllowedIps.text (boolText b)
  | .endpoint addr => keyLine PeerKey.endpoint.text (w.socketAddr addr)
  | .persistentKeepaliveInterval interval =>
    keyLine PeerKey.persistentKeepaliveInterval.text (w.u16 interval)
  | .presharedKey k => keyLine PeerKey.presharedKey.text (hexString k)
  | .allowedIp ip => keyLine PeerKey.allowedIp.text (allowedIpText w ip)

def PeerField.Valid : PeerField → Prop
  | .allowedIp ip => ip.Valid
  | _ => True

/-- The fields a client writes for a section: the flags, the options that are
set, and the allowed IPs in order. -/
def PeerSection.fields (s : PeerSection) : List PeerField :=
  [.updateOnly s.updateOnly, .remove s.remove, .replaceAllowedIps s.replaceIps] ++
    s.endpoint.toList.map .endpoint ++
    s.keepalive.toList.map .persistentKeepaliveInterval ++
    s.presharedKey.toList.map .presharedKey ++
    s.allowedIps.map .allowedIp

def PeerSection.lines (w : Printers) (s : PeerSection) : List (List Char) :=
  keyLine PeerKey.publicKey.text (hexString s.publicKey) :: s.fields.map (·.line w)

/-- The lines that follow `set=1`, up to the empty line that ends the command. -/
def SetCommand.lines (w : Printers) (c : SetCommand) : List (List Char) :=
  c.settings.map (·.line w) ++ c.peers.flatMap (·.lines w) ++ [['\n']]

theorem foldl_apply_allowedIps (ips : List AllowedIP) (s : PeerSection) :
    (ips.map PeerField.allowedIp).foldl (fun t f => f.apply t) s =
      { s with allowedIps := s.allowedIps ++ ips } := by
  induction ips generalizing s with
  | nil => simp
  | cons ip ips ih =>
    rw [List.map_cons, List.foldl_cons, ih]
    simp [PeerField.apply]

/-- A section is rebuilt from its fields. -/
theorem foldl_apply_fields (s : PeerSection) :
    s.fields.foldl (fun t f => f.apply t) (.new s.publicKey) = s := by
  obtain ⟨k, u, r, x, e, ka, psk, ips⟩ := s
  cases e <;> cases ka <;> cases psk <;>
    simp only [PeerSection.fields, List.foldl_append, foldl_apply_allowedIps, Option.toList,
      List.map_cons, List.map_nil, List.foldl_cons, List.foldl_nil] <;> rfl

theorem valid_fields {s : PeerSection} (hs : s.Valid) : ∀ f ∈ s.fields, f.Valid := by
  intro f hf
  cases f with
  | allowedIp ip => exact hs ip (by simpa [PeerSection.fields] using hf)
  | _ => trivial

/-! ### Reading lines back -/

section Read

variable {P : Parsers} {w : Printers}

theorem trimEnd_keyLine (k : DeviceKey) {v : List Char} (hv : Plain v) :
    trimEnd (keyLine k.text v) = k.text ++ '=' :: v := by
  have hkey : ∀ c ∈ k.text, isWhitespace c = false := by
    have h : (k.text.all fun c => !isWhitespace c) = true := by cases k <;> rfl
    simpa [List.all_eq_true] using h
  have hall : ∀ c ∈ k.text ++ '=' :: v, isWhitespace c = false := by
    intro c hc
    simp only [List.mem_append, List.mem_cons] at hc
    rcases hc with hc | rfl | hc
    · exact hkey c hc
    · rfl
    · exact (hv c hc).2
  rw [keyLine, List.append_assoc, ← List.append_assoc]
  exact trimEnd_line fun hs => hall _ (List.getLast_mem hs)

theorem splitOn_keyLine (k : DeviceKey) {v : List Char} (hv : Plain v) :
    (k.text ++ '=' :: v).splitOn '=' = [k.text, v] :=
  splitOn_append_cons (DeviceKey.eq_not_mem_text k) fun h => (hv '=' h).1 rfl

theorem dropLast_keyLine (key v : List Char) : (keyLine key v).dropLast = key ++ '=' :: v := by
  rw [keyLine, List.append_assoc, ← List.append_assoc, List.dropLast_concat]

theorem AllowedIP.fromStr_text (hw : w.Inverse P) {ip : AllowedIP} (hv : ip.Valid) :
    AllowedIP.fromStr P (allowedIpText w ip) = .ok ip := by
  obtain ⟨addr, cidr⟩ := ip
  rw [AllowedIP.fromStr, allowedIpText, splitOn_append_cons (hw.ipAddr_slash _) (hw.u8_slash _)]
  simp only [hw.ipAddr, hw.u8]
  cases addr <;>
    simp_all [AllowedIP.Valid, IpAddr.width, IpAddr.isV6, UInt8.le_iff_toNat_le]

variable (P B env)

/-- A setting written on its line is read back and done; if it fails, the
command ends after it. -/
theorem apiSet_line (hw : w.Inverse P) (l : Setting) (rest : List (List Char)) :
    apiSet P B env (l.line w :: rest) =
      l.run B env >>= fun o => o.elim (apiSet P B env rest) fun e => pure (e, rest) := by
  have hparse : ∀ (k : DeviceKey) {v : List Char}, Plain v →
      trimEnd (keyLine k.text v) = k.text ++ '=' :: v ∧
        (k.text ++ '=' :: v).splitOn '=' = [k.text, v] :=
    fun k _ hv => ⟨trimEnd_keyLine k hv, splitOn_keyLine k hv⟩
  cases l with
  | privateKey k =>
    obtain ⟨h₁, h₂⟩ := hparse .privateKey (plain_hexString k)
    simp [apiSet, Setting.line, Setting.run, h₁, h₂, fromStr_hexString]
  | listenPort port =>
    obtain ⟨h₁, h₂⟩ := hparse .listenPort (hw.u16_plain port)
    have hne : (DeviceKey.listenPort.text ++ '=' :: w.u16 port).isEmpty = false := by simp
    simp only [apiSet, Setting.line, Setting.run, h₁, h₂, hw.u16, DeviceKey.ofText_text,
      hne, Bool.false_eq_true, if_false,
      bind_assoc]
    refine bind_congr fun r => ?_
    cases r <;> simp
  | fwmark mark =>
    obtain ⟨h₁, h₂⟩ := hparse .fwmark (hw.u32_plain mark)
    have hne : (DeviceKey.fwmark.text ++ '=' :: w.u32 mark).isEmpty = false := by simp
    simp only [apiSet, Setting.line, Setting.run, h₁, h₂, hw.u32, DeviceKey.ofText_text,
      hne, Bool.false_eq_true, if_false,
      bind_assoc]
    refine bind_congr fun r => ?_
    cases r <;> simp
  | replacePeers b =>
    obtain ⟨h₁, h₂⟩ := hparse .replacePeers (plain_boolText b)
    cases b <;> simp [apiSet, Setting.line, Setting.run, h₁, h₂, boolFromStr_boolText]

/-- A field written on its line is read back into the section. -/
theorem apiSetPeer_field (hw : w.Inverse P) (s : PeerSection) (f : PeerField) (hf : f.Valid)
    (rest : List (List Char)) :
    apiSetPeer P B env s (f.line w :: rest) = apiSetPeer P B env (f.apply s) rest := by
  have hsplit : ∀ (k : PeerKey) (v : List Char),
      splitOnce '=' (keyLine k.text v).dropLast = some (k.text, v) := fun k v => by
    rw [dropLast_keyLine, splitOnce_append_cons (PeerKey.eq_not_mem_text k)]
  have hne : ∀ (k : PeerKey) (v : List Char), (keyLine k.text v).dropLast.isEmpty = false :=
    fun k v => by simp [dropLast_keyLine]
  cases f with
  | allowedIp ip =>
    simp [apiSetPeer, PeerField.line, PeerField.apply, hsplit, hne, AllowedIP.fromStr_text hw hf]
  | _ =>
    simp [apiSetPeer, PeerField.line, PeerField.apply, hsplit, hne, boolFromStr_boolText,
      hw.socketAddr, hw.u16, fromStr_hexString]

theorem apiSetPeer_fields (hw : w.Inverse P) (fs : List PeerField) (hfs : ∀ f ∈ fs, f.Valid)
    (s : PeerSection) (rest : List (List Char)) :
    apiSetPeer P B env s (fs.map (·.line w) ++ rest) =
      apiSetPeer P B env (fs.foldl (fun t f => f.apply t) s) rest := by
  induction fs generalizing s with
  | nil => rfl
  | cons f fs ih =>
    rw [List.map_cons, List.cons_append, apiSetPeer_field P B env hw s f (hfs f (by simp)),
      ih (fun g hg => hfs g (by simp [hg]))]
    rfl

/-- A `public_key` line commits the section read so far and opens the next. -/
theorem apiSetPeer_publicKey (s : PeerSection) (k : Key) (rest : List (List Char)) :
    Prod.fst <$> apiSetPeer P B env s (keyLine PeerKey.publicKey.text (hexString k) :: rest) =
      commitThen B env s (Prod.fst <$> apiSetPeer P B env (.new k) rest) := by
  have hsplit : splitOnce '=' (keyLine PeerKey.publicKey.text (hexString k)).dropLast =
      some (PeerKey.publicKey.text, hexString k) := by
    rw [dropLast_keyLine, splitOnce_append_cons (PeerKey.eq_not_mem_text _)]
  have hne : (keyLine PeerKey.publicKey.text (hexString k)).dropLast.isEmpty = false := by
    simp [dropLast_keyLine]
  simp only [apiSetPeer, hsplit, hne, PeerKey.ofText_text, fromStr_hexString, commitThen, map_bind,
    Bool.false_eq_true, if_false]
  refine bind_congr fun r => ?_
  cases r <;> simp

theorem apiSetPeer_blank (s : PeerSection) (rest : List (List Char)) :
    apiSetPeer P B env s (['\n'] :: rest) = (·, rest) <$> commitPeer B env s := rfl

theorem apiSet_blank (rest : List (List Char)) : apiSet P B env (['\n'] :: rest) = pure (0, rest) :=
  rfl

theorem apiSet_publicKey (k : Key) (rest : List (List Char)) :
    apiSet P B env (keyLine PeerKey.publicKey.text (hexString k) :: rest) =
      apiSetPeer P B env (.new k) rest := by
  have h : keyLine PeerKey.publicKey.text (hexString k) = keyLine DeviceKey.publicKey.text (hexString k) :=
    rfl
  have hne : (DeviceKey.publicKey.text ++ '=' :: hexString k).isEmpty = false := by simp
  rw [h]
  simp only [apiSet, trimEnd_keyLine _ (plain_hexString k), splitOn_keyLine _ (plain_hexString k),
    hne, DeviceKey.ofText_text, fromStr_hexString, Bool.false_eq_true, if_false]

/-- Sections written out are committed in turn after the one being read; the last
is left to what follows them. -/
theorem apiSetPeer_sections (hw : w.Inverse P) {more : List (List Char)}
    {last : PeerSection → EStateM (Fault Error) Device Nat}
    (hmore : ∀ u, Prod.fst <$> apiSetPeer P B env u more = last u) (ts : List PeerSection)
    (hts : ∀ t ∈ ts, t.Valid) (s : PeerSection) :
    Prod.fst <$> apiSetPeer P B env s (ts.flatMap (·.lines w) ++ more) = commitChain B env last s ts := by
  induction ts generalizing s with
  | nil => exact hmore s
  | cons t ts ih =>
    have ht := valid_fields (hts t (by simp))
    rw [List.flatMap_cons, List.append_assoc, PeerSection.lines, List.cons_append,
      apiSetPeer_publicKey, apiSetPeer_fields P B env hw _ ht, foldl_apply_fields,
      ih (fun u hu => hts u (by simp [hu]))]
    rfl

/-- The first section opens the reading of sections. -/
theorem apiSet_sections (hw : w.Inverse P) {more : List (List Char)}
    {last : PeerSection → EStateM (Fault Error) Device Nat}
    (hmore : ∀ u, Prod.fst <$> apiSetPeer P B env u more = last u) (t : PeerSection)
    (ts : List PeerSection) (hts : ∀ u ∈ t :: ts, u.Valid) :
    Prod.fst <$> apiSet P B env ((t :: ts).flatMap (·.lines w) ++ more) = commitChain B env last t ts := by
  have ht := valid_fields (hts t (by simp))
  rw [List.flatMap_cons, List.append_assoc, PeerSection.lines, List.cons_append, apiSet_publicKey,
    apiSetPeer_fields P B env hw _ ht, foldl_apply_fields,
    apiSetPeer_sections P B env hw hmore ts (fun u hu => hts u (by simp [hu]))]

/-- Settings written out are done in turn, each ending the command if it fails. -/
theorem apiSet_settings (hw : w.Inverse P) (ls : List Setting) (rest : List (List Char)) :
    Prod.fst <$> apiSet P B env (ls.map (·.line w) ++ rest) =
      runSettings B env (Prod.fst <$> apiSet P B env rest) ls := by
  induction ls with
  | nil => rfl
  | cons l ls ih =>
    rw [List.map_cons, List.cons_append, apiSet_line P B env hw, map_bind, runSettings]
    refine bind_congr fun o => ?_
    cases o <;> simp [ih]

/-- A command written out by a client and read back by `api_set` does what the
command does: its settings in order, then each section committed once, stopping
at the first operation that fails. -/
theorem set_round_trip (hw : w.Inverse P) (c : SetCommand) (hc : ∀ s ∈ c.peers, s.Valid)
    (rest : List (List Char)) :
    Prod.fst <$> apiSet P B env (c.lines w ++ rest) = c.run B env 0 := by
  have hpeers : Prod.fst <$> apiSet P B env (c.peers.flatMap (·.lines w) ++ ['\n'] :: rest) =
      commitAll B env 0 c.peers := by
    cases hp : c.peers with
    | nil => simp [apiSet_blank, commitAll]
    | cons t ts =>
      rw [hp] at hc
      have hblank : ∀ u, Prod.fst <$> apiSetPeer P B env u (['\n'] :: rest) = commitAll B env 0 [u] :=
        fun u => by simp [apiSetPeer_blank, commitPeer_eq]
      rw [apiSet_sections P B env hw hblank t ts hc, commitChain_commit]
  rw [SetCommand.lines, List.append_assoc, List.append_assoc, apiSet_settings P B env hw,
    List.singleton_append, hpeers]
  rfl

/-- A command that sets the port and adds one peer with one network, read back. -/
theorem set_round_trip_one_peer :
    Printers.std.Inverse Parsers.std ∧
      (∀ s ∈ [{ PeerSection.new (.replicate 32 9) with
          allowedIps := [⟨.v4 (.replicate 4 10), 8⟩] }], s.Valid) ∧
      Prod.fst <$> apiSet Parsers.std Backend.plain ⟨0, 0, .replicate 16 0, .replicate 32 0, none, true⟩
          ((⟨[.listenPort 51820], [{ PeerSection.new (.replicate 32 9) with
            allowedIps := [⟨.v4 (.replicate 4 10), 8⟩] }]⟩ : SetCommand).lines Printers.std ++ []) =
        (⟨[.listenPort 51820], [{ PeerSection.new (.replicate 32 9) with
          allowedIps := [⟨.v4 (.replicate 4 10), 8⟩] }]⟩ : SetCommand).run Backend.plain
          ⟨0, 0, .replicate 16 0, .replicate 32 0, none, true⟩ 0 := by
  have hv : ∀ s ∈ [{ PeerSection.new (.replicate 32 9) with
      allowedIps := [⟨.v4 (.replicate 4 10), 8⟩] }], s.Valid := by
    simp [PeerSection.Valid, AllowedIP.Valid, IpAddr.width, IpAddr.isV6]
  exact ⟨Printers.std_inverse, hv, set_round_trip Parsers.std Backend.plain _ Printers.std_inverse _ hv []⟩

/-- A line with no `=` in a peer section is a protocol error. -/
theorem apiSetPeer_malformed {bad : List Char} (hbad : bad ≠ []) (heq : '=' ∉ bad)
    (u : PeerSection) (rest : List (List Char)) :
    apiSetPeer P B env u ((bad ++ ['\n']) :: rest) = pure (eproto, rest) := by
  rw [apiSetPeer.eq_2]
  simp [hbad, splitOnce_of_not_mem heq]

/-- A set command is not atomic: a line that is not `key=value` after a complete
peer section answers `EPROTO` once the settings and the sections before that one
have taken effect, and the section it cuts short is never committed. -/
theorem set_cut_short (hw : w.Inverse P) (c : SetCommand) (t : PeerSection)
    (hc : ∀ s ∈ c.peers ++ [t], s.Valid) {bad : List Char} (hbad : bad ≠ []) (heq : '=' ∉ bad)
    (rest : List (List Char)) :
    Prod.fst <$> apiSet P B env (c.settings.map (·.line w) ++ (c.peers ++ [t]).flatMap (·.lines w) ++
      (bad ++ ['\n']) :: rest) = c.run B env eproto := by
  have hmore : ∀ u, Prod.fst <$> apiSetPeer P B env u ((bad ++ ['\n']) :: rest) = pure eproto :=
    fun u => by rw [apiSetPeer_malformed P B env hbad heq, map_pure]
  obtain ⟨t₀, ts, hts⟩ := List.exists_cons_of_ne_nil (by simp : c.peers ++ [t] ≠ [])
  rw [List.append_assoc, apiSet_settings P B env hw, hts,
    apiSet_sections P B env hw hmore t₀ ts (hts ▸ hc), commitChain_drop, ← hts, List.dropLast_concat]
  rfl

/-- A command that sets the port, then cuts short its one peer section. -/
theorem set_cut_short_after_port :
    Printers.std.Inverse Parsers.std ∧
      (∀ s ∈ ([] : List PeerSection) ++ [PeerSection.new (.replicate 32 9)], s.Valid) ∧
      ['x'] ≠ [] ∧ '=' ∉ ['x'] ∧
      Prod.fst <$> apiSet Parsers.std Backend.plain ⟨0, 0, .replicate 16 0, .replicate 32 0, none, true⟩
          (([Setting.listenPort 51820].map fun l : Setting => l.line Printers.std) ++
            (([] : List PeerSection) ++ [PeerSection.new (.replicate 32 9)]).flatMap
              (fun s : PeerSection => s.lines Printers.std) ++
            (['x'] ++ ['\n']) :: []) =
        (⟨[.listenPort 51820], []⟩ : SetCommand).run Backend.plain
          ⟨0, 0, .replicate 16 0, .replicate 32 0, none, true⟩ eproto := by
  have hv : ∀ s ∈ ([] : List PeerSection) ++ [PeerSection.new (.replicate 32 9)], s.Valid := by
    simp [PeerSection.Valid, PeerSection.new]
  have hbad : ['x'] ≠ [] := by decide
  have heq : '=' ∉ ['x'] := by decide
  exact ⟨Printers.std_inverse, hv, hbad, heq,
    set_cut_short Parsers.std Backend.plain _ Printers.std_inverse ⟨[.listenPort 51820], []⟩ _ hv
      hbad heq []⟩

end Read

end Neptun.Device
