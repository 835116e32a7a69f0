import Neptun.Device.Api
import Neptun.Lib.Text

/-! The text of the values on the configuration interface, as the standard library
writes and reads it: integers in decimal, an IPv4 address as its four octets in
decimal, an IPv6 address as its eight groups in hex, and a socket address as an
address and a port, the IPv6 address in brackets. `Printers.std` writes an IPv6
address in full; `Display` would write its longest run of zero groups as `::`, and
`Parsers.std` reads the full form only. Keys given in base64 are decoded by the
`STANDARD` engine of the `base64` crate. Each value written by `Printers.std` is
read back by `Parsers.std` (`Printers.std_inverse`). -/
namespace Neptun.Device

open Lib Noise

set_option linter.dupNamespace false

/-- A value of a device line: it has no `=` to split at and no white space for
`trim_end` to remove. -/
def Plain (v : List Char) : Prop := ∀ c ∈ v, c ≠ '=' ∧ isWhitespace c = false

theorem plain_iff_all (v : List Char) :
    Plain v ↔ v.all (fun c => c != '=' && !isWhitespace c) = true := by
  simp [Plain, List.all_eq_true]

instance : DecidablePred Plain := fun v => decidable_of_iff _ (plain_iff_all v).symm

/-- What the round trip asks of the standard library: each value is read back by
its parser from how it is written, a number of a device line is plain, and the two
halves of an allowed IP have no `/`. -/
structure Printers.Inverse (w : Printers) (P : Parsers) : Prop where
  u8 : ∀ n, P.u8 (w.u8 n) = some n
  u16 : ∀ n, P.u16 (w.u16 n) = some n
  u32 : ∀ n, P.u32 (w.u32 n) = some n
  ipAddr : ∀ a, P.ipAddr (w.ipAddr a) = some a
  socketAddr : ∀ a, P.socketAddr (w.socketAddr a) = some a
  u16_plain : ∀ n, Plain (w.u16 n)
  u32_plain : ∀ n, Plain (w.u32 n)
  u8_slash : ∀ n, '/' ∉ w.u8 n
  ipAddr_slash : ∀ a, '/' ∉ w.ipAddr a

/-! ### Writing -/

/-- The bytes of an address in pairs, each pair a 16-bit group, high byte first:
`Ipv6Addr::segments`. -/
def byteGroups : List UInt8 → List UInt16
  | hi :: lo :: rest => UInt16.ofNat (hi.toNat * 0x100 + lo.toNat) :: byteGroups rest
  | _ => []

/-- The bytes of 16-bit groups, high byte first. -/
def groupBytes (gs : List UInt16) : List UInt8 :=
  gs.flatMap fun g => [UInt8.ofNat (g.toNat / 0x100), UInt8.ofNat (g.toNat % 0x100)]

def ipv4Text (o : Vector UInt8 4) : List Char := ['.'].intercalate (o.toList.map (numeral 10 ·.toNat))

def ipv6Text (o : Vector UInt8 16) : List Char :=
  [':'].intercalate ((byteGroups o.toList).map (numeral 16 ·.toNat))

def Printers.std : Printers where
  u8 n := numeral 10 n.toNat
  u16 n := numeral 10 n.toNat
  u32 n := numeral 10 n.toNat
  u64 n := numeral 10 n.toNat
  i32 n := if n < 0 then '-' :: numeral 10 n.natAbs else numeral 10 n.toNat
  ipAddr
    | .v4 o => ipv4Text o
    | .v6 o => ipv6Text o
  socketAddr a :=
    match a.ip with
    | .v4 o => ipv4Text o ++ ':' :: numeral 10 a.port.toNat
    | .v6 o => '[' :: ipv6Text o ++ ']' :: ':' :: numeral 10 a.port.toNat

/-! ### Reading -/

/-- A digit read by `read_number`: the checked `result * radix + digit`. -/
def readDigit (radix : UInt32) (bound result : Nat) (c : Char) : Option Nat := do
  let digit ← toDigit c radix
  let result := result * radix.toNat + digit.toNat
  if result < bound then pure result else none

/-- `Parser::read_number` of `core::net`, over a whole field: at least one digit of
the radix, at most `maxDigits` of them, no leading zero unless it is allowed, and a
value below `bound`. -/
def readNumber (radix : UInt32) (maxDigits : Option Nat) (allowZeroPrefix : Bool) (bound : Nat)
    (s : List Char) : Option Nat := do
  let value ← s.foldlM (readDigit radix bound) 0
  if s.isEmpty then none
  else if maxDigits.any (· < s.length) then none
  else if !allowZeroPrefix && s.head? == some '0' && 1 < s.length then none
  else pure value

/-- `from_str` of an unsigned integer type whose values are below `bound`:
`from_str_radix` in base 10, which takes an optional `+` before the digits. -/
def uintFromStr (bound : Nat) (s : List Char) : Option Nat :=
  readNumber 10 none true bound (if s.head? = some '+' then s.tail else s)

/-- `Ipv4Addr::from_str`: four octets in decimal, separated by `.`. -/
def readIpv4 (s : List Char) : Option (Vector UInt8 4) := do
  let octets ← (s.splitOn '.').mapM fun part => (readNumber 10 (some 3) false 0x100 part).map UInt8.ofNat
  if h : octets.length = 4 then pure ⟨octets.toArray, by simpa using h⟩ else none

/-- `Ipv6Addr::from_str` on the full form: eight groups in hex, separated by `:`. -/
def readIpv6 (s : List Char) : Option (Vector UInt8 16) := do
  let groups ← (s.splitOn ':').mapM fun part =>
    (readNumber 16 (some 4) true 0x10000 part).map UInt16.ofNat
  if h : (groupBytes groups).length = 16 then pure ⟨(groupBytes groups).toArray, by simpa using h⟩
  else none

/-- `IpAddr::from_str`: an IPv4 address, else an IPv6 one. -/
def readIpAddr (s : List Char) : Option IpAddr :=
  ((readIpv4 s).map .v4).orElse fun _ => (readIpv6 s).map .v6

/-- `SocketAddr::from_str`: `ip:port`, an IPv6 address in brackets; the port in
decimal, leading zeros allowed. -/
def readSocketAddr (s : List Char) : Option SocketAddr :=
  if s.head? = some '[' then do
    let (ip, after) ← splitOnce ']' s.tail
    if after.head? = some ':' then do
      let a ← readIpv6 ip
      let port ← readNumber 10 none true 0x10000 after.tail
      pure ⟨.v6 a, UInt16.ofNat port⟩
    else none
  else do
    let (ip, port) ← splitOnce ':' s
    let a ← readIpv4 ip
    let port ← readNumber 10 none true 0x10000 port
    pure ⟨.v4 a, UInt16.ofNat port⟩

/-- The value of a character of the standard alphabet of RFC 4648. -/
def base64Value (c : Char) : Option Nat :=
  if 'A' ≤ c ∧ c ≤ 'Z' then some (c.toNat - 65)
  else if 'a' ≤ c ∧ c ≤ 'z' then some (c.toNat - 71)
  else if '0' ≤ c ∧ c ≤ '9' then some (c.toNat + 4)
  else if c = '+' then some 62
  else if c = '/' then some 63
  else none

/-- The `STANDARD` engine of the `base64` crate: the padding is canonical, and no
bit is set past the last byte. `decode_slice` into a buffer of `n` bytes fails if
the bytes do not fit. -/
def Base64.standard : Base64 where
  decodeSlice s n := do
    let body := (s.reverse.dropWhile (· = '=')).reverse
    -- the padding brings the length to a multiple of four
    if s.length % 4 ≠ 0 ∨ body.length % 4 = 1 ∨ s.length - body.length ≠ (4 - body.length % 4) % 4 then
      throw ()
    let values ← (body.mapM base64Value).elim (throw ()) pure
    let value := values.foldl (fun acc v => acc * 64 + v) 0
    let len := body.length * 6 / 8
    let extra := body.length * 6 - len * 8
    if value % 2 ^ extra ≠ 0 then throw ()
    if n < len then throw ()
    pure (beBytes len (value / 2 ^ extra))

def Parsers.std : Parsers where
  u8 s := (uintFromStr 0x100 s).map UInt8.ofNat
  u16 s := (uintFromStr 0x10000 s).map UInt16.ofNat
  u32 s := (uintFromStr 0x100000000 s).map UInt32.ofNat
  ipAddr := readIpAddr
  socketAddr := readSocketAddr
  base64 := Base64.standard

/-! ### Reading back -/

theorem toDigit_digitChar_ten : ∀ d < 10, toDigit (digitChar d) 10 = some (UInt32.ofNat d) := by
  decide

theorem toDigit_digitChar_hex : ∀ d < 16, toDigit (digitChar d) 16 = some (UInt32.ofNat d) := by
  decide

/-- What the fields of an address are joined and split at, and what ends a
line, is not a digit. -/
theorem digitChar_not_sep :
    ∀ d < 16, digitChar d ≠ '.' ∧ digitChar d ≠ ':' ∧ digitChar d ≠ ']' ∧ digitChar d ≠ '/' ∧
      digitChar d ≠ '[' ∧ digitChar d ≠ '+' ∧ digitChar d ≠ '=' ∧ isWhitespace (digitChar d) = false := by
  decide

section Numbers

variable {radix : UInt32} (hr : 1 < radix.toNat) (hr16 : radix.toNat ≤ 16)
  (hdigit : ∀ d < radix.toNat, toDigit (digitChar d) radix = some (UInt32.ofNat d))
include hr hr16 hdigit

/-- `read_number` reads a numeral of the radix, whatever bound it has on its digits
that the number meets. -/
theorem readNumber_numeral {bound n : Nat} (hn : n < bound) {maxDigits : Option Nat}
    (hmax : ∀ k, maxDigits = some k → 0 < k ∧ n < radix.toNat ^ k) (z : Bool) :
    readNumber radix maxDigits z bound (numeral radix.toNat n) = some n := by
  have hstep : ReadsDigits radix.toNat (bound - 1) (readDigit radix bound) := by
    intro acc d hd hle
    have hd32 : (UInt32.ofNat d).toNat = d := by rw [UInt32.toNat_ofNat']; omega
    simp only [readDigit, hdigit d hd, hd32, Option.bind_eq_bind, Option.bind_some]
    rw [if_pos (by omega)]
  have hfold := foldlM_numeral hstep hr (by omega : n ≤ bound - 1)
  have hne := numeral_ne_nil radix.toNat n
  -- no more digits than allowed, and no leading zero
  have hlen : maxDigits.any (· < (numeral radix.toNat n).length) = false := by
    cases maxDigits with
    | none => rfl
    | some k =>
      obtain ⟨hk, hlt⟩ := hmax k rfl
      simpa using length_numeral_le hr hk hlt
  have hzero : (!z && (numeral radix.toNat n).head? == some '0' &&
      decide (1 < (numeral radix.toNat n).length)) = false := by
    obtain ⟨c, cs, hcs⟩ := List.exists_cons_of_ne_nil hne
    by_cases hc : c = '0'
    · subst hc
      simp [hcs, numeral_eq_zero_cons hr hr16 hcs]
    · simp [hcs, hc]
  simp only [readNumber, hfold, hlen, hzero, List.isEmpty_iff, hne]
  rfl

end Numbers

theorem readNumber_ten {bound n : Nat} (hn : n < bound) {maxDigits : Option Nat}
    (hmax : ∀ k, maxDigits = some k → 0 < k ∧ n < 10 ^ k) (z : Bool) :
    readNumber 10 maxDigits z bound (numeral 10 n) = some n :=
  readNumber_numeral (by decide : 1 < (10 : UInt32).toNat) (by decide) toDigit_digitChar_ten hn hmax z

theorem readNumber_hex {bound n : Nat} (hn : n < bound) {maxDigits : Option Nat}
    (hmax : ∀ k, maxDigits = some k → 0 < k ∧ n < 16 ^ k) (z : Bool) :
    readNumber 16 maxDigits z bound (numeral 16 n) = some n :=
  readNumber_numeral (by decide : 1 < (16 : UInt32).toNat) (by decide) toDigit_digitChar_hex hn hmax z

theorem uintFromStr_numeral {bound n : Nat} (hn : n < bound) : uintFromStr bound (numeral 10 n) = some n := by
  -- a numeral has no sign
  obtain ⟨c, cs, hcs⟩ := List.exists_cons_of_ne_nil (numeral_ne_nil 10 n)
  have hc : c ≠ '+' := numeral_all (b := 10) (p := (· ≠ '+'))
    (fun d hd => (digitChar_not_sep d hd).2.2.2.2.2.1) (by decide) (by decide) n c (by simp [hcs])
  rw [uintFromStr, if_neg (by simp [hcs, hc])]
  exact readNumber_ten hn (fun _ h => absurd h (by simp)) true

/-! ### Addresses read back -/

theorem length_byteGroups : ∀ l : List UInt8, (byteGroups l).length = l.length / 2
  | [] => rfl
  | [_] => by simp [byteGroups]
  | _ :: _ :: rest => by
    rw [byteGroups, List.length_cons, length_byteGroups rest]
    simp only [List.length_cons]
    omega

theorem groupBytes_byteGroups : ∀ l : List UInt8, l.length % 2 = 0 → groupBytes (byteGroups l) = l
  | [], _ => rfl
  | [_], h => absurd h (by simp)
  | hi :: lo :: rest, h => by
    have hhi := hi.toNat_lt
    have hlo := lo.toNat_lt
    -- the group of a pair of bytes gives them back
    have hv : (UInt16.ofNat (hi.toNat * 0x100 + lo.toNat)).toNat = hi.toNat * 0x100 + lo.toNat := by
      rw [UInt16.toNat_ofNat']
      omega
    have hdiv : (hi.toNat * 0x100 + lo.toNat) / 0x100 = hi.toNat := by omega
    have hmod : (hi.toNat * 0x100 + lo.toNat) % 0x100 = lo.toNat := by omega
    have hrest := groupBytes_byteGroups rest (by simp only [List.length_cons] at h; omega)
    simp only [groupBytes, byteGroups, List.flatMap_cons, hv, hdiv, hmod, UInt8.ofNat_toNat] at hrest ⊢
    rw [hrest]
    rfl

/-- The characters of a written IPv4 address are its separators and digits. -/
theorem ipv4Text_all {p : Char → Prop} (hsep : p '.') (hdigit : ∀ d < 16, p (digitChar d))
    (o : Vector UInt8 4) : ∀ c ∈ ipv4Text o, p c := by
  intro c hc
  rcases mem_intercalate_map hc with rfl | ⟨b, -, hc⟩
  · exact hsep
  · exact numeral_all hdigit (by decide) (by decide) _ c hc

theorem ipv6Text_all {p : Char → Prop} (hsep : p ':') (hdigit : ∀ d < 16, p (digitChar d))
    (o : Vector UInt8 16) : ∀ c ∈ ipv6Text o, p c := by
  intro c hc
  rcases mem_intercalate_map hc with rfl | ⟨g, -, hc⟩
  · exact hsep
  · exact numeral_all hdigit (by decide) (by decide) _ c hc

theorem readIpv4_ipv4Text (o : Vector UInt8 4) : readIpv4 (ipv4Text o) = some o := by
  have hsplit : (ipv4Text o).splitOn '.' = o.toList.map (numeral 10 ·.toNat) :=
    splitOn_intercalate_map
      (fun _ => numeral_not_mem (fun d hd => (digitChar_not_sep d hd).1) (by decide) (by decide) _)
      (by simp)
  -- each octet is read back: at most three digits, no leading zero
  have hoctet : ∀ b : UInt8,
      (readNumber 10 (some 3) false 0x100 (numeral 10 b.toNat)).map UInt8.ofNat = some b := by
    intro b
    have hb := b.toNat_lt
    rw [readNumber_ten hb (fun k hk => by cases hk; exact ⟨by decide, by omega⟩) false]
    simp
  have hread := mapM_map_of_inverse (f := (numeral 10 ·.toNat))
    (g := fun part => (readNumber 10 (some 3) false 0x100 part).map UInt8.ofNat) hoctet o.toList
  simp only [readIpv4, hsplit, hread, Option.bind_eq_bind, Option.bind_some, Vector.length_toList,
    dite_true]
  exact congrArg some (Vector.mk_eq.mpr rfl)

theorem readIpv6_ipv6Text (o : Vector UInt8 16) : readIpv6 (ipv6Text o) = some o := by
  have hsplit : (ipv6Text o).splitOn ':' = (byteGroups o.toList).map (numeral 16 ·.toNat) :=
    splitOn_intercalate_map
      (fun _ => numeral_not_mem (fun d hd => (digitChar_not_sep d hd).2.1) (by decide) (by decide) _)
      (by simp [← List.length_pos_iff, length_byteGroups])
  -- each group is read back: at most four digits
  have hgroup : ∀ g : UInt16,
      (readNumber 16 (some 4) true 0x10000 (numeral 16 g.toNat)).map UInt16.ofNat = some g := by
    intro g
    have hg := g.toNat_lt
    rw [readNumber_hex hg (fun k hk => by cases hk; exact ⟨by decide, by omega⟩) true]
    simp
  have hbytes : groupBytes (byteGroups o.toList) = o.toList := groupBytes_byteGroups _ (by simp)
  have hread := mapM_map_of_inverse (f := (numeral 16 ·.toNat))
    (g := fun part => (readNumber 16 (some 4) true 0x10000 part).map UInt16.ofNat) hgroup
    (byteGroups o.toList)
  simp only [readIpv6, hsplit, hread, Option.bind_eq_bind, Option.bind_some, hbytes,
    Vector.length_toList, dite_true]
  exact congrArg some (Vector.mk_eq.mpr rfl)

theorem readIpAddr_text (a : IpAddr) : readIpAddr (Printers.std.ipAddr a) = some a := by
  cases a with
  | v4 o => simp [readIpAddr, Printers.std, readIpv4_ipv4Text]
  | v6 o =>
    -- an IPv6 address has no `.`: it is one field, not the four of an IPv4 address
    have hsplit : (ipv6Text o).splitOn '.' = [ipv6Text o] := by
      rw [List.splitOn, List.splitOnP_eq_singleton]
      intro c hc
      exact beq_eq_false_iff_ne.mpr (ipv6Text_all (p := (· ≠ '.')) (by decide)
        (fun d hd => (digitChar_not_sep d hd).1) o c hc)
    have hv4 : readIpv4 (ipv6Text o) = none := by
      simp only [readIpv4, hsplit, List.mapM_cons, List.mapM_nil]
      cases readNumber 10 (some 3) false 0x100 (ipv6Text o) <;> simp
    simp [readIpAddr, Printers.std, hv4, readIpv6_ipv6Text]

theorem readSocketAddr_text (a : SocketAddr) : readSocketAddr (Printers.std.socketAddr a) = some a := by
  obtain ⟨ip, port⟩ := a
  have hport : readNumber 10 none true 0x10000 (numeral 10 port.toNat) = some port.toNat :=
    readNumber_ten port.toNat_lt (fun _ h => absurd h (by simp)) true
  cases ip with
  | v4 o =>
    -- no `[` in front, and the first `:` ends the address
    have hhead : (ipv4Text o ++ ':' :: numeral 10 port.toNat).head? ≠ some '[' := by
      cases h : ipv4Text o with
      | nil => simp
      | cons c cs =>
        have hc := ipv4Text_all (p := (· ≠ '[')) (by decide) (fun d hd => (digitChar_not_sep d hd).2.2.2.2.1)
          o c (by simp [h])
        simpa using hc
    have hsplit : splitOnce ':' (ipv4Text o ++ ':' :: numeral 10 port.toNat) =
        some (ipv4Text o, numeral 10 port.toNat) :=
      splitOnce_append_cons (fun hc => ipv4Text_all (p := (· ≠ ':')) (by decide)
        (fun d hd => (digitChar_not_sep d hd).2.1) o ':' hc rfl) _
    rw [show Printers.std.socketAddr ⟨.v4 o, port⟩ = ipv4Text o ++ ':' :: numeral 10 port.toNat from rfl,
      readSocketAddr, if_neg hhead]
    simp [hsplit, readIpv4_ipv4Text, hport]
  | v6 o =>
    have hsplit : splitOnce ']' (ipv6Text o ++ ']' :: ':' :: numeral 10 port.toNat) =
        some (ipv6Text o, ':' :: numeral 10 port.toNat) :=
      splitOnce_append_cons (fun hc => ipv6Text_all (p := (· ≠ ']')) (by decide)
        (fun d hd => (digitChar_not_sep d hd).2.2.1) o ']' hc rfl) _
    simp [readSocketAddr, Printers.std, hsplit, readIpv6_ipv6Text, hport]

/-- What `Printers.std` writes, `Parsers.std` reads back. -/
theorem Printers.std_inverse : Printers.std.Inverse Parsers.std where
  u8 n := by simp [Printers.std, Parsers.std, uintFromStr_numeral n.toNat_lt]
  u16 n := by simp [Printers.std, Parsers.std, uintFromStr_numeral n.toNat_lt]
  u32 n := by simp [Printers.std, Parsers.std, uintFromStr_numeral n.toNat_lt]
  ipAddr := readIpAddr_text
  socketAddr := readSocketAddr_text
  u16_plain n := numeral_all (fun d hd => (digitChar_not_sep d hd).2.2.2.2.2.2) (by decide) (by decide) _
  u32_plain n := numeral_all (fun d hd => (digitChar_not_sep d hd).2.2.2.2.2.2) (by decide) (by decide) _
  u8_slash n := numeral_not_mem (fun d hd => (digitChar_not_sep d hd).2.2.2.1) (by decide) (by decide) _
  ipAddr_slash a := by
    intro h
    cases a with
    | v4 o =>
      exact ipv4Text_all (p := (· ≠ '/')) (by decide) (fun d hd => (digitChar_not_sep d hd).2.2.2.1)
        o '/' h rfl
    | v6 o =>
      exact ipv6Text_all (p := (· ≠ '/')) (by decide) (fun d hd => (digitChar_not_sep d hd).2.2.2.1)
        o '/' h rfl

end Neptun.Device
