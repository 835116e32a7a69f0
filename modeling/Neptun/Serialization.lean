import Neptun.Lib.Slice

/-! `KeyBytes::from_str` reads a key given on the configuration interface, as 64
hex digits or as 44 characters of padded base64. Each pair of hex digits goes
through `u8::from_str_radix`, which the standard library defines to take an
optional leading `+`: a pair such as `+7` is read as the byte 7. -/
namespace Neptun

open Lib

/-- The kinds of `ParseIntError` that `from_str_radix` on an unsigned type returns. -/
inductive IntErrorKind where
  | empty
  | invalidDigit
  | posOverflow
  deriving DecidableEq, Repr

/-- `char::to_digit`. -/
def toDigit (c : Char) (radix : UInt32) : Option UInt32 :=
  -- anything that is not a digit comes out at or above the radix
  let digit := c.val - '0'.val
  if radix > 10 ∧ ¬ digit < 10 then
    -- setting the sixth bit folds upper case onto lower case
    let d := (c.val ||| 0x20) - 'a'.val
    let digit := if d ≤ 0xFFFFFFFF - 10 then d + 10 else 0xFFFFFFFF
    if digit < radix then some digit else none
  else if digit < radix then some digit else none

/-- `u8::from_str_radix`: an optional sign, then digits, with overflow checked. -/
def u8FromStrRadix (src : List Char) (radix : UInt32) : Except IntErrorKind UInt8 := do
  let digits ← match src with
    | [] => throw .empty
    | ['+'] | ['-'] => throw .invalidDigit
    | '+' :: rest => pure rest
    -- an unsigned type takes no minus sign: it is read as a digit and refused
    | _ => pure src
  let value ← digits.foldlM (fun result c => do
      let some x := toDigit c radix | throw .invalidDigit
      let result := result * radix.toNat + x.toNat
      if result < 256 then pure result else throw .posOverflow) 0
  pure (UInt8.ofNat value)

/-- `char::is_ascii`. -/
def isAscii (c : Char) : Bool := c.val < 128

/-- The `base64` crate's `STANDARD` engine, which is not part of this repository:
`decode_slice` into a buffer of `n` bytes gives the bytes it wrote, or fails. -/
structure Base64 where
  decodeSlice : List Char → Nat → Except Unit (List UInt8)

/-- `KeyBytes::from_str`. -/
def KeyBytes.fromStr (b64 : Base64) (s : List Char) : Except String (Vector UInt8 32) := do
  if !s.all isAscii then throw "Key must be ASCII encoded"
  match s.length with
  | 64 =>
    -- each byte of the key from its own pair of characters
    Vector.ofFnM fun (i : Fin 32) => do
      let some pair := getRange s (i * 2) (i * 2 + 2) | throw "String Index out of bounds"
      match u8FromStrRadix pair 16 with
      | .ok b => pure b
      | .error _ => throw "Illegal character in key"
  | 44 =>
    match b64.decodeSlice s 32 with
    | .ok bytes =>
      if h : bytes.length = 32 then pure ⟨bytes.toArray, by simpa using h⟩
      else throw "Decoded key has wrong length"
    | .error _ => throw "Failed to decode base64"
  | _ => throw "Illegal key size"

/-! ## Keys written as pairs -/

/-- The lower-case hex digit of a nibble. -/
def hexDigit (d : Fin 16) : Char :=
  if d.val < 10 then Char.ofNat (48 + d.val) else Char.ofNat (87 + d.val)

/-- The two hex digits of a byte. -/
def hexPair (b : UInt8) : List Char :=
  [hexDigit ⟨b.toNat / 16, by have := b.toNat_lt; omega⟩, hexDigit ⟨b.toNat % 16, by omega⟩]

/-- A key as 64 hex digits. -/
def hexString (k : Vector UInt8 32) : List Char := (k.toList.map hexPair).flatten

/-- A key whose bytes are all below 16, each byte written as `+` and its digit. -/
def plusSignedHex (k : Vector (Fin 16) 32) : List Char :=
  (k.toList.map fun d => ['+', hexDigit d]).flatten

theorem toDigit_hexDigit : ∀ d : Fin 16, toDigit (hexDigit d) 16 = some (UInt32.ofNat d) := by
  decide

theorem hexDigit_ne_plus : ∀ d : Fin 16, hexDigit d ≠ '+' := by
  decide

/-- Two digits read as one number. -/
theorem u8FromStrRadix_digits {c₁ c₂ : Char} {x₁ x₂ : UInt32} (hc : c₁ ≠ '+')
    (h₁ : toDigit c₁ 16 = some x₁) (h₂ : toDigit c₂ 16 = some x₂)
    (hlt : x₁.toNat * 16 + x₂.toNat < 256) :
    u8FromStrRadix [c₁, c₂] 16 = .ok (UInt8.ofNat (x₁.toNat * 16 + x₂.toNat)) := by
  have h0 : x₁.toNat < 256 := by omega
  simp [u8FromStrRadix, hc, h₁, h₂, h0, hlt]
  rfl

/-- A sign and one digit read as that digit. -/
theorem u8FromStrRadix_plus {c : Char} {x : UInt32} (h : toDigit c 16 = some x)
    (hlt : x.toNat < 256) : u8FromStrRadix ['+', c] 16 = .ok (UInt8.ofNat x.toNat) := by
  simp [u8FromStrRadix, h, hlt]
  rfl

theorem u8FromStrRadix_hexPair (b : UInt8) : u8FromStrRadix (hexPair b) 16 = .ok b := by
  have hb := b.toNat_lt
  have hdigits := u8FromStrRadix_digits (hexDigit_ne_plus _) (toDigit_hexDigit ⟨b.toNat / 16, by omega⟩)
    (toDigit_hexDigit ⟨b.toNat % 16, by omega⟩) (by simp; omega)
  have h1 : (UInt32.ofNat (b.toNat / 16)).toNat = b.toNat / 16 := by
    rw [UInt32.toNat_ofNat']
    omega
  have h2 : (UInt32.ofNat (b.toNat % 16)).toNat = b.toNat % 16 := by
    rw [UInt32.toNat_ofNat']
    omega
  rw [hexPair, hdigits]
  simp only [h1, h2, show b.toNat / 16 * 16 + b.toNat % 16 = b.toNat by omega, UInt8.ofNat_toNat]

/-- A string of 32 pairs of ASCII characters, each pair read by `from_str_radix`
as one byte, is the key of those bytes. -/
theorem fromStr_of_pairs (b64 : Base64) (ps : Vector (List Char) 32) (bytes : Vector UInt8 32)
    (hlen : ∀ p ∈ ps.toList, p.length = 2) (hascii : ∀ p ∈ ps.toList, p.all isAscii = true)
    (hparse : ∀ i : Fin 32, u8FromStrRadix ps[i] 16 = .ok bytes[i]) :
    KeyBytes.fromStr b64 ps.toList.flatten = .ok bytes := by
  have hs : ps.toList.flatten.length = 64 := by
    rw [List.length_flatten, List.map_congr_left (g := fun _ => 2) hlen]
    simp
  have hall : ps.toList.flatten.all isAscii = true := by
    rw [List.all_eq_true]
    intro c hc
    obtain ⟨p, hp, hcp⟩ := List.mem_flatten.mp hc
    exact List.all_eq_true.mp (hascii p hp) c hcp
  have hpair : ∀ i : Fin 32, getRange ps.toList.flatten (i * 2) (i * 2 + 2) = some ps[i] := by
    intro i
    rw [getRange_flatten_pairs _ hlen i (by simp)]
    simp
  simp only [KeyBytes.fromStr, hall, Bool.not_true, hs]
  have hbytes : Vector.ofFn (fun i : Fin 32 => bytes[i.val]) = bytes := Vector.ofFn_getElem
  rw [← hbytes]
  refine ofFnM_except_ok fun i => ?_
  have hi := hparse i
  simp only [Fin.getElem_fin] at hi
  simp [hpair i, hi]
  rfl

theorem hexDigit_isAscii : ∀ d : Fin 16, isAscii (hexDigit d) = true := by
  decide

/-- Every key is read back from its 64 hex digits. -/
theorem fromStr_hexString (b64 : Base64) (k : Vector UInt8 32) :
    KeyBytes.fromStr b64 (hexString k) = .ok k := by
  rw [hexString, ← Vector.toList_map]
  refine fromStr_of_pairs b64 (k.map hexPair) k ?_ ?_ fun i => ?_
  · intro p hp
    simp only [Vector.toList_map, List.mem_map] at hp
    obtain ⟨b, -, rfl⟩ := hp
    rfl
  · intro p hp
    simp only [Vector.toList_map, List.mem_map] at hp
    obtain ⟨b, -, rfl⟩ := hp
    simp [hexPair, hexDigit_isAscii]
  · simp [u8FromStrRadix_hexPair]

/-- A key whose bytes are all below 16 is also read from the 64 characters that
write each byte as `+` and one hex digit, which are not hex digits. -/
theorem plus_signed_key_accepted (b64 : Base64) (k : Vector (Fin 16) 32) :
    KeyBytes.fromStr b64 (plusSignedHex k) = .ok (k.map fun d => UInt8.ofNat d.val) ∧
      '+' ∈ plusSignedHex k := by
  refine ⟨?_, ?_⟩
  · rw [plusSignedHex, ← Vector.toList_map]
    refine fromStr_of_pairs b64 (k.map fun d => ['+', hexDigit d]) _ ?_ ?_ fun i => ?_
    · intro p hp
      simp only [Vector.toList_map, List.mem_map] at hp
      obtain ⟨d, -, rfl⟩ := hp
      rfl
    · intro p hp
      simp only [Vector.toList_map, List.mem_map] at hp
      obtain ⟨d, -, rfl⟩ := hp
      simp [hexDigit_isAscii]
      rfl
    · have hd := (k[i]).isLt
      simp only [Fin.getElem_fin, Vector.getElem_map]
      rw [u8FromStrRadix_plus (toDigit_hexDigit _) (by simp; omega)]
      simp only [UInt32.toNat_ofNat', Nat.mod_eq_of_lt (show k[i.val].val < 2 ^ 32 by omega)]
  · exact List.mem_flatten.mpr ⟨['+', hexDigit k[0]], List.mem_map.mpr ⟨k[0], by simp, rfl⟩, by simp⟩

end Neptun
