import Mathlib

/-! Maps of words that are linear over GF(2), that is that distribute over xor,
given by the images of the single bits. Composing two such maps composes the
lists of images, so that the `k`-th iterate of a map is computed by squaring,
in as many compositions as `k` has binary digits. -/
namespace Neptun.Lib

/-- The linear map whose image of bit `i` is `imgs[i]`, at `s`: the xor of the
images of the bits set in `s`. -/
def linApply : List Nat → Nat → Nat
  | [], _ => 0
  | m :: ms, s => (if s % 2 = 1 then m else 0) ^^^ linApply ms (s / 2)

/-- The images of the bits under the composition: `linApply a` after `linApply b`. -/
def linComp (a b : List Nat) : List Nat := b.map (linApply a)

/-- Square and multiply along the binary digits that follow a leading one, most
significant first. -/
def powBits (a : List Nat) (bs : List Bool) : List Nat :=
  bs.foldl (fun h b => if b then linComp a (linComp h h) else linComp h h) a

/-- The exponent that `powBits` computes: a leading one followed by `bs`. -/
def expOfBits (bs : List Bool) : Nat :=
  bs.foldl (fun k b => 2 * k + if b then 1 else 0) 1

/-- The binary digits of `k` after its leading one, most significant first, read
from the `fuel` low digits. -/
def digitsAfterLead : Nat → Nat → List Bool
  | 0, _ => []
  | fuel + 1, k => if k < 2 then [] else digitsAfterLead fuel (k / 2) ++ [decide (k % 2 = 1)]

theorem linApply_zero (a : List Nat) : linApply a 0 = 0 := by
  induction a with
  | nil => rfl
  | cons m ms ih => simp [linApply, ih]

/-- The image of bit 0 of `x ^^^ y` is the xor of the images of bit 0 of each. -/
theorem ite_xor_mod_two (x y m : Nat) :
    (if (x ^^^ y) % 2 = 1 then m else 0) =
      (if x % 2 = 1 then m else 0) ^^^ (if y % 2 = 1 then m else 0) := by
  by_cases hx : x % 2 = 1 <;> by_cases hy : y % 2 = 1 <;> simp [Nat.xor_mod_two_eq, hx, hy] <;> omega

theorem xor_xor_xor_comm (p q a b : Nat) : (p ^^^ q) ^^^ (a ^^^ b) = (p ^^^ a) ^^^ (q ^^^ b) := by
  rw [Nat.xor_assoc, ← Nat.xor_assoc q, Nat.xor_comm q a, Nat.xor_assoc a, ← Nat.xor_assoc p]

theorem linApply_xor (a : List Nat) (x y : Nat) :
    linApply a (x ^^^ y) = linApply a x ^^^ linApply a y := by
  induction a generalizing x y with
  | nil => simp [linApply]
  | cons m ms ih => rw [linApply, linApply, linApply, Nat.xor_div_two, ih, ite_xor_mod_two,
      xor_xor_xor_comm]

theorem linApply_ite (a : List Nat) (p : Prop) [Decidable p] (m : Nat) :
    linApply a (if p then m else 0) = if p then linApply a m else 0 := by
  split
  · rfl
  · exact linApply_zero a

theorem linApply_linComp (a b : List Nat) (s : Nat) :
    linApply (linComp a b) s = linApply a (linApply b s) := by
  induction b generalizing s with
  | nil => exact (linApply_zero a).symm
  | cons m ms ih =>
    have hcons : linComp a (m :: ms) = linApply a m :: linComp a ms := rfl
    rw [hcons, linApply, linApply, ih, linApply_xor, linApply_ite]

theorem mod_two_xor_two_mul (s : Nat) : s % 2 ^^^ 2 * (s / 2) = s := by
  apply Nat.eq_of_testBit_eq
  intro i
  cases i with
  | zero => simp [Nat.testBit_zero]
  | succ i => simp [Nat.testBit_succ, Nat.xor_div_two]

theorem two_mul_xor (x y : Nat) : 2 * (x ^^^ y) = 2 * x ^^^ 2 * y := by
  apply Nat.eq_of_testBit_eq
  intro i
  cases i with
  | zero => simp [Nat.testBit_zero]
  | succ i => simp [Nat.testBit_succ, Nat.xor_div_two]

/-- A map of `n`-bit words that distributes over xor is the linear map of its
images of the single bits. -/
theorem linApply_images {f : Nat → Nat} (hf : ∀ x y, f (x ^^^ y) = f x ^^^ f y) (n : Nat) :
    ∀ s < 2 ^ n, linApply ((List.range n).map fun i => f (2 ^ i)) s = f s := by
  induction n generalizing f with
  | zero =>
    intro s hs
    have h0 : f 0 = 0 := by simpa using hf 0 0
    rw [show s = 0 by omega, List.range_zero, List.map_nil, linApply, h0]
  | succ n ih =>
    intro s hs
    -- the higher bits are the bits of `s / 2` under `f` after doubling
    have hg := ih (f := fun x => f (2 * x)) (fun x y => by rw [two_mul_xor, hf]) (s / 2)
      (by rw [Nat.pow_succ] at hs; omega)
    have hbit : (if s % 2 = 1 then f 1 else 0) = f (s % 2) := by
      split
      · rename_i h
        rw [h]
      · rename_i h
        rw [show s % 2 = 0 by omega]
        simpa using (hf 0 0).symm
    rw [List.range_succ_eq_map, List.map_cons, List.map_map, linApply, pow_zero]
    simp only [Function.comp_def, pow_succ, Nat.mul_comm _ 2] at hg ⊢
    rw [hg, hbit, ← hf, mod_two_xor_two_mul]

/-- Squaring and multiplying computes the iterate. -/
theorem linApply_powBits (a : List Nat) (bs : List Bool) (s : Nat) :
    linApply (powBits a bs) s = (linApply a)^[expOfBits bs] s := by
  -- the accumulator computes the iterate of the exponent read so far
  suffices h : ∀ (h : List Nat) (k : Nat), (∀ s, linApply h s = (linApply a)^[k] s) →
      ∀ s, linApply (bs.foldl (fun h b => if b then linComp a (linComp h h) else linComp h h) h) s =
        (linApply a)^[bs.foldl (fun k b => 2 * k + if b then 1 else 0) k] s from
    h a 1 (fun s => rfl) s
  induction bs with
  | nil => exact fun h k hk => hk
  | cons b bs ih =>
    intro h k hk
    apply ih
    intro s
    have hsq : ∀ s, linApply (linComp h h) s = (linApply a)^[2 * k] s := by
      intro s
      rw [linApply_linComp, hk, hk, two_mul, Function.iterate_add_apply]
    cases b with
    | false => exact hsq s
    | true =>
      simp only [↓reduceIte]
      rw [linApply_linComp, hsq, Nat.add_comm, Function.iterate_add_apply]
      rfl

end Neptun.Lib
