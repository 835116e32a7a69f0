import Mathlib
import Neptun.Lib.Imperative

/-! Rust slices as lists, with the bounds each operation checks. The indexing
forms (`split_at`, `&xs[a..b]`, `copy_from_slice`) panic out of range; the
checked forms (`get`, `split_at_mut_checked`, `try_into`) return `none`. The
panicking forms are stated over any monad that can throw a `Fault`, so that pure
and stateful code use the same ones. -/
namespace Neptun.Lib

section Checked

variable {α : Type}

/-- `xs.get(a..b)`. -/
def getRange (xs : List α) (a b : Nat) : Option (List α) :=
  if a ≤ b ∧ b ≤ xs.length then some ((xs.drop a).take (b - a)) else none

/-- `xs.split_at_mut_checked(n)`. -/
def splitAtChecked (xs : List α) (n : Nat) : Option (List α × List α) :=
  if n ≤ xs.length then some (xs.take n, xs.drop n) else none

/-- `<[T; n]>::try_from(xs)`. -/
def tryIntoArray (xs : List α) (n : Nat) : Option (Vector α n) :=
  if h : xs.length = n then some ⟨xs.toArray, by simpa using h⟩ else none

theorem getRange_of_le {xs : List α} {a b : Nat} (hab : a ≤ b) (hb : b ≤ xs.length) :
    getRange xs a b = some ((xs.drop a).take (b - a)) := by
  simp [getRange, hab, hb]

theorem getRange_eq_none {xs : List α} {a b : Nat} (hb : xs.length < b) :
    getRange xs a b = none := by
  simp [getRange]
  omega

@[simp] theorem length_of_getRange {xs ys : List α} {a b : Nat} (h : getRange xs a b = some ys) :
    ys.length = b - a := by
  unfold getRange at h
  split at h
  · cases h
    simp
    omega
  · cases h

theorem getRange_append_left {xs ys : List α} {a b : Nat} (hab : a ≤ b) (hb : b ≤ xs.length) :
    getRange (xs ++ ys) a b = getRange xs a b := by
  have hb' : b ≤ (xs ++ ys).length := by simp; omega
  rw [getRange_of_le hab hb', getRange_of_le hab hb, List.drop_append_of_le_length (by omega),
    List.take_append_of_le_length (by simp; omega)]

theorem getRange_append_of_le {xs ys : List α} {a b : Nat} (h : xs.length ≤ a) (hab : a ≤ b) :
    getRange (xs ++ ys) a b = getRange ys (a - xs.length) (b - xs.length) := by
  have hdrop : (xs ++ ys).drop a = ys.drop (a - xs.length) := by
    rw [List.drop_append, List.drop_eq_nil_of_le h, List.nil_append]
  by_cases hb : b ≤ xs.length + ys.length
  · rw [getRange_of_le hab (by simpa using hb), getRange_of_le (by omega) (by omega), hdrop,
      show b - xs.length - (a - xs.length) = b - a by omega]
  · rw [getRange_eq_none (by simp; omega), getRange_eq_none (by omega)]

theorem getRange_self {xs : List α} {n : Nat} (h : xs.length = n) : getRange xs 0 n = some xs := by
  rw [getRange_of_le (Nat.zero_le n) (by omega)]
  subst h
  simp

theorem tryIntoArray_of_length {xs : List α} {n : Nat} (h : xs.length = n) :
    tryIntoArray xs n = some ⟨xs.toArray, by simpa using h⟩ := by
  simp [tryIntoArray, h]

@[simp] theorem vector_mk_toList {n : Nat} (v : Vector α n) (h : v.toList.toArray.size = n) :
    Vector.mk v.toList.toArray h = v := by
  ext i hi
  simp

theorem splitAtChecked_of_le {xs : List α} {n : Nat} (h : n ≤ xs.length) :
    splitAtChecked xs n = some (xs.take n, xs.drop n) := by
  simp [splitAtChecked, h]

/-- A buffer of at least `n` bytes is `n` bytes followed by the rest: the shape
in which a chain of `split_at_mut` takes it apart. -/
theorem exists_split {l : List α} {n : Nat} (h : n ≤ l.length) :
    ∃ a b, l = a ++ b ∧ a.length = n :=
  ⟨l.take n, l.drop n, (List.take_append_drop n l).symm, by simp; omega⟩

end Checked

section Panicking

variable {ε : Type} {m : Type → Type} [Monad m] [MonadExcept (Fault ε) m] {α : Type}

/-- Unwrap a value the code indexes without checking: `none` is a panic. -/
def orPanic (x : Option α) : m α :=
  match x with
  | some a => pure a
  | none => throw .panic

/-- `xs.split_at(n)` and `xs.split_at_mut(n)`. -/
def splitAt (xs : List α) (n : Nat) : m (List α × List α) :=
  orPanic (splitAtChecked xs n)

/-- `&xs[a..b]`. -/
def index (xs : List α) (a b : Nat) : m (List α) :=
  orPanic (getRange xs a b)

/-- `dst.copy_from_slice(src)`: the new contents of `dst`. -/
def copyFromSlice (dst src : List α) : m (List α) :=
  if dst.length = src.length then pure src else throw .panic

@[simp] theorem orPanic_some (a : α) : (orPanic (some a) : m α) = pure a := rfl

@[simp] theorem orPanic_none : (orPanic none : m α) = throw .panic := rfl

theorem splitAt_of_le {xs : List α} {n : Nat} (h : n ≤ xs.length) :
    (splitAt xs n : m _) = pure (xs.take n, xs.drop n) := by
  simp [splitAt, splitAtChecked_of_le h]

theorem splitAt_append {xs ys : List α} {n : Nat} (h : xs.length = n) :
    (splitAt (xs ++ ys) n : m _) = pure (xs, ys) := by
  subst h
  simp [splitAt, splitAtChecked]

theorem index_of_le {xs : List α} {a b : Nat} (hab : a ≤ b) (hb : b ≤ xs.length) :
    (index xs a b : m _) = pure ((xs.drop a).take (b - a)) := by
  simp [index, getRange_of_le hab hb]

theorem copyFromSlice_of_length {dst src : List α} (h : dst.length = src.length) :
    (copyFromSlice dst src : m _) = pure src := by
  simp [copyFromSlice, h]

/-! Their only fault is a panic. -/

theorem orPanic_error {x : Option α} {f : Fault ε} (h : (orPanic x : Except (Fault ε) α) = .error f) :
    f = .panic := by
  cases x <;> cases h
  rfl

theorem splitAt_error {xs : List α} {n : Nat} {f : Fault ε}
    (h : (splitAt xs n : Except (Fault ε) _) = .error f) : f = .panic :=
  orPanic_error h

theorem copyFromSlice_error {dst src : List α} {f : Fault ε}
    (h : (copyFromSlice dst src : Except (Fault ε) _) = .error f) : f = .panic := by
  unfold copyFromSlice at h
  split at h <;> cases h
  rfl

end Panicking

section Built

variable {α : Type}

/-- An array written element by element, each element parsed from its own slice:
it is built when every element parses. -/
theorem ofFnM_except_ok {ε : Type} {n : Nat} {f : Fin n → Except ε α} {g : Fin n → α}
    (h : ∀ i, f i = .ok (g i)) : Vector.ofFnM f = .ok (Vector.ofFn g) := by
  induction n with
  | zero =>
    rw [Vector.ofFnM_zero]
    exact congrArg Except.ok (Vector.ext fun i hi => absurd hi (Nat.not_lt_zero i))
  | succ n ih =>
    rw [Vector.ofFnM_succ, ih (fun i => h i.castSucc), h (Fin.last n), Vector.ofFn_succ]
    rfl

/-- The `i`-th pair of a string of pairs is its slice at `2 * i`. -/
theorem getRange_flatten_pairs (ps : List (List α)) (h : ∀ p ∈ ps, p.length = 2) :
    ∀ i (hi : i < ps.length), getRange ps.flatten (i * 2) (i * 2 + 2) = some ps[i] := by
  induction ps with
  | nil => exact fun i hi => absurd hi (Nat.not_lt_zero i)
  | cons p ps ih =>
    have hp : p.length = 2 := h p (by simp)
    intro i hi
    cases i with
    | zero =>
      rw [List.flatten_cons, getRange_append_left (by omega) (by omega), getRange_self hp]
      rfl
    | succ i =>
      rw [List.flatten_cons, getRange_append_of_le (by omega) (by omega), hp,
        show (i + 1) * 2 - 2 = i * 2 by omega, show (i + 1) * 2 + 2 - 2 = i * 2 + 2 by omega]
      exact ih (fun q hq => h q (by simp [hq])) i (by simpa using hi)

end Built

end Neptun.Lib
