import Mathlib

/-! Text written from numbers and read back. A numeral is a number in base `b`,
most significant digit first, with the digits `0`–`9` and `a`–`f` and no leading
zero; a fold that takes its digits in order, each time multiplying by the base and
adding the digit, reads it back. Fields joined by a separator that none of them
holds are split back at that separator. -/
namespace Neptun.Lib

/-- The character of a digit below 16, in lower case. -/
def digitChar (d : Nat) : Char :=
  if d < 10 then Char.ofNat (48 + d) else Char.ofNat (87 + d)

/-- `n` in base `b`; zero is `0`. -/
def numeral (b n : Nat) : List Char :=
  if n = 0 then ['0'] else ((Nat.digits b n).map digitChar).reverse

theorem digitChar_zero : digitChar 0 = '0' := rfl

theorem digitChar_injective {d e : Nat} (hd : d < 16) (he : e < 16) (h : digitChar d = digitChar e) :
    d = e := by
  have hall : ∀ d < 16, ∀ e < 16, digitChar d = digitChar e → d = e := by decide
  exact hall d hd e he h

theorem numeral_ne_nil (b n : Nat) : numeral b n ≠ [] := by
  unfold numeral
  split
  · simp
  · simpa [Nat.digits_ne_nil_iff_ne_zero]

/-- Every character of a numeral is a digit below the base. -/
theorem mem_numeral {b n : Nat} (hb : 1 < b) {c : Char} (hc : c ∈ numeral b n) :
    ∃ d < b, c = digitChar d := by
  unfold numeral at hc
  split at hc
  · exact ⟨0, by omega, List.mem_singleton.mp hc⟩
  · obtain ⟨d, hd, rfl⟩ := List.mem_map.mp (List.mem_reverse.mp hc)
    exact ⟨d, Nat.digits_lt_base hb hd, rfl⟩

/-- A property of every digit below 16 holds of every character of a numeral in a
base up to 16. -/
theorem numeral_all {p : Char → Prop} (hp : ∀ d < 16, p (digitChar d)) {b : Nat} (hb : 1 < b)
    (hb16 : b ≤ 16) (n : Nat) : ∀ c ∈ numeral b n, p c := by
  intro c hc
  obtain ⟨d, hd, rfl⟩ := mem_numeral hb hc
  exact hp d (by omega)

theorem numeral_not_mem {c : Char} (hc : ∀ d < 16, digitChar d ≠ c) {b : Nat} (hb : 1 < b)
    (hb16 : b ≤ 16) (n : Nat) : c ∉ numeral b n :=
  fun h => numeral_all (p := (· ≠ c)) hc hb hb16 n c h rfl

theorem length_numeral_le {b n k : Nat} (hb : 1 < b) (hk : 0 < k) (h : n < b ^ k) :
    (numeral b n).length ≤ k := by
  unfold numeral
  split
  · simp only [List.length_singleton]
    omega
  · simpa using (Nat.digits_length_le_iff hb n).mpr h

/-- A numeral starts with `0` only when it is the numeral of zero. -/
theorem numeral_eq_zero_cons {b n : Nat} (hb : 1 < b) (hb16 : b ≤ 16) {cs : List Char}
    (h : numeral b n = '0' :: cs) : cs = [] := by
  unfold numeral at h
  split at h
  · exact (List.cons.inj h).2.symm
  · rename_i hn
    -- the first character is the digit of the last of `digits`, which is not zero
    have hne : Nat.digits b n ≠ [] := Nat.digits_ne_nil_iff_ne_zero.mpr hn
    have hlast := Nat.getLast_digit_ne_zero b hn
    have hhead : ((Nat.digits b n).map digitChar).reverse.head (by simpa using hne) = '0' := by
      simp [h]
    rw [List.head_reverse, List.getLast_map] at hhead
    have hlt := Nat.digits_lt_base hb (List.getLast_mem hne)
    exact absurd (digitChar_injective (by omega) (by omega) (hhead.trans digitChar_zero.symm)) hlast

section Fold

variable {m : Type → Type} [Monad m] [LawfulMonad m] {b N : Nat} (step : Nat → Char → m Nat)

/-- The step of a fold that reads digits: a digit `d` takes `acc` to `acc * b + d`,
as long as that is at most `N`. -/
def ReadsDigits (b N : Nat) (step : Nat → Char → m Nat) : Prop :=
  ∀ acc d, d < b → acc * b + d ≤ N → step acc (digitChar d) = pure (acc * b + d)

variable {step}

theorem foldlM_digits (hstep : ReadsDigits b N step) (hb : 1 < b) :
    ∀ L : List Nat, (∀ d ∈ L, d < b) → Nat.ofDigits b L ≤ N →
      ((L.map digitChar).reverse.foldlM step 0) = pure (Nat.ofDigits b L) := by
  intro L
  induction L with
  | nil => exact fun _ _ => rfl
  | cons d L ih =>
    intro hL hN
    rw [Nat.ofDigits_cons] at hN
    -- the digits above `d` are read first, to the value that `d` then ends
    have hle : Nat.ofDigits b L ≤ b * Nat.ofDigits b L := Nat.le_mul_of_pos_left _ (by omega)
    have hrest : Nat.ofDigits b L ≤ N := by omega
    rw [List.map_cons, List.reverse_cons, List.foldlM_append,
      ih (fun e he => hL e (List.mem_cons_of_mem d he)) hrest, pure_bind, List.foldlM_cons,
      hstep _ d (hL d List.mem_cons_self) (by rw [Nat.mul_comm]; omega), pure_bind, List.foldlM_nil,
      Nat.ofDigits_cons, Nat.mul_comm, Nat.add_comm]

/-- Such a fold reads the numeral of any number up to `N`. -/
theorem foldlM_numeral (hstep : ReadsDigits b N step) (hb : 1 < b) {n : Nat} (hn : n ≤ N) :
    (numeral b n).foldlM step 0 = pure n := by
  unfold numeral
  split
  · rename_i h
    subst h
    show List.foldlM step 0 [digitChar 0] = pure 0
    rw [List.foldlM_cons, hstep 0 0 (by omega) (by omega), pure_bind, List.foldlM_nil, Nat.zero_mul]
  · have h := foldlM_digits hstep hb (Nat.digits b n) (fun _ hd => Nat.digits_lt_base hb hd)
      (by rw [Nat.ofDigits_digits]; exact hn)
    rwa [Nat.ofDigits_digits] at h

end Fold

section Fields

variable {α : Type}

/-- Fields joined by a separator none of them holds are split back at it. -/
theorem splitOn_intercalate [DecidableEq α] {c : α} :
    ∀ (ls : List (List α)), ls ≠ [] → (∀ l ∈ ls, c ∉ l) → ([c].intercalate ls).splitOn c = ls
  | [], h, _ => absurd rfl h
  | [l], _, hc => by
    rw [List.intercalate_singleton, List.splitOn, List.splitOnP_eq_singleton]
    exact fun x (hx : x ∈ l) => beq_eq_false_iff_ne.mpr fun (h : x = c) => hc l List.mem_cons_self (h ▸ hx)
  | l :: l' :: ls, _, hc => by
    rw [List.intercalate_cons_cons, List.append_assoc, List.singleton_append, List.splitOn,
      List.splitOnP_append_cons_of_forall_mem
        (fun x (hx : x ∈ l) => beq_eq_false_iff_ne.mpr fun (h : x = c) => hc l List.mem_cons_self (h ▸ hx))
        c (by simp),
      ← List.splitOn,
      splitOn_intercalate (l' :: ls) (List.cons_ne_nil _ _) fun l hl => hc l (List.mem_cons_of_mem _ hl)]

/-- A character of joined fields is the separator or one of a field. -/
theorem mem_intercalate {c x : α} :
    ∀ {ls : List (List α)}, x ∈ [c].intercalate ls → x = c ∨ ∃ l ∈ ls, x ∈ l
  | [], h => absurd h List.not_mem_nil
  | [l], h => .inr ⟨l, List.mem_singleton_self l, by rwa [List.intercalate_singleton] at h⟩
  | l :: l' :: ls, h => by
    rw [List.intercalate_cons_cons] at h
    rcases List.mem_append.mp h with h | h
    · rcases List.mem_append.mp h with h | h
      · exact .inr ⟨l, List.mem_cons_self, h⟩
      · exact .inl (List.mem_singleton.mp h)
    · rcases mem_intercalate h with h | ⟨l'', hl'', h⟩
      · exact .inl h
      · exact .inr ⟨l'', List.mem_cons_of_mem _ hl'', h⟩

/-- Joined fields, each written by `f`, are split back at a separator `f` never writes. -/
theorem splitOn_intercalate_map [DecidableEq α] {β : Type} {f : β → List α} {c : α} (hf : ∀ y, c ∉ f y)
    {ys : List β} (hys : ys ≠ []) : ([c].intercalate (ys.map f)).splitOn c = ys.map f :=
  splitOn_intercalate _ (by simpa using hys) fun l hl => by
    obtain ⟨y, -, rfl⟩ := List.mem_map.mp hl
    exact hf y

theorem mem_intercalate_map {β : Type} {f : β → List α} {c x : α} {ys : List β}
    (h : x ∈ [c].intercalate (ys.map f)) : x = c ∨ ∃ y ∈ ys, x ∈ f y := by
  rcases mem_intercalate h with h | ⟨l, hl, hx⟩
  · exact .inl h
  · obtain ⟨y, hy, rfl⟩ := List.mem_map.mp hl
    exact .inr ⟨y, hy, hx⟩

/-- Fields written by `f` and each read back by `g` are read back together. -/
theorem mapM_map_of_inverse {β : Type} {f : β → List α} {g : List α → Option β}
    (h : ∀ y, g (f y) = some y) (ys : List β) : (ys.map f).mapM g = some ys := by
  have hpure := List.mapM_pure (m := Option) (f := id) (l := ys)
  rw [List.map_id] at hpure
  rw [List.mapM_map, Function.comp_def]
  simp only [h]
  exact hpure

end Fields

end Neptun.Lib
