import Mathlib

/-! An anti-replay window of width `W` over natural-number counters.
The abstract state is the set of counters received so far. A counter is fresh
when it was not received and lies at most `W` below one past the largest one.
An array of cells indexed modulo `W` implements the window when every counter of
the window owns the cell it maps to; the lemmas say which cell updates keep this
as a counter is received. -/
namespace Neptun.Lib.Window

/-- One past the largest counter received, zero before the first. -/
def top (S : Finset ℕ) : ℕ := S.sup (· + 1)

/-- The counters a window of width `W` accepts after receiving `S`. -/
def Fresh (W : ℕ) (S : Finset ℕ) (c : ℕ) : Prop := c ∉ S ∧ top S ≤ c + W

/-- The cells, indexed modulo `W`, record exactly the received counters of the window. -/
def Mirrors (W : ℕ) (cell : ℕ → Bool) (S : Finset ℕ) : Prop :=
  ∀ c, c < top S → top S ≤ c + W → (cell (c % W) = true ↔ c ∈ S)

@[simp] theorem top_empty : top ∅ = 0 := rfl

theorem top_insert (c : ℕ) (S : Finset ℕ) : top (insert c S) = max (c + 1) (top S) := by
  simp [top, Finset.sup_insert]

theorem lt_top_of_mem {S : Finset ℕ} {c : ℕ} (h : c ∈ S) : c < top S :=
  Nat.lt_of_lt_of_le (Nat.lt_succ_self c) (Finset.le_sup (f := (· + 1)) h)

theorem not_mem_of_top_le {S : Finset ℕ} {c : ℕ} (h : top S ≤ c) : c ∉ S :=
  fun hm => Nat.lt_irrefl c (Nat.lt_of_lt_of_le (lt_top_of_mem hm) h)

/-- Every received counter lies below the top, so there are at most `top S` of them. -/
theorem card_le_top (S : Finset ℕ) : S.card ≤ top S := by
  have hsub : S ⊆ Finset.range (top S) := fun c hc => Finset.mem_range.mpr (lt_top_of_mem hc)
  simpa using Finset.card_le_card hsub

/-- Two counters closer than `W` map to different cells. -/
theorem mod_ne_of_lt_of_lt_add {W a b : ℕ} (hab : a < b) (hb : b < a + W) : a % W ≠ b % W := by
  intro heq
  have hdvd : W ∣ b - a := (Nat.modEq_iff_dvd' hab.le).mp heq
  have hle : W ≤ b - a := Nat.le_of_dvd (Nat.sub_pos_of_lt hab) hdvd
  omega

section Cells

variable {W : ℕ} {cell cell' : ℕ → Bool} {S : Finset ℕ} {c : ℕ}

theorem mirrors_empty : Mirrors W cell ∅ := by
  intro c hc
  simp at hc

/-- Inside the window a cell is set exactly for a received counter. -/
theorem fresh_iff_cell (h : Mirrors W cell S) (hc : c < top S) (hw : top S ≤ c + W) :
    Fresh W S c ↔ cell (c % W) = false := by
  have hm := h c hc hw
  simp only [Fresh, hw, and_true]
  cases hcell : cell (c % W) <;> simp_all

theorem fresh_of_top_le (hc : top S ≤ c) : Fresh W S c :=
  ⟨not_mem_of_top_le hc, Nat.le_trans hc (Nat.le_add_right c W)⟩

theorem not_fresh_of_lt (hc : c + W < top S) : ¬ Fresh W S c :=
  fun hf => Nat.lt_irrefl (top S) (Nat.lt_of_le_of_lt hf.2 hc)

/-- Receiving a counter below the top: its cell is set and no other window cell moves. -/
theorem mirrors_fill (h : Mirrors W cell S) (hc : c < top S) (hwc : top S ≤ c + W)
    (hset : cell' (c % W) = true) (hkeep : ∀ x, x % W ≠ c % W → cell' (x % W) = cell (x % W)) :
    Mirrors W cell' (insert c S) := by
  have htop : top (insert c S) = top S := by
    rw [top_insert]
    omega
  intro x hx hw
  rw [htop] at hx hw
  rcases Nat.lt_trichotomy x c with hlt | rfl | hgt
  · have hne : x % W ≠ c % W := mod_ne_of_lt_of_lt_add hlt (by omega)
    rw [hkeep x hne, h x hx hw, Finset.mem_insert]
    exact ⟨Or.inr, fun hm => hm.resolve_left (Nat.ne_of_lt hlt)⟩
  · simp [hset]
  · have hne : x % W ≠ c % W := (mod_ne_of_lt_of_lt_add hgt (by omega)).symm
    rw [hkeep x hne, h x hx hw, Finset.mem_insert]
    exact ⟨Or.inr, fun hm => hm.resolve_left (Nat.ne_of_gt hgt)⟩

/-- Receiving a counter at or above the top moves the window up to it: the cells of the
skipped counters that stay in the window are cleared, the older cells are kept. -/
theorem mirrors_advance (h : Mirrors W cell S) (hc : top S ≤ c) (hset : cell' (c % W) = true)
    (hclear : ∀ x, top S ≤ x → x < c → c < x + W → cell' (x % W) = false)
    (hkeep : ∀ x, x < top S → c < x + W → cell' (x % W) = cell (x % W)) :
    Mirrors W cell' (insert c S) := by
  have htop : top (insert c S) = c + 1 := by
    rw [top_insert]
    omega
  intro x hx hw
  rw [htop] at hx hw
  rcases Nat.lt_or_ge x (top S) with hold | hnew
  · have hne : x ≠ c := by omega
    rw [hkeep x hold (by omega), h x hold (by omega), Finset.mem_insert]
    exact ⟨Or.inr, fun hm => hm.resolve_left hne⟩
  · rcases Nat.lt_or_ge x c with hlt | hge
    · have hout : x ∉ insert c S := by
        rw [Finset.mem_insert]
        rintro (heq | hm)
        · omega
        · exact not_mem_of_top_le hnew hm
      rw [hclear x hnew hlt (by omega)]
      simp [hout]
    · have heq : x = c := by omega
      subst heq
      simp [hset]

end Cells

end Neptun.Lib.Window
