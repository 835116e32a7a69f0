import Neptun.Noise.Session
import Neptun.Lib.Bits
import Neptun.Lib.Window

/-! The replay window of a session refines the abstract window of width 1024.
The bitmap is read as one cell per counter modulo 1024; each bitmap operation
moves cells as the abstract lemmas need, the three clearing loops together clear
exactly the cells of the skipped counters, and from a fresh session every run of
`receiving_counter_mark` keeps the window in step with the set of accepted counters. -/
namespace Neptun.Noise
open Lib Lib.Window

namespace ReceivingKeyCounterValidator

/-- The word holding the bit of counter `p`. -/
def wordAt (p : Nat) : Fin 16 := ⟨p % 1024 / 64, by omega⟩

/-- The bit the bitmap keeps for counter `p`. -/
def cell (v : ReceivingKeyCounterValidator) (p : Nat) : Bool :=
  wordBit v.bitmap[wordAt p] (p % 64)

@[simp] theorem nBits_toNat : nBits.toNat = 1024 := rfl
@[simp] theorem wordSize_toNat : wordSize.toNat = 64 := rfl

theorem wordOf_val (idx : UInt64) : (wordOf idx).val = idx.toNat % 1024 / 64 := by
  simp [wordOf, UInt64.toNat_div, UInt64.toNat_mod]

theorem bit_toNat (idx : UInt64) : (idx % nBits % wordSize).toNat = idx.toNat % 64 := by
  simp only [UInt64.toNat_mod, nBits_toNat, wordSize_toNat]
  omega

theorem bit_lt (idx : UInt64) : (idx % nBits % wordSize).toNat < 64 := by
  rw [bit_toNat]
  omega

theorem cell_mod (v : ReceivingKeyCounterValidator) (p : Nat) : v.cell (p % 1024) = v.cell p := by
  have hw : p % 1024 % 1024 / 64 = p % 1024 / 64 := by omega
  have hb : p % 1024 % 64 = p % 64 := by omega
  simp only [cell, Fin.getElem_fin, wordAt, hw, hb]

theorem checkBit_eq_cell (v : ReceivingKeyCounterValidator) (idx : UInt64) :
    v.checkBit idx = v.cell idx.toNat := by
  simp only [checkBit, shiftRight_and_one_beq_one _ _ (bit_lt idx), bit_toNat, cell,
    Fin.getElem_fin, wordAt]
  congr 1

theorem cell_setBit (v : ReceivingKeyCounterValidator) (idx : UInt64) (p : Nat) :
    (v.setBit idx).cell p = (v.cell p || decide (p % 1024 = idx.toNat % 1024)) := by
  simp only [setBit, cell, Fin.getElem_fin, wordAt, Vector.getElem_set, wordOf_val]
  by_cases hw : idx.toNat % 1024 / 64 = p % 1024 / 64
  · rw [if_pos hw, wordBit_or_one_shiftLeft _ _ (bit_lt idx) (Nat.mod_lt p (by omega)), bit_toNat]
    simp only [hw]
    congr 1
    apply decide_eq_decide.mpr
    omega
  · rw [if_neg hw]
    have hne : p % 1024 ≠ idx.toNat % 1024 := fun h => hw (by rw [h])
    simp [hne]

theorem cell_clearBit (v : ReceivingKeyCounterValidator) (idx : UInt64) (p : Nat) :
    (v.clearBit idx).cell p = (v.cell p && !decide (p % 1024 = idx.toNat % 1024)) := by
  simp only [clearBit, cell, Fin.getElem_fin, wordAt, Vector.getElem_set,
    wordOf_val]
  by_cases hw : idx.toNat % 1024 / 64 = p % 1024 / 64
  · rw [if_pos hw, wordBit_and_not_one_shiftLeft _ _ (bit_lt idx) (Nat.mod_lt p (by omega)),
      bit_toNat]
    simp only [hw]
    congr 2
    apply decide_eq_decide.mpr
    omega
  · rw [if_neg hw]
    have hne : p % 1024 ≠ idx.toNat % 1024 := fun h => hw (by rw [h])
    simp [hne]

theorem cell_clearWord (v : ReceivingKeyCounterValidator) (idx : UInt64) (p : Nat) :
    (v.clearWord idx).cell p = (v.cell p && !decide (p % 1024 / 64 = idx.toNat % 1024 / 64)) := by
  simp only [clearWord, cell, Fin.getElem_fin, wordAt, Vector.getElem_set, wordOf_val]
  by_cases hw : idx.toNat % 1024 / 64 = p % 1024 / 64
  · simp [hw]
  · simp [hw, Ne.symm hw]

theorem cell_wipe (v : ReceivingKeyCounterValidator) (p : Nat) :
    ({ v with bitmap := Vector.replicate 16 0 } : ReceivingKeyCounterValidator).cell p = false := by
  simp [cell]

/-- The largest counter the window handles without wrapping: `u64::MAX - N_BITS - 1`. -/
def maxCounter : Nat := 2 ^ 64 - 1 - 1024 - 1

/-- What the clearing loops keep, started from `v` at `i = v.next`: the cells of the
counters in `[v.next, i)` are cleared, every other cell is as in `v`, `i` stays within
`[v.next, counter]`, and `next` and `receive_cnt` are untouched. -/
structure Clearing (v : ReceivingKeyCounterValidator) (counter : UInt64)
    (st : ReceivingKeyCounterValidator × UInt64) : Prop where
  lo : v.next.toNat ≤ st.2.toNat
  hi : st.2.toNat ≤ counter.toNat
  next : st.1.next = v.next
  cnt : st.1.receiveCnt = v.receiveCnt
  cleared : ∀ y, v.next.toNat ≤ y → y < st.2.toNat → st.1.cell y = false
  kept : ∀ p, (∀ y, v.next.toNat ≤ y → y < st.2.toNat → y % 1024 ≠ p % 1024) →
    st.1.cell p = v.cell p

section Loops

variable {v : ReceivingKeyCounterValidator} {counter : UInt64}
  {st : ReceivingKeyCounterValidator × UInt64}

theorem clearing_start (h : v.next.toNat ≤ counter.toNat) : Clearing v counter (v, v.next) where
  lo := Nat.le_refl _
  hi := h
  next := rfl
  cnt := rfl
  cleared := fun _ hy hy' => absurd hy' (Nat.not_lt.mpr hy)
  kept := fun _ _ => rfl

/-- An index below a 64-bit bound steps by one without wrapping. -/
theorem toNat_succ_of_lt {i b : UInt64} (h : i.toNat < b.toNat) : (i + 1).toNat = i.toNat + 1 :=
  toNat_add_of_lt (by have := b.toNat_lt; simp only [UInt64.toNat_one]; omega)

theorem clearing_clearBit (h : Clearing v counter st) (hlt : st.2.toNat < counter.toNat) :
    Clearing v counter (st.1.clearBit st.2, st.2 + 1) := by
  have hsucc := toNat_succ_of_lt hlt
  refine ⟨?_, ?_, ?_, ?_, ?_, ?_⟩
  · simp only [hsucc]
    exact Nat.le_succ_of_le h.lo
  · simp only [hsucc]
    exact hlt
  · simp [h.next]
  · simp [h.cnt]
  · intro y hy hy'
    simp only [hsucc] at hy'
    rw [cell_clearBit]
    rcases Nat.lt_or_ge y st.2.toNat with hlo | hge
    · simp [h.cleared y hy hlo]
    · have hmod : y % 1024 = st.2.toNat % 1024 := by rw [show y = st.2.toNat by omega]
      simp [hmod]
  · intro p hp
    simp only [hsucc] at hp
    have hne : p % 1024 ≠ st.2.toNat % 1024 :=
      fun heq => hp st.2.toNat h.lo (Nat.lt_succ_self _) heq.symm
    rw [cell_clearBit, h.kept p (fun y hy hy' => hp y hy (Nat.lt_succ_of_lt hy'))]
    simp [hne]

theorem clearing_clearWord (h : Clearing v counter st) (hal : st.2.toNat % 64 = 0)
    (hlt : st.2.toNat + 64 < counter.toNat) :
    Clearing v counter (st.1.clearWord st.2, st.2 + wordSize) := by
  have hstep : (st.2 + wordSize).toNat = st.2.toNat + 64 := toNat_add_of_lt (by
    have := counter.toNat_lt
    simp only [wordSize_toNat]
    omega)
  refine ⟨?_, ?_, ?_, ?_, ?_, ?_⟩
  · simp only [hstep]
    exact Nat.le_trans h.lo (Nat.le_add_right _ _)
  · simp only [hstep]
    exact Nat.le_of_lt hlt
  · simp [h.next]
  · simp [h.cnt]
  · intro y hy hy'
    simp only [hstep] at hy'
    rw [cell_clearWord]
    rcases Nat.lt_or_ge y st.2.toNat with hlo | hge
    · simp [h.cleared y hy hlo]
    · have hword : y % 1024 / 64 = st.2.toNat % 1024 / 64 := by omega
      simp [hword]
  · intro p hp
    simp only [hstep] at hp
    -- a cell of the cleared word belongs to a counter in `[i, i + 64)`
    have hne : p % 1024 / 64 ≠ st.2.toNat % 1024 / 64 := by
      intro heq
      apply hp (st.2.toNat + (p % 1024 - st.2.toNat % 1024)) (by have := h.lo; omega) (by omega)
      omega
    rw [cell_clearWord, h.kept p (fun y hy hy' => hp y hy (by omega))]
    simp [hne]

theorem alignLoop_spec (h : Clearing v counter st) :
    ∃ t, alignLoop counter st = some t ∧ Clearing v counter t ∧
      (t.2.toNat % 64 = 0 ∨ counter.toNat ≤ t.2.toNat) := by
  obtain ⟨t, ht, hinv, hexit⟩ := loopWhile_spec (Clearing v counter)
    (fun s => counter.toNat - s.2.toNat)
    (fun s hs (hc : (s.2 % wordSize != 0 && s.2 < counter) = true) => by
      have hlt : s.2.toNat < counter.toNat := by
        simp only [Bool.and_eq_true, decide_eq_true_eq, UInt64.lt_iff_toNat_lt] at hc
        exact hc.2
      have hsucc := toNat_succ_of_lt hlt
      exact ⟨clearing_clearBit hs hlt, by simp only [hsucc]; omega⟩)
    loopFuel st h (by have := counter.toNat_lt; simp only [loopFuel]; omega)
  refine ⟨t, ht, hinv, ?_⟩
  simp only [Bool.and_eq_false_iff, bne_eq_false_iff_eq, decide_eq_false_iff_not,
    UInt64.lt_iff_toNat_lt, Nat.not_lt] at hexit
  rcases hexit with hal | hge
  · left
    have := congrArg UInt64.toNat hal
    simpa [UInt64.toNat_mod] using this
  · exact Or.inr hge

theorem wordLoop_spec (h : Clearing v counter st)
    (hal : st.2.toNat % 64 = 0 ∨ counter.toNat ≤ st.2.toNat) (hc : counter.toNat ≤ maxCounter) :
    ∃ t, wordLoop counter st = some t ∧ Clearing v counter t ∧ counter.toNat ≤ t.2.toNat + 64 := by
  -- the index stays below `counter`, so `i + WORD_SIZE` never wraps
  have hsum : ∀ s : ReceivingKeyCounterValidator × UInt64, Clearing v counter s →
      (s.2 + wordSize).toNat = s.2.toNat + 64 := fun s hs =>
    toNat_add_of_lt (by have := hs.hi; simp only [wordSize_toNat, maxCounter] at *; omega)
  obtain ⟨t, ht, hinv, hexit⟩ : ∃ t, wordLoop counter st = some t ∧
      (Clearing v counter t ∧ (t.2.toNat % 64 = 0 ∨ counter.toNat ≤ t.2.toNat)) ∧
      decide (t.2 + wordSize < counter) = false := by
    refine loopWhile_spec _ (fun s => counter.toNat - s.2.toNat) ?_ loopFuel st ⟨h, hal⟩
      (by have := counter.toNat_lt; simp only [loopFuel]; omega)
    intro s hs hcond
    have hlt : s.2.toNat + 64 < counter.toNat := by
      simpa only [decide_eq_true_eq, UInt64.lt_iff_toNat_lt, hsum s hs.1] using hcond
    have hal' : s.2.toNat % 64 = 0 := hs.2.resolve_right (by omega)
    -- the masked sum is the aligned sum itself
    have hmask : (s.2 + wordSize) &&& (0 - wordSize) = s.2 + wordSize :=
      and_zero_sub_sixtyfour _ (by rw [hsum s hs.1]; omega)
    simp only [hmask, hsum s hs.1]
    exact ⟨⟨clearing_clearWord hs.1 hal' hlt, Or.inl (by omega)⟩, by omega⟩
  refine ⟨t, ht, hinv.1, ?_⟩
  simp only [decide_eq_false_iff_not, UInt64.lt_iff_toNat_lt, Nat.not_lt, hsum t hinv.1] at hexit
  omega

theorem tailLoop_spec (h : Clearing v counter st) :
    ∃ t, tailLoop counter st = some t ∧ Clearing v counter t ∧ t.2 = counter := by
  obtain ⟨t, ht, hinv, hexit⟩ := loopWhile_spec (Clearing v counter)
    (fun s => counter.toNat - s.2.toNat)
    (fun s hs (hc : decide (s.2 < counter) = true) => by
      have hlt : s.2.toNat < counter.toNat := by
        simpa only [decide_eq_true_eq, UInt64.lt_iff_toNat_lt] using hc
      have hsucc := toNat_succ_of_lt hlt
      exact ⟨clearing_clearBit hs hlt, by simp only [hsucc]; omega⟩)
    loopFuel st h (by have := counter.toNat_lt; simp only [loopFuel]; omega)
  refine ⟨t, ht, hinv, ?_⟩
  simp only [decide_eq_false_iff_not, UInt64.lt_iff_toNat_lt, Nat.not_lt] at hexit
  exact UInt64.toNat_inj.mp (Nat.le_antisymm hinv.hi hexit)

/-- A jump of less than a whole window: the three loops exit and have cleared exactly the
cells of the counters in `[next, counter)`. -/
theorem skipTo_near (hlt : v.next.toNat < counter.toNat) (hgap : counter.toNat < v.next.toNat + 1024)
    (hc : counter.toNat ≤ maxCounter) :
    ∃ w, v.skipTo counter = some w ∧ Clearing v counter (w, counter) := by
  have hnear : ¬ (counter - v.next ≥ nBits) := by
    rw [ge_iff_le, UInt64.le_iff_toNat_le, UInt64.toNat_sub_of_le _ _ (UInt64.le_iff_toNat_le.mpr
      (Nat.le_of_lt hlt)), nBits_toNat]
    omega
  obtain ⟨s₁, h₁, c₁, a₁⟩ := alignLoop_spec (clearing_start (Nat.le_of_lt hlt))
  obtain ⟨s₂, h₂, c₂, -⟩ := wordLoop_spec c₁ a₁ hc
  obtain ⟨s₃, h₃, c₃, e₃⟩ := tailLoop_spec c₂
  refine ⟨s₃.1, ?_, ?_⟩
  · simp [skipTo, hnear, h₁, h₂, h₃]
  · have hs : s₃ = (s₃.1, counter) := by rw [← e₃]
    rw [hs] at c₃
    exact c₃

theorem skipTo_far (hgap : v.next.toNat + 1024 ≤ counter.toNat) :
    v.skipTo counter = some { v with bitmap := Vector.replicate 16 0 } := by
  have hfar : counter - v.next ≥ nBits := by
    rw [ge_iff_le, UInt64.le_iff_toNat_le, UInt64.toNat_sub_of_le _ _ (UInt64.le_iff_toNat_le.mpr
      (by omega)), nBits_toNat]
    omega
  simp [skipTo, hfar]

end Loops

/-- The validator is in step with the set `S` of counters accepted so far: `next` is one
past the largest, and the bitmap mirrors `S` on the window below `next`. -/
structure Tracks (v : ReceivingKeyCounterValidator) (S : Finset ℕ) : Prop where
  next_eq : v.next.toNat = top S
  bounded : top S ≤ maxCounter + 1
  mirrors : Mirrors 1024 v.cell S

theorem tracks_default : Tracks default ∅ where
  next_eq := rfl
  bounded := by simp [maxCounter]
  mirrors := mirrors_empty

section Mark

variable {v : ReceivingKeyCounterValidator} {S : Finset ℕ} {counter : UInt64}

/-- With `counter` in range, the comparisons of `mark_did_receive` are those of the numbers. -/
theorem add_nBits_toNat (hc : counter.toNat ≤ maxCounter) :
    (counter + nBits).toNat = counter.toNat + 1024 :=
  toNat_add_of_lt (by simp only [nBits_toNat, maxCounter] at *; omega)

theorem checkBit_iff_mem (h : Tracks v S) (hlt : counter.toNat < v.next.toNat)
    (hw : v.next.toNat ≤ counter.toNat + 1024) :
    v.checkBit counter = true ↔ counter.toNat ∈ S := by
  rw [checkBit_eq_cell, ← cell_mod]
  exact h.mirrors counter.toNat (h.next_eq ▸ hlt) (h.next_eq ▸ hw)

/-- A counter the window does not accept is refused and changes nothing. -/
theorem markDidReceive_stale (h : Tracks v S) (hc : counter.toNat ≤ maxCounter)
    (hs : ¬ Fresh 1024 S counter.toNat) :
    ∃ e, (markDidReceive counter).run v = .error (.err e) v := by
  have hadd := add_nBits_toNat hc
  by_cases hfar : counter + nBits < v.next
  · exact ⟨.invalidCounter, by simp [markDidReceive, hfar]⟩
  · have hw : v.next.toNat ≤ counter.toNat + 1024 := by
      rw [UInt64.lt_iff_toNat_lt, hadd] at hfar
      omega
    have hmem : counter.toNat ∈ S := by
      simp only [Fresh, not_and_or, not_not] at hs
      rcases hs with hm | hlow
      · exact hm
      · rw [h.next_eq] at hw
        exact absurd hw hlow
    have hlt : counter.toNat < v.next.toNat := h.next_eq ▸ lt_top_of_mem hmem
    have hne : counter ≠ v.next := fun heq => Nat.lt_irrefl _ (heq ▸ hlt)
    have hbit : v.checkBit counter = true := (checkBit_iff_mem h hlt hw).mpr hmem
    exact ⟨.invalidCounter, by
      simp [markDidReceive, hfar, hne, UInt64.lt_iff_toNat_lt.mpr hlt, hbit]⟩

theorem cell_setNext (w : ReceivingKeyCounterValidator) (n : UInt64) :
    ({ w with next := n } : ReceivingKeyCounterValidator).cell = w.cell := rfl

/-- `receive_cnt` is not part of the window. -/
theorem Tracks.setCnt {w : ReceivingKeyCounterValidator} (h : Tracks w S) (n : UInt64) :
    Tracks { w with receiveCnt := n } S :=
  ⟨h.next_eq, h.bounded, h.mirrors⟩

/-- Moving `next` up to `counter + 1`: from any bitmap that has cleared the cells of the
skipped counters still in the window and kept the older ones. -/
theorem tracks_advance (h : Tracks v S) (hc : counter.toNat ≤ maxCounter)
    (hge : v.next.toNat ≤ counter.toNat) (w : ReceivingKeyCounterValidator)
    (hclear : ∀ x, v.next.toNat ≤ x → x < counter.toNat → counter.toNat < x + 1024 →
      w.cell x = false)
    (hkeep : ∀ x, x < v.next.toNat → counter.toNat < x + 1024 → w.cell x = v.cell x) :
    Tracks { w.setBit counter with next := counter + 1 } (insert counter.toNat S) := by
  have hsucc : (counter + 1).toNat = counter.toNat + 1 :=
    toNat_add_of_lt (by simp only [UInt64.toNat_one, maxCounter] at *; omega)
  have htop : top (insert counter.toNat S) = counter.toNat + 1 := by
    rw [top_insert, ← h.next_eq]
    omega
  refine ⟨by simp [hsucc, htop], by rw [htop]; simp only [maxCounter] at *; omega, ?_⟩
  rw [cell_setNext]
  refine mirrors_advance h.mirrors (h.next_eq ▸ hge) (by simp [cell_setBit]) ?_ ?_
  · intro x hx hxc hxw
    have hne : x % 1024 ≠ counter.toNat % 1024 := mod_ne_of_lt_of_lt_add hxc hxw
    rw [cell_setBit, cell_mod, hclear x (h.next_eq ▸ hx) hxc hxw]
    simp [hne]
  · intro x hx hxw
    have hne : x % 1024 ≠ counter.toNat % 1024 :=
      mod_ne_of_lt_of_lt_add (by rw [← h.next_eq] at hx; omega) hxw
    rw [cell_setBit, cell_mod, cell_mod, hkeep x (h.next_eq ▸ hx) hxw]
    simp [hne]

/-- A counter below `next` that is fresh: its bit is set and nothing else moves. -/
theorem tracks_fill (h : Tracks v S) (hlt : counter.toNat < v.next.toNat)
    (hs : Fresh 1024 S counter.toNat) : Tracks (v.setBit counter) (insert counter.toNat S) := by
  have htop : top (insert counter.toNat S) = top S := by
    rw [top_insert, ← h.next_eq]
    omega
  refine ⟨by simp [h.next_eq, htop], by rw [htop]; exact h.bounded, ?_⟩
  refine mirrors_fill h.mirrors (h.next_eq ▸ hlt) hs.2 (by simp [cell_setBit]) ?_
  intro x hne
  rw [cell_setBit]
  simp [hne]

/-- A counter the window accepts is marked, and the window moves with it. -/
theorem markDidReceive_fresh (h : Tracks v S) (hc : counter.toNat ≤ maxCounter)
    (hs : Fresh 1024 S counter.toNat) :
    ∃ w, (markDidReceive counter).run v = .ok () w ∧ w.receiveCnt = v.receiveCnt ∧
      Tracks w (insert counter.toNat S) := by
  have hnear : ¬ (counter + nBits < v.next) := by
    rw [UInt64.lt_iff_toNat_lt, add_nBits_toNat hc, h.next_eq]
    exact Nat.not_lt.mpr hs.2
  rcases Nat.lt_trichotomy counter.toNat v.next.toNat with hlt | heq | hgt
  · -- out of order, inside the window
    have hne : counter ≠ v.next := fun he => Nat.lt_irrefl _ (he ▸ hlt)
    have hbit : v.checkBit counter = false := by
      have hw : v.next.toNat ≤ counter.toNat + 1024 := h.next_eq ▸ hs.2
      cases hb : v.checkBit counter
      · rfl
      · exact absurd ((checkBit_iff_mem h hlt hw).mp hb) hs.1
    refine ⟨v.setBit counter, ?_, rfl, tracks_fill h hlt hs⟩
    simp [markDidReceive, hnear, hne, UInt64.lt_iff_toNat_lt.mpr hlt, hbit]
  · -- in order
    have hrun : (markDidReceive counter).run v = .ok () { v.setBit counter with next := counter + 1 } := by
      have he : counter = v.next := UInt64.toNat_inj.mp heq
      subst he
      simp [markDidReceive, hnear]
    exact ⟨_, hrun, rfl, tracks_advance h hc (Nat.le_of_eq heq.symm) v
      (fun x hx hxc _ => by omega) (fun _ _ _ => rfl)⟩
  · -- a jump forward
    have hne : counter ≠ v.next := fun he => Nat.lt_irrefl _ (he ▸ hgt)
    have hnlt : ¬ counter < v.next := fun hl => Nat.lt_asymm hgt (UInt64.lt_iff_toNat_lt.mp hl)
    rcases Nat.lt_or_ge counter.toNat (v.next.toNat + 1024) with hgap | hgap
    · obtain ⟨w, hw, hcl⟩ := skipTo_near hgt hgap hc
      refine ⟨{ w.setBit counter with next := counter + 1 }, ?_, hcl.cnt, ?_⟩
      · simp [markDidReceive, hnear, hne, hnlt, hw]
      · refine tracks_advance h hc (Nat.le_of_lt hgt) w (fun x hx hxc _ => hcl.cleared x hx hxc) ?_
        intro x hx hxw
        refine hcl.kept x (fun y hy hyc => ?_)
        change y < counter.toNat at hyc
        exact (mod_ne_of_lt_of_lt_add (by omega) (by omega)).symm
    · refine ⟨{ ({ v with bitmap := Vector.replicate 16 0 } : ReceivingKeyCounterValidator).setBit
          counter with next := counter + 1 }, ?_, rfl, ?_⟩
      · simp [markDidReceive, hnear, hne, hnlt, skipTo_far hgap]
      · exact tracks_advance h hc (Nat.le_of_lt hgt) _ (fun x _ _ _ => cell_wipe v x)
          (fun x hx hxw => by omega)

end Mark

end ReceivingKeyCounterValidator

namespace Session
open ReceivingKeyCounterValidator

/-- Sessions reached from a fresh one by calls of `receiving_counter_mark` with counters in
range, paired with the set of counters for which the calls returned Ok. -/
inductive MarkRun : Session → Finset ℕ → Prop
  | fresh (localIndex peerIndex : UInt32) (receivingKey sendingKey : Vector UInt8 32) :
      MarkRun (Session.new localIndex peerIndex receivingKey sendingKey) ∅
  | accept {s s' : Session} {S : Finset ℕ} {c : UInt64} (r : MarkRun s S)
      (hc : c.toNat ≤ maxCounter) (h : (receivingCounterMark c).run s = .ok () s') :
      MarkRun s' (insert c.toNat S)
  | reject {s s' : Session} {S : Finset ℕ} {c : UInt64} {f : Fault WireGuardError}
      (r : MarkRun s S) (hc : c.toNat ≤ maxCounter)
      (h : (receivingCounterMark c).run s = .error f s') : MarkRun s' S

/-- The window of a session in step with `S`, and its `receive_cnt` counting `S`. -/
structure Counts (s : Session) (S : Finset ℕ) : Prop where
  tracks : Tracks s.receivingKeyCounter S
  cnt_eq : s.receivingKeyCounter.receiveCnt.toNat = S.card

section Step

variable {s : Session} {S : Finset ℕ} {c : UInt64}

theorem receivingCounterMark_fresh (h : Counts s S) (hc : c.toNat ≤ maxCounter)
    (hs : Fresh 1024 S c.toNat) :
    ∃ s', (receivingCounterMark c).run s = .ok () s' ∧ Counts s' (insert c.toNat S) := by
  obtain ⟨w, hrun, hcnt, htr⟩ := markDidReceive_fresh h.tracks hc hs
  have hcard : (insert c.toNat S).card = S.card + 1 := Finset.card_insert_of_notMem hs.1
  have hbound : S.card + 1 < 2 ^ 64 := by
    have := card_le_top S
    have := h.tracks.bounded
    simp only [maxCounter] at *
    omega
  refine ⟨{ s with receivingKeyCounter := { w with receiveCnt := w.receiveCnt + 1 } }, ?_, ?_⟩
  · simp [receivingCounterMark, onValidator, hrun]
  · refine ⟨htr.setCnt _, ?_⟩
    change (w.receiveCnt + 1).toNat = _
    rw [toNat_add_of_lt (by simpa [hcnt, h.cnt_eq] using hbound), hcnt, h.cnt_eq, hcard]
    rfl

theorem receivingCounterMark_stale (h : Counts s S) (hc : c.toNat ≤ maxCounter)
    (hs : ¬ Fresh 1024 S c.toNat) :
    ∃ e, (receivingCounterMark c).run s = .error (.err e) s := by
  obtain ⟨e, hrun⟩ := markDidReceive_stale h.tracks hc hs
  exact ⟨e, by simp [receivingCounterMark, onValidator, hrun]⟩

theorem receivingCounterQuickCheck_iff (h : Counts s S) (hc : c.toNat ≤ maxCounter) :
    s.receivingCounterQuickCheck c = .ok () ↔ Fresh 1024 S c.toNat := by
  have hv := h.tracks
  simp only [receivingCounterQuickCheck, willAccept]
  by_cases hge : c ≥ s.receivingKeyCounter.next
  · have htop : top S ≤ c.toNat := by
      rw [← hv.next_eq]
      exact UInt64.le_iff_toNat_le.mp hge
    simp [hge, fresh_of_top_le htop]
  · have hlt : c.toNat < s.receivingKeyCounter.next.toNat := by
      rw [ge_iff_le, UInt64.le_iff_toNat_le] at hge
      omega
    by_cases hfar : c + nBits < s.receivingKeyCounter.next
    · have hlow : c.toNat + 1024 < top S := by
        rw [UInt64.lt_iff_toNat_lt, add_nBits_toNat hc, hv.next_eq] at hfar
        exact hfar
      simp [hge, hfar, not_fresh_of_lt hlow]
    · have hw : s.receivingKeyCounter.next.toNat ≤ c.toNat + 1024 := by
        rw [UInt64.lt_iff_toNat_lt, add_nBits_toNat hc] at hfar
        omega
      rw [fresh_iff_cell hv.mirrors (hv.next_eq ▸ hlt) (hv.next_eq ▸ hw), cell_mod,
        ← checkBit_eq_cell]
      cases s.receivingKeyCounter.checkBit c <;> simp [hge, hfar]

end Step

theorem counts_of_markRun {s : Session} {S : Finset ℕ} (r : MarkRun s S) : Counts s S := by
  induction r with
  | fresh => exact ⟨tracks_default, rfl⟩
  | @accept s s' S c _ hc hrun ih =>
    by_cases hs : Fresh 1024 S c.toNat
    · obtain ⟨t, ht, hcounts⟩ := receivingCounterMark_fresh ih hc hs
      rw [hrun] at ht
      cases ht
      exact hcounts
    · obtain ⟨e, he⟩ := receivingCounterMark_stale ih hc hs
      rw [hrun] at he
      cases he
  | @reject s s' S c f _ hc hrun ih =>
    by_cases hs : Fresh 1024 S c.toNat
    · obtain ⟨t, ht, _⟩ := receivingCounterMark_fresh ih hc hs
      rw [hrun] at ht
      cases ht
    · obtain ⟨e, he⟩ := receivingCounterMark_stale ih hc hs
      rw [hrun] at he
      cases he
      exact ih

/-- What a session reached by a run guarantees: `next` is one past the largest accepted
counter, `receive_cnt` counts the accepted counters, and for every counter in range
`receiving_counter_mark` returns Ok exactly when the counter was not accepted before and is
at most `N_BITS` below `next`, `will_accept` agrees with it, and an Err changes nothing. -/
structure WindowExact (s : Session) (S : Finset ℕ) : Prop where
  next_eq : s.receivingKeyCounter.next.toNat = top S
  cnt_eq : s.receivingKeyCounter.receiveCnt.toNat = S.card
  cnt_le_next : s.receivingKeyCounter.receiveCnt.toNat ≤ s.receivingKeyCounter.next.toNat
  mark_ok_iff : ∀ c : UInt64, c.toNat ≤ maxCounter →
    ((∃ s', (receivingCounterMark c).run s = .ok () s') ↔
      c.toNat ∉ S ∧ s.receivingKeyCounter.next.toNat ≤ c.toNat + 1024)
  quick_check_iff : ∀ c : UInt64, c.toNat ≤ maxCounter →
    (s.receivingCounterQuickCheck c = .ok () ↔ ∃ s', (receivingCounterMark c).run s = .ok () s')
  err_unchanged : ∀ c : UInt64, c.toNat ≤ maxCounter → ∀ f s',
    (receivingCounterMark c).run s = .error f s' → s' = s ∧ ∃ e, f = .err e

theorem mark_ok_iff_fresh {s : Session} {S : Finset ℕ} (h : Counts s S) {c : UInt64}
    (hc : c.toNat ≤ maxCounter) :
    (∃ s', (receivingCounterMark c).run s = .ok () s') ↔ Fresh 1024 S c.toNat := by
  constructor
  · rintro ⟨s', hs'⟩
    by_contra hs
    obtain ⟨e, he⟩ := receivingCounterMark_stale h hc hs
    rw [hs'] at he
    cases he
  · intro hs
    obtain ⟨s', hs', _⟩ := receivingCounterMark_fresh h hc hs
    exact ⟨s', hs'⟩

theorem replay_window_exact {s : Session} {S : Finset ℕ} (r : MarkRun s S) : WindowExact s S := by
  have h := counts_of_markRun r
  have hnext := h.tracks.next_eq
  refine ⟨hnext, h.cnt_eq, ?_, ?_, ?_, ?_⟩
  · rw [h.cnt_eq, hnext]
    exact card_le_top S
  · intro c hc
    rw [mark_ok_iff_fresh h hc, hnext]
    rfl
  · intro c hc
    rw [mark_ok_iff_fresh h hc]
    exact receivingCounterQuickCheck_iff h hc
  · intro c hc f s' hrun
    by_cases hs : Fresh 1024 S c.toNat
    · obtain ⟨t, ht, _⟩ := receivingCounterMark_fresh h hc hs
      rw [hrun] at ht
      cases ht
    · obtain ⟨e, he⟩ := receivingCounterMark_stale h hc hs
      rw [hrun] at he
      cases he
      exact ⟨rfl, e, rfl⟩

/-- A fresh session that accepted counter 5 after skipping 0 to 4. -/
theorem replay_window_exact_after_skip :
    ∃ s', (receivingCounterMark 5).run (Session.new 0 0 (Vector.replicate 32 0)
      (Vector.replicate 32 0)) = .ok () s' ∧ WindowExact s' {5} :=
  ⟨_, rfl, replay_window_exact (MarkRun.accept
    (MarkRun.fresh 0 0 (Vector.replicate 32 0) (Vector.replicate 32 0))
    (show (5 : UInt64).toNat ≤ maxCounter by decide) rfl)⟩

end Session

end Neptun.Noise
