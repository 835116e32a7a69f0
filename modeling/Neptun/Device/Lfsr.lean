import Neptun.Lib.Gf2
import Neptun.Lib.Triple
import Neptun.Lib.Period

/-! Peer indices. The device draws the index of each new peer from `IndexLfsr`, a
Galois LFSR on 24-bit words with the taps `LFSR_POLY = 0xd80000`, masked by a
random word. The step is linear over GF(2); its characteristic polynomial is
`x^24 + x^4 + x^3 + x + 1`, which is primitive: from any nonzero word the LFSR
runs through all `2^24 - 1` nonzero words before it comes back. The kernel checks
this on the iterates at `2^24 - 1` and at `(2^24 - 1) / p` for the primes `p` that
divide it, each computed by squaring the map. -/
namespace Neptun.Device

open Lib Function

structure IndexLfsr where
  initial : UInt32
  lfsr : UInt32
  mask : UInt32
  deriving DecidableEq, Repr

def lfsrMax : UInt32 := 0xffffff
def lfsrPoly : UInt32 := 0xd80000

namespace IndexLfsr

/-- `random_index`, on the draws of `OsRng` it makes: the first nonzero one, masked
to 24 bits. -/
def randomIndex (draws : List UInt32) : Option UInt32 :=
  (draws.map (· &&& lfsrMax)).find? (· > 0)

def step (lfsr : UInt32) : UInt32 := (lfsr >>> 1) ^^^ ((0 - (lfsr &&& 1)) &&& lfsrPoly)

/-- `IndexLfsr::next`; its assertion is a panic. -/
def next {ε : Type} : EStateM (Fault ε) IndexLfsr UInt32 := do
  let s ← get
  -- the register is never zero
  let value := s.lfsr - 1
  let lfsr := step s.lfsr
  set { s with lfsr := lfsr }
  if lfsr = s.initial then throw .panic
  pure (value ^^^ s.mask)

/-- `IndexLfsr::default`, from the two values `random_index` returned. -/
def default (seed mask : UInt32) : IndexLfsr := ⟨seed, seed, mask⟩

theorem randomIndex_spec {draws : List UInt32} {i : UInt32} (h : randomIndex draws = some i) :
    0 < i.toNat ∧ i.toNat < 2 ^ 24 := by
  obtain ⟨hpos, hmem⟩ := List.find?_some h, List.mem_of_find?_eq_some h
  obtain ⟨d, -, rfl⟩ := List.mem_map.mp hmem
  have hlt : (d &&& lfsrMax).toNat < 2 ^ 24 := by
    rw [UInt32.toNat_and]
    exact Nat.lt_of_le_of_lt Nat.and_le_right (by decide)
  simp only [decide_eq_true_eq, gt_iff_lt, UInt32.lt_iff_toNat_lt] at hpos
  exact ⟨hpos, hlt⟩

/-! ### The step on numbers -/

def stepNat (n : Nat) : Nat := n / 2 ^^^ if n % 2 = 1 then 0xd80000 else 0

theorem step_toNat (l : UInt32) : (step l).toNat = stepNat l.toNat := by
  have hbit : (l &&& 1).toNat = l.toNat % 2 := by
    rw [UInt32.toNat_and, UInt32.toNat_one, Nat.and_one_is_mod]
  unfold step stepNat
  rw [UInt32.toNat_xor, UInt32.toNat_shiftRight]
  by_cases h : l.toNat % 2 = 1
  · have h1 : l &&& 1 = 1 := UInt32.toNat_inj.mp (by rw [hbit, h]; rfl)
    rw [h1, if_pos h]
    rfl
  · have h0 : l &&& 1 = 0 := UInt32.toNat_inj.mp (by rw [hbit]; simp; omega)
    rw [h0, if_neg h]
    rfl

theorem iterate_step_toNat (k : Nat) (l : UInt32) : (step^[k] l).toNat = stepNat^[k] l.toNat :=
  (Semiconj.iterate_right (f := UInt32.toNat) step_toNat k) l

theorem stepNat_xor (x y : Nat) : stepNat (x ^^^ y) = stepNat x ^^^ stepNat y := by
  unfold stepNat
  rw [Nat.xor_div_two, ite_xor_mod_two, xor_xor_xor_comm]

/-- The nonzero 24-bit words. -/
def nonzeroWords : Finset Nat := (Finset.range (2 ^ 24)).erase 0

theorem mem_nonzeroWords {n : Nat} : n ∈ nonzeroWords ↔ 0 < n ∧ n < 2 ^ 24 := by
  simp [nonzeroWords, Nat.pos_iff_ne_zero]

theorem card_nonzeroWords : nonzeroWords.card = 2 ^ 24 - 1 := by
  simp [nonzeroWords]

theorem stepNat_mem {n : Nat} (hn : n ∈ nonzeroWords) : stepNat n ∈ nonzeroWords := by
  rw [mem_nonzeroWords] at hn ⊢
  unfold stepNat
  split
  · -- the taps set bit 23, which the shifted word cannot clear
    refine ⟨Nat.pos_of_ne_zero fun h0 => ?_, Nat.xor_lt_two_pow (by omega) (by decide)⟩
    have hdiv : n / 2 = 0xd80000 := Nat.xor_left_injective (h0.trans (Nat.xor_self _).symm)
    omega
  · simp only [Nat.xor_zero]
    omega

/-- The images of the single bits under the step. -/
def stepImages : List Nat := (List.range 24).map fun i => stepNat (2 ^ i)

theorem iterate_stepNat (k : Nat) {n : Nat} (hn : n < 2 ^ 24) :
    stepNat^[k] n = (linApply stepImages)^[k] n := by
  induction k generalizing n with
  | zero => rfl
  | succ k ih =>
    have hlt : stepNat n < 2 ^ 24 := by
      by_cases h0 : n = 0
      · subst h0
        decide
      · exact (mem_nonzeroWords.mp (stepNat_mem (mem_nonzeroWords.mpr ⟨Nat.pos_of_ne_zero h0, hn⟩))).2
    have himg : linApply stepImages n = stepNat n := linApply_images stepNat_xor 24 n hn
    rw [iterate_succ_apply, iterate_succ_apply, ih hlt, himg]

/-- The kernel's computation: `2^24 - 1` steps bring 1 back, and the steps
`(2^24 - 1) / p` do not. -/
theorem stepImages_period :
    expOfBits (digitsAfterLead 25 (2 ^ 24 - 1)) = 2 ^ 24 - 1 ∧
      linApply (powBits stepImages (digitsAfterLead 25 (2 ^ 24 - 1))) 1 = 1 := by
  decide +kernel

theorem stepImages_not_period : ∀ p ∈ [3, 5, 7, 13, 17, 241],
    expOfBits (digitsAfterLead 25 ((2 ^ 24 - 1) / p)) = (2 ^ 24 - 1) / p ∧
      linApply (powBits stepImages (digitsAfterLead 25 ((2 ^ 24 - 1) / p))) 1 ≠ 1 := by
  decide +kernel

/-- `2^24 - 1 = 3^2 * 5 * 7 * 13 * 17 * 241`. -/
theorem prime_dvd_period {p : Nat} (hp : p.Prime) (hdvd : p ∣ 2 ^ 24 - 1) :
    p ∈ [3, 5, 7, 13, 17, 241] := by
  have hfac : 2 ^ 24 - 1 = 3 * 3 * 5 * 7 * 13 * 17 * 241 := by decide
  have hprime : ∀ q ∈ [3, 5, 7, 13, 17, 241], q.Prime := by norm_num
  rw [hfac] at hdvd
  have heq : ∀ q ∈ [3, 5, 7, 13, 17, 241], p ∣ q → p ∈ [3, 5, 7, 13, 17, 241] :=
    fun q hq hpq => (Nat.prime_dvd_prime_iff_eq hp (hprime q hq)).mp hpq ▸ hq
  rcases (Nat.Prime.dvd_mul hp).mp hdvd with h | h241
  · rcases (Nat.Prime.dvd_mul hp).mp h with h | h17
    · rcases (Nat.Prime.dvd_mul hp).mp h with h | h13
      · rcases (Nat.Prime.dvd_mul hp).mp h with h | h7
        · rcases (Nat.Prime.dvd_mul hp).mp h with h | h5
          · rcases (Nat.Prime.dvd_mul hp).mp h with h3 | h3
            all_goals exact heq 3 (by simp) h3
          · exact heq 5 (by simp) h5
        · exact heq 7 (by simp) h7
      · exact heq 13 (by simp) h13
    · exact heq 17 (by simp) h17
  · exact heq 241 (by simp) h241

theorem minimalPeriod_stepNat_one : minimalPeriod stepNat 1 = 2 ^ 24 - 1 := by
  refine minimalPeriod_eq_of_prime_divisors (by decide) ?_ [3, 5, 7, 13, 17, 241]
    (fun p hp hdvd => prime_dvd_period hp hdvd) fun p hp hper => ?_
  · -- the goals are stated on the iterates, and closed without unfolding them
    have h := linApply_powBits stepImages (digitsAfterLead 25 (2 ^ 24 - 1)) 1
    rw [stepImages_period.1, stepImages_period.2] at h
    exact (iterate_stepNat _ (by decide)).trans h.symm
  · obtain ⟨hexp, hne⟩ := stepImages_not_period p hp
    have h := linApply_powBits stepImages (digitsAfterLead 25 ((2 ^ 24 - 1) / p)) 1
    rw [hexp] at h
    exact hne (h.trans ((iterate_stepNat _ (by decide)).symm.trans hper))

/-- From every nonzero 24-bit word the step returns after exactly `2^24 - 1` steps. -/
theorem minimalPeriod_stepNat {n : Nat} (hn : n ∈ nonzeroWords) :
    minimalPeriod stepNat n = 2 ^ 24 - 1 := by
  have hone := minimalPeriod_stepNat_one
  rw [← card_nonzeroWords] at hone ⊢
  exact minimalPeriod_eq_card (fun _ => stepNat_mem) (mem_nonzeroWords.mpr ⟨by decide, by decide⟩)
    hone (by rw [card_nonzeroWords]; decide) n hn

/-! ### Successive calls -/

theorem minimalPeriod_step {seed : UInt32} (hseed : 0 < seed.toNat ∧ seed.toNat < 2 ^ 24) :
    minimalPeriod step seed = 2 ^ 24 - 1 := by
  rw [← minimalPeriod_stepNat (mem_nonzeroWords.mpr hseed)]
  apply minimalPeriod_eq_minimalPeriod_iff.mpr
  intro n
  rw [IsPeriodicPt, IsPeriodicPt, IsFixedPt, IsFixedPt, ← iterate_step_toNat, UInt32.toNat_inj]

theorem next_run {ε : Type} (s : IndexLfsr) (h : step s.lfsr ≠ s.initial) :
    (next : EStateM (Fault ε) IndexLfsr UInt32).run s =
      .ok ((s.lfsr - 1) ^^^ s.mask) { s with lfsr := step s.lfsr } := by
  simp [next, h, EStateM.run_bind, EStateM.run_set, -bind_pure_comp]

theorem next_run_panic {ε : Type} (s : IndexLfsr) (h : step s.lfsr = s.initial) :
    (next : EStateM (Fault ε) IndexLfsr UInt32).run s = .error .panic { s with lfsr := step s.lfsr } := by
  simp [next, h, EStateM.run_bind, EStateM.run_set, -bind_pure_comp]

variable {ε : Type} {seed mask : UInt32}

/-- The value of the call of `next` made when the register is `i` steps past the
seed. -/
def nth (seed mask : UInt32) (i : Nat) : UInt32 := (step^[i] seed - 1) ^^^ mask

section Seed

variable (hseed : 0 < seed.toNat ∧ seed.toNat < 2 ^ 24)
include hseed

/-- The register returns to the seed only after `2^24 - 1` steps. -/
theorem step_iterate_ne_seed {j : Nat} (hj : j + 1 < 2 ^ 24 - 1) : step (step^[j] seed) ≠ seed := by
  intro heq
  have hper : IsPeriodicPt step (j + 1) seed := by
    rw [IsPeriodicPt, IsFixedPt, iterate_succ_apply']
    exact heq
  have hle := hper.minimalPeriod_le (Nat.succ_pos j)
  rw [minimalPeriod_step hseed] at hle
  omega

theorem step_iterate_eq_seed {j : Nat} (hj : j + 1 = 2 ^ 24 - 1) : step (step^[j] seed) = seed := by
  have h := iterate_minimalPeriod (f := step) (x := seed)
  rwa [minimalPeriod_step hseed, ← hj, iterate_succ_apply'] at h

/-- Within a period the calls return distinct values: the registers are distinct,
and subtracting one and masking are injective. -/
theorem nth_injOn {i j : Nat} (hi : i < 2 ^ 24 - 1) (hj : j < 2 ^ 24 - 1)
    (h : nth seed mask i = nth seed mask j) : i = j := by
  have hreg : step^[i] seed = step^[j] seed := by
    simpa [nth] using h
  have hinj := iterate_injOn_Iio_minimalPeriod (f := step) (x := seed)
  rw [minimalPeriod_step hseed] at hinj
  exact hinj (show i < 2 ^ 24 - 1 from hi) (show j < 2 ^ 24 - 1 from hj) hreg

theorem nth_lt (hmask : mask.toNat < 2 ^ 24) (i : Nat) : (nth seed mask i).toNat < 2 ^ 24 := by
  have hmaps : Set.MapsTo stepNat nonzeroWords nonzeroWords := fun _ h => stepNat_mem h
  have hmem : stepNat^[i] seed.toNat ∈ nonzeroWords := hmaps.iterate i (mem_nonzeroWords.mpr hseed)
  rw [← iterate_step_toNat, mem_nonzeroWords] at hmem
  rw [nth, UInt32.toNat_xor]
  refine Nat.xor_lt_two_pow ?_ hmask
  rw [UInt32.toNat_sub_of_le _ _ (by rw [UInt32.le_iff_toNat_le]; simp; omega)]
  simp
  omega

/-- One call, `j` steps past the seed: the `j`-th value, unless the register comes
back to the seed. -/
theorem next_spec {j : Nat} (hj : j < 2 ^ 24 - 1) :
    Triple (fun v s => j + 1 < 2 ^ 24 - 1 ∧ v = nth seed mask j ∧ s = ⟨seed, step^[j + 1] seed, mask⟩)
      (fun f _ => f = .panic) (next : EStateM (Fault ε) IndexLfsr UInt32) ⟨seed, step^[j] seed, mask⟩ := by
  by_cases hlt : j + 1 < 2 ^ 24 - 1
  · refine triple_of_ok (next_run ⟨seed, step^[j] seed, mask⟩ (step_iterate_ne_seed hseed hlt))
      ⟨hlt, rfl, ?_⟩
    rw [iterate_succ_apply']
  · exact triple_of_error
      (next_run_panic ⟨seed, step^[j] seed, mask⟩ (step_iterate_eq_seed hseed (by omega))) rfl

/-- Calls `j` to `j + n - 1` from the seed, while the register has not come back to
it: each returns the register less one, masked. -/
theorem nexts_run (n : Nat) :
    ∀ j, j + n < 2 ^ 24 - 1 →
      ((List.replicate n ()).mapM fun _ => (next : EStateM (Fault ε) IndexLfsr UInt32)).run
        ⟨seed, step^[j] seed, mask⟩ =
        .ok ((List.range' j n).map fun i => (step^[i] seed - 1) ^^^ mask)
          ⟨seed, step^[j + n] seed, mask⟩ := by
  induction n with
  | zero => exact fun j _ => rfl
  | succ n ih =>
    intro j hj
    have hstep : (⟨seed, step (step^[j] seed), mask⟩ : IndexLfsr) = ⟨seed, step^[j + 1] seed, mask⟩ := by
      rw [iterate_succ_apply']
    rw [List.replicate_succ, List.mapM_cons, EStateM.run_bind,
      next_run ⟨seed, step^[j] seed, mask⟩ (step_iterate_ne_seed hseed (by omega))]
    dsimp only
    rw [hstep, EStateM.run_bind, ih (j + 1) (by omega), List.range'_succ, List.map_cons,
      show j + 1 + n = j + (n + 1) by omega]
    rfl

/-- The call after those panics: the register is back at the seed. -/
theorem nexts_run_panic (n : Nat) (hn : n + 1 = 2 ^ 24 - 1) :
    ((List.replicate (n + 1) ()).mapM fun _ => (next : EStateM (Fault ε) IndexLfsr UInt32)).run
      (default seed mask) = .error .panic ⟨seed, seed, mask⟩ := by
  have hlast := step_iterate_eq_seed hseed hn
  have hfirst := @nexts_run ε seed mask hseed n 0 (by omega)
  rw [Nat.zero_add] at hfirst
  rw [List.replicate_succ', List.mapM_append, EStateM.run_bind,
    show default seed mask = ⟨seed, step^[0] seed, mask⟩ from rfl, hfirst]
  simp only [List.mapM_cons, EStateM.run_bind, next_run_panic ⟨seed, step^[n] seed, mask⟩ hlast]
  rw [hlast]

/-- The first `2^24 - 2` calls return pairwise distinct 24-bit values without
panicking. -/
theorem nexts_distinct (hmask : mask.toNat < 2 ^ 24) (n : Nat) (hn : n ≤ 2 ^ 24 - 2) :
    ∃ vs s, ((List.replicate n ()).mapM fun _ => (next : EStateM (Fault ε) IndexLfsr UInt32)).run
        (default seed mask) = .ok vs s ∧
      vs.length = n ∧ vs.Nodup ∧ ∀ v ∈ vs, v.toNat < 2 ^ 24 := by
  have hrun := @nexts_run ε seed mask hseed n 0 (by omega)
  simp only [iterate_zero_apply] at hrun
  refine ⟨_, _, hrun, by simp, ?_, ?_⟩
  · refine (List.nodup_range' (s := 0) (n := n)).map_on fun i hi j hj hij => ?_
    rw [List.mem_range'_1] at hi hj
    exact nth_injOn hseed (by omega) (by omega) hij
  · intro v hv
    obtain ⟨i, -, rfl⟩ := List.mem_map.mp hv
    exact nth_lt hseed hmask i

end Seed

end IndexLfsr

end Neptun.Device
