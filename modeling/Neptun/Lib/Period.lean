import Mathlib

/-! Periods of points under a map. A point that returns after `n` steps and after
none of the steps `n / p`, for the primes `p` that divide `n`, has period exactly
`n`. A map of a finite set into itself with a point whose period is the size of
the set runs through the whole set from that point, and every point of the set
then has that period. -/
namespace Neptun.Lib

open Function

variable {α : Type} {f : α → α}

theorem minimalPeriod_eq_of_prime_divisors {x : α} {n : Nat} (hn : 0 < n) (hper : IsPeriodicPt f n x)
    (ps : List Nat) (hps : ∀ p, p.Prime → p ∣ n → p ∈ ps)
    (hnot : ∀ p ∈ ps, ¬ IsPeriodicPt f (n / p) x) : minimalPeriod f x = n := by
  have hdvd := hper.minimalPeriod_dvd
  have hpos := hper.minimalPeriod_pos hn
  obtain ⟨c, hc⟩ := hdvd
  by_contra hne
  -- a proper divisor leaves a prime factor `p` of `n` over, and the period divides `n / p`
  have hc1 : c ≠ 1 := by
    rintro rfl
    exact hne (by rw [hc, Nat.mul_one])
  obtain ⟨p, hp, hpc⟩ := Nat.exists_prime_and_dvd hc1
  obtain ⟨e, he⟩ := hpc
  have hnp : n / p = minimalPeriod f x * e := by
    rw [hc, he, ← Nat.mul_assoc, Nat.mul_comm _ p, Nat.mul_assoc, Nat.mul_div_cancel_left _ hp.pos]
  apply hnot p (hps p hp ⟨minimalPeriod f x * e, by rw [hc, he, Nat.mul_left_comm]⟩)
  rw [hnp]
  exact (isPeriodicPt_minimalPeriod f x).mul_const e

section Finite

variable [DecidableEq α] {S : Finset α}

/-- The first `S.card` steps from a point of period `S.card` visit all of `S`. -/
theorem exists_iterate_eq_of_minimalPeriod (hS : ∀ y ∈ S, f y ∈ S) {x : α} (hx : x ∈ S)
    (hper : minimalPeriod f x = S.card) : ∀ y ∈ S, ∃ k < S.card, f^[k] x = y := by
  have hiter : ∀ k, f^[k] x ∈ S := by
    intro k
    induction k with
    | zero => exact hx
    | succ k ih =>
      rw [Function.iterate_succ_apply']
      exact hS _ ih
  have hsub : (Finset.range S.card).image (fun k => f^[k] x) ⊆ S := by
    intro y hy
    obtain ⟨k, -, rfl⟩ := Finset.mem_image.mp hy
    exact hiter k
  have hcard : ((Finset.range S.card).image (fun k => f^[k] x)).card = S.card := by
    rw [Finset.card_image_of_injOn, Finset.card_range]
    intro i hi j hj hij
    rw [← hper] at hi hj
    exact iterate_injOn_Iio_minimalPeriod (Finset.mem_range.mp hi) (Finset.mem_range.mp hj) hij
  have heq := Finset.eq_of_subset_of_card_le hsub hcard.ge
  intro y hy
  rw [← heq] at hy
  obtain ⟨k, hk, rfl⟩ := Finset.mem_image.mp hy
  exact ⟨k, Finset.mem_range.mp hk, rfl⟩

/-- Every point of `S` then has period `S.card`. -/
theorem minimalPeriod_eq_card (hS : ∀ y ∈ S, f y ∈ S) {x : α} (hx : x ∈ S)
    (hper : minimalPeriod f x = S.card) (hcard : 0 < S.card) :
    ∀ y ∈ S, minimalPeriod f y = S.card := by
  intro y hy
  obtain ⟨k, -, rfl⟩ := exists_iterate_eq_of_minimalPeriod hS hx hper y hy
  have hmem : x ∈ periodicPts f := minimalPeriod_pos_iff_mem_periodicPts.mp (hper ▸ hcard)
  rw [minimalPeriod_apply_iterate hmem, hper]

end Finite

end Neptun.Lib
