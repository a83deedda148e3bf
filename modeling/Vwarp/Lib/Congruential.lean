import Mathlib.Algebra.Ring.GeomSum
import Mathlib.Data.Int.ModEq
import Mathlib.Data.List.Range
import Mathlib.RingTheory.Coprime.Lemmas
import Mathlib.Tactic.Positivity
import Mathlib.Tactic.Ring
import Mathlib.Tactic.Zify

/-!
# Linear congruential sequences

The sequence that starts at zero and goes from `x` to `a * x + c` modulo `m`.  Its values are the
multiples of `c` by the sums of the powers of `a`.

For a modulus `2 ^ k` it takes every value before it takes one again if `c` is odd, `a` is odd, and
`a` is one modulo four; the last condition counts only if four divides the modulus.  The reason is
that a sum of `n` powers has as many factors of two as `n` has: `two_pow_dvd_geom_sum_iff`.
-/

namespace Vwarp.Lib.Congruential

open Finset

def step (m a c x : Int) : Int := (a * x + c) % m

/-- The value after `n` steps. -/
theorem iterate_step (m a c : Int) (n : Nat) :
    (step m a c)^[n] 0 ≡ c * ∑ i ∈ range n, a ^ i [ZMOD m] := by
  induction n with
  | zero =>
    rw [range_zero, sum_empty, mul_zero]
    exact Int.ModEq.refl 0
  | succ n ih =>
    rw [Function.iterate_succ_apply', geom_sum_succ]
    calc
      step m a c ((step m a c)^[n] 0) ≡ a * (step m a c)^[n] 0 + c [ZMOD m] := Int.mod_modEq _ _
      _ ≡ a * (c * ∑ i ∈ range n, a ^ i) + c [ZMOD m] := (ih.mul_left a).add_right c
      _ = c * (a * ∑ i ∈ range n, a ^ i + 1) := by ring

/-- The conditions for the modulus `2 ^ k`. -/
structure FullPeriod (k : Nat) (a c : Int) : Prop where
  increment : 0 < k → c % 2 = 1
  multiplier : 0 < k → a % 2 = 1
  four : 1 < k → a % 4 = 1

variable {a c : Int}

theorem geom_sum_mod_two (ha : a % 2 = 1) (n : Nat) : (∑ i ∈ range n, a ^ i) % 2 = n % 2 := by
  induction n with
  | zero => rfl
  | succ n ih =>
    have hodd : a ^ n % 2 = 1 := Int.odd_iff.mp ((Int.odd_iff.mpr ha).pow)
    rw [geom_sum_succ']
    push_cast
    omega

theorem geom_sum_two_mul (a : Int) (n : Nat) :
    ∑ i ∈ range (2 * n), a ^ i = (1 + a ^ n) * ∑ i ∈ range n, a ^ i := by
  rw [two_mul, sum_range_add, add_mul, one_mul, mul_sum]
  simp only [pow_add]

theorem two_pow_dvd_mul_iff {k : Nat} {u x : Int} (h : 0 < k → u % 2 = 1) :
    (2 : Int) ^ k ∣ u * x ↔ 2 ^ k ∣ x := by
  rcases Nat.eq_zero_or_pos k with rfl | hk
  · simp
  · have hcoprime : IsCoprime ((2 : Int) ^ k) u := by
      apply IsCoprime.pow_left
      have hu := h hk
      exact ⟨-(u / 2), 1, by omega⟩
    exact ⟨hcoprime.dvd_of_dvd_mul_left, fun hdvd ↦ hdvd.mul_left u⟩

/-- A sum of `n` powers has as many factors of two as `n`. -/
theorem two_pow_dvd_geom_sum_iff {k : Nat} (h : 0 < k → a % 2 = 1) (h4 : 1 < k → a % 4 = 1)
    (n : Nat) : (2 : Int) ^ k ∣ ∑ i ∈ range n, a ^ i ↔ 2 ^ k ∣ n := by
  induction k generalizing n with
  | zero => simp
  | succ k ih =>
    have ha := h k.succ_pos
    have hmod := geom_sum_mod_two ha n
    rcases Nat.even_or_odd' n with ⟨m, rfl | rfl⟩
    · rcases Nat.eq_zero_or_pos k with rfl | hk
      · refine iff_of_true ?_ ⟨m, rfl⟩
        rw [zero_add, pow_one]
        omega
      · -- the other factor has one factor of two
        have ha4 : a % 4 = 1 := h4 (by omega)
        have hpow : a ^ m % 4 = 1 := by
          have hmodEq : a ^ m ≡ 1 ^ m [ZMOD 4] := Int.ModEq.pow m ha4
          rwa [one_pow] at hmodEq
        obtain ⟨u, hu⟩ : ∃ u, 1 + a ^ m = 2 * (2 * u + 1) := ⟨a ^ m / 4, by omega⟩
        rw [geom_sum_two_mul, hu, pow_succ', mul_assoc,
          mul_dvd_mul_iff_left (show (2 : Int) ≠ 0 by decide), two_pow_dvd_mul_iff fun _ ↦ by omega,
          ih (fun _ ↦ ha) fun _ ↦ ha4, pow_succ', Nat.mul_dvd_mul_iff_left Nat.two_pos]
    · refine iff_of_false (fun hdvd ↦ ?_) fun hdvd ↦ ?_
      · have htwo : (2 : Int) ∣ _ := (dvd_pow_self 2 k.succ_ne_zero).trans hdvd
        push_cast at hmod
        omega
      · have htwo : 2 ∣ _ := (dvd_pow_self 2 k.succ_ne_zero).trans hdvd
        omega

/-- No value comes again within the period. -/
theorem iterate_step_inj {k i j : Nat} (h : FullPeriod k a c) (hle : i ≤ j)
    (heq : (step (2 ^ k) a c)^[i] 0 = (step (2 ^ k) a c)^[j] 0) : 2 ^ k ∣ j - i := by
  obtain ⟨n, rfl⟩ := Nat.exists_eq_add_of_le hle
  have hmodEq : c * ∑ l ∈ range i, a ^ l ≡ c * ∑ l ∈ range (i + n), a ^ l [ZMOD 2 ^ k] :=
    (iterate_step _ a c i).symm.trans (heq ▸ iterate_step _ a c (i + n))
  have hdiff : c * ∑ l ∈ range (i + n), a ^ l - c * ∑ l ∈ range i, a ^ l =
      c * (a ^ i * ∑ l ∈ range n, a ^ l) := by
    rw [sum_range_add]
    simp only [pow_add, ← mul_sum]
    ring
  have hdvd := hmodEq.dvd
  have hpow : 0 < k → a ^ i % 2 = 1 := fun hk ↦
    Int.odd_iff.mp (Int.odd_iff.mpr (h.multiplier hk)).pow
  rw [hdiff, two_pow_dvd_mul_iff h.increment, two_pow_dvd_mul_iff hpow,
    two_pow_dvd_geom_sum_iff h.multiplier h.four] at hdvd
  rwa [Nat.add_sub_cancel_left]

/-- The first `2 ^ k` values are the numbers below `2 ^ k`, in some order. -/
theorem perm_of_fullPeriod {k : Nat} (h : FullPeriod k a c) :
    ((List.range (2 ^ k)).map fun i ↦ (step (2 ^ k) a c)^[i + 1] 0).Perm
      ((List.range (2 ^ k)).map fun i : Nat ↦ (i : Int)) := by
  have hpos : (0 : Int) < 2 ^ k := by positivity
  have hnodup : ((List.range (2 ^ k)).map fun i ↦ (step (2 ^ k) a c)^[i + 1] 0).Nodup := by
    refine List.Nodup.map_on (fun i hi j hj heq ↦ ?_) List.nodup_range
    rw [List.mem_range] at hi hj
    rcases Nat.le_total i j with hle | hle
    · have hdvd := iterate_step_inj h (Nat.succ_le_succ hle) heq
      have hzero := Nat.eq_zero_of_dvd_of_lt hdvd (by omega)
      omega
    · have hdvd := iterate_step_inj h (Nat.succ_le_succ hle) heq.symm
      have hzero := Nat.eq_zero_of_dvd_of_lt hdvd (by omega)
      omega
  have hsubset : ((List.range (2 ^ k)).map fun i ↦ (step (2 ^ k) a c)^[i + 1] 0) ⊆
      (List.range (2 ^ k)).map fun i : Nat ↦ (i : Int) := by
    intro x hx
    obtain ⟨i, -, rfl⟩ := List.mem_map.mp hx
    rw [Function.iterate_succ_apply']
    have hnonneg := Int.emod_nonneg (a * (step (2 ^ k) a c)^[i] 0 + c) hpos.ne'
    have hlt := Int.emod_lt_of_pos (a * (step (2 ^ k) a c)^[i] 0 + c) hpos
    refine List.mem_map.mpr ⟨(step (2 ^ k) a c ((step (2 ^ k) a c)^[i] 0)).toNat, ?_, ?_⟩
    · rw [List.mem_range, step]
      zify
      rwa [Int.toNat_of_nonneg hnonneg]
    · exact Int.toNat_of_nonneg hnonneg
  refine (hnodup.subperm hsubset).perm_of_length_le ?_
  rw [List.length_map, List.length_map]

end Vwarp.Lib.Congruential
