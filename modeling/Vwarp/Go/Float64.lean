import Mathlib.Algebra.Order.Ring.Nat
import Mathlib.Data.Nat.Log

/-!
# Integers that pass through a `float64`

`strconv.ParseFloat` rounds to the nearest of the numbers with 53 significant bits, and of two to
the even one.  `strconv.AppendFloat`, asked for the shortest text, writes the decimal with the
fewest digits that is read as the same number, and of those the nearest; for an integer below
`10 ^ 21` the other digits are zeros.  `throughFloat64` is both, one after the other.  It keeps
every integer up to `2 ^ 53`, and some beyond.
-/

namespace Vwarp.Go

/-- The multiple of `m` that is nearest to `n`, and of two the even one. -/
def nearestMultiple (m n : Nat) : Nat :=
  if 2 * (n % m) < m ∨ 2 * (n % m) = m ∧ n / m % 2 = 0 then n / m * m else (n / m + 1) * m

/-- `ParseFloat` of an integer that is not negative. -/
def roundFloat64 (n : Nat) : Nat :=
  if n ≤ 2 ^ 53 then n else nearestMultiple (2 ^ (n.log2 - 52)) n

/-- The decimal with `k` zeros at its end that is read as `f`, if there is one. -/
def roundDecimal (f k : Nat) : Option Nat :=
  [nearestMultiple (10 ^ k) f, f / 10 ^ k * 10 ^ k, (f / 10 ^ k + 1) * 10 ^ k].find? fun d ↦
    roundFloat64 d = f

/-- `AppendFloat` of an integer that is not negative. -/
def shortestDecimal (f : Nat) : Nat :=
  ((List.range 19).reverse.findSome? fun k ↦ roundDecimal f (k + 1)).getD f

def throughFloat64 (n : Int) : Int := n.sign * shortestDecimal (roundFloat64 n.natAbs)

theorem dvd_nearestMultiple (m n : Nat) : m ∣ nearestMultiple m n := by
  unfold nearestMultiple
  split
  all_goals exact Nat.dvd_mul_left m _

theorem le_nearestMultiple (m n : Nat) : n / m * m ≤ nearestMultiple m n := by
  unfold nearestMultiple
  split
  · exact Nat.le_refl _
  · exact Nat.mul_le_mul_right m (Nat.le_succ _)

/-- Beyond `2 ^ 53` only the next integer is rounded down to it. -/
theorem eq_of_roundFloat64_le {d : Nat} (hd : 2 ^ 53 < d) (h : roundFloat64 d ≤ 2 ^ 53) :
    d = 2 ^ 53 + 1 := by
  rw [roundFloat64, if_neg (Nat.not_le.mpr hd)] at h
  have hlog : 53 ≤ d.log2 := (Nat.le_log2 (by omega)).mpr hd.le
  obtain ⟨s, hs⟩ := Nat.exists_eq_add_of_le hlog
  rw [hs, show 53 + s - 52 = s + 1 by omega] at h
  have hpow : 2 ^ 52 * 2 ^ (s + 1) ≤ d := by
    rw [← Nat.pow_add, show 52 + (s + 1) = 53 + s by omega, ← hs]
    exact Nat.log2_self_le (by omega)
  have hquot : 2 ^ 52 ≤ d / 2 ^ (s + 1) := (Nat.le_div_iff_mul_le (Nat.two_pow_pos _)).mpr hpow
  have hle : 2 ^ 52 * 2 ^ (s + 1) ≤ 2 ^ 53 :=
    (Nat.mul_le_mul_right _ hquot).trans ((le_nearestMultiple _ d).trans h)
  -- so the last binary digit alone was rounded
  have hzero : s = 0 := by
    by_contra hne
    have hfour : 2 ^ 2 ≤ 2 ^ (s + 1) := Nat.pow_le_pow_right (by decide) (by omega)
    omega
  subst hzero
  unfold nearestMultiple at h
  split at h
  · omega
  · omega

/-- A decimal that ends with a zero and is read as an integer up to `2 ^ 53` is that integer. -/
theorem eq_of_roundDecimal {f k d : Nat} (hf : f ≤ 2 ^ 53) (h : roundDecimal f (k + 1) = some d) :
    d = f := by
  have hround : roundFloat64 d = f := by simpa using List.find?_some h
  have hten : 10 ∣ d := by
    refine Nat.dvd_trans (Nat.dvd_of_pow_dvd (Nat.succ_pos k) (Nat.dvd_refl _)) ?_
    have hmem := List.mem_of_find?_eq_some h
    simp only [List.mem_cons, List.not_mem_nil, or_false] at hmem
    rcases hmem with rfl | rfl | rfl
    · exact dvd_nearestMultiple _ _
    all_goals exact Nat.dvd_mul_left _ _
  rcases Nat.lt_or_ge (2 ^ 53) d with hlt | hle
  · rw [eq_of_roundFloat64_le hlt (hround ▸ hf)] at hten
    exact absurd hten (by decide)
  · rwa [roundFloat64, if_pos hle] at hround

theorem throughFloat64_of_le {n : Int} (h : n.natAbs ≤ 2 ^ 53) : throughFloat64 n = n := by
  have hshortest : shortestDecimal n.natAbs = n.natAbs := by
    unfold shortestDecimal
    cases hfind : (List.range 19).reverse.findSome? fun k ↦ roundDecimal n.natAbs (k + 1) with
    | none => rfl
    | some d =>
      obtain ⟨k, -, hk⟩ := List.exists_of_findSome?_eq_some hfind
      exact eq_of_roundDecimal h hk
  rw [throughFloat64, roundFloat64, if_pos h, hshortest, Int.sign_mul_natAbs]

example : throughFloat64 (10 ^ 18) = 10 ^ 18 := by decide +kernel

/-- `2 ^ 60` has one significant bit, but is not the shortest text for itself. -/
example : throughFloat64 (2 ^ 60) = 1152921504606847000 := by decide +kernel

end Vwarp.Go
