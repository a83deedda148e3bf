import Mathlib.Data.Nat.ModEq
import Mathlib.Tactic.Ring

/-!
# One's-complement sums

Words of `w` bits are added with the carry brought around to the low end.  This is addition modulo
`2 ^ w - 1`, in which zero has two words: the one with no bit set stands for a sum of zeros only,
and the one with all bits set for every other multiple of the modulus.

A sum can as well be taken of the numbers first and its carries be folded afterwards, because a word
is known from what it represents: `Represents.unique`.
-/

namespace Vwarp.Lib.OnesComplement

variable (w : Nat)

/-- Bring what does not fit into `w` bits around to the low end. -/
def fold (n : Nat) : Nat := n % 2 ^ w + n / 2 ^ w

def add (a b : Nat) : Nat := fold w (a + b)

def sum (words : List Nat) : Nat := words.foldl (add w) 0

/-- The number `r` stands for the sum `n`. -/
structure Represents (n r : Nat) : Prop where
  modEq : r ≡ n [MOD 2 ^ w - 1]
  eq_zero : r = 0 ↔ n = 0

variable {w} {n r r' : Nat}

namespace Represents

theorem refl (n : Nat) : Represents w n n := ⟨Nat.ModEq.refl n, Iff.rfl⟩

theorem trans (h : Represents w n r) (h' : Represents w r r') : Represents w n r' :=
  ⟨h'.modEq.trans h.modEq, h'.eq_zero.trans h.eq_zero⟩

theorem add_right (h : Represents w n r) (m : Nat) : Represents w (n + m) (r + m) := by
  refine ⟨h.modEq.add_right m, ?_⟩
  rw [Nat.add_eq_zero_iff, Nat.add_eq_zero_iff, h.eq_zero]

theorem unique (h : Represents w n r) (h' : Represents w n r') (hr : r < 2 ^ w) (hr' : r' < 2 ^ w) :
    r = r' := by
  have hzero : r = 0 ↔ r' = 0 := h.eq_zero.trans h'.eq_zero.symm
  rcases Nat.eq_zero_or_pos r with h0 | hpos
  · rw [h0, hzero.mp h0]
  · have hpos' : 0 < r' := Nat.pos_of_ne_zero fun h0 ↦ hpos.ne' (hzero.mpr h0)
    -- both are among `1, …, 2 ^ w - 1`
    have hmod : (r - 1) + 1 ≡ (r' - 1) + 1 [MOD 2 ^ w - 1] := by
      rw [Nat.sub_add_cancel hpos, Nat.sub_add_cancel hpos']
      exact h.modEq.trans h'.modEq.symm
    have heq := (Nat.ModEq.add_right_cancel' 1 hmod).eq_of_lt_of_lt (by omega) (by omega)
    omega

theorem complement (h : Represents w n r) (hr : r < 2 ^ w) (hw : 0 < w) :
    Represents w (n + (2 ^ w - 1 - r)) (2 ^ w - 1) := by
  have hpow : 1 < 2 ^ w := Nat.one_lt_two_pow hw.ne'
  constructor
  · have hmod := h.modEq.add_right (2 ^ w - 1 - r)
    rwa [Nat.add_sub_cancel' (by omega)] at hmod
  · have hzero := h.eq_zero
    omega

end Represents

/-- Folding keeps what a number represents. -/
theorem represents_fold (n : Nat) : Represents w n (fold w n) := by
  have hpow : 0 < 2 ^ w := Nat.two_pow_pos w
  have hsplit : fold w n + (2 ^ w - 1) * (n / 2 ^ w) = n := by
    calc
      fold w n + (2 ^ w - 1) * (n / 2 ^ w) = n % 2 ^ w + (2 ^ w - 1 + 1) * (n / 2 ^ w) := by
        rw [fold]
        ring
      _ = n := by rw [Nat.sub_add_cancel hpow, Nat.mod_add_div]
  constructor
  · have hmod : fold w n + (2 ^ w - 1) * (n / 2 ^ w) ≡ fold w n [MOD 2 ^ w - 1] :=
      Nat.add_mul_mod_self_left ..
    rw [hsplit] at hmod
    exact hmod.symm
  · constructor
    · intro hzero
      have hq : n / 2 ^ w = 0 := (Nat.add_eq_zero_iff.mp hzero).2
      rw [hzero, hq] at hsplit
      exact hsplit.symm
    · rintro rfl
      rw [fold, Nat.zero_mod, Nat.zero_div]

theorem add_lt {a b : Nat} (ha : a < 2 ^ w) (hb : b < 2 ^ w) : add w a b < 2 ^ w := by
  unfold add fold
  by_cases hcarry : a + b < 2 ^ w
  · rw [Nat.mod_eq_of_lt hcarry, Nat.div_eq_of_lt hcarry]
    exact hcarry
  · have hq : (a + b) / 2 ^ w = 1 := Nat.div_eq_of_lt_le (by omega) (by omega)
    have hdiv := Nat.mod_add_div (a + b) (2 ^ w)
    rw [hq] at hdiv ⊢
    omega

theorem represents_sum {words : List Nat} (h : ∀ word ∈ words, word < 2 ^ w) :
    Represents w words.sum (sum w words) ∧ sum w words < 2 ^ w := by
  have hloop (n r : Nat) (hr : Represents w n r) (hlt : r < 2 ^ w) :
      Represents w (n + words.sum) (words.foldl (add w) r) ∧ words.foldl (add w) r < 2 ^ w := by
    induction words generalizing n r with
    | nil => exact ⟨hr, hlt⟩
    | cons word words ih =>
      rw [List.forall_mem_cons] at h
      rw [List.sum_cons, List.foldl_cons, ← Nat.add_assoc]
      exact ih h.2 _ _ ((hr.add_right word).trans (represents_fold _)) (add_lt hlt h.1)
  have hsum := hloop 0 0 (.refl 0) (Nat.two_pow_pos w)
  rwa [Nat.zero_add] at hsum

end Vwarp.Lib.OnesComplement
