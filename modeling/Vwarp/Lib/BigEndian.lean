import Mathlib.Data.Nat.ModEq
import Mathlib.Tactic.Ring

/-!
# Big-endian numerals of fixed width

`toBE k n` is the low `k` bytes of `n`, most significant first, and `ofBE` reads a
byte list back as a number.  The two are inverse to each other on lists of length
`k` and numbers below `256 ^ k`.
-/

namespace Vwarp.Lib

/-- The low `k` bytes of `n`, most significant first. -/
def toBE : Nat → Nat → List UInt8
  | 0, _ => []
  | k + 1, n => UInt8.ofNat (n / 256 ^ k) :: toBE k n

/-- The number a byte list spells, most significant byte first. -/
def ofBE : List UInt8 → Nat
  | [] => 0
  | b :: bs => b.toNat * 256 ^ bs.length + ofBE bs

@[simp] theorem length_toBE (k n : Nat) : (toBE k n).length = k := by
  induction k with
  | zero => rfl
  | succ k ih => rw [toBE, List.length_cons, ih]

theorem ofBE_lt (bs : List UInt8) : ofBE bs < 256 ^ bs.length := by
  induction bs with
  | nil => exact Nat.one_pos
  | cons b bs ih =>
    have hb : b.toNat < 256 := UInt8.toNat_lt b
    calc
      ofBE (b :: bs) < b.toNat * 256 ^ bs.length + 256 ^ bs.length := Nat.add_lt_add_left ih _
      _ = (b.toNat + 1) * 256 ^ bs.length := by ring
      _ ≤ 256 * 256 ^ bs.length := Nat.mul_le_mul_right _ hb
      _ = 256 ^ (b :: bs).length := by rw [List.length_cons, Nat.pow_succ, Nat.mul_comm]

theorem ofBE_toBE (k n : Nat) : ofBE (toBE k n) = n % 256 ^ k := by
  induction k with
  | zero => simp [toBE, ofBE, Nat.mod_one]
  | succ k ih =>
    have hdigit : (UInt8.ofNat (n / 256 ^ k)).toNat = n / 256 ^ k % 256 := UInt8.toNat_ofNat'
    have hsplit : n % 256 ^ (k + 1) = n % 256 ^ k + 256 ^ k * (n / 256 ^ k % 256) :=
      Nat.mod_pow_succ
    rw [toBE, ofBE, ih, length_toBE, hdigit, hsplit]
    ring

theorem ofBE_toBE_of_lt {k n : Nat} (h : n < 256 ^ k) : ofBE (toBE k n) = n := by
  rw [ofBE_toBE, Nat.mod_eq_of_lt h]

theorem toBE_add_mul (k n m : Nat) : toBE k (m * 256 ^ k + n) = toBE k n := by
  induction k generalizing m with
  | zero => rfl
  | succ k ih =>
    have hm : m * 256 ^ (k + 1) + n = m * 256 * 256 ^ k + n := by ring
    rw [toBE, toBE, hm, ih (m * 256), Nat.add_comm (m * 256 * 256 ^ k),
      Nat.add_mul_div_right _ _ (Nat.pow_pos (by decide))]
    congr 1
    rw [← UInt8.toNat_inj, UInt8.toNat_ofNat', UInt8.toNat_ofNat', Nat.add_mul_mod_self_right]

theorem toBE_mod (k n : Nat) : toBE k (n % 256 ^ k) = toBE k n := by
  have h := toBE_add_mul k (n % 256 ^ k) (n / 256 ^ k)
  rw [Nat.mul_comm, Nat.div_add_mod] at h
  exact h.symm

theorem toBE_eq_iff (k m n : Nat) : toBE k m = toBE k n ↔ m % 256 ^ k = n % 256 ^ k := by
  constructor
  · intro h
    rw [← ofBE_toBE, h, ofBE_toBE]
  · intro h
    rw [← toBE_mod k m, h, toBE_mod]

theorem toBE_succ_concat (k n : Nat) : toBE (k + 1) n = toBE k (n / 256) ++ [UInt8.ofNat n] := by
  induction k with
  | zero => rw [toBE, toBE, toBE, Nat.pow_zero, Nat.div_one, List.nil_append]
  | succ k ih => rw [toBE, ih, Nat.pow_succ', ← Nat.div_div_eq_div_mul]; rfl

theorem toBE_add (j k n : Nat) : toBE (j + k) n = toBE j (n / 256 ^ k) ++ toBE k n := by
  induction j with
  | zero => rw [Nat.zero_add]; rfl
  | succ j ih =>
    rw [Nat.add_right_comm, toBE, ih, Nat.add_comm j k, Nat.pow_add, ← Nat.div_div_eq_div_mul]
    rfl

theorem toBE_ofBE (bs : List UInt8) : toBE bs.length (ofBE bs) = bs := by
  induction bs with
  | nil => rfl
  | cons b bs ih =>
    have hpos : 0 < 256 ^ bs.length := Nat.pow_pos (by decide)
    rw [List.length_cons, toBE, ofBE, toBE_add_mul, ih, Nat.add_comm,
      Nat.add_mul_div_right _ _ hpos, Nat.div_eq_of_lt (ofBE_lt bs), Nat.zero_add,
      UInt8.ofNat_toNat]

end Vwarp.Lib
