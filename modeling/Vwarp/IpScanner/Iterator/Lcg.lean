import Vwarp.IpScanner.Iterator.Generate
import Vwarp.Lib.Congruential
import Mathlib.Data.Int.Bitwise
import Mathlib.Data.Nat.Prime.Basic

/-!
# The generator of a range

`NewLCG` draws a multiplier and an increment until `checkHullDobell` accepts them, and `Next` goes
through the linear congruential sequence that they define.  The size of a range is a power of two,
for which two of the three conditions of Hull and Dobell are tested; the third, that the prime
factors of the modulus divide the multiplier minus one, is in a comment only.  It follows from the
others if four divides the modulus, and there is nothing to ask for if the modulus is one.  The
modulus two is what is left: `next_permutes_iff`.
-/

namespace Vwarp.IpScanner.Iterator

open Vwarp.Go Vwarp.Lib

/-- `LCG`. -/
structure LCG where
  modulus : Int
  multiplier : Int
  increment : Int
  current : Int
deriving DecidableEq

/-- `checkHullDobell`. -/
def checkHullDobell (modulus multiplier increment : Int) : Bool :=
  if Int.gcd increment modulus ≠ 1 then false
  else
    let aMinusOne := multiplier - 1
    if Int.land modulus 3 = 0 then
      if Int.land aMinusOne 3 ≠ 0 then false else true
    else true

/-- The loop of `NewLCG`, for some rounds; `none` is that it has not ended. -/
def newLCG (size : Nat) : Nat → Draw (Option LCG)
  | 0 => pure none
  | rounds + 1 => do
      match ← Draw.number size with
      | none => newLCG size rounds
      | some multiplier =>
        match ← Draw.number size with
        | none => newLCG size rounds
        | some increment =>
          if checkHullDobell size multiplier increment then
            pure (some ⟨size, multiplier, increment, 0⟩)
          else newLCG size rounds

namespace LCG

/-- `Next`; `none` is `nil`. -/
def next (lcg : LCG) : Option Int × LCG :=
  if lcg.current = lcg.modulus then (none, lcg)
  else
    let next := (lcg.multiplier * lcg.current + lcg.increment) % lcg.modulus
    (some next, { lcg with current := next })

/-- What the next calls of `Next` return. -/
def values : Nat → LCG → List (Option Int)
  | 0, _ => []
  | n + 1, lcg => lcg.next.1 :: values n lcg.next.2

/-- They are the values of the sequence: the one after which `Next` returns `nil` is never
reached. -/
theorem values_eq {m : Int} (hm : 0 < m) (a c : Int) (n : Nat) {x : Int} (hx : x ≠ m) :
    values n ⟨m, a, c, x⟩ =
      (List.range n).map fun i ↦ some ((Congruential.step m a c)^[i + 1] x) := by
  induction n generalizing x with
  | zero => rfl
  | succ n ih =>
    have hnext : next ⟨m, a, c, x⟩ =
        (some (Congruential.step m a c x), ⟨m, a, c, Congruential.step m a c x⟩) := by
      rw [next, if_neg hx]
      rfl
    have hlt : Congruential.step m a c x < m := Int.emod_lt_of_pos _ hm
    rw [values, hnext, ih hlt.ne, List.range_succ_eq_map, List.map_cons, List.map_map]
    rfl

end LCG

/-! ## The conditions -/

theorem land_three (x : Int) : Int.land x 3 = x % 4 := by
  have hzero (y : Int) : Int.land y 0 = 0 := by
    cases y with
    | ofNat n => exact congrArg Int.ofNat (Nat.and_zero n)
    | negSucc n => exact congrArg Int.ofNat (Nat.bitwise_zero_left n)
  have hthree : (3 : Int) = Int.bit true (Int.bit true 0) := rfl
  have hland : Int.land x 3 = Int.bit x.bodd (Int.bit x.div2.bodd 0) := by
    conv_lhs => rw [← Int.bit_decomp x, ← Int.bit_decomp x.div2]
    rw [hthree, Int.land_bit, Int.land_bit, hzero, Bool.and_true, Bool.and_true]
  have hbit (b : Bool) (n : Int) : Int.bit b n = 2 * n + if b then 1 else 0 := by
    rw [Int.bit_val]
    cases b <;> rfl
  have hx := Int.bit_decomp x
  have hx2 := Int.bit_decomp x.div2
  rw [hbit] at hx hx2
  rw [hland, hbit, hbit]
  omega

theorem checkHullDobell_iff {m a c : Int} :
    checkHullDobell m a c = true ↔ Int.gcd c m = 1 ∧ (m % 4 = 0 → a % 4 = 1) := by
  have hfour : (a - 1) % 4 = 0 ↔ a % 4 = 1 := by omega
  unfold checkHullDobell
  simp only [land_three, ne_eq, ite_not]
  by_cases hgcd : Int.gcd c m = 1
  · by_cases hm : m % 4 = 0
    · simp [hgcd, hm, hfour]
    · simp [hgcd, hm]
  · simp [hgcd]

theorem checkHullDobell_two_pow {k : Nat} {a c : Int} :
    checkHullDobell (2 ^ k : Nat) a c = true ↔ (0 < k → c % 2 = 1) ∧ (1 < k → a % 4 = 1) := by
  have hgcd : Int.gcd c (2 ^ k : Nat) = 1 ↔ (0 < k → c % 2 = 1) := by
    rcases Nat.eq_zero_or_pos k with rfl | hk
    · simp
    · have hcoprime : Int.gcd c (2 ^ k : Nat) = 1 ↔ Nat.Coprime c.natAbs 2 :=
        Nat.coprime_pow_right_iff hk c.natAbs 2
      rw [hcoprime, Nat.coprime_two_right, Nat.odd_iff, imp_iff_right hk]
      omega
  have hfour : ((2 ^ k : Nat) : Int) % 4 = 0 ↔ 1 < k := by
    match k with
    | 0 => decide
    | 1 => decide
    | k + 2 =>
      refine iff_of_true ?_ (by omega)
      rw [Nat.pow_add]
      omega
  rw [checkHullDobell_iff, hgcd, hfour]

theorem exists_accepted (k : Nat) :
    ∃ a < 2 ^ k, ∃ c < 2 ^ k, checkHullDobell (2 ^ k : Nat) (a : Nat) (c : Nat) = true := by
  rcases Nat.eq_zero_or_pos k with rfl | hk
  · exact ⟨0, Nat.one_pos, 0, Nat.one_pos, by decide⟩
  · have hlt : 1 < 2 ^ k := Nat.one_lt_two_pow hk.ne'
    exact ⟨1, hlt, 1, hlt, checkHullDobell_two_pow.mpr ⟨fun _ ↦ rfl, fun _ ↦ rfl⟩⟩

theorem run_newLCG {size a c : Nat} (ha : a < size) (hc : c < size)
    (h : checkHullDobell size a c = true) (rounds : Nat) :
    (newLCG size (rounds + 1)).run [some a, some c] = some (some ⟨size, a, c, 0⟩) := by
  obtain ⟨bound, rfl⟩ := Nat.exists_eq_succ_of_ne_zero (Nat.ne_zero_of_lt ha)
  show Draw.run
    (if checkHullDobell (bound + 1 : Nat) (a % (bound + 1) : Nat) (c % (bound + 1) : Nat)
      then _ else _) [] = _
  rw [Nat.mod_eq_of_lt ha, Nat.mod_eq_of_lt hc, if_pos h]
  rfl

/-- The sequence of an accepted pair.  It is a permutation unless the modulus is two and the
multiplier is even. -/
theorem values_perm_iff {k : Nat} {a c : Int} (h : checkHullDobell (2 ^ k : Nat) a c = true) :
    (LCG.values (2 ^ k) ⟨(2 ^ k : Nat), a, c, 0⟩).Perm
      ((List.range (2 ^ k)).map fun i : Nat ↦ some (i : Int)) ↔ (k = 1 → a % 2 = 1) := by
  obtain ⟨hc, h4⟩ := checkHullDobell_two_pow.mp h
  have hpos : (0 : Int) < (2 ^ k : Nat) := Int.natCast_pos.mpr (Nat.two_pow_pos k)
  rw [LCG.values_eq hpos a c _ hpos.ne]
  constructor
  · rintro hperm rfl
    -- with an even multiplier the second value is the first one again
    have hzero : some (0 : Int) ∈ (List.range (2 ^ 1)).map fun i : Nat ↦ some (i : Int) := by decide
    obtain ⟨i, hi, heq⟩ := List.mem_map.mp (hperm.mem_iff.mpr hzero)
    rw [List.mem_range] at hi
    have hc := hc Nat.one_pos
    have hvalue := Option.some.inj heq
    have hone : Congruential.step (2 ^ 1 : Nat) a c 0 = 1 := by
      rw [Congruential.step, mul_zero, zero_add]
      exact hc
    rw [Function.iterate_succ_apply, hone] at hvalue
    obtain rfl | rfl : i = 0 ∨ i = 1 := by omega
    · cases hvalue
    · have hstep : (a * 1 + c) % 2 = 0 := hvalue
      omega
  · intro hodd
    have hperm := Congruential.perm_of_fullPeriod (k := k) (a := a) (c := c) ⟨hc, fun hk ↦ ?_, h4⟩
    · have hmap := hperm.map some
      rw [List.map_map, List.map_map] at hmap
      rw [Nat.cast_pow, Nat.cast_ofNat]
      exact hmap
    · rcases Nat.eq_or_lt_of_le (Nat.succ_le_of_lt hk) with hone | hlt
      · exact hodd hone.symm
      · have := h4 hlt
        omega

/-- The generator of a range goes through all numbers below its size, and its constructor can end,
except that with the size two the multiplier must be odd, which is not tested. -/
theorem next_permutes_iff (p : Prefix) (multiplier increment : Int)
    (h : checkHullDobell (ipRangeSize p) multiplier increment = true) :
    ((LCG.values (ipRangeSize p) ⟨ipRangeSize p, multiplier, increment, 0⟩).Perm
        ((List.range (ipRangeSize p)).map fun i : Nat ↦ some (i : Int)) ∧
      ∃ a < ipRangeSize p,
        ∃ c < ipRangeSize p, checkHullDobell (ipRangeSize p) (a : Nat) (c : Nat) = true ∧
        ∀ rounds, (newLCG (ipRangeSize p) (rounds + 1)).run [some a, some c] =
          some (some ⟨ipRangeSize p, a, c, 0⟩)) ↔
      (ipRangeSize p = 2 → multiplier % 2 = 1) := by
  generalize hk : ((if p.addr.is4 then 32 else 128) - p.bits).toNat = k
  have hsize : ipRangeSize p = 2 ^ k := by rw [ipRangeSize, hk]
  rw [hsize] at h ⊢
  have htwo : 2 ^ k = 2 ↔ k = 1 := Nat.pow_eq_self_iff (by decide)
  rw [values_perm_iff h, htwo, and_iff_left]
  obtain ⟨a, ha, c, hc, haccepted⟩ := exists_accepted k
  exact ⟨a, ha, c, hc, haccepted, run_newLCG ha hc haccepted⟩

/-- A prefix of `10.0.0.0`. -/
def tenNet (bits : Fin 33) : Prefix where
  addr := .v4 0x0a000000
  bits := bits.val
  zone_nil := rfl
  bits_range := .inr ⟨rfl, Int.natCast_nonneg _, Int.ofNat_le.mpr (Nat.le_of_lt_succ bits.isLt)⟩

/-- A range of 256 addresses. -/
theorem next_permutes_slash24 :
    (LCG.values 256 ⟨256, 5, 3, 0⟩).Perm ((List.range 256).map fun i : Nat ↦ some (i : Int)) := by
  have hsize : ipRangeSize (tenNet 24) = 256 := rfl
  have hperm := next_permutes_iff (tenNet 24) 5 3 (by rw [hsize]; decide)
  rw [hsize] at hperm
  exact (hperm.mpr nofun).1

/-- For a range of two addresses `NewLCG` may draw the multiplier zero, and then `Next` returns one
again and again. -/
theorem next_repeats_slash31 :
    (newLCG (ipRangeSize (tenNet 31)) 1).run [some 0, some 1] = some (some ⟨2, 0, 1, 0⟩) ∧
    checkHullDobell (ipRangeSize (tenNet 31)) 0 1 = true ∧
    LCG.values (ipRangeSize (tenNet 31)) ⟨2, 0, 1, 0⟩ = [some 1, some 1] := by
  have hsize : ipRangeSize (tenNet 31) = 2 := rfl
  rw [hsize]
  exact ⟨rfl, by decide, rfl⟩

end Vwarp.IpScanner.Iterator
