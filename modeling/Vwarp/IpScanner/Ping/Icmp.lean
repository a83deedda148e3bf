import Vwarp.Go.Runtime
import Vwarp.Lib.OnesComplement
import Mathlib.Algebra.Order.BigOperators.Group.List

/-!
# The checksum of an echo request

`checksum` adds the 16-bit words of a message in a 32-bit accumulator and folds the carries at the
end.  `checksum_stored` relates it to the one's-complement sum of the words, in which each carry is
brought around at once: if a word of the message is zero and the checksum is stored there, the sum
of the message is the word with all bits set.
-/

namespace Vwarp.IpScanner.Ping

open Vwarp.Go Vwarp.Lib
open OnesComplement

def word (hi lo : UInt8) : UInt32 := hi.toUInt32 <<< 8 ||| lo.toUInt32

/-- The first loop of `checksum`, and the odd byte after it. -/
def accumulate (sum : UInt32) : Bytes → UInt32
  | hi :: lo :: data => accumulate (sum + word hi lo) data
  | [b] => sum + b.toUInt32 <<< 8
  | [] => sum

/-- The second loop of `checksum`, for as many rounds as there is fuel. -/
def foldLoop : Nat → UInt32 → Option UInt32
  | 0, _ => none
  | fuel + 1, sum =>
    if sum >>> 16 > 0 then foldLoop fuel ((sum &&& (0xffff : UInt32)) + (sum >>> 16)) else some sum

/-- `checksum`. -/
def checksum (fuel : Nat) (data : Bytes) : Option UInt16 :=
  (foldLoop fuel (accumulate 0 data)).map fun sum ↦ (~~~sum).toUInt16

/-- The message with the checksum stored at an index. -/
def store (msg : Bytes) (i : Nat) (cs : UInt16) : Bytes :=
  (msg.set i (cs >>> 8).toUInt8).set (i + 1) (cs &&& (0xff : UInt16)).toUInt8

/-- The message of `PingContext`, with a placeholder for the checksum. -/
def echoRequest (is4 : Bool) (pid : Nat) : Bytes :=
  let id := pid &&& 0xffff
  let seq := 1
  [if is4 then 8 else 128, 0, 0, 0, UInt8.ofNat (id >>> 8), UInt8.ofNat (id &&& 0xff),
    UInt8.ofNat (seq >>> 8), UInt8.ofNat (seq &&& 0xff)]

/-! ## The words of a message -/

def wordValue (hi lo : UInt8) : Nat := hi.toNat * 256 + lo.toNat

/-- The words, of which the last is padded with a zero byte if there is an odd one. -/
def words : Bytes → List Nat
  | hi :: lo :: data => wordValue hi lo :: words data
  | [b] => [wordValue b 0]
  | [] => []

theorem wordValue_lt (hi lo : UInt8) : wordValue hi lo < 2 ^ 16 := by
  have hhi := hi.toNat_lt
  have hlo := lo.toNat_lt
  unfold wordValue
  omega

theorem toNat_word (hi lo : UInt8) : (word hi lo).toNat = wordValue hi lo := by
  have hhi := hi.toNat_lt
  have hlo := lo.toNat_lt
  have hshift : hi.toNat <<< 8 = 2 ^ 8 * hi.toNat := by rw [Nat.shiftLeft_eq, Nat.mul_comm]
  have hmod : 2 ^ 8 * hi.toNat % 2 ^ 32 = 2 ^ 8 * hi.toNat := Nat.mod_eq_of_lt (by omega)
  rw [word, UInt32.toNat_or, UInt32.toNat_shiftLeft, UInt8.toNat_toUInt32, UInt8.toNat_toUInt32]
  show hi.toNat <<< 8 % 2 ^ 32 ||| lo.toNat = _
  rw [hshift, hmod, ← Nat.two_pow_add_eq_or_of_lt hlo, wordValue]
  omega

theorem toNat_odd (b : UInt8) : (b.toUInt32 <<< 8).toNat = wordValue b 0 := by
  have h := toNat_word b 0
  rwa [word, show (0 : UInt8).toUInt32 = 0 from rfl, UInt32.or_zero] at h

theorem word_lt (data : Bytes) : ∀ word ∈ words data, word < 2 ^ 16 := by
  fun_induction words data with
  | case1 hi lo data ih => exact List.forall_mem_cons.mpr ⟨wordValue_lt hi lo, ih⟩
  | case2 b => exact List.forall_mem_singleton.mpr (wordValue_lt b 0)
  | case3 => exact List.forall_mem_nil _

theorem length_words (data : Bytes) : (words data).length = (data.length + 1) / 2 := by
  fun_induction words data with
  | case1 hi lo data ih =>
    simp only [List.length_cons, ih]
    omega
  | case2 b => simp
  | case3 => simp

variable {data : Bytes}

theorem sum_words_lt (hlen : data.length ≤ 131070) : (words data).sum < 2 ^ 32 := by
  have hle : (words data).sum ≤ (words data).length * 65535 :=
    List.sum_le_card_nsmul _ _ fun word hword ↦ Nat.le_of_lt_succ (word_lt data word hword)
  rw [length_words] at hle
  omega

theorem toNat_accumulate {sum : UInt32} (h : sum.toNat + (words data).sum < 2 ^ 32) :
    (accumulate sum data).toNat = sum.toNat + (words data).sum := by
  fun_induction accumulate sum data with
  | case1 sum hi lo data ih =>
    rw [words, List.sum_cons] at h ⊢
    have hadd : (sum + word hi lo).toNat = sum.toNat + wordValue hi lo := by
      rw [UInt32.toNat_add, toNat_word, Nat.mod_eq_of_lt (by omega)]
    rw [ih (by omega), hadd]
    omega
  | case2 sum b =>
    rw [words, List.sum_singleton] at h ⊢
    rw [UInt32.toNat_add, toNat_odd, Nat.mod_eq_of_lt h]
  | case3 sum => rfl

/-! ## Folding -/

theorem toNat_low (sum : UInt32) : (sum &&& (0xffff : UInt32)).toNat = sum.toNat % 2 ^ 16 := by
  rw [UInt32.toNat_and]
  exact Nat.and_two_pow_sub_one_eq_mod sum.toNat 16

theorem toNat_high (sum : UInt32) : (sum >>> 16).toNat = sum.toNat / 2 ^ 16 := by
  rw [UInt32.toNat_shiftRight]
  exact Nat.shiftRight_eq_div_pow sum.toNat 16

theorem toNat_round (sum : UInt32) :
    ((sum &&& (0xffff : UInt32)) + (sum >>> 16)).toNat = fold 16 sum.toNat := by
  have hlt := sum.toNat_lt
  rw [UInt32.toNat_add, toNat_low, toNat_high, fold, Nat.mod_eq_of_lt (by omega)]

theorem round_iff (sum : UInt32) : sum >>> 16 > 0 ↔ 2 ^ 16 ≤ sum.toNat := by
  rw [gt_iff_lt, UInt32.lt_iff_toNat_lt, toNat_high, UInt32.toNat_zero, Nat.div_pos_iff]
  simp

/-- The second loop ends after two rounds at the latest, with the word that represents the sum. -/
theorem foldLoop_eq (sum : UInt32) :
    ∃ r : UInt32, (∀ fuel, foldLoop (fuel + 3) sum = some r) ∧ r.toNat < 2 ^ 16 ∧
      Represents 16 sum.toNat r.toNat := by
  have hstop {sum : UInt32} (h : sum.toNat < 2 ^ 16) (fuel : Nat) :
      foldLoop (fuel + 1) sum = some sum := by
    rw [foldLoop, if_neg]
    rw [round_iff]
    exact Nat.not_le.mpr h
  have hround {sum : UInt32} (h : ¬sum.toNat < 2 ^ 16) (fuel : Nat) :
      foldLoop (fuel + 1) sum = foldLoop fuel ((sum &&& (0xffff : UInt32)) + (sum >>> 16)) := by
    rw [foldLoop, if_pos]
    rw [round_iff]
    exact Nat.not_lt.mp h
  by_cases h0 : sum.toNat < 2 ^ 16
  · exact ⟨sum, fun fuel ↦ hstop h0 _, h0, .refl _⟩
  · let sum₁ := (sum &&& (0xffff : UInt32)) + (sum >>> 16)
    have hfold₁ : sum₁.toNat = fold 16 sum.toNat := toNat_round sum
    by_cases h1 : sum₁.toNat < 2 ^ 16
    · refine ⟨sum₁, fun fuel ↦ (hround h0 _).trans (hstop h1 _), h1, ?_⟩
      rw [hfold₁]
      exact represents_fold _
    · let sum₂ := (sum₁ &&& (0xffff : UInt32)) + (sum₁ >>> 16)
      have hfold₂ : sum₂.toNat = fold 16 sum₁.toNat := toNat_round sum₁
      -- a sum of two words has a carry of one at most
      have h2 : sum₂.toNat < 2 ^ 16 := by
        have hlt := sum.toNat_lt
        rw [fold] at hfold₁ hfold₂
        omega
      refine ⟨sum₂, fun fuel ↦ (hround h0 _).trans ((hround h1 _).trans (hstop h2 _)), h2, ?_⟩
      rw [hfold₂]
      refine .trans ?_ (represents_fold _)
      rw [hfold₁]
      exact represents_fold _

/-- The checksum is the complement of the one's-complement sum of the words. -/
theorem checksum_eq (hlen : data.length ≤ 131070) :
    ∃ cs : UInt16, (∀ fuel ≥ 3, checksum fuel data = some cs) ∧
      cs.toNat = 0xffff - sum 16 (words data) := by
  have hfits := sum_words_lt hlen
  obtain ⟨r, hloop, hr, hrepr⟩ := foldLoop_eq (accumulate 0 data)
  rw [toNat_accumulate (by rwa [UInt32.toNat_zero, Nat.zero_add]), UInt32.toNat_zero,
    Nat.zero_add] at hrepr
  obtain ⟨hsum, hlt⟩ := represents_sum (word_lt data)
  refine ⟨(~~~r).toUInt16, fun fuel hfuel ↦ ?_, ?_⟩
  · obtain ⟨k, rfl⟩ := Nat.exists_eq_add_of_le' hfuel
    rw [checksum, hloop]
    rfl
  · rw [← hrepr.unique hsum hr hlt, UInt32.toNat_toUInt16, UInt32.toNat_not]
    have hsize : UInt32.size = 2 ^ 32 := rfl
    omega

/-! ## Storing the checksum -/

/-- Storing a word where there was zero adds it to the sum. -/
theorem sum_words_store {i : Nat} (heven : i % 2 = 0) (hhi : data[i]? = some 0)
    (hlo : data[i + 1]? = some 0) (cs : UInt16) :
    (words (store data i cs)).sum = (words data).sum + cs.toNat := by
  have hcs := cs.toNat_lt
  have hbytes : wordValue (cs >>> 8).toUInt8 (cs &&& (0xff : UInt16)).toUInt8 = cs.toNat := by
    have hshift : (cs >>> 8).toNat = cs.toNat / 2 ^ 8 := by
      rw [UInt16.toNat_shiftRight]
      exact Nat.shiftRight_eq_div_pow cs.toNat 8
    have hand : (cs &&& (0xff : UInt16)).toNat = cs.toNat % 2 ^ 8 := by
      rw [UInt16.toNat_and]
      exact Nat.and_two_pow_sub_one_eq_mod cs.toNat 8
    rw [wordValue, UInt16.toNat_toUInt8, UInt16.toNat_toUInt8, hshift, hand]
    omega
  obtain ⟨k, rfl⟩ : ∃ k, i = 2 * k := ⟨i / 2, by omega⟩
  clear heven
  induction k generalizing data with
  | zero =>
    match data, hhi, hlo with
    | hi :: lo :: data, hhi, hlo =>
      obtain rfl : hi = 0 := Option.some.inj hhi
      obtain rfl : lo = 0 := Option.some.inj hlo
      show (wordValue (cs >>> 8).toUInt8 (cs &&& (0xff : UInt16)).toUInt8 :: words data).sum =
        (wordValue 0 0 :: words data).sum + cs.toNat
      rw [List.sum_cons, List.sum_cons, hbytes, show wordValue 0 0 = 0 from rfl]
      omega
  | succ k ih =>
    match data, hhi, hlo with
    | hi :: lo :: data, hhi, hlo =>
      have hrest := @ih data hhi hlo
      show (wordValue hi lo :: words (store data (2 * k) cs)).sum =
        (wordValue hi lo :: words data).sum + cs.toNat
      rw [List.sum_cons, List.sum_cons, hrest, Nat.add_assoc]

theorem length_store (data : Bytes) (i : Nat) (cs : UInt16) :
    (store data i cs).length = data.length := by
  rw [store, List.length_set, List.length_set]

/-- The message with its checksum stored in a word that was zero has the sum `0xffff`, so that its
checksum is zero. -/
theorem checksum_store {i : Nat} (hlen : data.length ≤ 131070) (heven : i % 2 = 0)
    (hhi : data[i]? = some 0) (hlo : data[i + 1]? = some 0) :
    ∃ cs, (∀ fuel ≥ 3, checksum fuel data = some cs) ∧
      sum 16 (words (store data i cs)) = 0xffff ∧
      ∀ fuel ≥ 3, checksum fuel (store data i cs) = some 0 := by
  obtain ⟨cs, hcs, hvalue⟩ := checksum_eq hlen
  obtain ⟨hsum, hlt⟩ := represents_sum (word_lt data)
  have hfull : sum 16 (words (store data i cs)) = 0xffff := by
    obtain ⟨hsum', hlt'⟩ := represents_sum (word_lt (store data i cs))
    have hcomplement := hsum.complement hlt (by decide)
    rw [sum_words_store heven hhi hlo, hvalue] at hsum'
    exact hsum'.unique hcomplement hlt' (by decide)
  refine ⟨cs, hcs, hfull, ?_⟩
  obtain ⟨cs', hcs', hzero⟩ := checksum_eq ((length_store data i cs).trans_le hlen)
  rw [hfull] at hzero
  obtain rfl : cs' = 0 := UInt16.toNat_inj.mp hzero
  exact hcs'

/-- The message of `PingContext` is complete once its checksum is stored. -/
theorem checksum_echoRequest (is4 : Bool) (pid : Nat) :
    ∃ cs, (∀ fuel ≥ 3, checksum fuel (echoRequest is4 pid) = some cs) ∧
      sum 16 (words (store (echoRequest is4 pid) 2 cs)) = 0xffff ∧
      ∀ fuel ≥ 3, checksum fuel (store (echoRequest is4 pid) 2 cs) = some 0 :=
  checksum_store (Nat.le_of_ble_eq_true rfl) rfl rfl rfl

/-- A message with a word that is zero.  The accumulator holds the sum of what was read, without an
overflow, folding ends and does not overflow either, and storing the checksum in the word completes
the message. -/
theorem checksum_stored (data : Bytes) (i : Nat) (hlen : data.length ≤ 131070) (heven : i % 2 = 0)
    (hhi : data[i]? = some 0) (hlo : data[i + 1]? = some 0) :
    (∀ part, part <+: data → (accumulate 0 part).toNat = (words part).sum) ∧
    (∀ sum : UInt32, ((sum &&& (0xffff : UInt32)) + (sum >>> 16)).toNat =
      (sum &&& (0xffff : UInt32)).toNat + (sum >>> 16).toNat) ∧
    ∃ cs, (∀ fuel ≥ 3, checksum fuel data = some cs) ∧
      sum 16 (words (store data i cs)) = 0xffff ∧
      ∀ fuel ≥ 3, checksum fuel (store data i cs) = some 0 := by
  refine ⟨fun part hpart ↦ ?_, fun sum ↦ ?_, checksum_store hlen heven hhi hlo⟩
  · have hfits := sum_words_lt (hpart.length_le.trans hlen)
    rw [toNat_accumulate (by rwa [UInt32.toNat_zero, Nat.zero_add]), UInt32.toNat_zero,
      Nat.zero_add]
  · rw [toNat_round, toNat_low, toNat_high, fold]

/-- A message of an odd length, whose last word is padded. -/
theorem checksum_stored_odd :
    ∃ cs, (∀ fuel ≥ 3, checksum fuel [0, 0, 0xff, 0xff, 0x80] = some cs) ∧
      sum 16 (words (store [0, 0, 0xff, 0xff, 0x80] 0 cs)) = 0xffff ∧
      ∀ fuel ≥ 3, checksum fuel (store [0, 0, 0xff, 0xff, 0x80] 0 cs) = some 0 :=
  (checksum_stored [0, 0, 0xff, 0xff, 0x80] 0 (by decide) rfl rfl rfl).2.2

end Vwarp.IpScanner.Ping
