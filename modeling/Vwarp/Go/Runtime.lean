import Vwarp.Go.Strings
import Vwarp.Lib.BigEndian
import Vwarp.Lib.Draw

/-!
# Random numbers, allocation and the clock

What the modelled code gets from `math/rand`, `crypto/rand`, `make` and `time.Now`, as
programs that draw: every answer is possible, and what panics faults.  Go's `int` and
`time.Duration` are 64-bit integers, so that their arithmetic wraps.

Each program has its exact rule for `Ensures`.
-/

namespace Vwarp.Go

open Vwarp.Lib

/-- The largest slice of bytes that `make` allocates (64-bit platforms). -/
def maxAlloc : Int := 2 ^ 48

/-- Any number below `max`, which is not zero. -/
def anyBelow (max : Nat) : Draw Nat := do
  let v ← Draw.number max
  pure (v.getD 0)

/-- `rng.Intn` and `rng.Int63n`, which panic unless the bound is positive. -/
def intn (n : Int64) : Draw Nat := if 0 < n then anyBelow n.toInt.toNat else .fault

/-- `crypto/rand.Read` into a slice of the length: the bytes that are in it afterwards.  It
never returns an error (Go 1.24). -/
def randRead (len : Nat) : Draw Bytes := do
  let v ← anyBelow (256 ^ len)
  pure (toBE len v)

/-- `make([]byte, n)` can be allocated. -/
def Allocatable (n : Int64) : Prop := 0 ≤ n.toInt ∧ n.toInt ≤ maxAlloc

instance (n : Int64) : Decidable (Allocatable n) := inferInstanceAs (Decidable (_ ∧ _))

/-- `make([]byte, n)`, filled by `rand.Read`. -/
def randomBytes (n : Int64) : Draw Bytes :=
  if Allocatable n then randRead n.toInt.toNat else .fault

/-- The slice expression `bs[lo:hi]`, of a slice without spare capacity. -/
def slice (bs : Bytes) (lo hi : Int64) : Draw Bytes :=
  if 0 ≤ lo ∧ lo ≤ hi ∧ hi ≤ Int64.ofNat bs.length then
    pure ((bs.take hi.toInt.toNat).drop lo.toInt.toNat)
  else .fault

/-- `time.Now().Unix()`, and `UnixNano`, after 1970. -/
def unixNow : Draw Nat := anyBelow (2 ^ 63)

variable {F : Prop}

theorem slice_eq {bs : Bytes} {lo hi : Int64} {l h : Nat} (hlo : lo.toInt = l) (hhi : hi.toInt = h)
    (hle : l ≤ h) (hlen : h ≤ bs.length) (hint : bs.length < 2 ^ 63) :
    slice bs lo hi = pure ((bs.take h).drop l) := by
  have hzero : (0 : Int64).toInt = 0 := rfl
  have hlength : (Int64.ofNat bs.length).toInt = bs.length := Int64.toInt_ofNat_of_lt hint
  unfold slice
  rw [if_pos, hlo, hhi]
  · rfl
  · refine ⟨?_, ?_, ?_⟩
    · rw [Int64.le_iff_toInt_le, hzero, hlo]
      omega
    · rw [Int64.le_iff_toInt_le, hlo, hhi]
      omega
    · rw [Int64.le_iff_toInt_le, hhi, hlength]
      omega

theorem ensures_anyBelow {max : Nat} (hmax : 0 < max) {Q : Nat → Prop} :
    (anyBelow max).Ensures F Q ↔ ∀ v < max, Q v := by
  rw [anyBelow, Draw.ensures_bind, Draw.ensures_number hmax]
  constructor
  · rintro ⟨-, h⟩ v hv
    exact h v hv
  · intro h
    exact ⟨h 0 hmax, fun v hv ↦ h v hv⟩

variable {n x y : Int64}

theorem ensures_intn {Q : Nat → Prop} :
    (intn n).Ensures F Q ↔ if 0 < n then ∀ v : Nat, (v : Int) < n.toInt → Q v else F := by
  unfold intn
  split_ifs with hn
  · have hpos : 0 < n.toInt := Int64.lt_iff_toInt_lt.mp hn
    rw [ensures_anyBelow (by omega)]
    refine forall_congr' fun v ↦ imp_congr_left ?_
    omega
  · exact Iff.rfl

theorem ensures_randRead {len : Nat} {Q : Bytes → Prop} :
    (randRead len).Ensures F Q ↔ ∀ bs : Bytes, bs.length = len → Q bs := by
  rw [randRead, Draw.ensures_bind, ensures_anyBelow (Nat.pow_pos (by decide))]
  constructor
  · rintro h bs rfl
    have hbs := h (ofBE bs) (ofBE_lt bs)
    rwa [Draw.ensures_pure, toBE_ofBE] at hbs
  · intro h v _
    exact h _ (length_toBE _ _)

theorem ensures_randomBytes {Q : Bytes → Prop} :
    (randomBytes n).Ensures F Q ↔
      if Allocatable n then ∀ bs : Bytes, (bs.length : Int) = n.toInt → Q bs else F := by
  unfold randomBytes
  split_ifs with hn
  · have hpos := hn.1
    rw [ensures_randRead]
    refine forall_congr' fun bs ↦ imp_congr_left ?_
    omega
  · exact Iff.rfl

/-! ## Ranges -/

/-- A sum that fits in an `int` does not wrap. -/
theorem toInt_add_of_fits (hle : -2 ^ 63 ≤ x.toInt + y.toInt)
    (hlt : x.toInt + y.toInt < 2 ^ 63) : (x + y).toInt = x.toInt + y.toInt := by
  rw [Int64.toInt_add]
  exact Int.bmod_eq_of_le (by omega) (by omega)

theorem toInt_sub_of_fits (hle : -2 ^ 63 ≤ x.toInt - y.toInt)
    (hlt : x.toInt - y.toInt < 2 ^ 63) : (x - y).toInt = x.toInt - y.toInt := by
  rw [Int64.toInt_sub]
  exact Int.bmod_eq_of_le (by omega) (by omega)

theorem toInt_add_ofNat {n : Nat} (h : x.toInt + n < 2 ^ 63) :
    (x + Int64.ofNat n).toInt = x.toInt + n := by
  have hx := x.le_toInt
  have hsize : (Int64.size : Int) = 2 ^ 64 := rfl
  rw [Int64.toInt_add, Int64.toInt_ofNat', Int.add_bmod_bmod]
  exact Int.bmod_eq_of_le (by omega) (by omega)

theorem toNatClampNeg_pos {count : Int64} : 0 < count.toNatClampNeg ↔ 0 < count := by
  rw [Int64.lt_iff_toInt_lt]
  show 0 < count.toInt.toNat ↔ 0 < count.toInt
  omega

/-- The number of values from `lo` to `hi`, as it is computed for `rng.Intn`. -/
theorem toInt_count {lo hi : Int64} (h : lo.toInt ≤ hi.toInt) :
    (hi - lo + 1).toInt = hi.toInt - lo.toInt + 1 ∧ hi.toInt - lo.toInt + 1 < 2 ^ 63 ∨
      (hi - lo + 1).toInt ≤ 0 ∧ 2 ^ 63 ≤ hi.toInt - lo.toInt + 1 := by
  have hlo := lo.le_toInt
  have hlo' := lo.toInt_lt
  have hhi := hi.le_toInt
  have hhi' := hi.toInt_lt
  have hone : (1 : Int64).toInt = 1 := rfl
  rw [Int64.toInt_add, Int64.toInt_sub, hone]
  simp only [Int.bmod]
  omega

/-- A draw between two bounds: every value can be drawn, unless the number of values does not
fit in an `int`. -/
theorem ensures_between {α : Type} {lo hi : Int64} (h : lo ≤ hi) {g : Int64 → Draw α}
    {Q : α → Prop} :
    (intn (hi - lo + 1) >>= fun n ↦ g (lo + Int64.ofNat n)).Ensures F Q ↔
      if hi.toInt - lo.toInt + 1 < 2 ^ 63 then ∀ v, lo ≤ v → v ≤ hi → (g v).Ensures F Q
      else F := by
  have hle : lo.toInt ≤ hi.toInt := Int64.le_iff_toInt_le.mp h
  have hlo := lo.le_toInt
  have hhi := hi.toInt_lt
  rw [Draw.ensures_bind, ensures_intn]
  rcases toInt_count hle with ⟨hcount, hfits⟩ | ⟨hcount, hfits⟩
  · have hpos : 0 < hi - lo + 1 := by
      rw [Int64.lt_iff_toInt_lt, hcount]
      show 0 < _
      omega
    rw [if_pos hpos, if_pos hfits, hcount]
    constructor
    · intro hall v hlov hvhi
      rw [Int64.le_iff_toInt_le] at hlov hvhi
      have hnat : ((v.toInt - lo.toInt).toNat : Int) = v.toInt - lo.toInt := by omega
      have hv := hall (v.toInt - lo.toInt).toNat (by omega)
      have heq : lo + Int64.ofNat (v.toInt - lo.toInt).toNat = v := by
        rw [← Int64.toInt_inj, toInt_add_ofNat (by omega)]
        omega
      rwa [heq] at hv
    · intro hall n hn
      apply hall
      all_goals
        rw [Int64.le_iff_toInt_le, toInt_add_ofNat (by omega)]
        omega
  · have hneg : ¬ 0 < hi - lo + 1 := by
      rw [Int64.lt_iff_toInt_lt]
      show ¬ 0 < _
      omega
    rw [if_neg hneg, if_neg (by omega)]

/-! ## Sizes that are drawn -/

theorem safe_intn : (intn n).Safe ↔ 0 < n.toInt := by
  have hpos : 0 < n ↔ 0 < n.toInt := Int64.lt_iff_toInt_lt
  rw [Draw.Safe, ensures_intn, ← hpos]
  split_ifs with hn
  · exact iff_of_true (fun _ _ ↦ trivial) hn
  · exact iff_of_false id hn

theorem safe_randomBytes : (randomBytes n).Safe ↔ Allocatable n := by
  rw [Draw.Safe, ensures_randomBytes]
  split_ifs with hn
  · exact iff_of_true (fun _ _ ↦ trivial) hn
  · exact iff_of_false id hn

section Sizes

variable {α : Type} {lo hi : Int64} {g : Int64 → Draw α}

theorem ensures_size {Q : α → Prop} (hfits : hi.toInt - lo.toInt + 1 < 2 ^ 63)
    (h : ∀ v, lo ≤ v → v ≤ hi ∨ v = lo → (g v).Ensures F Q) :
    (if lo < hi then intn (hi - lo + 1) >>= fun n ↦ g (lo + Int64.ofNat n)
      else g lo).Ensures F Q := by
  split_ifs with hlt
  · rw [ensures_between (Int64.le_of_lt hlt), if_pos hfits]
    intro v hlo hhi
    exact h v hlo (.inl hhi)
  · exact h lo (Int64.le_refl lo) (.inr rfl)

/-- If what is done with a size needs that it can be allocated, then the least size must not
be negative, and neither bound may be too large. -/
theorem safe_size (hg : ∀ v, (g v).Safe ↔ Allocatable v) :
    (if lo < hi then intn (hi - lo + 1) >>= fun n ↦ g (lo + Int64.ofNat n) else g lo).Safe ↔
      0 ≤ lo.toInt ∧ lo.toInt ≤ maxAlloc ∧ hi.toInt ≤ maxAlloc := by
  have hmax : maxAlloc = 2 ^ 48 := rfl
  constructor
  · split_ifs with hlt
    · intro hsafe
      have hle := Int64.le_of_lt hlt
      rw [Draw.Safe, ensures_between hle] at hsafe
      split at hsafe
      · have hallocLo := (hg lo).mp (hsafe lo (Int64.le_refl lo) hle)
        have hallocHi := (hg hi).mp (hsafe hi hle (Int64.le_refl hi))
        exact ⟨hallocLo.1, hallocLo.2, hallocHi.2⟩
      · exact hsafe.elim
    · intro hsafe
      have halloc := (hg lo).mp hsafe
      rw [Int64.not_lt, Int64.le_iff_toInt_le] at hlt
      exact ⟨halloc.1, halloc.2, Int.le_trans hlt halloc.2⟩
  · rintro ⟨hlo, hlo', hhi⟩
    refine ensures_size (by omega) fun v hv hv' ↦ ?_
    apply (hg v).mpr
    rw [Int64.le_iff_toInt_le] at hv
    rcases hv' with hv' | rfl
    · rw [Int64.le_iff_toInt_le] at hv'
      exact ⟨Int.le_trans hlo hv, Int.le_trans hv' hhi⟩
    · exact ⟨hlo, hlo'⟩

end Sizes

end Vwarp.Go
