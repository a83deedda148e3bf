import Mathlib.Data.List.Sort

/-!
# `sort.Slice`

The algorithm of `sort.Slice` is the library's own affair, and its documentation promises no order
among elements that compare equal.  It is a parameter here: it keeps the elements, and if the
comparison is a strict weak order it leaves none before one that is less.

`SortSlice.insertion` is a sorting routine that keeps these promises.
-/

namespace Vwarp.Go

universe u

variable {α : Type u} {less : α → α → Bool}

/-- The comparisons for which `sort.Slice` promises an order. -/
structure StrictWeak (less : α → α → Bool) : Prop where
  asymm : ∀ a b, less a b = true → less b a = false
  /-- Not to be less is transitive. -/
  trans : ∀ a b c, less b a = false → less c b = false → less c a = false

/-- `sort.Slice`, as far as its documentation describes it. -/
structure SortSlice (α : Type u) where
  /-- What stands in the slice after the call. -/
  sort : (α → α → Bool) → List α → List α
  perm : ∀ less l, (sort less l).Perm l
  ordered : ∀ less l, StrictWeak less → (sort less l).Pairwise fun a b ↦ less b a = false

theorem StrictWeak.total (h : StrictWeak less) (a b : α) : less b a = false ∨ less a b = false := by
  cases hab : less a b with
  | false => exact .inr rfl
  | true => exact .inl (h.asymm a b hab)

/-- Insertion sort is a `sort.Slice`. -/
def SortSlice.insertion (α : Type u) : SortSlice α where
  sort less l := l.insertionSort fun a b ↦ less b a = false
  perm _ l := List.perm_insertionSort _ l
  ordered less l h :=
    have : Std.Total fun a b ↦ less b a = false := ⟨h.total⟩
    have : IsTrans α fun a b ↦ less b a = false := ⟨h.trans⟩
    List.pairwise_insertionSort _ l

theorem StrictWeak.of_key_gt {κ : Type u} [LinearOrder κ] (key : α → κ) :
    StrictWeak fun a b ↦ decide (key a > key b) where
  asymm a b h := decide_eq_false (of_decide_eq_true h).not_gt
  trans a b c hba hcb := by
    have hle : key b ≤ key a := not_lt.mp (of_decide_eq_false hba)
    have hle' : key c ≤ key b := not_lt.mp (of_decide_eq_false hcb)
    exact decide_eq_false (not_lt.mpr (hle'.trans hle))

end Vwarp.Go
