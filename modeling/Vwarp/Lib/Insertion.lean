import Mathlib.Data.List.Sort

/-!
# Sorting by insertion, one element after the other

`List.insertionSort` by a key is stable (`List.sublist_insertionSort`), and builds its result from
the last element of the list to the first.  A program that sorts as the elements come in goes the
other way: it inserts each new one *behind* those with the same key.  The two agree
(`stableSort_concat`), which rests on the two insertions commuting on any list
(`orderedInsert_comm`).

A program that keeps the first `m` only may cut before it inserts (`take_insertBehind_take`).
-/

namespace Vwarp.Lib

universe u v

variable {α : Type u} {κ : Type v} [LinearOrder κ] {key : α → κ}

/-- Insert behind the elements whose key is not greater. -/
def insertBehind (key : α → κ) (x : α) (l : List α) : List α :=
  l.orderedInsert (fun x b ↦ key x < key b) x

/-- Sort by a key, elements with the same key in the order in which they stand. -/
def stableSort (key : α → κ) (l : List α) : List α :=
  l.insertionSort fun a b ↦ key a ≤ key b

@[simp] theorem insertBehind_nil (x : α) : insertBehind key x [] = [x] := rfl

theorem insertBehind_cons (x b : α) (l : List α) :
    insertBehind key x (b :: l) =
      if key x < key b then x :: b :: l else b :: insertBehind key x l :=
  rfl

@[simp] theorem stableSort_nil : stableSort key ([] : List α) = [] := rfl

@[simp] theorem mem_stableSort {x : α} {l : List α} : x ∈ stableSort key l ↔ x ∈ l :=
  List.mem_insertionSort _

@[simp] theorem length_insertBehind (x : α) (l : List α) :
    (insertBehind key x l).length = l.length + 1 :=
  List.orderedInsert_length _ l x

theorem pairwise_stableSort (key : α → κ) (l : List α) :
    (stableSort key l).Pairwise fun a b ↦ key a ≤ key b := by
  have : Std.Total fun a b : α ↦ key a ≤ key b := ⟨fun a b ↦ le_total (key a) (key b)⟩
  have : IsTrans α fun a b ↦ key a ≤ key b := ⟨fun _ _ _ ↦ le_trans⟩
  exact List.pairwise_insertionSort _ l

/-- An insertion before the equals and one behind them commute. -/
theorem orderedInsert_comm (a x : α) (l : List α) :
    (insertBehind key x l).orderedInsert (fun a b ↦ key a ≤ key b) a =
      insertBehind key x (l.orderedInsert (fun a b ↦ key a ≤ key b) a) := by
  induction l with
  | nil =>
    by_cases h : key a ≤ key x
    · simp [insertBehind_cons, h, not_lt.mpr h]
    · simp [insertBehind_cons, h, not_le.mp h]
  | cons b l ih =>
    rw [insertBehind_cons, List.orderedInsert_cons]
    by_cases hx : key x < key b <;> by_cases ha : key a ≤ key b
    · by_cases h : key a ≤ key x
      · simp [insertBehind_cons, hx, ha, h, not_lt.mpr h]
      · simp [insertBehind_cons, hx, ha, h, not_le.mp h]
    · simp [insertBehind_cons, hx, ha, not_le.mpr (hx.trans (not_le.mp ha))]
    · simp [insertBehind_cons, hx, ha, not_lt.mpr (ha.trans (not_lt.mp hx))]
    · simp [insertBehind_cons, hx, ha, ih]

theorem stableSort_concat (x : α) (l : List α) :
    stableSort key (l ++ [x]) = insertBehind key x (stableSort key l) := by
  induction l with
  | nil => rfl
  | cons a l ih =>
    show (stableSort key (l ++ [x])).orderedInsert _ a = _
    rw [ih]
    exact orderedInsert_comm a x (stableSort key l)

theorem insertBehind_append {x : α} {front back : List α} (hf : ∀ a ∈ front, key a ≤ key x)
    (hb : ∀ b ∈ back, key x < key b) : insertBehind key x (front ++ back) = front ++ x :: back := by
  induction front with
  | nil =>
    cases back with
    | nil => rfl
    | cons b back => exact if_pos (hb b List.mem_cons_self)
  | cons a front ih =>
    have ha : ¬ key x < key a := not_lt.mpr (hf a List.mem_cons_self)
    rw [List.cons_append, insertBehind_cons, if_neg ha,
      ih fun c hc ↦ hf c (List.mem_cons_of_mem a hc), List.cons_append]

/-- Of the first `m` after an insertion, the first `m` before it decide. -/
theorem take_insertBehind_take (m : Nat) (x : α) (l : List α) :
    (insertBehind key x (l.take m)).take m = (insertBehind key x l).take m := by
  induction l generalizing m with
  | nil => rw [List.take_nil]
  | cons b l ih =>
    cases m with
    | zero => rfl
    | succ m =>
      rw [List.take_succ_cons, insertBehind_cons, insertBehind_cons]
      split
      · cases m with
        | zero => rfl
        | succ m => simp [List.take_take]
      · rw [List.take_succ_cons, List.take_succ_cons, ih]

end Vwarp.Lib
