import Mathlib.Data.Option.Basic

/-!
# Overlays

Settings of which some are laid over others.  What is laid over wins where it says something, and
how it says nothing differs: a field may have a zero value that stands for nothing, or none at all,
or it may not be looked at.  A section that is not there says nothing, and one that is laid over a
missing section is laid over the zero section.

The laws are those by which layers can be put together in any grouping.  They are kept by optional
sections.
-/

namespace Vwarp.Lib

/-- Values that are laid over each other, the second over the first. -/
structure Overlay (α : Type) where
  /-- What a missing value is replaced by. -/
  zero : α
  merge : α → α → α
  assoc (a b c : α) : merge (merge a b) c = merge a (merge b c)
  /-- A zero in between is of no effect. -/
  merge_zero_merge (a c : α) : merge (merge a zero) c = merge a c
  self (a : α) : merge a a = a

namespace Overlay

variable {α : Type}

theorem merge_merge_self (o : Overlay α) (a b : α) : o.merge (o.merge a b) b = o.merge a b := by
  rw [o.assoc, o.self]

/-- The value that is laid over wins unless it is a zero. -/
def lastNonzero (zero : α) (isZero : α → Bool) (hzero : isZero zero = true) : Overlay α where
  zero := zero
  merge a b := if isZero b then a else b
  assoc a b c := by
    cases hc : isZero c with
    | true => simp only [if_true]
    | false => simp only [Bool.false_eq_true, if_false, hc]
  merge_zero_merge a c := by rw [if_pos hzero]
  self a := ite_self a

theorem lastNonzero_of {zero : α} {isZero : α → Bool} {hzero : isZero zero = true} {P : α → Prop}
    {a b : α} (ha : P a) (hb : P b) : P ((lastNonzero zero isZero hzero).merge a b) := by
  show P (if isZero b = true then a else b)
  split
  · exact ha
  · exact hb

def overwrite (zero : α) : Overlay α where
  zero := zero
  merge _ b := b
  assoc _ _ _ := rfl
  merge_zero_merge _ _ := rfl
  self _ := rfl

/-- A section that may be missing. -/
def optional (o : Overlay α) : Overlay (Option α) where
  zero := none
  merge
    | a, none => a
    | a, some b => some (o.merge (a.getD o.zero) b)
  assoc a b c := by
    cases c with
    | none => rfl
    | some c =>
      cases b with
      | none =>
        show some _ = some (o.merge _ (o.merge o.zero c))
        rw [← o.assoc, o.merge_zero_merge]
      | some b => exact congrArg some (o.assoc _ b c)
  merge_zero_merge a c := rfl
  self a := by
    cases a with
    | none => rfl
    | some a => exact congrArg some (o.self a)

end Overlay

end Vwarp.Lib
