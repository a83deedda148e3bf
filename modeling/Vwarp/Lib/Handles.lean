import Mathlib.Data.Finset.Card

/-!
# Handles that are open until they are closed

A process opens handles one after the other and closes some of them again.  A table of handles
has an entry for each that was ever opened, and the number of a handle is the number of those
opened before it, so that a handle is never opened twice.
-/

namespace Vwarp.Lib

/-- The handles that were opened: whether each is still open. -/
structure Handles where
  entries : List Bool
deriving DecidableEq

namespace Handles

def empty : Handles := ⟨[]⟩

def next (t : Handles) : Nat := t.entries.length

def alloc (t : Handles) : Handles := ⟨t.entries ++ [true]⟩

/-- Close a handle; nothing happens if it is not open. -/
def close (t : Handles) (i : Nat) : Handles := ⟨t.entries.set i false⟩

/-- Close the handle that a variable holds, if it holds one. -/
def closeHeld (t : Handles) : Option Nat → Handles
  | none => t
  | some i => t.close i

def IsOpen (t : Handles) (i : Nat) : Prop := t.entries[i]? = some true

instance (t : Handles) (i : Nat) : Decidable (t.IsOpen i) :=
  inferInstanceAs (Decidable (t.entries[i]? = some true))

def openHandles (t : Handles) : Finset Nat := (Finset.range t.next).filter t.IsOpen

variable {t : Handles} {i j : Nat}

theorem isOpen_next (t : Handles) : t.alloc.IsOpen t.next := List.getElem?_concat_length

theorem IsOpen.lt (h : t.IsOpen i) : i < t.next := (List.getElem?_eq_some_iff.mp h).1

theorem isOpen_alloc : t.alloc.IsOpen i ↔ t.IsOpen i ∨ i = t.next := by
  unfold IsOpen alloc next
  rw [List.getElem?_append]
  split
  · rename_i hlt
    constructor
    · exact .inl
    · rintro (h | rfl)
      · exact h
      · exact absurd hlt (Nat.lt_irrefl _)
  · rename_i hge
    have hnone : t.entries[i]? = none := List.getElem?_eq_none (Nat.le_of_not_lt hge)
    rw [hnone]
    constructor
    · intro h
      right
      have hlt := (List.getElem?_eq_some_iff.mp h).1
      simp only [List.length_singleton] at hlt
      omega
    · rintro (h | rfl)
      · cases h
      · rw [Nat.sub_self]
        rfl

theorem isOpen_close : (t.close j).IsOpen i ↔ t.IsOpen i ∧ i ≠ j := by
  unfold IsOpen close
  rw [List.getElem?_set]
  split
  · rename_i heq
    subst heq
    split_ifs with hlt
    · simp
    · rw [List.getElem?_eq_none (Nat.le_of_not_lt hlt)]
      simp
  · rename_i hne
    exact ⟨fun h ↦ ⟨h, Ne.symm hne⟩, fun h ↦ h.1⟩

/-! ## Tables with at most one open handle -/

theorem not_isOpen_close_alloc (h : ∀ i, ¬ t.IsOpen i) (i : Nat) :
    ¬ (t.alloc.close t.next).IsOpen i := by
  intro hopen
  obtain ⟨hopen, hne⟩ := isOpen_close.mp hopen
  rcases isOpen_alloc.mp hopen with hopen | heq
  · exact h i hopen
  · exact hne heq

theorem eq_next_of_isOpen_alloc (h : ∀ i, ¬ t.IsOpen i) (hopen : t.alloc.IsOpen i) : i = t.next :=
  (isOpen_alloc.mp hopen).resolve_left (h i)

theorem not_isOpen_closeHeld {held : Option Nat} (h : ∀ i, t.IsOpen i → held = some i) (i : Nat) :
    ¬ (t.closeHeld held).IsOpen i := by
  intro hopen
  cases held with
  | none => cases h i hopen
  | some j =>
    obtain ⟨hopen, hne⟩ := isOpen_close.mp hopen
    exact hne (Option.some.inj (h i hopen)).symm

theorem card_openHandles_le_one {held : Option Nat} (h : ∀ i, t.IsOpen i → held = some i) :
    t.openHandles.card ≤ 1 := by
  apply Finset.card_le_one.mpr
  intro i hi j hj
  have hi := h i (Finset.mem_filter.mp hi).2
  have hj := h j (Finset.mem_filter.mp hj).2
  exact Option.some.inj (hi.symm.trans hj)

end Handles

end Vwarp.Lib
