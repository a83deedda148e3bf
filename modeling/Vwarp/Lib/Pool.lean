import Mathlib.Algebra.BigOperators.Group.List.Basic
import Mathlib.Algebra.Ring.Nat
import Mathlib.Data.Nat.Cast.Basic

/-!
# Pools of workers

A pool is the list of its workers' states; a worker moves by `List.set`.  What the
pool holds altogether is a sum over its workers (`tally`), and a move of one worker
changes the sum by that worker's share: `tally_set`.
-/

namespace Vwarp.Lib

universe u v

variable {β : Type u}

/-- The sum of `f` over the workers of a pool. -/
def tally (f : β → Nat) (ws : List β) : Nat := (ws.map f).sum

variable {ws : List β} {i : Nat} {w : β}

theorem tally_set {f : β → Nat} (h : ws[i]? = some w) (w' : β) :
    tally f (ws.set i w') + f w = tally f ws + f w' := by
  induction ws generalizing i with
  | nil => simp at h
  | cons v ws ih =>
    cases i with
    | zero =>
      obtain rfl : v = w := by simpa using h
      simp only [List.set_cons_zero, tally, List.map_cons, List.sum_cons]
      omega
    | succ i =>
      have := ih (i := i) (by simpa using h)
      simp only [List.set_cons_succ, tally, List.map_cons, List.sum_cons] at this ⊢
      omega

variable {w' : β}

/-- A move that keeps what `f` reads keeps it for the pool. -/
theorem map_set_of_eq {γ : Type v} {f : β → γ} (h : ws[i]? = some w) (hf : f w' = f w) :
    (ws.set i w').map f = ws.map f := by
  obtain ⟨hi, rfl⟩ := List.getElem?_eq_some_iff.mp h
  rw [List.map_set, hf, ← List.map_set, List.set_getElem_self]

theorem tally_set_of_eq {f : β → Nat} (h : ws[i]? = some w) (hf : f w' = f w) :
    tally f (ws.set i w') = tally f ws :=
  congrArg List.sum (map_set_of_eq h hf)

theorem tally_concat (f : β → Nat) (ws : List β) (w : β) :
    tally f (ws ++ [w]) = tally f ws + f w := by
  simp [tally]

theorem tally_eq_zero {f : β → Nat} (h : ∀ w ∈ ws, f w = 0) : tally f ws = 0 := by
  induction ws with
  | nil => rfl
  | cons w ws ih =>
    have := ih fun v hv ↦ h v (List.mem_cons_of_mem w hv)
    simp only [tally, List.map_cons, List.sum_cons, h w List.mem_cons_self] at this ⊢
    omega

theorem mem_set_cases {v : β} (h : v ∈ ws.set i w') :
    v = w' ∨ v ∈ ws := List.mem_or_eq_of_mem_set h |>.symm

theorem mem_of_worker (h : ws[i]? = some w) : w ∈ ws :=
  List.mem_of_getElem? h

/-- A state is lost only with the worker that moves. -/
theorem mem_set_iff {v : β} (h : ws[i]? = some w) (hne : w ≠ v) :
    v ∈ ws.set i w' ↔ v = w' ∨ v ∈ ws := by
  refine ⟨mem_set_cases, ?_⟩
  rintro (rfl | hv)
  · exact List.mem_set (List.getElem?_eq_some_iff.mp h).1 v
  · obtain ⟨j, hj⟩ := List.mem_iff_getElem?.mp hv
    have hij : i ≠ j := by
      rintro rfl
      exact hne (Option.some.inj (h.symm.trans hj))
    exact List.mem_of_getElem? ((List.getElem?_set_ne hij).trans hj)

/-- Worker `j` of the pool is in a state with the property `P`. -/
def WorkerAt (ws : List β) (j : Nat) (P : β → Prop) : Prop := ∃ w, ws[j]? = some w ∧ P w

theorem WorkerAt.set {j : Nat} {P P' : β → Prop} (h : WorkerAt ws j P)
    (hw : ws[i]? = some w) (hmono : ∀ v, P v → P' v) (hmove : P w → P' w') :
    WorkerAt (ws.set i w') j P' := by
  obtain ⟨v, hv, hP⟩ := h
  by_cases hij : i = j
  · subst hij
    obtain rfl : w = v := by simpa [hw] using hv
    exact ⟨w', by rw [List.getElem?_set_self (List.getElem?_eq_some_iff.mp hw).1], hmove hP⟩
  · exact ⟨v, by rw [List.getElem?_set_ne hij, hv], hmono v hP⟩

theorem workerAt_set_self {P : β → Prop} (hw : ws[i]? = some w)
    (h : P w') : WorkerAt (ws.set i w') i P :=
  ⟨w', by rw [List.getElem?_set_self (List.getElem?_eq_some_iff.mp hw).1], h⟩

end Vwarp.Lib
