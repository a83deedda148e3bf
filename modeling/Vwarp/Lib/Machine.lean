import Mathlib.Logic.Relation

/-!
# Machines, guarded reachability and simulation

A `Machine` is a labelled transition system that is deterministic once its label
is fixed: the label says which process moves and what the environment answered,
and `next` computes the successor, or `none` when that process cannot move.

Reachability is taken relative to a *guard* `G` on the pair of a state and the
label about to be taken.  With the trivial guard it is ordinary reachability.
With a proper guard it is the set of states visited by those runs all of whose
steps meet the guard, which is the form a conditional safety property takes: "in
every run whose steps all meet `G`, every state satisfies `I`".

The rules used throughout are `Reach.invariant` (an inductive invariant holds
everywhere), `Reach.simulate` (a guarded run of one machine is mapped to a guarded
run of another, possibly stuttering), and `Reach.of_run` and `Reach.of_guardedRun`
(a computed run is a run).
-/

namespace Vwarp.Lib

universe u v w x

/-- A labelled machine, deterministic once the label is given. -/
structure Machine (σ : Type u) (α : Type v) where
  /-- The initial states. -/
  start : σ → Prop
  /-- The successor under a label, `none` when the label is not enabled. -/
  next : σ → α → Option σ

/-- Membership in a log that grew by one entry. -/
theorem mem_concat {α : Type u} {log : List α} {a x : α} : x ∈ log ++ [a] ↔ x ∈ log ∨ x = a := by
  simp

theorem forall_mem_concat {α : Type u} {log : List α} {a : α} {P : α → Prop} :
    (∀ x ∈ log ++ [a], P x) ↔ (∀ x ∈ log, P x) ∧ P a := by
  rw [List.forall_mem_append, List.forall_mem_singleton]

namespace Machine

variable {σ : Type u} {α : Type v} {τ : Type w} {β : Type x}

/-- `Reach M G s`: some run of `M` whose steps all meet the guard `G` visits `s`. -/
inductive Reach (M : Machine σ α) (G : σ → α → Prop) : σ → Prop
  | /-- Every initial state is visited. -/
    start {s : σ} : M.start s → Reach M G s
  | /-- A guarded step extends a run. -/
    step {s t : σ} {a : α} : Reach M G s → G s a → M.next s a = some t → Reach M G t

def anyStep : σ → α → Prop := fun _ _ ↦ True

abbrev Reachable (M : Machine σ α) : σ → Prop := Reach M anyStep

/-- The state after a list of labels, `none` when one of them is not enabled. -/
def run (M : Machine σ α) : σ → List α → Option σ
  | s, [] => some s
  | s, a :: as => (M.next s a).bind fun t ↦ M.run t as

/-- The same, `none` also when one of them does not meet the guard. -/
def guardedRun (M : Machine σ α) (G : σ → α → Prop) [∀ s a, Decidable (G s a)] :
    σ → List α → Option σ
  | s, [] => some s
  | s, a :: as => if G s a then (M.next s a).bind fun t ↦ M.guardedRun G t as else none

theorem run_cons {M : Machine σ α} {s t : σ} {a : α} (h : M.next s a = some t) (as : List α) :
    M.run s (a :: as) = M.run t as := by
  rw [run, h, Option.bind_some]

def Halted (M : Machine σ α) (s : σ) : Prop := ∀ a, M.next s a = none

/-- What each step keeps, of the labels so far and the state, holds after a run. -/
theorem run_trace {M : Machine σ α} {I : List α → σ → Prop}
    (hs : ∀ as s a t, I as s → M.next s a = some t → I (as ++ [a]) t) (as : List α)
    {bs : List α} {s t : σ} (hr : M.run s bs = some t) (h : I as s) : I (as ++ bs) t := by
  induction bs generalizing as s with
  | nil =>
    rw [List.append_nil]
    exact Option.some.inj hr ▸ h
  | cons b bs ih =>
    obtain ⟨u, hu, hr⟩ := Option.bind_eq_some_iff.mp hr
    rw [List.append_cons]
    exact ih _ hr (hs as s b u h hu)

theorem run_invariant {M : Machine σ α} {I : σ → Prop}
    (hs : ∀ s a t, I s → M.next s a = some t → I t) {as : List α} {s t : σ}
    (hr : M.run s as = some t) (h : I s) : I t :=
  run_trace (I := fun _ ↦ I) (fun _ ↦ hs) [] hr h

theorem run_length_le {M : Machine σ α} (μ : σ → Nat)
    (hμ : ∀ s a t, M.next s a = some t → μ t < μ s) {as : List α} {s t : σ}
    (hr : M.run s as = some t) : as.length ≤ μ s := by
  induction as generalizing s with
  | nil => exact Nat.zero_le _
  | cons a as ih =>
    simp only [run, Option.bind_eq_some_iff] at hr
    obtain ⟨u, hu, hr⟩ := hr
    exact Nat.lt_of_le_of_lt (ih hr) (hμ s a u hu)

theorem exists_run_halted {M : Machine σ α} (μ : σ → Nat)
    (hμ : ∀ s a t, M.next s a = some t → μ t < μ s) (s : σ) :
    ∃ as t, M.run s as = some t ∧ M.Halted t := by
  induction hn : μ s using Nat.strongRecOn generalizing s with
  | ind n ih =>
    by_cases h : M.Halted s
    · exact ⟨[], s, rfl, h⟩
    · obtain ⟨a, ha⟩ := Classical.not_forall.mp h
      obtain ⟨t, ht⟩ := Option.ne_none_iff_exists'.mp ha
      obtain ⟨as, u, hu, hhalt⟩ := ih (μ t) (hn ▸ hμ s a t ht) t rfl
      exact ⟨a :: as, u, by simp [run, ht, hu], hhalt⟩

namespace Reach

variable {M : Machine σ α} {G : σ → α → Prop}

theorem invariant {I : σ → Prop} (h₀ : ∀ s, M.start s → I s)
    (hs : ∀ s a t, I s → G s a → M.next s a = some t → I t) {s : σ} (h : Reach M G s) : I s := by
  induction h with
  | start h => exact h₀ _ h
  | step _ hg hn ih => exact hs _ _ _ ih hg hn

theorem mono {G' : σ → α → Prop} (hG : ∀ s a, G s a → G' s a) {s : σ} (h : Reach M G s) :
    Reach M G' s := by
  induction h with
  | start h => exact .start h
  | step _ hg hn ih => exact .step ih (hG _ _ hg) hn

/-- A guarded run of `M` is carried by `abs` to a guarded run of `N`, as soon as
every guarded step of `M` is carried to a guarded step of `N` or to no step. -/
theorem simulate {N : Machine τ β} {H : τ → β → Prop} (abs : σ → τ)
    (h₀ : ∀ s, M.start s → N.start (abs s))
    (hs : ∀ s a t, G s a → M.next s a = some t →
      abs t = abs s ∨ ∃ b, H (abs s) b ∧ N.next (abs s) b = some (abs t))
    {s : σ} (h : Reach M G s) : Reach N H (abs s) := by
  induction h with
  | start h => exact .start (h₀ _ h)
  | step _ hg hn ih =>
    rcases hs _ _ _ hg hn with heq | ⟨b, hb, hnb⟩
    · rw [heq]
      exact ih
    · exact .step ih hb hnb

theorem of_run {s t : σ} (h : Reach M G s) {as : List α} (hG : ∀ a ∈ as, ∀ s, G s a)
    (hr : M.run s as = some t) : Reach M G t := by
  induction as generalizing s with
  | nil =>
    simp only [run, Option.some.injEq] at hr
    exact hr ▸ h
  | cons a as ih =>
    simp only [run, Option.bind_eq_some_iff] at hr
    obtain ⟨u, hu, hr⟩ := hr
    have hG' : ∀ b ∈ as, ∀ s, G s b := fun b hb ↦ hG b (List.mem_cons_of_mem a hb)
    exact ih (.step h (hG a List.mem_cons_self s) hu) hG' hr

theorem of_guardedRun [∀ s a, Decidable (G s a)] {s t : σ} (h : Reach M G s) {as : List α}
    (hr : M.guardedRun G s as = some t) : Reach M G t := by
  induction as generalizing s with
  | nil => exact Option.some.inj hr ▸ h
  | cons a as ih =>
    rw [guardedRun] at hr
    split at hr
    · obtain ⟨u, hu, hr⟩ := Option.bind_eq_some_iff.mp hr
      exact ih (h.step ‹_› hu) hr
    · cases hr

end Reach

end Machine

end Vwarp.Lib
