import Mathlib.Data.List.Basic

/-!
# Programs that draw random numbers

A program that asks a random source for numbers is a tree: at a leaf it returns or
faults, and at a node it asks for a number up to a bound and goes on with the answer,
which may be an error.  `Draw.run` answers the questions from a list of outcomes, so
that a statement about every list is a statement about every outcome.

`m.Ensures F Q` is the weakest precondition of `m`: whatever the source answers, `m`
returns a value in `Q`, or faults and `F` holds.  With `F := False` it is total
correctness, and with `F := True` it is partial correctness.  It is defined by the shape
of the tree, so its rules are equivalences, and a precondition computed with them is
exact.  By `ensures_iff_run` it is the statement about every list of outcomes.
-/

universe u v

namespace Vwarp.Lib

/-- A program that draws random numbers and returns an `α`. -/
inductive Draw (α : Type u)
  | /-- The program is done. -/
    ret (a : α)
  | /-- The program faults. -/
    fault
  | /-- The program asks for a number that is at most `bound`. -/
    ask (bound : Nat) (next : Option Nat → Draw α)

namespace Draw

variable {α : Type u} {β : Type v}

/-- Do `m`, then go on with what it returns. -/
protected def bind : Draw α → (α → Draw β) → Draw β
  | ret a, f => f a
  | fault, _ => fault
  | ask bound next, f => ask bound fun answer ↦ (next answer).bind f

instance : Monad Draw where
  pure := ret
  bind := Draw.bind

protected theorem bind_ret (m : Draw α) : m.bind ret = m := by
  induction m with
  | ret a => rfl
  | fault => rfl
  | ask bound next ih => exact congrArg (ask bound) (funext ih)

protected theorem bind_bind {α β γ : Type u} (m : Draw α) (f : α → Draw β) (g : β → Draw γ) :
    (m.bind f).bind g = m.bind fun a ↦ (f a).bind g := by
  induction m with
  | ret a => rfl
  | fault => rfl
  | ask bound next ih => exact congrArg (ask bound) (funext ih)

instance : LawfulMonad Draw := .mk' Draw Draw.bind_ret (fun _ _ ↦ rfl) Draw.bind_bind

/-- Draw a number below `max`; a draw from the empty range faults, and `none` is an error
of the source. -/
def number : Nat → Draw (Option Nat)
  | 0 => fault
  | bound + 1 => ask bound ret

def ofOption : Option α → Draw α
  | some a => ret a
  | none => fault

/-- The run in which the source answers with the listed outcomes, and fails after them.
The result is `none` when the program faults. -/
def run : Draw α → List (Option Nat) → Option α
  | ret a, _ => some a
  | fault, _ => none
  | ask _ next, [] => (next none).run []
  | ask _ next, none :: draws => (next none).run draws
  | ask bound next, some v :: draws => (next (some (v % (bound + 1)))).run draws

/-- Whatever the source answers, the program returns a value in `Q`, or faults and `F`
holds. -/
def Ensures (F : Prop) : Draw α → (α → Prop) → Prop
  | ret a, Q => Q a
  | fault, _ => F
  | ask bound next, Q => (next none).Ensures F Q ∧ ∀ v ≤ bound, (next (some v)).Ensures F Q

/-- Whatever the source answers, the program returns. -/
def Safe (m : Draw α) : Prop := m.Ensures False fun _ ↦ True

/-- The program returns when the source always fails. -/
def Returns (m : Draw α) : Prop := ∃ a, m.run [] = some a

/-! ## Runs -/

variable {F : Prop}

variable {m : Draw α} {Q : α → Prop}

/-- `Ensures` is the statement about every run. -/
theorem ensures_iff_run : m.Ensures F Q ↔ ∀ draws, (m.run draws).elim F Q := by
  induction m with
  | ret a | fault => simp [Ensures, run]
  | ask bound next ih =>
    simp only [Ensures, ih]
    constructor
    · rintro ⟨hnone, hsome⟩ draws
      match draws with
      | [] => exact hnone []
      | none :: draws => exact hnone draws
      | some v :: draws => exact hsome _ (Nat.lt_succ_iff.mp (Nat.mod_lt v bound.succ_pos)) draws
    · intro h
      refine ⟨fun draws ↦ h (none :: draws), fun v hv draws ↦ ?_⟩
      have hrun := h (some v :: draws)
      rwa [run, Nat.mod_eq_of_lt (Nat.lt_succ_iff.mpr hv)] at hrun

variable {a : α}

theorem Ensures.of_run (hm : m.Ensures F Q) {draws : List (Option Nat)}
    (hrun : m.run draws = some a) : Q a := by
  have h := ensures_iff_run.mp hm draws
  rwa [hrun] at h

theorem Ensures.run_ne_none (hm : m.Ensures False Q)
    (draws : List (Option Nat)) : m.run draws ≠ none := by
  intro hrun
  have h := ensures_iff_run.mp hm draws
  rwa [hrun] at h

theorem ensures_true (m : Draw α) : m.Ensures True fun _ ↦ True := by
  induction m with
  | ret a => trivial
  | fault => trivial
  | ask bound next ih => exact ⟨ih none, fun v _ ↦ ih (some v)⟩

theorem run_nil_bind {α β : Type u} {m : Draw α} {f : α → Draw β} {a : α} (h : m.run [] = some a) :
    (m >>= f).run [] = (f a).run [] := by
  show (m.bind f).run [] = (f a).run []
  induction m with
  | ret b => rw [Option.some.inj h]; rfl
  | fault => exact absurd h (by simp [run])
  | ask bound next ih => exact ih none h

theorem run_bind_eq_none {α β : Type u} {m : Draw α} {f : α → Draw β} {draws : List (Option Nat)}
    (h : m.run draws = none) : (m >>= f).run draws = none := by
  show (m.bind f).run draws = none
  induction m generalizing draws with
  | ret a => exact absurd h (Option.some_ne_none a)
  | fault => rfl
  | ask bound next ih =>
    match draws, h with
    | [], h => exact ih none h
    | none :: draws, h => exact ih none h
    | some v :: draws, h => exact ih _ h

variable {max : Nat}

theorem run_nil_number_bind {β : Type} (f : Option Nat → Draw β) (hmax : 0 < max) :
    (number max >>= f).run [] = (f none).run [] := by
  cases max with
  | zero => exact absurd hmax (Nat.lt_irrefl 0)
  | succ bound => rfl

/-- What a program returns, seen through a function. -/
def view {α β : Type u} (f : α → β) (m : Draw α) : Draw β := m >>= fun a ↦ pure (f a)

theorem view_bind {α β γ : Type u} (f : β → γ) (m : Draw α) (k : α → Draw β) :
    view f (m >>= k) = m >>= fun a ↦ view f (k a) :=
  bind_assoc m k _

theorem view_id {α : Type u} (m : Draw α) : view id m = m := bind_pure m

theorem run_view {α β : Type u} (f : α → β) (m : Draw α) (draws : List (Option Nat)) :
    (view f m).run draws = (m.run draws).map f := by
  show (m.bind fun a ↦ ret (f a)).run draws = (m.run draws).map f
  induction m generalizing draws with
  | ret a => rfl
  | fault => rfl
  | ask bound next ih =>
    match draws with
    | [] => exact ih none []
    | none :: draws => exact ih none draws
    | some v :: draws => exact ih _ draws

/-! ## Rules -/

@[simp] theorem ensures_pure : (pure a : Draw α).Ensures F Q ↔ Q a := Iff.rfl

@[simp] theorem ensures_bind {α β : Type u} {m : Draw α} {f : α → Draw β} {Q : β → Prop} :
    (m >>= f).Ensures F Q ↔ m.Ensures F fun a ↦ (f a).Ensures F Q := by
  show (m.bind f).Ensures F Q ↔ _
  induction m with
  | ret a => exact Iff.rfl
  | fault => exact Iff.rfl
  | ask bound next ih => simp only [Draw.bind, Ensures, ih]

theorem ensures_number (hmax : 0 < max) {Q : Option Nat → Prop} :
    (number max).Ensures F Q ↔ Q none ∧ ∀ v < max, Q (some v) := by
  cases max with
  | zero => exact absurd hmax (Nat.lt_irrefl 0)
  | succ bound => simp only [number, Ensures, Nat.lt_succ_iff]

@[simp] theorem ensures_ofOption {o : Option α} : (ofOption o).Ensures F Q ↔ o.elim F Q := by
  cases o with
  | none | some a => exact Iff.rfl

variable {P : α → Prop}

theorem ensures_congr (h : ∀ a, P a ↔ Q a) : m.Ensures F P ↔ m.Ensures F Q := by
  have hPQ : P = Q := funext fun a ↦ propext (h a)
  rw [hPQ]

theorem Ensures.mono (hm : m.Ensures F P) (h : ∀ a, P a → Q a) : m.Ensures F Q := by
  induction m with
  | ret a => exact h a hm
  | fault => exact hm
  | ask bound next ih => exact ⟨ih none hm.1, fun v hv ↦ ih (some v) (hm.2 v hv)⟩

theorem Ensures.of_false (h : m.Ensures False Q) : m.Ensures F Q := by
  induction m with
  | ret a => exact h
  | fault => exact h.elim
  | ask bound next ih => exact ⟨ih none h.1, fun v hv ↦ ih (some v) (h.2 v hv)⟩

theorem ensures_congr_of {K : α → Prop} (hK : m.Ensures True K)
    (h : ∀ a, K a → (P a ↔ Q a)) : m.Ensures F P ↔ m.Ensures F Q := by
  induction m with
  | ret a => exact h a hK
  | fault => exact Iff.rfl
  | ask bound next ih =>
    exact and_congr (ih none hK.1) (forall_congr' fun v ↦ imp_congr_right fun hv ↦
      ih (some v) (hK.2 v hv))

variable {C : Prop}

theorem ensures_and_const (hret : m.Returns) :
    (m.Ensures F fun a ↦ P a ∧ C) ↔ m.Ensures F P ∧ C := by
  obtain ⟨a, ha⟩ := hret
  simp only [ensures_iff_run]
  constructor
  · intro h
    have hnil := h []
    rw [ha] at hnil
    refine ⟨fun draws ↦ ?_, hnil.2⟩
    have hrun := h draws
    cases hr : m.run draws with
    | none => rwa [hr] at hrun
    | some b => rw [hr] at hrun; exact hrun.1
  · rintro ⟨h, hC⟩ draws
    have hrun := h draws
    cases hr : m.run draws with
    | none => rwa [hr] at hrun
    | some b => rw [hr] at hrun; exact ⟨hrun, hC⟩

theorem safe_iff_run : m.Safe ↔ ∀ draws, m.run draws ≠ none := by
  rw [Safe, ensures_iff_run]
  refine forall_congr' fun draws ↦ ?_
  cases m.run draws with
  | none => exact iff_of_false id fun h ↦ h rfl
  | some a => exact iff_of_true trivial (Option.some_ne_none a)

theorem Ensures.safe (h : m.Ensures False Q) : m.Safe :=
  h.mono fun _ _ ↦ trivial

theorem Ensures.const (h : m.Ensures False fun _ ↦ C) : C := by
  induction m with
  | ret a => exact h
  | fault => exact h.elim
  | ask bound next ih => exact ih none h.1

theorem ensures_const_iff : (m.Ensures False fun _ ↦ C) ↔ m.Safe ∧ C := by
  constructor
  · intro h
    exact ⟨h.safe, h.const⟩
  · rintro ⟨hsafe, hC⟩
    exact hsafe.mono fun _ _ ↦ hC

theorem safe_pure (a : α) : (pure a : Draw α).Safe := trivial

theorem Safe.bind {α β : Type u} {m : Draw α} {f : α → Draw β} (hm : m.Safe)
    (hf : ∀ a, (f a).Safe) : (m >>= f).Safe :=
  ensures_bind.mpr (hm.mono fun a _ ↦ hf a)

theorem Safe.of_bind {α β : Type u} {m : Draw α} {f : α → Draw β} (h : (m >>= f).Safe) : m.Safe :=
  (ensures_bind.mp h).safe

/-- The rule for loops.  If a round that starts in `s` ends in `S` exactly when `s` is in
`S` and the item of the round is `Ok`, then the loop ends in `S` exactly when it starts
there and all its items are `Ok`. -/
theorem ensures_foldlM {ι σ : Type u} {f : σ → ι → Draw σ} {S : σ → Prop} {Ok : ι → Prop}
    {is : List ι} (hret : ∀ s, ∀ i ∈ is, (f s i).Returns)
    (hround : ∀ s, ∀ i ∈ is, (f s i).Ensures F S ↔ S s ∧ Ok i) (s : σ) :
    (is.foldlM f s).Ensures F S ↔ S s ∧ ∀ i ∈ is, Ok i := by
  induction is generalizing s with
  | nil => simp
  | cons i is ih =>
    have htail : ∀ s, (is.foldlM f s).Ensures F S ↔ S s ∧ ∀ i ∈ is, Ok i := by
      intro s
      apply ih
      · intro s j hj
        exact hret s j (List.mem_cons_of_mem i hj)
      · intro s j hj
        exact hround s j (List.mem_cons_of_mem i hj)
    rw [List.foldlM_cons, ensures_bind, ensures_congr htail,
      ensures_and_const (hret s i List.mem_cons_self), hround s i List.mem_cons_self,
      List.forall_mem_cons, and_assoc]

theorem run_nil_foldlM {ι σ : Type u} {f : σ → ι → Draw σ} {is : List ι}
    (h : ∀ s, ∀ i ∈ is, (f s i).run [] = some s) (s : σ) : (is.foldlM f s).run [] = some s := by
  induction is with
  | nil => rfl
  | cons i is ih =>
    rw [List.foldlM_cons, run_nil_bind (h s i List.mem_cons_self)]
    exact ih fun s j hj ↦ h s j (List.mem_cons_of_mem i hj)

/-! ## Sources that do not fail

`Yields failing` is total correctness for a source that answers with an error only if `failing`
holds.  One proof with a variable `failing` is a proof for a source that may fail, which is
`Ensures False`, and for one that does not, whose answers are a stream of numbers. -/

/-- The run in which the source answers with the numbers of a stream. -/
def stream : Draw α → (Nat → Nat) → Option α
  | ret a, _ => some a
  | fault, _ => none
  | ask bound next, numbers =>
    (next (some (numbers 0 % (bound + 1)))).stream fun n ↦ numbers (n + 1)

/-- Whatever the source answers, the program returns a value in `Q`; the source may fail only if
`failing` holds. -/
def Yields (failing : Prop) : Draw α → (α → Prop) → Prop
  | ret a, Q => Q a
  | fault, _ => False
  | ask bound next, Q =>
    (failing → (next none).Yields failing Q) ∧ ∀ v ≤ bound, (next (some v)).Yields failing Q

variable {failing : Prop}

@[simp] theorem yields_bind {α β : Type u} {m : Draw α} {f : α → Draw β} {Q : β → Prop} :
    (m >>= f).Yields failing Q ↔ m.Yields failing fun a ↦ (f a).Yields failing Q := by
  show (m.bind f).Yields failing Q ↔ _
  induction m with
  | ret a => exact Iff.rfl
  | fault => exact Iff.rfl
  | ask bound next ih => simp only [Draw.bind, Yields, ih]

@[simp] theorem yields_ofOption {o : Option α} :
    (ofOption o).Yields failing Q ↔ o.elim False Q := by
  cases o with
  | none | some a => exact Iff.rfl

theorem yields_number (hmax : 0 < max) {Q : Option Nat → Prop} :
    (number max).Yields failing Q ↔ (failing → Q none) ∧ ∀ v < max, Q (some v) := by
  cases max with
  | zero => exact absurd hmax (Nat.lt_irrefl 0)
  | succ bound => simp only [number, Yields, Nat.lt_succ_iff]

theorem Yields.mono (hm : m.Yields failing P) (h : ∀ a, P a → Q a) : m.Yields failing Q := by
  induction m with
  | ret a => exact h a hm
  | fault => exact hm
  | ask bound next ih => exact ⟨fun hf ↦ ih none (hm.1 hf), fun v hv ↦ ih (some v) (hm.2 v hv)⟩

/-- With a source that may fail, every run returns a value in `Q`. -/
theorem Yields.run (hm : m.Yields True Q) (draws : List (Option Nat)) :
    ∃ a, m.run draws = some a ∧ Q a := by
  induction m generalizing draws with
  | ret a => exact ⟨a, rfl, hm⟩
  | fault => exact hm.elim
  | ask bound next ih =>
    match draws with
    | [] => exact ih none (hm.1 trivial) []
    | none :: draws => exact ih none (hm.1 trivial) draws
    | some v :: draws =>
      exact ih _ (hm.2 _ (Nat.lt_succ_iff.mp (Nat.mod_lt v bound.succ_pos))) draws

/-- With a source that does not fail, every stream of numbers gives a value in `Q`. -/
theorem Yields.stream (hm : m.Yields False Q) (numbers : Nat → Nat) :
    ∃ a, m.stream numbers = some a ∧ Q a := by
  induction m generalizing numbers with
  | ret a => exact ⟨a, rfl, hm⟩
  | fault => exact hm.elim
  | ask bound next ih =>
    exact ih _ (hm.2 _ (Nat.lt_succ_iff.mp (Nat.mod_lt (numbers 0) bound.succ_pos))) _

end Draw

end Vwarp.Lib
