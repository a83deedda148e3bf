import Vwarp.Lib.Machine
import Mathlib.Logic.Function.Basic

/-!
# A flag announced through a lossy one-slot bell

Several parties `ι` may *raise* a flag and then *ring* a bell that has room for
one ring: a ring that finds the bell already rung is dropped.  One handler waits
for the bell, *takes* the ring, and serves it: it either *clears* the flag or
*gives up* and rings the bell again itself.  After clearing the flag it *drains*
the bell of rings that came in while it was busy, and *rests* when the bell is
silent.  Anyone may also *knock*, that is ring without raising the flag.

The protocol is meant to lose no announcement: while the flag is up, either the
bell is rung, or somebody who raised the flag has yet to ring, or the handler is
still serving (`Heard`).  It does lose one, in exactly one way: a drain discards
the ring of a party that raised the flag *after* the handler cleared it.
`heard_of_reach` is the guarantee for runs in which no drain does that.
-/

namespace Vwarp.Lib

universe u

namespace Doorbell

variable {ι : Type u}

inductive Phase
  | /-- Waiting for the bell. -/
    idle
  | /-- Took a ring, and will clear the flag or ring again. -/
    serving
  | /-- Cleared the flag, not yet waiting again. -/
    cleared
deriving DecidableEq, Repr

/-- A state of the protocol. -/
@[ext]
structure State (ι : Type u) where
  /-- The flag. -/
  flag : Bool
  /-- The bell has been rung and the ring not taken. -/
  bell : Bool
  /-- The parties that raised the flag and have not rung since. -/
  raised : ι → Bool
  /-- The handler. -/
  phase : Phase

inductive Act (ι : Type u)
  | raise (i : ι)
  | ring (i : ι)
  | knock
  | take
  | clear
  | giveUp
  | drain
  | rest

variable [DecidableEq ι]

/-- The transition function of the protocol. -/
def next (s : State ι) : Act ι → Option (State ι)
  | .raise i => some { s with flag := true, raised := Function.update s.raised i true }
  | .ring i =>
    if s.raised i then
      some { s with bell := true, raised := Function.update s.raised i false }
    else none
  | .knock => some { s with bell := true }
  | .take =>
    if s.bell ∧ s.phase = .idle then some { s with bell := false, phase := .serving } else none
  | .clear => if s.phase = .serving then some { s with flag := false, phase := .cleared } else none
  | .giveUp => if s.phase = .serving then some { s with bell := true, phase := .idle } else none
  | .drain => if s.bell ∧ s.phase = .cleared then some { s with bell := false } else none
  | .rest => if ¬ s.bell ∧ s.phase = .cleared then some { s with phase := .idle } else none

/-- The protocol, started with the flag down, the bell silent and nobody active. -/
def machine : Machine (State ι) (Act ι) where
  start s := s = ⟨false, false, fun _ ↦ false, .idle⟩
  next := next

/-- While the flag is up, somebody is going to act on it. -/
def Heard (s : State ι) : Prop :=
  s.flag = true → s.bell = true ∨ (∃ i, s.raised i = true) ∨ s.phase = .serving

/-- A drain that discards no live announcement: the flag is down, or a party that
raised it has yet to ring. -/
def DrainsStale (s : State ι) (a : Act ι) : Prop :=
  a = .drain → s.flag = true → ∃ i, s.raised i = true

/-- One step that does not drain a live announcement keeps `Heard`. -/
theorem heard_step {s t : State ι} {a : Act ι} (h : Heard s) (hg : DrainsStale s a)
    (hn : next s a = some t) : Heard t := by
  cases a with
  | raise i =>
    simp only [next, Option.some.injEq] at hn
    subst hn
    exact fun _ ↦ .inr (.inl ⟨i, Function.update_self ..⟩)
  | ring i | giveUp =>
    simp only [next, Option.ite_none_right_eq_some, Option.some.injEq] at hn
    obtain ⟨-, rfl⟩ := hn
    exact fun _ ↦ .inl rfl
  | knock =>
    simp only [next, Option.some.injEq] at hn
    subst hn
    exact fun _ ↦ .inl rfl
  | take =>
    simp only [next, Option.ite_none_right_eq_some, Option.some.injEq] at hn
    obtain ⟨-, rfl⟩ := hn
    exact fun _ ↦ .inr (.inr rfl)
  | clear =>
    simp only [next, Option.ite_none_right_eq_some, Option.some.injEq] at hn
    obtain ⟨-, rfl⟩ := hn
    exact fun hf ↦ by simp at hf
  | drain =>
    simp only [next, Option.ite_none_right_eq_some, Option.some.injEq] at hn
    obtain ⟨-, rfl⟩ := hn
    exact fun hf ↦ .inr (.inl (hg rfl hf))
  | rest =>
    simp only [next, Option.ite_none_right_eq_some, Option.some.injEq] at hn
    obtain ⟨⟨hb, hp⟩, rfl⟩ := hn
    intro hf
    rcases h hf with hbell | hr | hs
    · exact absurd hbell hb
    · exact .inr (.inl hr)
    · exact absurd (hp ▸ hs) (by decide)

theorem heard_of_reach {s : State ι} (h : machine.Reach DrainsStale s) : Heard s :=
  h.invariant (by rintro s rfl hf; simp at hf) fun _ _ _ hs hg hn ↦ heard_step hs hg hn

end Doorbell

end Vwarp.Lib
