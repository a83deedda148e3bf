import Mathlib.Data.List.Basic

/-!
# Retrying

Attempts are made one after the other on a state that they share, until one of them succeeds.
`Retries` says what is expected of a function that does so, whatever it makes of the errors, and
`retry` is one, which collects them.
-/

namespace Vwarp.Lib

variable {σ ε ε' : Type}

section Attempts

variable (attempt : Nat → σ → σ × Option ε) (s : σ)

/-- The state after the first attempts. -/
def afterAttempts : Nat → σ
  | 0 => s
  | n + 1 => (attempt n (afterAttempts n)).1

/-- What an attempt returns after those before it. -/
def outcome (n : Nat) : Option ε := (attempt n (afterAttempts attempt s n)).2

/-- Of at most `limit` attempts the first `made` were made, and `r` is the state and the error
afterwards. -/
structure Made (limit : Nat) (r : σ × Option ε') (made : Nat) : Prop where
  made_le : made ≤ limit
  state : r.1 = afterAttempts attempt s made
  -- another attempt is made only after a failure
  again : ∀ n, n + 1 < made → (outcome attempt s n).isSome
  -- an attempt is left out only after a success
  stops : made < limit → ∃ n < made, outcome attempt s n = none
  err_eq_none_iff : r.2 = none ↔ ∃ n < made, outcome attempt s n = none

/-- The attempts are made until one succeeds, and there is no error if and only if one did. -/
def Retries (limit : Nat) (run : (Nat → σ → σ × Option ε) → σ → σ × Option ε') : Prop :=
  ∀ attempt s, ∃ made, Made attempt s limit (run attempt s) made

/-- Make the attempts from the `n`-th on while some are left; the result is the state with nothing,
or with the errors of all of them. -/
def retryFrom (n : Nat) : Nat → σ → σ × Option (List ε)
  | 0, s => (s, some [])
  | left + 1, s =>
    match attempt n s with
    | (s, none) => (s, none)
    | (s, some err) =>
      ((retryFrom (n + 1) left s).1, (retryFrom (n + 1) left s).2.map (err :: ·))

end Attempts

/-- Up to `limit` attempts, with the errors collected by `wrap`. -/
def retry (limit : Nat) (wrap : List ε → ε') (attempt : Nat → σ → σ × Option ε) (s : σ) :
    σ × Option ε' :=
  ((retryFrom attempt 0 limit s).1, (retryFrom attempt 0 limit s).2.map wrap)

variable {attempt : Nat → σ → σ × Option ε} {s : σ} {limit : Nat}

theorem Made.map {ε'' : Type} {r : σ × Option ε'} {made : Nat} (h : Made attempt s limit r made)
    (wrap : ε' → ε'') : Made attempt s limit (r.1, r.2.map wrap) made where
  made_le := h.made_le
  state := h.state
  again := h.again
  stops := h.stops
  err_eq_none_iff := Option.map_eq_none_iff.trans h.err_eq_none_iff

/-- After the failures of the first `n` attempts the rest of them is made as it should be. -/
theorem exists_made_retryFrom (attempt : Nat → σ → σ × Option ε) (s : σ) (left : Nat) :
    ∀ n, n + left = limit → (∀ m < n, (outcome attempt s m).isSome) →
    ∃ made, Made attempt s limit (retryFrom attempt n left (afterAttempts attempt s n)) made := by
  induction left with
  | zero =>
    rintro n rfl hfailed
    refine ⟨n, Nat.le_refl n, rfl, fun m hm ↦ hfailed m (by omega),
      fun h ↦ absurd h (Nat.lt_irrefl n), ?_⟩
    refine iff_of_false nofun ?_
    rintro ⟨m, hm, hnone⟩
    exact absurd (hnone ▸ hfailed m hm) nofun
  | succ left ih =>
    intro n hlimit hfailed
    rcases hattempt : attempt n (afterAttempts attempt s n) with ⟨s', _ | err⟩
    · have hnone : outcome attempt s n = none := congrArg Prod.snd hattempt
      rw [retryFrom, hattempt]
      refine ⟨n + 1, by omega, (congrArg Prod.fst hattempt).symm, fun m hm ↦ hfailed m (by omega),
        fun _ ↦ ⟨n, Nat.lt_succ_self n, hnone⟩, ?_⟩
      exact iff_of_true rfl ⟨n, Nat.lt_succ_self n, hnone⟩
    · have hsome : outcome attempt s n = some err := congrArg Prod.snd hattempt
      have hnext : afterAttempts attempt s (n + 1) = s' := congrArg Prod.fst hattempt
      obtain ⟨made, hmade⟩ := ih (n + 1) (by omega) fun m hm ↦ by
        rcases Nat.lt_succ_iff_lt_or_eq.mp hm with hlt | rfl
        · exact hfailed m hlt
        · rw [hsome]
          rfl
      rw [hnext] at hmade
      rw [retryFrom, hattempt]
      exact ⟨made, hmade.map _⟩

theorem retries_retry (limit : Nat) (wrap : List ε → ε') :
    Retries limit (retry (σ := σ) limit wrap) := by
  intro attempt s
  obtain ⟨made, hmade⟩ := exists_made_retryFrom attempt s limit 0 (Nat.zero_add limit) nofun
  exact ⟨made, hmade.map wrap⟩

/-- What is left says how it went: a postcondition without an error, an invariant with one. -/
structure Ends {ε : Type} (Inv Post : σ → Prop) (r : σ × Option ε) : Prop where
  post : r.2 = none → Post r.1
  inv : r.2.isSome → Inv r.1

namespace Retries

variable {run : (Nat → σ → σ × Option ε) → σ → σ × Option ε'} (h : Retries limit run)
include h

/-- If every attempt ends with the postcondition or still with the invariant, so do all together. -/
theorem ends {Inv Post : σ → Prop} (hstep : ∀ n s, Inv s → Ends Inv Post (attempt n s))
    (hs : Inv s) : Ends Inv Post (run attempt s) := by
  obtain ⟨made, hmade⟩ := h attempt s
  -- the invariant lasts as long as the attempts fail
  have hinv (k : Nat) (hfailed : ∀ n < k, (outcome attempt s n).isSome) :
      Inv (afterAttempts attempt s k) := by
    induction k with
    | zero => exact hs
    | succ k ih =>
      have hk := ih fun n hn ↦ hfailed n (Nat.lt_succ_of_lt hn)
      exact (hstep k _ hk).inv (hfailed k (Nat.lt_succ_self k))
  rcases hmade with ⟨-, hstate, hagain, -, herr⟩
  constructor
  · intro hnone
    obtain ⟨n, hn, hsuccess⟩ := herr.mp hnone
    obtain rfl : made = n + 1 := by
      by_contra hne
      exact absurd (hsuccess ▸ hagain n (by omega)) nofun
    rw [hstate]
    have hn := hinv n fun m hm ↦ hagain m (Nat.succ_lt_succ hm)
    exact (hstep n _ hn).post hsuccess
  · intro hsome
    rw [hstate]
    refine hinv made fun n hn ↦ Option.ne_none_iff_isSome.mp fun hnone ↦ ?_
    rw [herr.mpr ⟨n, hn, hnone⟩] at hsome
    cases hsome

/-- If the state does not matter for whether an attempt succeeds, all together succeed if one
can. -/
theorem err_eq_none_iff {ok : Nat → Prop} (hok : ∀ n s, (attempt n s).2 = none ↔ ok n) (s : σ) :
    (run attempt s).2 = none ↔ ∃ n < limit, ok n := by
  obtain ⟨made, hmade⟩ := h attempt s
  rw [hmade.err_eq_none_iff]
  constructor
  · rintro ⟨n, hn, hnone⟩
    exact ⟨n, Nat.lt_of_lt_of_le hn hmade.made_le, (hok n _).mp hnone⟩
  · rintro ⟨n, hn, hn'⟩
    rcases Nat.lt_or_ge made limit with hlt | hge
    · exact hmade.stops hlt
    · exact ⟨n, Nat.lt_of_lt_of_le hn hge, (hok n _).mpr hn'⟩

end Retries

end Vwarp.Lib
