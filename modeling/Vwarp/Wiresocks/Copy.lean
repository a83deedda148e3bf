import Mathlib.Data.List.TakeWhile
import Vwarp.Go.Writer

/-!
# `copyConnTimeout`

The copy loop of the tunnel.  A round of it sets a deadline, reads into the buffer, and writes
what was read; it ends with the first call that fails, with a short write, or with the end of the
source.  A `Round` has what the three calls of a round return, so a list of rounds is a finite
sequence of outcomes, and the function is `running` when the list is used up.

The timeout decides what is passed to `SetReadDeadline`, not what that returns, so it is not among
the arguments.

* `copyLoop_eq` says what the loop does with any rounds, in terms of the rounds that go on and the
  first one that does not.
* `copy_accounts_iff`: the accounts are right, except for the count where `SetReadDeadline` fails
  after something was written.
-/

namespace Vwarp.Wiresocks

open Vwarp.Go

/-- `errInvalidWrite`. -/
def errInvalidWrite : Error := .text (str "invalid write result")

/-- `io.ErrShortWrite`. -/
def errShortWrite : Error := .text (str "short write")

/-- What the calls of one round return. -/
structure Round where
  /-- `src.SetReadDeadline(deadline)`. -/
  deadline : Option Error
  /-- What `src.Read(buf)` puts into the buffer. -/
  data : Bytes
  /-- The error of `src.Read(buf)`. -/
  er : Option Error
  /-- `dst.Write(buf[0:nr])`, if it is called. -/
  write : WriteResult
deriving DecidableEq, Repr

namespace Round

/-- The count of the write is none that a write may return. -/
def invalid (r : Round) : Bool := r.write.n < 0 ∨ (r.data.length : Int) < r.write.n

/-- `nw`, as it is used. -/
def nw (r : Round) : Int := if r.invalid then 0 else r.write.n

/-- `ew`, as it is used. -/
def ew (r : Round) : Option Error :=
  if r.invalid ∧ r.write.err = none then some errInvalidWrite else r.write.err

end Round

/-- What the function has done after some rounds: what it has offered to `dst`, with what it
returns. -/
inductive Outcome
  | running (offered : Bytes) (written : Int64)
  | returned (offered : Bytes) (written : Int64) (err : Option Error)
  | panicked
deriving DecidableEq

/-- The loop of `copyConnTimeout`. -/
def copyLoop : List Round → Bytes → Int64 → Outcome
  | [], offered, written => .running offered written
  | r :: rounds, offered, written =>
    match r.deadline with
    | some err => .returned offered 0 (some err)
    | none =>
      let nr := r.data.length
      if 0 < nr then
        let offered := offered ++ r.data
        let written := written + Int64.ofInt r.nw
        match r.ew with
        | some ew => .returned offered written (some ew)
        | none =>
          if (nr : Int) ≠ r.nw then .returned offered written (some errShortWrite)
          else
            match r.er with
            | some er => .returned offered written (if er ≠ .eof then some er else none)
            | none => copyLoop rounds offered written
      else
        match r.er with
        | some er => .returned offered written (if er ≠ .eof then some er else none)
        | none => copyLoop rounds offered written

/-- `copyConnTimeout`, with the length of the buffer if it is not nil. -/
def copyConnTimeout (buf : Option Nat) (rounds : List Round) : Outcome :=
  if buf = some 0 then .panicked else copyLoop rounds [] 0

/-! ## Accounts

What the outcomes themselves say, without the loop. -/

namespace Round

def complete (r : Round) : Bool :=
  r.data = [] ∨ r.write.n = r.data.length ∧ r.write.err = none

/-- Nothing fails, nothing is short, and the source has not ended. -/
def goesOn (r : Round) : Bool := r.deadline = none ∧ r.complete ∧ r.er = none

def got (r : Round) : Bytes := if r.deadline = none then r.data else []

/-- The count that `dst` accepts in a round; one outside of `0..n` is none. -/
def accepted (r : Round) : Nat := if r.deadline = none ∧ r.data ≠ [] then r.nw.toNat else 0

/-- The error after a round that does not go on. -/
def exit (r : Round) : Option Error :=
  match r.deadline with
  | some err => some err
  | none =>
    if r.data ≠ [] ∧ r.ew ≠ none then r.ew
    else if r.data ≠ [] ∧ (r.data.length : Int) ≠ r.nw then some errShortWrite
    else if r.er = some .eof then none
    else r.er

end Round

/-- The rounds that take place: those that go on, and the first that does not. -/
def turns (rounds : List Round) : List Round :=
  rounds.takeWhile Round.goesOn ++ (rounds.find? fun r ↦ !r.goesOn).toList

/-- The bytes read from `src`, up to the first failure. -/
def readBytes (rounds : List Round) : Bytes := (turns rounds).flatMap Round.got

/-- The sum of the counts that `dst` accepted. -/
def acceptedSum (rounds : List Round) : Nat := ((turns rounds).map Round.accepted).sum

/-- `src` ended with `io.EOF`, and every write was complete. -/
def EndsWell (rounds : List Round) : Prop :=
  (∃ r, rounds.find? (fun r ↦ !r.goesOn) = some r ∧ r.deadline = none ∧ r.er = some .eof) ∧
    ∀ r ∈ turns rounds, r.complete = true

/-- The accounts of a call that returned: what was offered is what was read, the count is the sum
of what was accepted, and there is no error exactly if all went well. -/
structure Accounts (rounds : List Round) (offered : Bytes) (written : Int64) (err : Option Error) :
    Prop where
  offered_eq : offered = readBytes rounds
  written_eq : written.toInt = acceptedSum rounds
  err_eq : err = none ↔ EndsWell rounds

/-- If the last round fails at `SetReadDeadline`, nothing was accepted before; if not, the sum is
one of an `int64`. -/
def Counted (rounds : List Round) : Prop :=
  ∀ r, rounds.find? (fun r ↦ !r.goesOn) = some r →
    if r.deadline = none then acceptedSum rounds < 2 ^ 63 else acceptedSum rounds = 0

/-! ## One round -/

namespace Round

variable {r : Round}

theorem complete_iff : r.complete = true ↔
    r.data = [] ∨ r.ew = none ∧ (r.data.length : Int) = r.nw := by
  have hpos : r.data ≠ [] → 0 < r.data.length := List.length_pos_iff.mpr
  simp only [complete, ew, nw, invalid, decide_eq_true_eq]
  refine or_congr_right' fun hdata ↦ ?_
  have := hpos hdata
  constructor
  · rintro ⟨hn, herr⟩
    have hvalid : ¬ (r.write.n < 0 ∨ (r.data.length : Int) < r.write.n) := by omega
    rw [if_neg fun h ↦ hvalid h.1, if_neg hvalid]
    exact ⟨herr, hn.symm⟩
  · rintro ⟨herr, hn⟩
    by_cases hinvalid : r.write.n < 0 ∨ (r.data.length : Int) < r.write.n
    · rw [if_pos hinvalid] at hn
      omega
    · rw [if_neg fun h ↦ hinvalid h.1] at herr
      rw [if_neg hinvalid] at hn
      exact ⟨hn.symm, herr⟩

theorem stops_of_deadline (h : r.goesOn = false) (hdeadline : r.deadline = none) :
    ¬ ((r.data = [] ∨ r.ew = none ∧ (r.data.length : Int) = r.nw) ∧ r.er = none) := by
  rintro ⟨hcomplete, her⟩
  have hgo : r.goesOn = true := decide_eq_true ⟨hdeadline, complete_iff.mpr hcomplete, her⟩
  cases hgo.symm.trans h

theorem ofInt_nw (r : Round) : Int64.ofInt r.nw = Int64.ofNat r.nw.toNat := by
  have hnw : 0 ≤ r.nw := by
    simp only [nw, invalid, decide_eq_true_eq]
    split
    · exact Int.le_refl 0
    · omega
  rw [← Int64.ofInt_eq_ofNat, Int.toNat_of_nonneg hnw]

end Round

section Loop

variable {r : Round} (rounds : List Round) (offered : Bytes) (written : Int64)

theorem copyLoop_of_goesOn (h : r.goesOn = true) :
    copyLoop (r :: rounds) offered written =
      copyLoop rounds (offered ++ r.got) (written + Int64.ofNat r.accepted) := by
  obtain ⟨hdeadline, hcomplete, her⟩ := of_decide_eq_true h
  rw [copyLoop, Round.got, Round.accepted, if_pos hdeadline]
  simp only [hdeadline, her, true_and]
  by_cases hdata : r.data = []
  · simp [hdata]
  · obtain ⟨hew, hnw⟩ := (Round.complete_iff.mp hcomplete).resolve_left hdata
    rw [if_pos (List.length_pos_iff.mpr hdata), if_pos hdata, hew, Round.ofInt_nw]
    simp only [hnw, ne_eq, not_true_eq_false, if_false]

theorem copyLoop_of_stops (h : r.goesOn = false) :
    copyLoop (r :: rounds) offered written =
      .returned (offered ++ r.got)
        (if r.deadline = none then written + Int64.ofNat r.accepted else 0) r.exit := by
  rw [copyLoop, Round.got, Round.accepted, Round.exit]
  cases hdeadline : r.deadline with
  | some err => simp
  | none =>
    have hstop := Round.stops_of_deadline h hdeadline
    by_cases hdata : r.data = []
    · cases her : r.er with
      | none => exact absurd ⟨.inl hdata, her⟩ hstop
      | some er => simp [hdata]
    · simp only [if_pos (List.length_pos_iff.mpr hdata), Round.ofInt_nw]
      cases hew : r.ew with
      | some ew => simp [hdata]
      | none =>
        by_cases hnw : (r.data.length : Int) = r.nw
        · cases her : r.er with
          | none => exact absurd ⟨.inr ⟨hew, hnw⟩, her⟩ hstop
          | some er => simp [hdata, hnw]
        · simp [hdata, hnw]

end Loop

/-! ## The loop -/

theorem turns_of_goesOn {r : Round} (h : r.goesOn = true) (rounds : List Round) :
    turns (r :: rounds) = r :: turns rounds := by
  simp [turns, h]

theorem turns_of_stops {r : Round} (h : r.goesOn = false) (rounds : List Round) :
    turns (r :: rounds) = [r] := by
  simp [turns, h]

/-- What the loop does with rounds of which one does not go on. -/
theorem copyLoop_eq {rounds : List Round} {r : Round}
    (hr : rounds.find? (fun r ↦ !r.goesOn) = some r) (offered : Bytes) (written : Int64) :
    copyLoop rounds offered written =
      .returned (offered ++ readBytes rounds)
        (if r.deadline = none then written + Int64.ofNat (acceptedSum rounds) else 0) r.exit := by
  induction rounds generalizing offered written with
  | nil => exact absurd hr (by simp)
  | cons r' rounds ih =>
    cases hgo : r'.goesOn with
    | true =>
      rw [List.find?_cons_of_neg (by simp [hgo])] at hr
      rw [copyLoop_of_goesOn rounds offered written hgo, ih hr, readBytes, readBytes, acceptedSum,
        acceptedSum, turns_of_goesOn hgo, List.flatMap_cons, List.append_assoc, List.map_cons,
        List.sum_cons, Int64.ofNat_add, Int64.add_assoc]
    | false =>
      rw [List.find?_cons_of_pos (by simp [hgo])] at hr
      cases hr
      rw [copyLoop_of_stops rounds offered written hgo, readBytes, acceptedSum,
        turns_of_stops hgo, List.flatMap_singleton, List.map_singleton, List.sum_singleton]

/-- The error of a round that does not go on is none if it is complete and the source ended. -/
theorem Round.exit_eq_none_iff {r : Round} (h : r.goesOn = false) :
    r.exit = none ↔ r.deadline = none ∧ r.er = some .eof ∧ r.complete = true := by
  rw [Round.exit]
  cases hdeadline : r.deadline with
  | some err => simp
  | none =>
    have hstop := not_and.mp (Round.stops_of_deadline h hdeadline)
    rw [Round.complete_iff]
    by_cases hdata : r.data = []
    · have her := hstop (.inl hdata)
      by_cases heof : r.er = some .eof
      · simp [hdata, heof]
      · simp [hdata, heof, her]
    · simp only [hdata, ne_eq, not_false_eq_true, true_and, false_or]
      cases hew : r.ew with
      | some ew => simp
      | none =>
        by_cases hnw : (r.data.length : Int) = r.nw
        · have her := hstop (.inr ⟨hew, hnw⟩)
          by_cases heof : r.er = some .eof
          · simp [hnw, heof]
          · simp [hnw, heof, her]
        · simp [hnw]

/-- Before the last round every write is complete. -/
theorem endsWell_iff {rounds : List Round} {r : Round}
    (hr : rounds.find? (fun r ↦ !r.goesOn) = some r) :
    EndsWell rounds ↔ r.deadline = none ∧ r.er = some .eof ∧ r.complete = true := by
  have hbefore : ∀ r' ∈ rounds.takeWhile Round.goesOn, r'.complete = true := by
    intro r' hr'
    have hgo : r'.goesOn = true := List.mem_takeWhile_imp hr'
    exact (of_decide_eq_true hgo).2.1
  rw [EndsWell, turns, hr]
  constructor
  · rintro ⟨⟨r', hr', hdeadline, heof⟩, hcomplete⟩
    obtain rfl := Option.some.inj hr'
    exact ⟨hdeadline, heof, hcomplete r (by simp)⟩
  · rintro ⟨hdeadline, heof, hcomplete⟩
    refine ⟨⟨r, rfl, hdeadline, heof⟩, fun r' hr' ↦ ?_⟩
    obtain hr' | hr' := List.mem_append.mp hr'
    · exact hbefore r' hr'
    · obtain rfl := List.mem_singleton.mp hr'
      exact hcomplete

/-- An `int64` has the sum exactly if that is below `2 ^ 63`. -/
theorem toInt_ofNat_iff {n : Nat} : (Int64.ofNat n).toInt = n ↔ n < 2 ^ 63 := by
  constructor
  · intro h
    have := (Int64.ofNat n).toInt_lt
    omega
  · exact Int64.toInt_ofNat_of_lt

/-- **The accounts of the copy loop.**  Whatever the calls return, a call of `copyConnTimeout` with
a buffer that is not empty returns with the first round that does not go on.  Its accounts are
right exactly if `SetReadDeadline` does not fail after `dst` accepted something, and the sum is
one of an `int64`. -/
theorem copy_accounts_iff {buf : Option Nat} (hbuf : buf ≠ some 0) {rounds : List Round}
    (hstop : ∃ r ∈ rounds, r.goesOn = false) :
    ∃ offered written err, copyConnTimeout buf rounds = .returned offered written err ∧
      (Accounts rounds offered written err ↔ Counted rounds) := by
  obtain ⟨r, hr⟩ : ∃ r, rounds.find? (fun r ↦ !r.goesOn) = some r := by
    obtain ⟨r, hmem, hgo⟩ := hstop
    exact Option.isSome_iff_exists.mp (List.find?_isSome.mpr ⟨r, hmem, by simp [hgo]⟩)
  have hgo : r.goesOn = false := by simpa using List.find?_some hr
  refine ⟨_, _, _, by rw [copyConnTimeout, if_neg hbuf]; exact copyLoop_eq hr [] 0, ?_⟩
  have herr : r.exit = none ↔ EndsWell rounds :=
    (Round.exit_eq_none_iff hgo).trans (endsWell_iff hr).symm
  have hcounted : Counted rounds ↔
      if r.deadline = none then acceptedSum rounds < 2 ^ 63 else acceptedSum rounds = 0 := by
    simp [Counted, hr]
  have hsum : (if r.deadline = none then 0 + Int64.ofNat (acceptedSum rounds) else 0).toInt =
      acceptedSum rounds ↔ Counted rounds := by
    rw [hcounted, Int64.zero_add]
    split
    · exact toInt_ofNat_iff
    · show (0 : Int) = _ ↔ _
      omega
  exact ⟨fun h ↦ hsum.mp h.written_eq, fun h ↦ ⟨rfl, hsum.mpr h, herr⟩⟩

/-- Three bytes are copied, the end comes with two more, and nothing fails. -/
theorem copy_accounts_eof : let rounds : List Round :=
      [⟨none, [1, 2, 3], none, ⟨3, none⟩⟩, ⟨none, [4, 5], some .eof, ⟨2, none⟩⟩]
    ∃ offered written err, copyConnTimeout (some 8) rounds = .returned offered written err ∧
      Accounts rounds offered written err := by
  intro rounds
  obtain ⟨offered, written, err, hret, h⟩ := @copy_accounts_iff (some 8) (by decide) rounds
    ⟨_, List.mem_cons_of_mem _ List.mem_cons_self, by decide⟩
  refine ⟨offered, written, err, hret, h.mpr fun r hr ↦ ?_⟩
  cases hr
  decide

/-- Three bytes are copied, and then `SetReadDeadline` fails: the count is 0. -/
theorem copy_loses_count : let rounds : List Round :=
      [⟨none, [1, 2, 3], none, ⟨3, none⟩⟩,
        ⟨some (.text (str "use of closed network connection")), [], none, ⟨0, none⟩⟩]
    copyConnTimeout (some 8) rounds =
        .returned [1, 2, 3] 0 (some (.text (str "use of closed network connection"))) ∧
      acceptedSum rounds = 3 :=
  ⟨rfl, rfl⟩

end Vwarp.Wiresocks
