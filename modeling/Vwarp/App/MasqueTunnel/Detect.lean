import Vwarp.App.MasqueTunnel.Recovery

/-!
# When a forwarder declares the connection broken

Each forwarder counts the errors of its adapter calls and sets `connectionBroken` when a call has
failed with a connection error and the count is three or more.  The rule it stands for is about the
last three calls on the current adapter: all of them failed with connection errors.

A `Watch` puts beside the state of the goroutines what the rule is about: the outcomes of all calls
of one forwarder, and of those on the adapter that is current.  The counter of the source is the
number of failures since the last success (`Watch.Tracks`), whatever their kind and on whichever
adapter, so the two differ when

* one of the last three failures was no connection error, or was on an adapter that has since been
  replaced: the flag is set although the rule does not ask for it;
* the last failure is a connection error that `isConnectionError` does not recognise, since it looks
  for `EOF` in a message in lower case: the flag is not set although the rule asks for it.

`detects_iff` says that there is no other difference, in any state that any interleaving reaches.
-/

namespace Vwarp.App.MasqueTunnel

open Vwarp.Go Vwarp.Lib

/-! ## The last three of a history -/

/-- The last three of a history, newest first, have the property. -/
def LastThree {α : Type} (p : α → Prop) (history : List α) : Prop :=
  3 ≤ history.length ∧ ∀ x ∈ history.take 3, p x

section LastThree

variable {α : Type} {p q : α → Prop} {history : List α}

instance [DecidablePred p] : Decidable (LastThree p history) := inferInstanceAs (Decidable (_ ∧ _))

theorem LastThree.imp (h : LastThree p history) (hpq : ∀ x, p x → q x) : LastThree q history :=
  ⟨h.1, fun x hx ↦ hpq x (h.2 x hx)⟩

theorem LastThree.of_front {part : List α} (h : LastThree p part) (hpart : part <+: history) :
    LastThree p history := by
  obtain ⟨older, rfl⟩ := hpart
  refine ⟨?_, ?_⟩
  · rw [List.length_append]
    exact Nat.le_add_right_of_le h.1
  · rw [List.take_append_of_le_length h.1]
    exact h.2

theorem le_length_takeWhile_iff {b : α → Bool} (n : Nat) (history : List α) :
    n ≤ (history.takeWhile b).length ↔
      n ≤ history.length ∧ ∀ x ∈ history.take n, b x = true := by
  induction history generalizing n with
  | nil => simp
  | cons x history ih =>
    cases n with
    | zero => simp
    | succ n =>
      rw [List.takeWhile_cons]
      split_ifs with hx
      · simp only [List.length_cons, Nat.add_le_add_iff_right, ih, List.take_succ_cons,
          List.forall_mem_cons, hx, true_and]
      · simp [hx]

end LastThree

/-! ## Connection errors -/

/-- The message has one of the listed texts in it, in whatever case. -/
def mentionsConnection (msg : Bytes) : Bool :=
  (connectionErrors ++ androidErrors).any fun pattern ↦ contains (toLower msg) (toLower pattern)

/-- The outcome of a call: its error, if it failed. -/
abbrev Outcome := Option Bytes

def ConnectionError (o : Outcome) : Prop := o.any mentionsConnection = true

instance : DecidablePred ConnectionError := fun _ ↦ inferInstanceAs (Decidable (_ = true))

/-- The outcome of a step that calls the adapter. -/
def outcome : Except Bytes Nat → Outcome
  | .error msg => some msg
  | .ok _ => none

/-! ## The forwarders -/

inductive Forwarder
  | writer | reader
deriving DecidableEq, Repr

inductive Phase
  | acquire | operation | check | store | other
deriving DecidableEq, Repr

def Forwarder.goroutine : Forwarder → Goroutine
  | .writer => .writer
  | .reader => .reader

/-- What the forwarder is about to do: copy the adapter, call it, test its counter, set the flag. -/
def Forwarder.phase (s : State) : Forwarder → Phase
  | .writer =>
    match s.writer.pc with
    | .rlock => .acquire
    | .writeWithICMP => .operation
    | .check => .check
    | .storeBroken => .store
    | _ => .other
  | .reader =>
    match s.reader.pc with
    | .rlock => .acquire
    | .read => .operation
    | .check => .check
    | .storeBroken => .store
    | _ => .other

/-- The counter of a forwarder: `writeErrors` or `consecutiveErrors`. -/
def Forwarder.errors (s : State) : Forwarder → Nat
  | .writer => s.writer.writeErrors
  | .reader => s.reader.consecutiveErrors

def count (n : Nat) (o : Outcome) : Nat := if o.isSome then n + 1 else 0

/-- What a step of the forwarder itself does to its counter and its phase. -/
inductive Forwarder.Moves (f : Forwarder) (s : State) (e : Env) (t : State) : Prop
  | operation (before : f.phase s = .operation) (after : f.phase t ≠ .store)
      (counter : f.errors t = count (f.errors s) (outcome e.res))
  | check (before : f.phase s = .check)
      (after : f.phase t = .store ↔ 3 ≤ f.errors s ∧ s.connectionBroken = false)
      (counter : f.errors t = f.errors s)
  | quiet (notOperation : f.phase s ≠ .operation) (notCheck : f.phase s ≠ .check)
      (counter : f.errors t = f.errors s)

variable {s t : State} {e : Env}

theorem stepWriter_moves (h : stepWriter e s = some t) : Forwarder.writer.Moves s e t := by
  cases hpc : s.writer.pc with
  | writeWithICMP =>
    have hphase : Forwarder.writer.phase s = .operation := by rw [Forwarder.phase, hpc]
    simp only [stepWriter, hpc] at h
    (repeat' split at h) <;> cases h
    all_goals exact .operation hphase (fun h ↦ by cases h) (by rw [‹e.res = _›]; rfl)
  | check =>
    have hphase : Forwarder.writer.phase s = .check := by rw [Forwarder.phase, hpc]
    simp only [stepWriter, hpc, Bool.not_eq_true] at h
    split_ifs at h with hbreaks <;> cases h
    · exact .check hphase (iff_of_true rfl hbreaks) rfl
    · exact .check hphase (iff_of_false (fun h ↦ by cases h) hbreaks) rfl
  | _ =>
    simp only [stepWriter, hpc] at h
    (repeat' split at h) <;> cases h
    all_goals exact .quiet (by simp [Forwarder.phase, hpc]) (by simp [Forwarder.phase, hpc]) rfl

theorem stepReader_moves (h : stepReader e s = some t) : Forwarder.reader.Moves s e t := by
  cases hpc : s.reader.pc with
  | read =>
    have hphase : Forwarder.reader.phase s = .operation := by rw [Forwarder.phase, hpc]
    simp only [stepReader, hpc] at h
    (repeat' split at h) <;> cases h
    all_goals exact .operation hphase (fun h ↦ by cases h) (by rw [‹e.res = _›]; rfl)
  | check =>
    have hphase : Forwarder.reader.phase s = .check := by rw [Forwarder.phase, hpc]
    simp only [stepReader, hpc, Bool.not_eq_true] at h
    split_ifs at h with hbreaks <;> cases h
    · exact .check hphase (iff_of_true rfl hbreaks) rfl
    · exact .check hphase (iff_of_false (fun h ↦ by cases h) hbreaks) rfl
  | _ =>
    simp only [stepReader, hpc] at h
    (repeat' split at h) <;> cases h
    all_goals exact .quiet (by simp [Forwarder.phase, hpc]) (by simp [Forwarder.phase, hpc]) rfl

/-- A step of a goroutine is a move of the forwarder, or leaves its counter and its phase alone. -/
theorem next_moves (f : Forwarder) {a : Goroutine × Env} (h : next s a = some t) :
    if a.1 = f.goroutine then f.Moves s a.2 t
    else f.errors t = f.errors s ∧ f.phase t = f.phase s := by
  have hframe (hw : t.writer = s.writer) (hr : t.reader = s.reader) :
      f.errors t = f.errors s ∧ f.phase t = f.phase s := by
    cases f with
    | writer => simp only [Forwarder.errors, Forwarder.phase, hw, and_self]
    | reader => simp only [Forwarder.errors, Forwarder.phase, hr, and_self]
  obtain ⟨g, e⟩ := a
  cases g with
  | writer =>
    have hreader := (partyStep .writer h).reader nofun
    cases f with
    | writer => exact stepWriter_moves h
    | reader =>
      exact ⟨congrArg Reader.consecutiveErrors hreader,
        by simp only [Forwarder.phase, hreader]⟩
  | reader =>
    have hwriter := (partyStep .reader h).writer nofun
    cases f with
    | writer =>
      exact ⟨congrArg Writer.writeErrors hwriter, by simp only [Forwarder.phase, hwriter]⟩
    | reader => exact stepReader_moves h
  | health =>
    rw [if_neg (by cases f <;> exact nofun)]
    rcases stepHealth_cases h with ⟨g, rfl, -⟩ | ⟨g, rfl, -⟩
    all_goals exact hframe rfl rfl
  | failure =>
    rw [if_neg (by cases f <;> exact nofun)]
    have hstep := partyStep .failure h
    exact hframe (hstep.writer nofun) (hstep.reader nofun)
  | recovery =>
    rw [if_neg (by cases f <;> exact nofun)]
    obtain ⟨-, hw, hr, -⟩ := stepRecovery_recovers h
    exact hframe hw hr

/-! ## A forwarder that is watched -/

/-- The goroutines, and the calls of one forwarder, newest first. -/
structure Watch where
  tunnel : State
  /-- The forwarder has copied the adapter that is still current. -/
  holdsCurrent : Bool
  calls : List Outcome
  current : List Outcome
deriving DecidableEq, Repr

def replaces (s : State) (a : Goroutine × Env) : Bool :=
  a.1 = .recovery && s.recovery.pc = .factory && (outcome a.2.res).isNone

def Watch.record (f : Forwarder) (w : Watch) (a : Goroutine × Env) (t : State) : Watch :=
  if replaces w.tunnel a then { w with tunnel := t, holdsCurrent := false, current := [] }
  else if a.1 = f.goroutine then
    match f.phase w.tunnel with
    | .acquire => { w with tunnel := t, holdsCurrent := true }
    | .operation =>
      { w with
        tunnel := t
        calls := outcome a.2.res :: w.calls
        current := if w.holdsCurrent then outcome a.2.res :: w.current else w.current }
    | _ => { w with tunnel := t }
  else { w with tunnel := t }

/-- `maintainMasqueTunnel` with a forwarder that is watched. -/
def watched (f : Forwarder) : Machine Watch (Goroutine × Env) where
  start w := machine.start w.tunnel ∧ w.holdsCurrent = false ∧ w.calls = [] ∧ w.current = []
  next w a := (next w.tunnel a).map (w.record f a)

variable {f : Forwarder} {w w' : Watch} {a : Goroutine × Env}

@[simp]
theorem Watch.record_tunnel (f : Forwarder) (w : Watch) (a : Goroutine × Env) (t : State) :
    (w.record f a t).tunnel = t := by
  unfold Watch.record
  (repeat' split) <;> rfl

theorem next_of_watched (h : (watched f).next w a = some w') :
    next w.tunnel a = some w'.tunnel ∧ w' = w.record f a w'.tunnel := by
  obtain ⟨t, ht, rfl⟩ := Option.map_eq_some_iff.mp h
  rw [Watch.record_tunnel]
  exact ⟨ht, rfl⟩

/-- The counter is the number of failures since the last success, and the calls on the current
adapter are the newest of all. -/
structure Watch.Tracks (f : Forwarder) (w : Watch) : Prop where
  counter : f.errors w.tunnel = (w.calls.takeWhile Option.isSome).length
  current : w.current <+: w.calls
  stale : w.holdsCurrent = false → w.current = []

theorem count_takeWhile (o : Outcome) (calls : List Outcome) :
    count (calls.takeWhile Option.isSome).length o =
      ((o :: calls).takeWhile Option.isSome).length := by
  cases o <;> rfl

theorem Forwarder.Moves.counter_of_ne (h : f.Moves s e t) (hne : f.phase s ≠ .operation) :
    f.errors t = f.errors s := by
  cases h with
  | operation before _ _ => exact absurd before hne
  | check _ _ counter => exact counter
  | quiet _ _ counter => exact counter

theorem Forwarder.Moves.of_operation (h : f.Moves s e t) (hphase : f.phase s = .operation) :
    f.phase t ≠ .store ∧ f.errors t = count (f.errors s) (outcome e.res) := by
  cases h with
  | operation _ after counter => exact ⟨after, counter⟩
  | check before _ _ => exact absurd (before.symm.trans hphase) nofun
  | quiet notOperation _ _ => exact absurd hphase notOperation

theorem Forwarder.Moves.of_check (h : f.Moves s e t) (hphase : f.phase s = .check) :
    f.phase t = .store ↔ 3 ≤ f.errors s ∧ s.connectionBroken = false := by
  cases h with
  | operation before _ _ => exact absurd (before.symm.trans hphase) nofun
  | check _ after _ => exact after
  | quiet _ notCheck _ => exact absurd hphase notCheck

theorem not_own_of_replaces (h : replaces s a = true) : a.1 ≠ f.goroutine := by
  simp only [replaces, Bool.and_eq_true, decide_eq_true_eq] at h
  rw [h.1.1]
  cases f <;> exact nofun

theorem Watch.Tracks.step (h : w.Tracks f) (hnext : (watched f).next w a = some w') :
    w'.Tracks f := by
  obtain ⟨hstep, hrecord⟩ := next_of_watched hnext
  have hmoves := next_moves f hstep
  generalize w'.tunnel = t at hstep hrecord hmoves
  subst hrecord
  unfold Watch.record
  split
  · rename_i hreplaces
    rw [if_neg (not_own_of_replaces hreplaces)] at hmoves
    exact ⟨hmoves.1.trans h.counter, List.nil_prefix, fun _ ↦ rfl⟩
  · split
    · rename_i hown
      rw [if_pos hown] at hmoves
      split
      · rename_i hphase
        have hcounter := hmoves.counter_of_ne (by rw [hphase]; exact nofun)
        exact ⟨hcounter.trans h.counter, h.current, nofun⟩
      · rename_i hphase
        have hcounter := (hmoves.of_operation hphase).2
        rw [h.counter, count_takeWhile] at hcounter
        refine ⟨hcounter, ?_, ?_⟩
        · dsimp only
          split_ifs with hstale
          · exact List.prefix_cons_inj _ |>.mpr h.current
          · rw [h.stale (Bool.eq_false_iff.mpr hstale)]
            exact List.nil_prefix
        · intro hstale
          dsimp only at hstale ⊢
          rw [hstale]
          exact h.stale hstale
      · rename_i hphase
        exact ⟨(hmoves.counter_of_ne hphase).trans h.counter, h.current, h.stale⟩
    · rename_i hother
      rw [if_neg hother] at hmoves
      exact ⟨hmoves.1.trans h.counter, h.current, h.stale⟩

theorem tracks_of_reach (h : (watched f).Reachable w) : w.Tracks f := by
  refine h.invariant (I := Watch.Tracks f) ?_ ?_
  · rintro w ⟨⟨now, globalFailures, globalReset, adapter, hstart⟩, -, hcalls, hcurrent⟩
    refine ⟨?_, ?_, fun _ ↦ hcurrent⟩
    · rw [hstart, hcalls]
      cases f <;> rfl
    · rw [hcurrent]
      exact List.nil_prefix
  · intro w a w' hw _ hnext
    exact hw.step hnext

/-! ## The rule -/

/-- The last three calls on the current adapter failed with connection errors. -/
def Watch.Broken (w : Watch) : Prop := LastThree ConnectionError w.current

/-- With this step the forwarder has handled a call: it tests its counter, or the call did not fail
with an error that it recognises. -/
def Decides (f : Forwarder) (w : Watch) (a : Goroutine × Env) : Prop :=
  a.1 = f.goroutine ∧ (f.phase w.tunnel = .check ∨
    f.phase w.tunnel = .operation ∧ isConnectionError (outcome a.2.res) = false)

/-- The forwarder goes on to set the flag exactly if the rule asks for it and it is not set. -/
def Detects (f : Forwarder) (w w' : Watch) : Prop :=
  f.phase w'.tunnel = .store ↔ w'.Broken ∧ w.tunnel.connectionBroken = false

instance (w : Watch) : Decidable w.Broken := inferInstanceAs (Decidable (LastThree _ _))

instance (f : Forwarder) (w : Watch) (a : Goroutine × Env) : Decidable (Decides f w a) :=
  inferInstanceAs (Decidable (_ ∧ _))

instance (f : Forwarder) (w w' : Watch) : Decidable (Detects f w w') :=
  inferInstanceAs (Decidable (_ ↔ _))

/-- What the counter and the classification of errors rely on. -/
structure Regular (f : Forwarder) (w : Watch) (a : Goroutine × Env) : Prop where
  /-- If the last three calls failed, they failed with connection errors on the current adapter. -/
  counted : f.phase w.tunnel = .check → LastThree (Option.isSome · = true) w.calls → w.Broken
  /-- A call whose error is not recognised is not the third connection error on the current
  adapter. -/
  recognised : f.phase w.tunnel = .operation → w.holdsCurrent = true →
    ¬ LastThree ConnectionError (outcome a.2.res :: w.current)

/-- In every state of every run, a forwarder that has handled a call follows the rule exactly if the
flag is set already, or its calls were regular. -/
theorem detects_iff (hreach : (watched f).Reachable w) (hnext : (watched f).next w a = some w')
    (hdecides : Decides f w a) :
    Detects f w w' ↔ (w.tunnel.connectionBroken = false → Regular f w a) := by
  have htracks := tracks_of_reach hreach
  obtain ⟨hown, hphase⟩ := hdecides
  obtain ⟨hstep, hrecord⟩ := next_of_watched hnext
  have hmoves := next_moves f hstep
  rw [if_pos hown] at hmoves
  have hnot : replaces w.tunnel a = false :=
    Bool.eq_false_iff.mpr fun hreplaces ↦ not_own_of_replaces hreplaces hown
  rw [Watch.record, hnot, if_neg Bool.false_ne_true, if_pos hown] at hrecord
  unfold Detects
  rcases hphase with hphase | ⟨hphase, -⟩
  · -- the test of the counter
    rw [hphase] at hrecord
    have hcurrent : w'.current = w.current := by rw [hrecord]
    have hcounter : 3 ≤ f.errors w.tunnel ↔ LastThree (Option.isSome · = true) w.calls := by
      rw [htracks.counter]
      exact le_length_takeWhile_iff 3 w.calls
    have hfailed : w.Broken → LastThree (Option.isSome · = true) w.calls := by
      intro hbroken
      refine (hbroken.imp ?_).of_front htracks.current
      rintro (_ | msg) herr
      · cases herr
      · rfl
    rw [hmoves.of_check hphase, hcounter, Watch.Broken, hcurrent, ← Watch.Broken]
    constructor
    · intro hiff hflag
      refine ⟨fun _ hthree ↦ (hiff.mp ⟨hthree, hflag⟩).1, fun hop ↦ ?_⟩
      rw [hphase] at hop
      cases hop
    · intro hregular
      constructor
      · rintro ⟨hthree, hflag⟩
        exact ⟨(hregular hflag).counted hphase hthree, hflag⟩
      · rintro ⟨hbroken, hflag⟩
        exact ⟨hfailed hbroken, hflag⟩
  · -- a call that is not followed by a test
    rw [hphase] at hrecord
    have hstore := (hmoves.of_operation hphase).1
    have hcurrent : w'.Broken ↔
        w.holdsCurrent = true ∧ LastThree ConnectionError (outcome a.2.res :: w.current) := by
      rw [hrecord, Watch.Broken]
      dsimp only
      split_ifs with hholds
      · exact (and_iff_right hholds).symm
      · rw [htracks.stale (Bool.eq_false_iff.mpr hholds)]
        exact ⟨fun hthree ↦ absurd hthree.1 (by decide), fun hboth ↦ absurd hboth.1 hholds⟩
    rw [hcurrent]
    constructor
    · intro hiff hflag
      refine ⟨fun hcheck ↦ ?_, fun _ hholds hthree ↦ hstore (hiff.mpr ⟨⟨hholds, hthree⟩, hflag⟩)⟩
      rw [hphase] at hcheck
      cases hcheck
    · intro hregular
      refine ⟨fun h ↦ absurd h hstore, ?_⟩
      rintro ⟨⟨hholds, hthree⟩, hflag⟩
      exact absurd hthree ((hregular hflag).recognised hphase hholds)

def Watch.init : Watch := ⟨start 0 0 0 0, false, [], []⟩

def fails (msg : String) : Env := ⟨0, .error (str msg)⟩

/-- The write forwarder reads a packet and copies the adapter. -/
def reachCall : List (Goroutine × Env) := List.replicate 3 (.writer, succeeds)

/-- The write forwarder has an error that it does not recognise, and pauses. -/
def unrecognised (msg : String) : List (Goroutine × Env) :=
  reachCall ++ [(.writer, fails msg), (.writer, succeeds)]

/-- The write forwarder has a broken pipe, up to the test of its counter. -/
def reachCheck : List (Goroutine × Env) :=
  reachCall ++ [(.writer, brokenPipe), (.writer, succeeds), (.writer, succeeds)]

/-- After these labels, the step of the write forwarder ends the handling of a call. -/
def HandledBy (labels : List (Goroutine × Env)) (e : Env) (w w' : Watch) : Prop :=
  (watched .writer).run .init labels = some w ∧ (watched .writer).next w (.writer, e) = some w' ∧
    Decides .writer w (.writer, e)

theorem reachable_of_handledBy {labels : List (Goroutine × Env)} (h : HandledBy labels e w w') :
    (watched .writer).Reachable w := by
  have hinit : (watched .writer).Reachable .init := .start ⟨⟨0, 0, 0, 0, rfl⟩, rfl, rfl, rfl⟩
  exact hinit.of_run (fun _ _ _ ↦ trivial) h.1

/-- Three broken pipes in a row are regular, and are detected. -/
theorem broken_pipes_detected : ∃ w w', (watched .writer).Reachable w ∧
    (watched .writer).next w (.writer, succeeds) = some w' ∧ w.Broken ∧ Detects .writer w w' := by
  obtain ⟨w, w', hhandled, hbroken, hphase⟩ : ∃ w w',
      HandledBy (failedWrite ++ failedWrite ++ reachCheck) succeeds w w' ∧ w.Broken ∧
        Forwarder.writer.phase w.tunnel = .check :=
    ⟨_, _, ⟨rfl, rfl, by decide⟩, by decide, by decide⟩
  have hreach := reachable_of_handledBy hhandled
  obtain ⟨-, hnext, hdecides⟩ := hhandled
  refine ⟨w, w', hreach, hnext, hbroken, (detects_iff hreach hnext hdecides).mpr fun _ ↦ ?_⟩
  refine ⟨fun _ _ ↦ hbroken, fun hop ↦ ?_⟩
  rw [hphase] at hop
  cases hop

/-- Three calls that fail with `EOF` go unnoticed; and one broken pipe sets the flag behind two
errors of another kind, or behind three broken pipes of an adapter that was replaced. -/
theorem detection_fails :
    (∃ w w' e, (watched .writer).Reachable w ∧ (watched .writer).next w (.writer, e) = some w' ∧
      Decides .writer w (.writer, e) ∧ w'.Broken ∧ ¬ Detects .writer w w') ∧
    (∃ w w' e, (watched .writer).Reachable w ∧ (watched .writer).next w (.writer, e) = some w' ∧
      Decides .writer w (.writer, e) ∧ ¬ w'.Broken ∧ ¬ Detects .writer w w') ∧
    ∃ w w' e, (watched .writer).Reachable w ∧ (watched .writer).next w (.writer, e) = some w' ∧
      Decides .writer w (.writer, e) ∧ w'.current.length = 1 ∧ ¬ Detects .writer w w' := by
  obtain ⟨w₁, w₁', h₁, hthree, hmissed⟩ : ∃ w w',
      HandledBy (unrecognised "EOF" ++ unrecognised "EOF" ++ reachCall) (fails "EOF") w w' ∧
        w'.Broken ∧ ¬ Detects .writer w w' :=
    ⟨_, _, ⟨rfl, rfl, by decide⟩, by decide, by decide⟩
  obtain ⟨w₂, w₂', h₂, hother, hset⟩ : ∃ w w',
      HandledBy (unrecognised "message too large" ++ unrecognised "message too large" ++ reachCheck)
        succeeds w w' ∧ ¬ w'.Broken ∧ ¬ Detects .writer w w' :=
    ⟨_, _, ⟨rfl, rfl, by decide⟩, by decide, by decide⟩
  obtain ⟨w₃, w₃', h₃, hone, hagain⟩ : ∃ w w',
      HandledBy (breakConnection ++ reconnect ++ reachCheck) succeeds w w' ∧
        w'.current.length = 1 ∧ ¬ Detects .writer w w' :=
    ⟨_, _, ⟨rfl, rfl, by decide⟩, by decide, by decide⟩
  exact ⟨⟨w₁, w₁', _, reachable_of_handledBy h₁, h₁.2.1, h₁.2.2, hthree, hmissed⟩,
    ⟨w₂, w₂', _, reachable_of_handledBy h₂, h₂.2.1, h₂.2.2, hother, hset⟩,
    ⟨w₃, w₃', _, reachable_of_handledBy h₃, h₃.2.1, h₃.2.2, hone, hagain⟩⟩

end Vwarp.App.MasqueTunnel
