import Vwarp.Lib.Channel
import Vwarp.Lib.Machine
import Vwarp.Lib.Pool
import Vwarp.Masque.Scanner.Candidates

/-!
# Shutting the MASQUE scanner down

`Scan` starts workers, a goroutine that feeds them and one that closes the results when they are
done, and collects the results itself.  All of them leave early when `stopChan` is closed or the
context is cancelled.  Two places close `stopChan`: `Stop`, once, by an atomic flag, and `Scan`,
once, by a local variable, when `EarlyExit` is set and an endpoint works.

Neither looks at the guard of the other.  `scan_shutdown_iff`: as long as not both happen, no
channel is closed twice or sent on after it was closed, and `Scan` is never stuck; a step after
which both have happened leads to a state in which the closes that are under way panic.  What
`testEndpoint` returns, and in which order the goroutines move, is left open.
-/

namespace Vwarp.Masque.Scanner

open Vwarp.Lib

universe u

/-- `ScanResult`, as far as the collector looks at it. -/
structure ScanResult (ε : Type u) where
  endpoint : ε
  success : Bool
deriving DecidableEq

/-- Where a worker is: at its first `select`, in `testEndpoint`, at its second `select`, or past its
return. -/
inductive WorkerPc (ε : Type u)
  | select
  | test (endpoint : ε)
  | send (result : ScanResult ε)
  | done
deriving DecidableEq

/-- Where `Scan` itself is: at the receive of its loop, before `close(s.stopChan)`, or past its
return. -/
inductive ScanPc
  | receive
  | exit
  | returned
deriving DecidableEq

/-- A scanner with one call of `Scan` and any number of calls of `Stop`. -/
structure State (ε : Type u) where
  /-- The candidates that the feeder still has before it. -/
  candidates : List ε
  jobs : Chan ε
  /-- The feeder has ended, or was not started. -/
  fed : Bool
  workers : List (WorkerPc ε)
  results : Chan (ScanResult ε)
  /-- The goroutine that waits for the workers has ended, or was not started. -/
  joined : Bool
  scan : ScanPc
  foundWorking : Bool
  stopChan : Chan Unit
  /-- How often `stopChan` was closed. -/
  closes : Nat
  stopped : Bool
  /-- The calls of `Stop` between `Swap` and `close`. -/
  stopping : Nat
  cancelled : Bool
  /-- A closed channel was closed or sent on, which ends the process. -/
  fault : Bool

inductive Act
  | feed
  | /-- The feeder is told to stop, and goes on with the next candidate: the `break` leaves the
    `select` only. -/
    skip
  | closeJobs
  | /-- A worker receives a candidate, or finds the channel closed. -/
    recv (i : Nat)
  | /-- `testEndpoint` returns. -/
    test (i : Nat) (success : Bool)
  | send (i : Nat)
  | quit (i : Nat)
  | /-- All workers are done, and the results are closed. -/
    join
  | /-- The loop of `Scan` receives a result, or ends. -/
    collect
  | /-- `Scan` closes `stopChan`. -/
    exit
  | /-- `Stop` sets its flag. -/
    stop
  | /-- `Stop` closes `stopChan`. -/
    closeStop
  | cancel
deriving DecidableEq

namespace State

variable {ε : Type u}

def told (s : State ε) : Bool := s.stopChan.closed || s.cancelled

/-- The state after `close(s.stopChan)`. -/
def closeStopChan (s : State ε) : State ε :=
  { s with stopChan := s.stopChan.close.1, fault := s.stopChan.close.2, closes := s.closes + 1 }

/-- The result makes `Scan` close `stopChan`. -/
def exits (cfg : ScannerConfig) (s : State ε) (result : ScanResult ε) : Bool :=
  result.success && cfg.earlyExit && !s.foundWorking

/-- A step.  `total` is the number of candidates, for which `jobs` has room. -/
def next (cfg : ScannerConfig) (total : Nat) (s : State ε) (a : Act) : Option (State ε) :=
  if s.fault then none
  else
    match a with
    | .feed =>
      match s.candidates with
      | [] => none
      | c :: cs =>
        (s.jobs.send total c).map fun (jobs, fault) ↦
          { s with candidates := cs, jobs := jobs, fault := fault }
    | .skip =>
      match s.candidates with
      | [] => none
      | _ :: cs => if s.told then some { s with candidates := cs } else none
    | .closeJobs =>
      if s.candidates = [] ∧ s.fed = false then
        some { s with jobs := s.jobs.close.1, fault := s.jobs.close.2, fed := true }
      else none
    | .recv i =>
      match s.workers[i]? with
      | some .select =>
        s.jobs.recv.map fun (endpoint, jobs) ↦
          { s with
            jobs := jobs
            workers := s.workers.set i (endpoint.elim .done .test) }
      | _ => none
    | .test i success =>
      match s.workers[i]? with
      | some (.test endpoint) =>
        some { s with workers := s.workers.set i (.send ⟨endpoint, success⟩) }
      | _ => none
    | .send i =>
      match s.workers[i]? with
      | some (.send result) =>
        (s.results.send cfg.workers.toNat result).map fun (results, fault) ↦
          { s with
            results := results
            fault := fault
            workers := s.workers.set i .select }
      | _ => none
    | .quit i =>
      match s.workers[i]? with
      | some .select | some (.send _) =>
        if s.told then some { s with workers := s.workers.set i .done } else none
      | _ => none
    | .join =>
      if (∀ w ∈ s.workers, w matches .done) ∧ s.joined = false then
        some { s with results := s.results.close.1, fault := s.results.close.2, joined := true }
      else none
    | .collect =>
      if s.scan = .receive then
        s.results.recv.map fun (result, results) ↦
          match result with
          | none => { s with scan := .returned, results := results }
          | some result =>
            if s.exits cfg result then
              { s with results := results, foundWorking := true, scan := .exit }
            else { s with results := results }
      else none
    | .exit => if s.scan = .exit then some { s.closeStopChan with scan := .receive } else none
    | .stop =>
      if s.stopped then some s
      else some { s with stopped := true, stopping := s.stopping + 1 }
    | .closeStop =>
      match s.stopping with
      | 0 => none
      | stopping + 1 => some { s.closeStopChan with stopping := stopping }
    | .cancel => some { s with cancelled := true }

/-- A new scanner, on which `Scan` is called.  Without candidates it returns at once. -/
def init (cfg : ScannerConfig) (candidates : List ε) : State ε where
  candidates := candidates
  jobs := .make
  fed := candidates = []
  workers := if candidates = [] then [] else List.replicate cfg.workers.toNat .select
  results := .make
  joined := candidates = []
  scan := if candidates = [] then .returned else .receive
  foundWorking := false
  stopChan := .make
  closes := 0
  stopped := false
  stopping := 0
  cancelled := false
  fault := false

end State

def scanner {ε : Type u} (cfg : ScannerConfig) (candidates : List ε) : Machine (State ε) Act where
  start s := s = .init cfg candidates
  next := State.next cfg candidates.length

/-! ## What a step can do -/

section Steps

variable {ε : Type u} {cfg : ScannerConfig} {total : Nat} {s t : State ε} {a : Act}

/-- What a step of a process that has not panicked can do. -/
inductive Step (cfg : ScannerConfig) (total : Nat) (s : State ε) : Act → State ε → Prop
  | feed {c cs jobs fault} : s.candidates = c :: cs →
      s.jobs.send total c = some (jobs, fault) →
      Step cfg total s .feed { s with candidates := cs, jobs := jobs, fault := fault }
  | skip {c cs} : s.candidates = c :: cs → s.told = true →
      Step cfg total s .skip { s with candidates := cs }
  | closeJobs : s.candidates = [] → s.fed = false →
      Step cfg total s .closeJobs
        { s with jobs := s.jobs.close.1, fault := s.jobs.close.2, fed := true }
  | recv {i endpoint jobs} : s.workers[i]? = some .select →
      s.jobs.recv = some (endpoint, jobs) →
      Step cfg total s (.recv i)
        { s with jobs := jobs, workers := s.workers.set i (endpoint.elim .done .test) }
  | test {i endpoint success} : s.workers[i]? = some (.test endpoint) →
      Step cfg total s (.test i success)
        { s with workers := s.workers.set i (.send ⟨endpoint, success⟩) }
  | send {i result results fault} :
      s.workers[i]? = some (.send result) →
      s.results.send cfg.workers.toNat result = some (results, fault) →
      Step cfg total s (.send i)
        { s with results := results, fault := fault, workers := s.workers.set i .select }
  | quit {i w} : s.workers[i]? = some w → w ≠ .done → s.told = true →
      Step cfg total s (.quit i) { s with workers := s.workers.set i .done }
  | join : (∀ w ∈ s.workers, w = .done) → s.joined = false →
      Step cfg total s .join
        { s with results := s.results.close.1, fault := s.results.close.2, joined := true }
  | collect {result results} : s.scan = .receive →
      s.results.recv = some (some result, results) → s.exits cfg result = false →
      Step cfg total s .collect { s with results := results }
  | found {result results} : s.scan = .receive →
      s.results.recv = some (some result, results) → s.exits cfg result = true →
      Step cfg total s .collect { s with results := results, foundWorking := true, scan := .exit }
  | ended {results} : s.scan = .receive →
      s.results.recv = some (none, results) →
      Step cfg total s .collect { s with scan := .returned, results := results }
  | exit : s.scan = .exit → Step cfg total s .exit { s.closeStopChan with scan := .receive }
  | again : s.stopped = true → Step cfg total s .stop s
  | stop : s.stopped = false →
      Step cfg total s .stop { s with stopped := true, stopping := s.stopping + 1 }
  | closeStop {stopping} : s.stopping = stopping + 1 →
      Step cfg total s .closeStop { s.closeStopChan with stopping := stopping }
  | cancel : Step cfg total s .cancel { s with cancelled := true }

theorem step_of_next (h : s.next cfg total a = some t) :
    s.fault = false ∧ Step cfg total s a t := by
  unfold State.next at h
  split at h
  · cases h
  · refine ⟨Bool.eq_false_iff.mpr ‹_›, ?_⟩
    cases a with
    | feed =>
      dsimp only at h
      split at h
      · cases h
      · obtain ⟨⟨jobs, fault⟩, hsend, rfl⟩ := Option.map_eq_some_iff.mp h
        exact .feed ‹_› hsend
    | skip =>
      dsimp only at h
      (repeat' split at h) <;> cases h
      exact .skip ‹_› ‹_›
    | closeJobs =>
      obtain ⟨⟨hcandidates, hfed⟩, ⟨⟩⟩ := Option.ite_none_right_eq_some.mp h
      exact .closeJobs hcandidates hfed
    | recv i =>
      dsimp only at h
      split at h
      · obtain ⟨⟨endpoint, jobs⟩, hrecv, rfl⟩ := Option.map_eq_some_iff.mp h
        exact .recv ‹_› hrecv
      · cases h
    | test i success =>
      dsimp only at h
      split at h <;> cases h
      exact .test ‹_›
    | send i =>
      dsimp only at h
      split at h
      · obtain ⟨⟨results, fault⟩, hsend, rfl⟩ := Option.map_eq_some_iff.mp h
        exact .send ‹_› hsend
      · cases h
    | quit i =>
      dsimp only at h
      (repeat' split at h) <;> cases h
      all_goals
        rename_i hworker htold
        exact .quit hworker nofun htold
    | join =>
      obtain ⟨⟨hdone, hjoined⟩, ⟨⟩⟩ := Option.ite_none_right_eq_some.mp h
      refine .join (fun w hw ↦ ?_) hjoined
      have h := hdone w hw
      cases w with
      | done => rfl
      | _ => cases h
    | collect =>
      obtain ⟨hscan, h⟩ := Option.ite_none_right_eq_some.mp h
      obtain ⟨⟨_ | result, results⟩, hrecv, rfl⟩ := Option.map_eq_some_iff.mp h
      · exact .ended hscan hrecv
      · dsimp only
        split
        · exact .found hscan hrecv ‹_›
        · exact .collect hscan hrecv (Bool.eq_false_iff.mpr ‹_›)
    | exit =>
      obtain ⟨hscan, ⟨⟩⟩ := Option.ite_none_right_eq_some.mp h
      exact .exit hscan
    | stop =>
      dsimp only at h
      split at h <;> cases h
      · exact .again ‹_›
      · exact .stop (Bool.eq_false_iff.mpr ‹_›)
    | closeStop =>
      dsimp only at h
      split at h <;> cases h
      exact .closeStop ‹_›
    | cancel =>
      cases h
      exact .cancel

/-! ## Steps that can be made -/

section

variable (hfault : s.fault = false)

include hfault

theorem enabled_feed {c : ε} {cs : List ε}
    (hcandidates : s.candidates = c :: cs) (hroom : s.jobs.buf.length < total) :
    (s.next cfg total .feed).isSome := by
  cases hclosed : s.jobs.closed <;>
    simp [State.next, hfault, hcandidates, Chan.send, hclosed, hroom]

theorem enabled_closeJobs (hcandidates : s.candidates = []) (hfed : s.fed = false) :
    (s.next cfg total .closeJobs).isSome := by
  simp [State.next, hfault, hcandidates, hfed]

theorem enabled_recv {i : Nat} (hw : s.workers[i]? = some .select)
    {r : Option ε × Chan ε} (hrecv : s.jobs.recv = some r) :
    (s.next cfg total (.recv i)).isSome := by
  simp [State.next, hfault, hw, hrecv]

theorem enabled_send {i : Nat} {result : ScanResult ε}
    (hw : s.workers[i]? = some (.send result)) (hroom : s.results.buf.length < cfg.workers.toNat) :
    (s.next cfg total (.send i)).isSome := by
  cases hclosed : s.results.closed <;> simp [State.next, hfault, hw, Chan.send, hclosed, hroom]

theorem enabled_join (hdone : ∀ w ∈ s.workers, w = .done) (hjoined : s.joined = false) :
    (s.next cfg total .join).isSome := by
  have hguard : (∀ w ∈ s.workers, w matches .done) ∧ s.joined = false := by
    refine ⟨fun w hw ↦ ?_, hjoined⟩
    rw [hdone w hw]
  unfold State.next
  rw [if_neg (Bool.eq_false_iff.mp hfault)]
  dsimp only
  rw [if_pos hguard]
  rfl

theorem enabled_collect (hscan : s.scan = .receive)
    {r : Option (ScanResult ε) × Chan (ScanResult ε)} (hrecv : s.results.recv = some r) :
    (s.next cfg total .collect).isSome := by
  simp [State.next, hfault, hscan, hrecv]

end

variable (cfg total) in
theorem next_exit (hfault : s.fault = false) (hscan : s.scan = .exit) :
    s.next cfg total .exit = some { s.closeStopChan with scan := .receive } := by
  simp [State.next, hfault, hscan]

variable (cfg total) in
theorem next_closeStop (hfault : s.fault = false) {stopping : Nat}
    (hstopping : s.stopping = stopping + 1) :
    s.next cfg total .closeStop = some { s.closeStopChan with stopping := stopping } := by
  simp [State.next, hfault, hstopping]

/-! ## The invariant -/

/-- `stopChan` is closed at most once, and nothing was sent on or closed that was closed. -/
structure Safe (s : State ε) : Prop where
  closes : s.closes ≤ 1
  fault : s.fault = false

/-- The steps of the goroutines of `Scan`, without the return of a `testEndpoint`. -/
def Act.own : Act → Bool
  | .test _ _ | .stop | .closeStop | .cancel => false
  | _ => true

/-- If `Scan` has not returned and no `testEndpoint` is running, some goroutine of `Scan` can
move. -/
def Live (cfg : ScannerConfig) (total : Nat) (s : State ε) : Prop :=
  s.scan ≠ .returned → (∀ w ∈ s.workers, ∀ endpoint, w ≠ .test endpoint) →
    ∃ a, a.own = true ∧ (s.next cfg total a).isSome

/-- A step after which it is not the case that both `Scan` has found a working endpoint to exit
early with and `Stop` has been called. -/
def Apart (cfg : ScannerConfig) (s : State ε) : Act → Prop
  | .collect => ∀ result results, s.results.recv = some (some result, results) →
      s.exits cfg result = true → s.stopped = false
  | .stop => s.foundWorking = true → s.stopped = true
  | _ => True

/-- What holds in every run whose steps are apart. -/
structure Sound (cfg : ScannerConfig) (total : Nat) (s : State ε) : Prop where
  fault : s.fault = false
  jobs : s.jobs.closed = true → s.fed = true
  fed : s.fed = true → s.candidates = [] ∧ (s.jobs.closed = true ∨ s.scan = .returned)
  room : s.jobs.buf.length + s.candidates.length ≤ total
  results : s.results.closed = true → s.joined = true
  joined : s.joined = true →
    (∀ w ∈ s.workers, w = .done) ∧ (s.results.closed = true ∨ s.scan = .returned)
  pool : s.workers.length ≤ cfg.workers.toNat
  /-- Every close that was begun was made or is under way. -/
  begun : s.closes + s.stopping + (if s.scan = .exit then 1 else 0) =
    s.stopped.toNat + s.foundWorking.toNat
  apart : s.stopped = true → s.foundWorking = false
  stopping : s.stopping ≤ s.stopped.toNat
  closed : s.stopChan.closed = true ↔ 0 < s.closes

namespace Sound

theorem init (cfg : ScannerConfig) (candidates : List ε) :
    Sound cfg candidates.length (.init cfg candidates) := by
  by_cases hempty : candidates = []
  · subst hempty
    exact ⟨rfl, nofun, fun _ ↦ ⟨rfl, .inr rfl⟩, Nat.le_refl 0, nofun, fun _ ↦ ⟨nofun, .inr rfl⟩,
      Nat.zero_le _, rfl, nofun, Nat.le_refl 0, iff_of_false nofun (Nat.lt_irrefl 0)⟩
  · simp only [State.init, hempty, decide_false, if_false]
    exact ⟨rfl, nofun, nofun, Nat.le_of_eq (Nat.zero_add _), nofun, nofun,
      Nat.le_of_eq List.length_replicate, rfl, nofun, Nat.le_refl 0,
      iff_of_false nofun (Nat.lt_irrefl 0)⟩

variable (h : Sound cfg total s)

include h

theorem begun_le : s.closes + s.stopping + (if s.scan = .exit then 1 else 0) ≤ 1 := by
  rw [h.begun]
  cases hstopped : s.stopped with
  | false => exact (Nat.zero_add _).trans_le (Bool.toNat_le _)
  | true => exact Nat.le_of_eq (by rw [h.apart hstopped]; rfl)

theorem safe : Safe s :=
  ⟨by have hle := h.begun_le; omega, h.fault⟩

theorem fed_eq_false {c : ε} {cs : List ε} (hcandidates : s.candidates = c :: cs) :
    s.fed = false := by
  refine Bool.eq_false_iff.mpr fun hfed ↦ ?_
  cases hcandidates.symm.trans (h.fed hfed).1

theorem jobs_open (hfed : s.fed = false) : s.jobs.closed = false := by
  refine Bool.eq_false_iff.mpr fun hclosed ↦ ?_
  cases hfed.symm.trans (h.jobs hclosed)

theorem jobs_closed (hscan : s.scan ≠ .returned) (hfed : s.fed = true) : s.jobs.closed = true :=
  (h.fed hfed).2.resolve_right hscan

theorem joined_eq_false {i : Nat} {w : WorkerPc ε} (hw : s.workers[i]? = some w) (hne : w ≠ .done) :
    s.joined = false := by
  exact Bool.eq_false_iff.mpr fun hjoined ↦ hne ((h.joined hjoined).1 w (mem_of_worker hw))

theorem results_open (hjoined : s.joined = false) : s.results.closed = false := by
  refine Bool.eq_false_iff.mpr fun hclosed ↦ ?_
  cases hjoined.symm.trans (h.results hclosed)

theorem results_closed (hscan : s.scan ≠ .returned) (hjoined : s.joined = true) :
    s.results.closed = true :=
  (h.joined hjoined).2.resolve_right hscan

theorem set_worker {i : Nat} {w : WorkerPc ε} (hw : s.workers[i]? = some w)
    (hne : w ≠ .done) (w' : WorkerPc ε) :
    Sound cfg total { s with workers := s.workers.set i w' } := by
  have hjoined := h.joined_eq_false hw hne
  exact { h with
    joined := by simp [hjoined]
    pool := (List.length_set ..).trans_le h.pool }

/-- The close of `stopChan` that is under way is the first. -/
theorem closeStopChan_fault (hbegun : 0 < s.stopping + (if s.scan = .exit then 1 else 0)) :
    s.stopChan.closed = false ∧ s.closes = 0 := by
  have hle := h.begun_le
  have hzero : s.closes = 0 := by omega
  refine ⟨Bool.eq_false_iff.mpr fun hclosed ↦ ?_, hzero⟩
  exact Nat.lt_irrefl 0 (hzero ▸ h.closed.mp hclosed)

theorem step (hapart : Apart cfg s a) (hstep : Step cfg total s a t) : Sound cfg total t := by
  cases hstep with
  | @feed c cs jobs fault hcandidates hsend =>
    have hfed := h.fed_eq_false hcandidates
    obtain ⟨rfl, hroom, rfl⟩ := Chan.send_cases hsend (h.jobs_open hfed)
    have hlen := h.room
    rw [hcandidates] at hlen
    refine { h with
      fault := rfl, jobs := nofun, fed := by simp [hfed], room := ?_ }
    simp only [List.length_append, List.length_cons, List.length_nil] at hlen ⊢
    omega
  | skip hcandidates htold =>
    have hfed := h.fed_eq_false hcandidates
    have hlen := h.room
    rw [hcandidates, List.length_cons] at hlen
    exact { h with fed := by simp [hfed], room := by dsimp only; omega }
  | closeJobs hcandidates hfed =>
    exact { h with
      fault := h.jobs_open hfed, jobs := fun _ ↦ rfl, fed := fun _ ↦ ⟨hcandidates, .inl rfl⟩ }
  | recv hworker hrecv =>
    rcases Chan.recv_cases hrecv with ⟨x, buf, rfl, hbuf, rfl⟩ | ⟨rfl, hbuf, hclosed, rfl⟩
    · have hset := h.set_worker hworker nofun (.test x)
      have hlen := h.room
      rw [hbuf, List.length_cons] at hlen
      exact { hset with room := by dsimp only; omega }
    · exact h.set_worker hworker nofun .done
  | test hworker => exact h.set_worker hworker nofun _
  | send hworker hsend =>
    have hjoined := h.joined_eq_false hworker nofun
    obtain ⟨rfl, -, rfl⟩ := Chan.send_cases hsend (h.results_open hjoined)
    have hset := h.set_worker hworker nofun .select
    exact { hset with fault := rfl, results := nofun, joined := by simp [hjoined] }
  | quit hworker hne htold => exact h.set_worker hworker hne .done
  | join hdone hjoined =>
    exact { h with
      fault := h.results_open hjoined, results := fun _ ↦ rfl, joined := fun _ ↦ ⟨hdone, .inl rfl⟩ }
  | collect hscan hrecv _ =>
    obtain ⟨x, buf, -, -, rfl⟩ | ⟨hnone, -⟩ := Chan.recv_cases hrecv
    · exact { h with }
    · cases hnone
  | found hscan hrecv hexits =>
    have hstopped : s.stopped = false := hapart _ _ hrecv hexits
    have hfound : s.foundWorking = false := by
      simpa using (Bool.and_eq_true_iff.mp hexits).2
    obtain ⟨x, buf, -, -, rfl⟩ | ⟨hnone, -⟩ := Chan.recv_cases hrecv
    · have hbegun := h.begun
      rw [hscan, hfound, if_neg nofun] at hbegun
      have hrunning : s.scan ≠ .returned := by rw [hscan]; nofun
      exact { h with
        fed := fun hf ↦ ⟨(h.fed hf).1, .inl (h.jobs_closed hrunning hf)⟩
        joined := fun hj ↦ ⟨(h.joined hj).1, .inl (h.results_closed hrunning hj)⟩
        begun := congrArg (· + 1) hbegun
        apart := by simp [hstopped] }
    · cases hnone
  | ended hscan hrecv =>
    obtain ⟨x, buf, hsome, -⟩ | ⟨-, -, -, rfl⟩ := Chan.recv_cases hrecv
    · cases hsome
    · have hbegun := h.begun
      rw [hscan, if_neg nofun] at hbegun
      exact { h with
        fed := fun hf ↦ ⟨(h.fed hf).1, .inr rfl⟩
        joined := fun hj ↦ ⟨(h.joined hj).1, .inr rfl⟩
        begun := hbegun }
  | exit hscan =>
    obtain ⟨hopen, hzero⟩ := h.closeStopChan_fault (by rw [if_pos hscan]; exact Nat.succ_pos _)
    have hbegun := h.begun
    rw [hscan, if_pos rfl] at hbegun
    have hrunning : s.scan ≠ .returned := by rw [hscan]; nofun
    exact { h with
      fault := hopen
      fed := fun hf ↦ ⟨(h.fed hf).1, .inl (h.jobs_closed hrunning hf)⟩
      joined := fun hj ↦ ⟨(h.joined hj).1, .inl (h.results_closed hrunning hj)⟩
      begun := by rw [if_neg nofun]; dsimp only [State.closeStopChan]; omega
      closed := iff_of_true rfl (Nat.succ_pos _) }
  | again _ => exact h
  | stop hstopped =>
    have hbegun := h.begun
    have hstopping := h.stopping
    rw [hstopped] at hbegun hstopping
    refine { h with begun := ?_, apart := fun _ ↦ ?_, stopping := Nat.succ_le_succ hstopping }
    · dsimp only [Bool.toNat_true, Bool.toNat_false] at hbegun ⊢
      omega
    · refine Bool.eq_false_iff.mpr fun hfound ↦ ?_
      cases hstopped.symm.trans (hapart hfound)
  | @closeStop stopping hstopping =>
    obtain ⟨hopen, hzero⟩ := h.closeStopChan_fault (by rw [hstopping]; omega)
    have hbegun := h.begun
    have hle := h.stopping
    refine { h with
      fault := hopen, begun := ?_, stopping := ?_, closed := iff_of_true rfl (Nat.succ_pos _) }
    · show s.closes + 1 + stopping + (if s.scan = .exit then 1 else 0) =
        s.stopped.toNat + s.foundWorking.toNat
      omega
    · show stopping ≤ s.stopped.toNat
      omega
  | cancel => exact { h with }

theorem live_feeder (hfed : s.fed = false) : ∃ a, a.own = true ∧ (s.next cfg total a).isSome := by
  cases hcandidates : s.candidates with
  | nil => exact ⟨.closeJobs, rfl, enabled_closeJobs h.fault hcandidates hfed⟩
  | cons c cs =>
    have hroom := h.room
    rw [hcandidates, List.length_cons] at hroom
    exact ⟨.feed, rfl, enabled_feed h.fault hcandidates (by omega)⟩

/-- With no results to collect, a worker that is neither done nor testing can move, or waits for the
feeder, which can. -/
theorem live_worker (hscan : s.scan ≠ .returned) (hbuf : s.results.buf = [])
    {i : Nat} {w : WorkerPc ε} (hw : s.workers[i]? = some w) (hdone : w ≠ .done)
    (htest : ∀ endpoint, w ≠ .test endpoint) : ∃ a, a.own = true ∧ (s.next cfg total a).isSome := by
  cases w with
  | done => exact absurd rfl hdone
  | test endpoint => exact absurd rfl (htest endpoint)
  | send result =>
    have hlt : i < cfg.workers.toNat :=
      Nat.lt_of_lt_of_le (List.getElem?_eq_some_iff.mp hw).1 h.pool
    refine ⟨.send i, rfl, enabled_send h.fault hw ?_⟩
    rw [hbuf]
    exact Nat.zero_lt_of_lt hlt
  | select =>
    cases hrecv : s.jobs.recv with
    | some r => exact ⟨.recv i, rfl, enabled_recv h.fault hw hrecv⟩
    | none =>
      refine h.live_feeder (Bool.eq_false_iff.mpr fun hfed ↦ ?_)
      exact absurd ((Chan.recv_eq_none hrecv).2.symm.trans (h.jobs_closed hscan hfed)) nofun

/-- `Scan` is never stuck. -/
theorem live : Live cfg total s := by
  intro hscan htest
  cases hpc : s.scan with
  | returned => exact absurd hpc hscan
  | exit => exact ⟨.exit, rfl, Option.isSome_of_eq_some (next_exit cfg total h.fault hpc)⟩
  | receive =>
    cases hrecv : s.results.recv with
    | some r => exact ⟨.collect, rfl, enabled_collect h.fault hpc hrecv⟩
    | none =>
      obtain ⟨hbuf, hopen⟩ := Chan.recv_eq_none hrecv
      by_cases hdone : ∀ w ∈ s.workers, w = .done
      · refine ⟨.join, rfl, enabled_join h.fault hdone (Bool.eq_false_iff.mpr fun hjoined ↦ ?_)⟩
        cases hopen.symm.trans (h.results_closed hscan hjoined)
      · obtain ⟨w, hw⟩ := Classical.not_forall.mp hdone
        obtain ⟨hmem, hne⟩ := Classical.not_imp.mp hw
        obtain ⟨i, hw⟩ := List.mem_iff_getElem?.mp hmem
        exact h.live_worker hscan hbuf hw hne (htest w hmem)

end Sound

/-! ## Both closes -/

/-- The steps that close `stopChan`. -/
def Act.closes : Act → Bool
  | .exit | .closeStop => true
  | _ => false

/-- A close is under way that will find `stopChan` closed: it is closed already, or another close is
under way. -/
structure Doomed (s : State ε) : Prop where
  running : s.fault = false
  pending : s.scan = .exit ∨ 0 < s.stopping
  second : s.stopChan.closed = true ∨ s.scan = .exit ∧ 0 < s.stopping

theorem Doomed.exists_fault {candidates : List ε} (h : Doomed s) :
    ∃ as u, (∀ a ∈ as, a.closes = true) ∧ (scanner cfg candidates).run s as = some u ∧
      u.fault = true := by
  by_cases hscan : s.scan = .exit
  · have hexit : (scanner cfg candidates).next s .exit =
        some { s.closeStopChan with scan := .receive } :=
      next_exit cfg candidates.length h.running hscan
    cases hclosed : s.stopChan.closed with
    | true =>
      exact ⟨[.exit], { s.closeStopChan with scan := .receive }, by simp [Act.closes],
        Machine.run_cons hexit [], hclosed⟩
    | false =>
      have hpos : 0 < s.stopping := by
        rcases h.second with hclosed' | ⟨-, hpos⟩
        · cases hclosed.symm.trans hclosed'
        · exact hpos
      obtain ⟨stopping, hstopping⟩ := Nat.exists_eq_succ_of_ne_zero (Nat.pos_iff_ne_zero.mp hpos)
      let t : State ε := { s.closeStopChan with scan := .receive }
      have hclose : (scanner cfg candidates).next t .closeStop =
          some { t.closeStopChan with stopping := stopping } :=
        next_closeStop cfg candidates.length hclosed hstopping
      exact ⟨[.exit, .closeStop], { t.closeStopChan with stopping := stopping },
        by simp [Act.closes], (Machine.run_cons hexit _).trans (Machine.run_cons hclose []), rfl⟩
  · have hpos : 0 < s.stopping := h.pending.resolve_left hscan
    have hclosed : s.stopChan.closed = true := h.second.resolve_right fun hboth ↦ hscan hboth.1
    obtain ⟨stopping, hstopping⟩ := Nat.exists_eq_succ_of_ne_zero (Nat.pos_iff_ne_zero.mp hpos)
    have hclose : (scanner cfg candidates).next s .closeStop =
        some { s.closeStopChan with stopping := stopping } :=
      next_closeStop cfg candidates.length h.running hstopping
    exact ⟨[.closeStop], { s.closeStopChan with stopping := stopping }, by simp [Act.closes],
      Machine.run_cons hclose [], hclosed⟩

/-- A step that is not apart is the second of the two that begin a close. -/
theorem Sound.doomed (h : Sound cfg total s) (hstep : Step cfg total s a t)
    (hapart : ¬Apart cfg s a) : Doomed t := by
  have hbegun := h.begun
  cases hstep with
  | found hscan hrecv hexits =>
    have hstopped : s.stopped = true := by
      by_contra hstopped
      refine hapart fun _ _ _ _ ↦ Bool.eq_false_iff.mpr hstopped
    rw [hscan, hstopped, h.apart hstopped, if_neg nofun] at hbegun
    refine ⟨h.fault, .inl rfl, ?_⟩
    rcases Nat.eq_zero_or_pos s.stopping with hzero | hpos
    · exact .inl (h.closed.mpr (by simp at hbegun; omega))
    · exact .inr ⟨rfl, hpos⟩
  | stop hstopped =>
    have hfound : s.foundWorking = true := by
      by_contra hfound
      exact hapart fun hfound' ↦ absurd hfound' hfound
    have hstopping := h.stopping
    rw [hstopped, hfound] at hbegun
    rw [hstopped] at hstopping
    refine ⟨h.fault, .inr (Nat.succ_pos _), ?_⟩
    by_cases hscan : s.scan = .exit
    · exact .inr ⟨hscan, Nat.succ_pos _⟩
    · rw [if_neg hscan] at hbegun
      exact .inl (h.closed.mpr (by simp at hbegun hstopping; omega))
  | again hstopped => exact absurd (fun _ ↦ hstopped) hapart
  | collect _ hrecv hexits =>
    refine absurd (fun result results hrecv' hexits' ↦ ?_) hapart
    rw [hrecv'] at hrecv
    cases hrecv
    cases hexits.symm.trans hexits'
  | ended _ hrecv =>
    refine absurd (fun result results hrecv' hexits' ↦ ?_) hapart
    rw [hrecv'] at hrecv
    cases hrecv
  | _ => exact absurd trivial hapart

end Steps

/-- Stopping a scanner.  In every run in which not both `Scan` closes `stopChan` because of a
working endpoint and `Stop` is called, `stopChan` is closed at most once, no closed channel is
closed or sent on, and `Scan` is never stuck.  A step of such a run leaves nothing behind that
panics if and only if it is not the second of the two. -/
theorem scan_shutdown_iff {ε : Type u} (cfg : ScannerConfig) (candidates : List ε) :
    (∀ s, (scanner cfg candidates).Reach (Apart cfg) s → Safe s ∧ Live cfg candidates.length s) ∧
      ∀ s a t, (scanner cfg candidates).Reach (Apart cfg) s →
        (scanner cfg candidates).next s a = some t →
        ((∀ as u, (∀ b ∈ as, b.closes = true) → (scanner cfg candidates).run t as = some u →
          u.fault = false) ↔ Apart cfg s a) := by
  have hsound :
      ∀ {s}, (scanner cfg candidates).Reach (Apart cfg) s → Sound cfg candidates.length s := by
    intro s hs
    refine hs.invariant (fun s hinit ↦ ?_) fun s a t h hapart hnext ↦ ?_
    · exact hinit ▸ Sound.init cfg candidates
    · exact h.step hapart (step_of_next hnext).2
  refine ⟨fun s hs ↦ ⟨(hsound hs).safe, (hsound hs).live⟩, fun s a t hs hnext ↦ ⟨fun h ↦ ?_, ?_⟩⟩
  · by_contra hapart
    have hdoomed := (hsound hs).doomed (step_of_next hnext).2 hapart
    obtain ⟨as, u, has, hrun, hfault⟩ := hdoomed.exists_fault
    exact absurd ((h as u has hrun).symm.trans hfault) nofun
  · intro hapart as u has hrun
    refine (hsound ((hs.step hapart hnext).of_run (fun b hb s ↦ ?_) hrun)).fault
    have hcloses := has b hb
    cases b with
    | exit | closeStop => exact trivial
    | _ => cases hcloses

/-- A scanner with one worker and one candidate that exits early, and that is stopped afterwards. -/
theorem scan_shutdown_early_exit : ((scanner { workers := 1, earlyExit := true } [()]).run
      (.init { workers := 1, earlyExit := true } [()])
      [.feed, .recv 0, .test 0 true, .send 0, .collect, .exit, .stop, .closeStop]).map
        (fun s ↦ (s.closes, s.fault)) = some (2, true) := by
  decide

end Vwarp.Masque.Scanner
