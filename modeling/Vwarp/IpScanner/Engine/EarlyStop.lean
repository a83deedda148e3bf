import Mathlib.Data.List.Perm.Subperm
import Vwarp.IpScanner.Engine.Run

/-!
# Stopping early

With `StopOnFirstGoodIPs = n > 0`, a worker that finds `n` results in the queue after
it has enqueued its own cancels the scan.  Several workers can pass the target
before the first of them cancels, but each of them only once: whoever enqueues the
`n`-th or a later result is on its way to `Size`, to `cancel`, or back at its receive in a
scan that is cancelled, and does not ping again.  So the results from the `n`-th on
come from different workers, and there are at most as many as there are workers.
-/

namespace Vwarp.IpScanner.Engine

open Vwarp.Go Vwarp.Lib

/-- A worker that will not ping again: it is about to cancel the scan, or the scan is
cancelled and it is outside of a ping. -/
def WarpPc.Quiet (cancelled : Bool) : WarpPc → Prop
  | cancel => True
  | recv | check _ | done => cancelled = true
  | _ => False

/-- A worker that will be quiet when it has looked at the size of a full queue. -/
def WarpPc.Stopping (cancelled : Bool) (w : WarpPc) : Prop := w = size ∨ w.Quiet cancelled

/-- The workers that enqueued the `n`-th and later results. -/
def latecomers (n : Nat) (enqueued : List (Nat × IPInfo)) : List Nat :=
  (enqueued.map Prod.fst).drop (n - 1)

/-- The invariant of the WARP stage of a scan that stops after `n` results. -/
structure Early (opts : Options) (n : Nat) (warp : List WarpPc) (queue : IPQueue)
    (enqueued : List (Nat × IPInfo)) (observed : List Nat) (cancelled : Bool) : Prop where
  manned : warp.length = opts.concurrentScanners
  limit : queue.maxQueueSize = opts.ipQueueSize
  size : queue.size = enqueued.length
  workers : ∀ e ∈ enqueued, e.1 < opts.concurrentScanners
  nodup : (latecomers n enqueued).Nodup
  late : ∀ i ∈ latecomers n enqueued, WorkerAt warp i (WarpPc.Stopping cancelled)
  observed : ∀ i ∈ observed, WorkerAt warp i (WarpPc.Quiet cancelled)

theorem WarpPc.Quiet.cancel {c c' : Bool} (hc : c = true → c' = true) {w : WarpPc}
    (h : w.Quiet c) : w.Quiet c' := by
  cases w with
  | recv | check _ => exact hc h
  | cancel => trivial
  | done => exact hc h
  | _ => exact h.elim

theorem WarpPc.Stopping.cancel {c c' : Bool} (hc : c = true → c' = true) {w : WarpPc}
    (h : w.Stopping c) : w.Stopping c' := h.imp_right (Quiet.cancel hc)

namespace Early

variable {opts : Options} {n : Nat} {warp : List WarpPc} {queue : IPQueue}
  {enqueued : List (Nat × IPInfo)} {observed : List Nat} {cancelled : Bool}

theorem length_le (h : Early opts n warp queue enqueued observed cancelled) :
    enqueued.length ≤ (n - 1) + opts.concurrentScanners := by
  have hsub : latecomers n enqueued ⊆ List.range opts.concurrentScanners := by
    intro i hi
    obtain ⟨e, he, rfl⟩ := List.mem_map.mp (List.mem_of_mem_drop hi)
    exact List.mem_range.mpr (h.workers e he)
  have hlen := (List.subperm_of_subset h.nodup hsub).length_le
  simp only [latecomers, List.length_drop, List.length_map, List.length_range] at hlen
  omega

/-- A worker that moves and does not enqueue keeps the invariant, if a quiet worker stays
quiet and a stopping one stays stopping. -/
theorem move (h : Early opts n warp queue enqueued observed cancelled) {i : Nat} {w w' : WarpPc}
    (hw : warp[i]? = some w) {c : Bool} (hc : cancelled = true → c = true)
    (hquiet : w.Quiet cancelled → w'.Quiet c)
    (hstop : i ∈ latecomers n enqueued → w.Stopping cancelled → w'.Stopping c) :
    Early opts n (warp.set i w') queue enqueued observed c where
  manned := by rw [List.length_set, h.manned]
  limit := h.limit
  size := h.size
  workers := h.workers
  nodup := h.nodup
  late j hj := by
    by_cases hij : i = j
    · subst hij
      exact (h.late i hj).set hw (fun _ ↦ .cancel hc) (hstop hj)
    · obtain ⟨v, hv, hP⟩ := h.late j hj
      exact ⟨v, by rw [List.getElem?_set_ne hij, hv], hP.cancel hc⟩
  observed j hj := (h.observed j hj).set hw (fun _ ↦ .cancel hc) hquiet

theorem le_size (h : Early opts n warp queue enqueued observed cancelled) {i : Nat}
    (hi : i ∈ latecomers n enqueued) : n ≤ queue.size := by
  have hpos : 0 < (latecomers n enqueued).length := List.length_pos_of_mem hi
  simp only [latecomers, List.length_drop, List.length_map] at hpos
  rw [h.size]
  omega

theorem latecomers_append (n : Nat) (enqueued : List (Nat × IPInfo)) (e : Nat × IPInfo) :
    latecomers n (enqueued ++ [e]) =
      latecomers n enqueued ++ if n - 1 ≤ enqueued.length then [e.1] else [] := by
  simp only [latecomers, List.map_append, List.map_cons, List.map_nil, List.drop_append,
    List.length_map]
  split_ifs with hle
  · rw [Nat.sub_eq_zero_of_le hle, List.drop_zero]
  · have hdrop : [e.1].drop (n - 1 - enqueued.length) = [] :=
      List.drop_of_length_le (by rw [List.length_singleton]; omega)
    rw [hdrop]

/-- A worker that enqueues keeps the invariant: it is not one of the latecomers yet. -/
theorem enqueue (h : Early opts n warp queue enqueued observed cancelled)
    (hqueue : opts.ipQueueSize ≤ 0 ∨ (n : Int) + opts.concurrentScanners ≤ opts.ipQueueSize)
    (hn : 0 < n) {i : Nat} {info : IPInfo} (hw : warp[i]? = some (.enqueue info)) :
    Early opts n (warp.set i .size) (queue.enqueue info) (enqueued ++ [(i, info)]) observed
      cancelled := by
  have hbusy : ¬ WorkerAt warp i (WarpPc.Stopping cancelled) := by
    rintro ⟨w, hw', hstop⟩
    obtain rfl : .enqueue info = w := by simpa [hw] using hw'
    rcases hstop with hstop | hstop
    · cases hstop
    · exact hstop
  have hi : i ∉ latecomers n enqueued := fun hi ↦ hbusy (h.late i hi)
  have hlen := h.length_le
  refine ⟨by rw [List.length_set, h.manned], by rw [maxQueueSize_enqueue, h.limit], ?_, ?_,
    ?_, ?_, ?_⟩
  · rw [size_enqueue (by rw [h.limit, h.size]; omega), h.size, List.length_append]
    rfl
  · refine forall_mem_concat.mpr ⟨h.workers, ?_⟩
    rw [← h.manned]
    exact (List.getElem?_eq_some_iff.mp hw).1
  · rw [latecomers_append]
    split
    · refine List.nodup_append.mpr ⟨h.nodup, by simp, ?_⟩
      rintro j hj j' hj' rfl
      obtain rfl : j = i := List.mem_singleton.mp hj'
      exact hi hj
    · rw [List.append_nil]
      exact h.nodup
  · intro j hj
    rw [latecomers_append] at hj
    rcases List.mem_append.mp hj with hj | hj
    · exact (h.late j hj).set hw (fun _ ↦ id) (fun _ ↦ .inl rfl)
    · split at hj
      · rw [List.mem_singleton.mp hj]
        exact workerAt_set_self hw (.inl rfl)
      · cases hj
  · intro j hj
    exact (h.observed j hj).set hw (fun _ ↦ id) (fun hq ↦ hq.elim)

end Early

namespace Scan

def EarlyStop (opts : Options) (n : Nat) (s : Scan) : Prop :=
  Early opts n s.warp s.queue s.enqueued s.observed s.cancelled

variable {opts : Options} {n : Nat} {s s' : Scan}

theorem EarlyStop.warp_step (hn : opts.stopOnFirstGoodIPs = n) (hpos : 0 < n)
    (hqueue : opts.ipQueueSize ≤ 0 ∨ (n : Int) + opts.concurrentScanners ≤ opts.ipQueueSize)
    (h : s.EarlyStop opts n) {a : WarpAct} (hs : WarpStep opts s a s') : s'.EarlyStop opts n := by
  cases hs with
  | take hw hbuf | ended hw hbuf hclosed | quit hw hc =>
    exact h.move hw id id fun _ hst ↦ hst.elim (fun h ↦ nomatch h) .inr
  | ping hw hc =>
    exact h.move hw id (fun hq ↦ nomatch hc.symm.trans hq) fun _ hst ↦
      hst.elim (fun h ↦ nomatch h) fun hq ↦ nomatch hc.symm.trans hq
  | success hw | failure hw =>
    exact h.move hw id False.elim fun _ hst ↦ hst.elim (fun h ↦ nomatch h) False.elim
  | enqueue hw =>
    have hstop : 0 < opts.stopOnFirstGoodIPs := by omega
    rw [if_pos hstop]
    exact Early.enqueue h hqueue hpos hw
  | @enough i hw hsize =>
    obtain ⟨h₁, h₂, h₃, h₄, h₅, h₆, h₇⟩ : Early opts n (s.warp.set i .cancel) _ _ _ _ :=
      Early.move h hw id False.elim fun _ _ ↦ .inr trivial
    exact ⟨h₁, h₂, h₃, h₄, h₅, h₆, forall_mem_concat.mpr ⟨h₇, workerAt_set_self hw trivial⟩⟩
  | more hw hsize =>
    exact h.move hw id False.elim fun hi _ ↦ absurd (Early.le_size h hi) (by omega)
  | cancel hw => exact h.move hw (fun _ ↦ rfl) (fun _ ↦ rfl) fun _ _ ↦ .inr rfl
  | join hd hall => exact h

theorem EarlyStop.step (hn : opts.stopOnFirstGoodIPs = n) (hpos : 0 < n)
    (hqueue : opts.ipQueueSize ≤ 0 ∨ (n : Int) + opts.concurrentScanners ≤ opts.ipQueueSize)
    {a : ScanAct} (h : s.EarlyStop opts n) (hs : s.next opts a = some s') :
    s'.EarlyStop opts n := by
  obtain ⟨b, -, hs⟩ | ⟨hwarp, hq, -, henq, hobs, hcancel, -⟩ := step_cases hs
  · exact h.warp_step hn hpos hqueue hs
  · unfold EarlyStop
    rw [hwarp, hq, henq, hobs]
    exact { h with
      late := fun i hi ↦ (h.late i hi).imp fun _ hw ↦ ⟨hw.1, hw.2.cancel hcancel⟩
      observed := fun i hi ↦ (h.observed i hi).imp fun _ hw ↦ ⟨hw.1, hw.2.cancel hcancel⟩ }

theorem earlyStop_init (candidates : List AddrPort) : (init opts candidates).EarlyStop opts n where
  manned := List.length_replicate ..
  limit := rfl
  size := rfl
  workers _ he := nomatch he
  nodup := by simp [latecomers, init]
  late := by simp [latecomers, init]
  observed _ hi := nomatch hi

theorem EarlyStop.ping_step {a : ScanAct} (h : s.EarlyStop opts n) (hs : s.next opts a = some s')
    {p : WarpPing} (hp : s'.pings = s.pings ++ [p]) : p.worker ∉ s.observed := by
  have hsame : s'.pings = s.pings → p.worker ∉ s.observed := fun heq ↦ by simp [heq] at hp
  obtain ⟨b, -, hs⟩ | ⟨-, -, hpings, -⟩ := step_cases hs
  · cases hs with
    | @ping i c hw hc =>
      obtain rfl : ⟨i, c, warpPort opts c⟩ = p := by simpa [setWarp] using hp
      intro hi
      obtain ⟨w, hw', hq⟩ := h.observed i hi
      obtain rfl : .check c = w := by simpa [hw] using hw'
      exact nomatch hc.symm.trans hq
    | _ => exact hsame rfl
  · exact hsame hpings

end Scan

/-- However the workers interleave, a scan that stops after `n > 0` results enqueues at most
`n + k - 1`, where `k` is the number of workers; and a worker that has seen the target
reached starts no further ping. -/
theorem early_stop_bound (opts : Options) (candidates : List AddrPort) (n : Nat)
    (hn : opts.stopOnFirstGoodIPs = n) (hpos : 0 < n)
    (hqueue : opts.ipQueueSize = 0 ∨ (n : Int) + opts.concurrentScanners ≤ opts.ipQueueSize)
    {s : Scan} (hr : (scan opts candidates).Reachable s) :
    s.enqueued.length ≤ n + opts.concurrentScanners - 1 ∧
      ∀ a s' p, s.next opts a = some s' → s'.pings = s.pings ++ [p] → p.worker ∉ s.observed := by
  have hqueue' : opts.ipQueueSize ≤ 0 ∨ (n : Int) + opts.concurrentScanners ≤ opts.ipQueueSize := by
    omega
  have h : s.EarlyStop opts n := hr.invariant (fun _ hs ↦ hs.2 ▸ Scan.earlyStop_init candidates)
    (fun _ _ _ h _ hs ↦ h.step hn hpos hqueue' hs)
  refine ⟨?_, fun a s' p hs hp ↦ h.ping_step hs hp⟩
  have := Early.length_le h
  omega

/-- Two workers that both ping before either enqueues reach the bound for one result. -/
theorem early_stop_two_workers : let opts : Options := ⟨false, false, 2, 1, 0, 2408⟩
    let candidates : List AddrPort := [⟨.v4 0xa29fc001, 0⟩, ⟨.v4 0xa29fc002, 0⟩]
    ∃ s, (scan opts candidates).Reachable s ∧ s.enqueued.length = 2 ∧ s.observed = [0] ∧
      s.enqueued.length ≤ 1 + opts.concurrentScanners - 1 := by
  intro opts candidates
  have hcomputed : ((scan opts candidates).run (.init opts candidates)
      [.gen .send, .gen .send, .icmp (.recv 0), .icmp (.send 0), .icmp (.recv 0), .icmp (.send 0),
        .tcp (.recv 0), .tcp (.send 0), .tcp (.recv 0), .tcp (.send 0), .warp (.recv 0),
        .warp (.recv 1), .warp (.check 0), .warp (.check 1),
        .warp (.success 0 ⟨⟨.v4 0xa29fc001, 2408⟩, 40000000⟩),
        .warp (.success 1 ⟨⟨.v4 0xa29fc002, 2408⟩, 30000000⟩), .warp (.enqueue 0),
        .warp (.enqueue 1), .warp (.size 0)]).map (fun s ↦ (s.enqueued.length, s.observed)) =
      some (2, [0]) := by decide +kernel
  obtain ⟨s, hrun, hs⟩ := Option.map_eq_some_iff.mp hcomputed
  obtain ⟨henq, hobs⟩ : s.enqueued.length = 2 ∧ s.observed = [0] := by simpa using hs
  have hr : (scan opts candidates).Reachable s :=
    Machine.Reach.of_run (.start ⟨by simp [candidates], rfl⟩) (fun _ _ _ ↦ trivial) hrun
  exact ⟨s, hr, henq, hobs, (early_stop_bound opts candidates 1 rfl (by decide) (.inl rfl) hr).1⟩

end Vwarp.IpScanner.Engine
