import Vwarp.Go.Sort
import Vwarp.IpScanner.Engine.Queue
import Vwarp.Lib.Insertion

/-!
# The queue of results as a ranking

`Enqueue` finds its place by binary search, inserts, and drops the last when there are too many.
Seen from outside, a queue with limit `m` holds the first `m` of everything that was ever
enqueued, in the order of the round-trip times and of arrival where these are the same.

`AvailableIPs` hands out a slice.  That it is one of its own, and not the queue's, is a matter of
arrays: `sort.Slice` works in place, so a queue that handed out its own array would be turned
around by the first call that asks for the descending order.  `Memory` therefore has the arrays,
the queue is one of them, and `AvailableIPs` makes another.

## Main results

* `queue_enqueue`: `Enqueue` on a sorted queue is the library's insertion, cut.
* `ranking_enqueue`: what one `Enqueue` does to the ranking.
* `available_ips_ranking`: what both forms of `AvailableIPs` return after any calls.
-/

namespace Vwarp.IpScanner.Engine

open Vwarp.Go Vwarp.Lib

/-! ## `sort.Search` -/

/-- The binary search keeps the two sides of its interval apart. -/
theorem searchLoop_spec {f : Nat → Bool} {n : Nat}
    (hf : ∀ a b, a ≤ b → b < n → f a = true → f b = true) {fuel i j : Nat} (hfuel : j ≤ i + fuel)
    (hij : i ≤ j) (hj : j ≤ n) (hlow : ∀ k, k < i → f k = false)
    (hhigh : ∀ k, j ≤ k → k < n → f k = true) :
    searchLoop f fuel i j ≤ n ∧ (∀ k, k < searchLoop f fuel i j → f k = false) ∧
      ∀ k, searchLoop f fuel i j ≤ k → k < n → f k = true := by
  induction fuel generalizing i j with
  | zero =>
    obtain rfl : i = j := by omega
    exact ⟨hj, hlow, hhigh⟩
  | succ fuel ih =>
    simp only [searchLoop]
    split
    · rename_i hlt
      split
      · -- the middle is on the far side, and with it everything behind it
        rename_i hmid
        refine ih (by omega) (by omega) (by omega) hlow fun k hk hkn ↦ ?_
        exact hf _ k hk hkn hmid
      · rename_i hmid
        refine ih (by omega) (by omega) (by omega) (fun k hk ↦ ?_) hhigh
        by_contra hk'
        exact hmid (hf k _ (by omega) (by omega) (Bool.eq_true_of_not_eq_false hk'))
    · obtain rfl : i = j := by omega
      exact ⟨hj, hlow, hhigh⟩

/-- What `sort.Search` finds: where a monotone predicate starts to hold. -/
theorem sortSearch_spec {f : Nat → Bool} {n : Nat}
    (hf : ∀ a b, a ≤ b → b < n → f a = true → f b = true) :
    sortSearch n f ≤ n ∧ (∀ k, k < sortSearch n f → f k = false) ∧
      ∀ k, sortSearch n f ≤ k → k < n → f k = true :=
  searchLoop_spec hf (by omega) (Nat.zero_le n) le_rfl (fun k hk ↦ absurd hk (Nat.not_lt_zero k))
    fun k hk hkn ↦ absurd hkn (Nat.not_lt.mpr hk)

/-! ## `Enqueue` -/

/-- The order in which a queue holds its results. -/
def Ranked (l : List IPInfo) : Prop := l.Pairwise fun a b ↦ a.rtt ≤ b.rtt

theorem slower_eq (q : IPQueue) (info : IPInfo) {k : Nat} (hk : k < q.queue.length) :
    (q.queue[k]?.map fun x ↦ decide (x.rtt > info.rtt)).getD false =
      decide (q.queue[k].rtt > info.rtt) := by
  rw [List.getElem?_eq_getElem hk, Option.map_some, Option.getD_some]

variable {q : IPQueue}

/-- In a sorted queue, the place of a result is behind those that are not slower. -/
theorem index_spec (h : Ranked q.queue) (info : IPInfo) {k : Nat} (hk : k < q.queue.length) :
    (k < q.index info → q.queue[k].rtt ≤ info.rtt) ∧
      (q.index info ≤ k → info.rtt < q.queue[k].rtt) := by
  have hmono : ∀ a b, a ≤ b → b < q.queue.length →
      (q.queue[a]?.map fun x ↦ decide (x.rtt > info.rtt)).getD false = true →
      (q.queue[b]?.map fun x ↦ decide (x.rtt > info.rtt)).getD false = true := by
    intro a b hab hb ha
    have hal : a < q.queue.length := Nat.lt_of_le_of_lt hab hb
    rw [slower_eq q info hal, decide_eq_true_eq] at ha
    rw [slower_eq q info hb, decide_eq_true_eq]
    obtain rfl | hlt := Nat.eq_or_lt_of_le hab
    · exact ha
    · exact lt_of_lt_of_le ha (List.pairwise_iff_getElem.mp h a b hal hb hlt)
  obtain ⟨-, hlow, hhigh⟩ := sortSearch_spec hmono
  constructor
  · intro hlt
    have := (slower_eq q info hk).symm.trans (hlow k hlt)
    exact not_lt.mp (of_decide_eq_false this)
  · intro hge
    have := (slower_eq q info hk).symm.trans (hhigh k hge hk)
    exact of_decide_eq_true this

/-- `Enqueue` inserts into a sorted queue behind the results that are not slower. -/
theorem insert_eq_insertBehind (h : Ranked q.queue) (info : IPInfo) :
    q.queue.take (q.index info) ++ info :: q.queue.drop (q.index info) =
      insertBehind IPInfo.rtt info q.queue := by
  have hfront : ∀ a ∈ q.queue.take (q.index info), a.rtt ≤ info.rtt := by
    intro a ha
    obtain ⟨k, hk, rfl⟩ := List.mem_take_iff_getElem.mp ha
    exact (index_spec h info (Nat.lt_of_lt_of_le hk (Nat.min_le_right _ _))).1
      (Nat.lt_of_lt_of_le hk (Nat.min_le_left _ _))
  have hback : ∀ b ∈ q.queue.drop (q.index info), info.rtt < b.rtt := by
    intro b hb
    obtain ⟨k, hk, rfl⟩ := List.mem_drop_iff_getElem.mp hb
    exact (index_spec h info _).2 (Nat.le_add_right _ k)
  rw [← insertBehind_append hfront hback, List.take_append_drop]

/-! ## The ranking -/

/-- The first `m` of a list, and all of it if `m` is no limit. -/
def cut (m : Int) (l : List IPInfo) : List IPInfo := if 0 < m then l.take m.toNat else l

/-- The best `m` of some results. -/
def ranking (m : Int) (infos : List IPInfo) : List IPInfo := cut m (stableSort IPInfo.rtt infos)

theorem length_cut_le {m : Int} (hm : 0 < m) (l : List IPInfo) : ((cut m l).length : Int) ≤ m := by
  rw [cut, if_pos hm, List.length_take]
  omega

theorem ranked_ranking (m : Int) (infos : List IPInfo) : Ranked (ranking m infos) := by
  unfold ranking cut
  split
  · exact (pairwise_stableSort IPInfo.rtt infos).take
  · exact pairwise_stableSort IPInfo.rtt infos

theorem ranking_nil (m : Int) : ranking m [] = [] := by
  unfold ranking cut
  split
  · exact List.take_nil
  · rfl

/-- `Enqueue` on a sorted queue that is not too long: insert, and cut. -/
theorem queue_enqueue (h : Ranked q.queue)
    (hlen : 0 < q.maxQueueSize → (q.queue.length : Int) ≤ q.maxQueueSize) (info : IPInfo) :
    (q.enqueue info).queue = cut q.maxQueueSize (insertBehind IPInfo.rtt info q.queue) := by
  simp only [IPQueue.enqueue, insert_eq_insertBehind h, length_insertBehind]
  by_cases hm : 0 < q.maxQueueSize
  · rw [cut, if_pos hm]
    split_ifs with hfull
    · have := hlen hm
      rw [List.dropLast_eq_take, length_insertBehind]
      exact congrArg (List.take · _) (by omega)
    · refine (List.take_of_length_le ?_).symm
      rw [length_insertBehind]
      omega
  · rw [cut, if_neg hm, if_neg fun hfull ↦ hm hfull.1]

variable {infos : List IPInfo}

theorem ranking_enqueue (h : q.queue = ranking q.maxQueueSize infos) (info : IPInfo) :
    (q.enqueue info).queue = ranking q.maxQueueSize (infos ++ [info]) := by
  have hranked : Ranked q.queue := h ▸ ranked_ranking _ infos
  have hlen : 0 < q.maxQueueSize → (q.queue.length : Int) ≤ q.maxQueueSize :=
    fun hm ↦ h ▸ length_cut_le hm _
  rw [queue_enqueue hranked hlen, h, ranking, ranking, stableSort_concat]
  unfold cut
  split
  · exact take_insertBehind_take _ info _
  · rfl

/-! ## `AvailableIPs` -/

/-- A queue in memory: the arrays of results, in the order in which they were made, and which of
them is the queue's. -/
structure Memory where
  arrays : List (List IPInfo)
  queue : Nat
  maxQueueSize : Int
  /-- The queue has an array. -/
  queue_lt : queue < arrays.length

namespace Memory

/-- `NewIPQueue`. -/
def new (ipQueueSize : Int) : Memory := ⟨[[]], 0, ipQueueSize, Nat.zero_lt_one⟩

def slice (s : Memory) (array : Nat) : List IPInfo := s.arrays.getD array []

def toQueue (s : Memory) : IPQueue := ⟨s.slice s.queue, s.maxQueueSize⟩

def write (s : Memory) (array : Nat) (infos : List IPInfo) : Memory where
  arrays := s.arrays.set array infos
  queue := s.queue
  maxQueueSize := s.maxQueueSize
  queue_lt := by rw [List.length_set]; exact s.queue_lt

/-- `make` and `copy`: another array with the same results, behind the others. -/
def clone (s : Memory) (infos : List IPInfo) : Memory where
  arrays := s.arrays ++ [infos]
  queue := s.queue
  maxQueueSize := s.maxQueueSize
  queue_lt := by rw [List.length_append]; exact Nat.lt_add_right _ s.queue_lt

/-- `IPQueue.Enqueue`. -/
def enqueue (s : Memory) (info : IPInfo) : Memory := s.write s.queue (s.toQueue.enqueue info).queue

/-- `IPQueue.AvailableIPs`, with the array that it returns. -/
def availableIPs (S : SortSlice IPInfo) (desc : Bool) (s : Memory) : Memory × Nat :=
  let sortedQueue := s.arrays.length
  let s₁ := s.clone (s.slice s.queue)
  if desc then
    (s₁.write sortedQueue (S.sort (fun a b ↦ decide (a.rtt > b.rtt)) (s₁.slice sortedQueue)),
      sortedQueue)
  else (s₁, sortedQueue)

variable {s : Memory} {array : Nat}

@[simp] theorem slice_write_self (h : array < s.arrays.length) (infos : List IPInfo) :
    (s.write array infos).slice array = infos := by
  simp [slice, write, h]

theorem slice_write_of_ne {other : Nat} (h : array ≠ other) (infos : List IPInfo) :
    (s.write array infos).slice other = s.slice other := by
  simp [slice, write, List.getElem?_set_ne h]

@[simp] theorem slice_clone_self (s : Memory) (infos : List IPInfo) :
    (s.clone infos).slice s.arrays.length = infos := by
  simp [slice, clone]

theorem slice_clone_of_lt (h : array < s.arrays.length) (infos : List IPInfo) :
    (s.clone infos).slice array = s.slice array := by
  simp [slice, clone, List.getElem?_append_left h]

/-- The queue after `Enqueue`. -/
@[simp] theorem toQueue_enqueue (s : Memory) (info : IPInfo) :
    (s.enqueue info).toQueue = s.toQueue.enqueue info := by
  have hslice : (s.enqueue info).toQueue.queue = (s.toQueue.enqueue info).queue :=
    slice_write_self s.queue_lt _
  have hmax : (s.enqueue info).toQueue.maxQueueSize = (s.toQueue.enqueue info).maxQueueSize :=
    (maxQueueSize_enqueue s.toQueue info).symm
  cases hq : s.toQueue.enqueue info
  rw [hq] at hslice hmax
  exact congrArg₂ IPQueue.mk hslice hmax

/-- `AvailableIPs` writes no array that was there. -/
theorem slice_availableIPs (S : SortSlice IPInfo) (desc : Bool) (h : array < s.arrays.length) :
    (s.availableIPs S desc).1.slice array = s.slice array := by
  cases desc with
  | false => exact slice_clone_of_lt h _
  | true => exact (slice_write_of_ne (Nat.ne_of_gt h) _).trans (slice_clone_of_lt h _)

/-- `AvailableIPs` leaves the queue as it was. -/
@[simp] theorem toQueue_availableIPs (S : SortSlice IPInfo) (desc : Bool) (s : Memory) :
    (s.availableIPs S desc).1.toQueue = s.toQueue := by
  have hslice := slice_availableIPs S desc s.queue_lt
  cases desc with
  | false | true => exact congrArg (IPQueue.mk · s.maxQueueSize) hslice

/-- What `AvailableIPs` returns. -/
theorem slice_result (S : SortSlice IPInfo) (desc : Bool) (s : Memory) :
    (s.availableIPs S desc).1.slice (s.availableIPs S desc).2 =
      if desc then S.sort (fun a b ↦ decide (a.rtt > b.rtt)) s.toQueue.queue
      else s.toQueue.queue := by
  cases desc with
  | false => exact slice_clone_self s _
  | true =>
    show (Memory.write _ _ _).slice s.arrays.length = _
    rw [slice_write_self (by simp [clone]), slice_clone_self]
    rfl

end Memory

/-! ## Calls -/

inductive Call
  | enqueue (info : IPInfo)
  | availableIPs (desc : Bool)
deriving DecidableEq, Repr

/-- The memory after a call; the lock of the queue makes calls follow each other. -/
def Memory.call (S : SortSlice IPInfo) (s : Memory) : Call → Memory
  | .enqueue info => s.enqueue info
  | .availableIPs desc => (s.availableIPs S desc).1

def Memory.calls (S : SortSlice IPInfo) (s : Memory) (calls : List Call) : Memory :=
  calls.foldl (Memory.call S) s

def enqueued (calls : List Call) : List IPInfo :=
  calls.filterMap fun
    | .enqueue info => some info
    | .availableIPs _ => none

theorem toQueue_call (S : SortSlice IPInfo) {s : Memory}
    (h : s.toQueue.queue = ranking s.maxQueueSize infos) (call : Call) :
    (s.call S call).toQueue.queue = ranking s.maxQueueSize (infos ++ enqueued [call]) := by
  cases call with
  | enqueue info =>
    rw [Memory.call, Memory.toQueue_enqueue]
    exact ranking_enqueue h info
  | availableIPs desc =>
    rw [Memory.call, Memory.toQueue_availableIPs, h]
    exact congrArg (ranking s.maxQueueSize) (List.append_nil infos).symm

@[simp] theorem maxQueueSize_call (S : SortSlice IPInfo) (s : Memory) (call : Call) :
    (s.call S call).maxQueueSize = s.maxQueueSize := by
  cases call with
  | enqueue info => rfl
  | availableIPs desc => cases desc <;> rfl

/-- After any calls the queue is the ranking of what they enqueued. -/
theorem toQueue_calls (S : SortSlice IPInfo) (calls : List Call) {s : Memory}
    (h : s.toQueue.queue = ranking s.maxQueueSize infos) :
    (s.calls S calls).toQueue.queue = ranking s.maxQueueSize (infos ++ enqueued calls) := by
  induction calls generalizing s infos with
  | nil => exact h.trans (congrArg (ranking s.maxQueueSize) (List.append_nil infos).symm)
  | cons call calls ih =>
    have hstep := toQueue_call S h call
    rw [← maxQueueSize_call S s call] at hstep
    have hrun := ih hstep
    rw [maxQueueSize_call, List.append_assoc] at hrun
    exact hrun.trans (congrArg (fun l ↦ ranking s.maxQueueSize (infos ++ l))
      (List.filterMap_append (l := [call])).symm)

/-- **The ranking.**  After any calls on a queue with limit `m`, `AvailableIPs(false)` returns the
stable sort by round-trip time of everything that was enqueued, cut to its first `m` if `m` is
positive.  `AvailableIPs(true)` returns the same results with round-trip times that do not
increase.  Neither changes the queue. -/
theorem available_ips_ranking (S : SortSlice IPInfo) (m : Int) (calls : List Call) :
    let s := (Memory.new m).calls S calls
    let asc := s.availableIPs S false
    let desc := s.availableIPs S true
    asc.1.slice asc.2 = ranking m (enqueued calls) ∧
      (desc.1.slice desc.2).Perm (ranking m (enqueued calls)) ∧
      (desc.1.slice desc.2).Pairwise (fun a b ↦ b.rtt ≤ a.rtt) ∧
      asc.1.toQueue = s.toQueue ∧ desc.1.toQueue = s.toQueue := by
  intro s asc desc
  have hqueue : s.toQueue.queue = ranking m (enqueued calls) :=
    toQueue_calls S calls (s := Memory.new m) (ranking_nil m).symm
  have hasc : asc.1.slice asc.2 = s.toQueue.queue := Memory.slice_result S false s
  have hdesc : desc.1.slice desc.2 = S.sort (fun a b ↦ decide (a.rtt > b.rtt)) s.toQueue.queue :=
    Memory.slice_result S true s
  refine ⟨hasc.trans hqueue, ?_, ?_, Memory.toQueue_availableIPs S false s,
    Memory.toQueue_availableIPs S true s⟩
  · rw [hdesc, ← hqueue]
    exact S.perm _ _
  · rw [hdesc]
    refine (S.ordered _ s.toQueue.queue (StrictWeak.of_key_gt IPInfo.rtt)).imp fun {a b} h ↦ ?_
    exact not_lt.mp (of_decide_eq_false h)

end Vwarp.IpScanner.Engine
