import Vwarp.Go.Netip

/-!
# `IPQueue`: the results of a scan

A queue sorted by round-trip time, into which results are inserted by binary search
and from which the worst is dropped when it grows beyond its limit.
-/

namespace Vwarp.IpScanner.Engine

open Vwarp.Go

/-- `statute.IPInfo`, with the round-trip time in nanoseconds. -/
structure IPInfo where
  addrPort : AddrPort
  rtt : Int
deriving DecidableEq, Repr

/-- The loop of `sort.Search` on `[i, j)`. -/
def searchLoop (f : Nat → Bool) : Nat → Nat → Nat → Nat
  | 0, i, _ => i
  | fuel + 1, i, j =>
    if i < j then
      let h := (i + j) / 2
      if f h then searchLoop f fuel i h else searchLoop f fuel (h + 1) j
    else i

/-- `sort.Search`. -/
def sortSearch (n : Nat) (f : Nat → Bool) : Nat := searchLoop f n 0 n

/-- `IPQueue`; a limit of `0` or less is none. -/
structure IPQueue where
  queue : List IPInfo
  maxQueueSize : Int

/-- `NewIPQueue`. -/
def IPQueue.new (ipQueueSize : Int) : IPQueue := ⟨[], ipQueueSize⟩

/-- `IPQueue.Size`. -/
def IPQueue.size (q : IPQueue) : Nat := q.queue.length

/-- Where `Enqueue` inserts. -/
def IPQueue.index (q : IPQueue) (info : IPInfo) : Nat :=
  sortSearch q.queue.length fun i ↦ (q.queue[i]?.map fun x ↦ decide (x.rtt > info.rtt)).getD false

/-- `IPQueue.Enqueue`. -/
def IPQueue.enqueue (q : IPQueue) (info : IPInfo) : IPQueue :=
  let queue := q.queue.take (q.index info) ++ info :: q.queue.drop (q.index info)
  if 0 < q.maxQueueSize ∧ (queue.length : Int) > q.maxQueueSize then
    { q with queue := queue.dropLast }
  else { q with queue := queue }

theorem length_insert (q : IPQueue) (info : IPInfo) (i : Nat) :
    (q.queue.take i ++ info :: q.queue.drop i).length = q.queue.length + 1 := by
  have := congrArg List.length (List.take_append_drop i q.queue)
  simp only [List.length_append, List.length_cons] at this ⊢
  omega

@[simp] theorem maxQueueSize_enqueue (q : IPQueue) (info : IPInfo) :
    (q.enqueue info).maxQueueSize = q.maxQueueSize := by
  simp only [IPQueue.enqueue]
  split <;> rfl

theorem size_enqueue {q : IPQueue} (h : q.maxQueueSize ≤ 0 ∨ (q.size : Int) < q.maxQueueSize)
    (info : IPInfo) : (q.enqueue info).size = q.size + 1 := by
  simp only [IPQueue.size] at h ⊢
  simp only [IPQueue.enqueue, length_insert]
  rw [if_neg (by omega)]
  exact length_insert q info _

end Vwarp.IpScanner.Engine
