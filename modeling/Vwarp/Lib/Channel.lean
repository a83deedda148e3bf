import Mathlib.Data.List.Basic

/-!
# Bounded channels

A channel is a queue of bounded length that can be closed once.  A send waits while
the queue is full; a receive waits while the queue is empty and open, and reports
the end of the channel when it is empty and closed.  Sending on a closed channel
and closing a closed channel are faults, reported beside the result, so that "this
never happens" is a statement about runs and not part of the model.
-/

namespace Vwarp.Lib

universe u

/-- A channel: what it holds, oldest first, and whether it has been closed. -/
structure Chan (α : Type u) where
  buf : List α
  closed : Bool

namespace Chan

variable {α : Type u}

def make : Chan α := ⟨[], false⟩

/-- A send on a channel of capacity `cap`: `none` while it waits, otherwise the channel
afterwards and whether the send was a fault. -/
def send (cap : Nat) (c : Chan α) (x : α) : Option (Chan α × Bool) :=
  if c.closed then some (c, true)
  else if c.buf.length < cap then some ({ c with buf := c.buf ++ [x] }, false)
  else none

/-- A receive: `none` while it waits, otherwise the element, if the channel has not ended,
and the channel afterwards. -/
def recv (c : Chan α) : Option (Option α × Chan α) :=
  match c.buf with
  | x :: buf => some (some x, { c with buf := buf })
  | [] => if c.closed then some (none, c) else none

/-- Closing: the channel afterwards, and whether it was a fault. -/
def close (c : Chan α) : Chan α × Bool := ({ c with closed := true }, c.closed)

theorem send_cases {cap : Nat} {c c' : Chan α} {x : α} {fault : Bool}
    (h : c.send cap x = some (c', fault)) (hc : c.closed = false) :
    fault = false ∧ c.buf.length < cap ∧ c' = ⟨c.buf ++ [x], false⟩ := by
  simp only [send, hc, Bool.false_eq_true, if_false] at h
  split at h
  · rename_i hroom
    obtain ⟨rfl, rfl⟩ : _ = c' ∧ false = fault := by simpa using h
    exact ⟨rfl, hroom, rfl⟩
  · cases h

theorem recv_cases {c c' : Chan α} {r : Option α} (h : c.recv = some (r, c')) :
    (∃ x buf, r = some x ∧ c.buf = x :: buf ∧ c' = ⟨buf, c.closed⟩) ∨
      r = none ∧ c.buf = [] ∧ c.closed = true ∧ c' = c := by
  unfold recv at h
  split at h
  · rename_i x buf hbuf
    obtain ⟨rfl, rfl⟩ : some x = r ∧ _ = c' := by simpa using h
    exact .inl ⟨x, buf, rfl, hbuf, rfl⟩
  · rename_i hbuf
    split at h
    · rename_i hclosed
      obtain ⟨rfl, rfl⟩ : none = r ∧ c = c' := by simpa using h
      exact .inr ⟨rfl, hbuf, hclosed, rfl⟩
    · cases h

theorem recv_eq_none {c : Chan α} (h : c.recv = none) : c.buf = [] ∧ c.closed = false := by
  unfold recv at h
  split at h
  · cases h
  · rename_i hbuf
    split at h
    · cases h
    · rename_i hopen
      exact ⟨hbuf, by simpa using hopen⟩

theorem send_eq_none {cap : Nat} {c : Chan α} {x : α} (h : c.send cap x = none) :
    cap ≤ c.buf.length := by
  unfold send at h
  split at h
  · cases h
  · split at h
    · cases h
    · omega

end Chan

end Vwarp.Lib
