import Vwarp.Go.Strings
import Mathlib.Data.List.Basic

/-!
# Slices that share an array

A slice is a window on an array: where it starts, its length, and its capacity.  Other slices
may be windows on the same array, and `append` writes into it as long as there is capacity left
behind the window.

One array is followed here, with the cells that were written.  A slice is a window on it, or has
an array of its own that nobody else knows, in which case its bytes are all there is to say.
-/

namespace Vwarp.Go

/-- A window on an array. -/
structure Window where
  offset : Nat
  len : Nat
  cap : Nat
  len_le : len ≤ cap

def Window.bytes (w : Window) (array : Bytes) : Bytes := (array.drop w.offset).take w.len

/-- The slice expression `w[:n]`, with a bound that is not beyond the length. -/
def Window.upTo (w : Window) (n : Nat) : Window where
  offset := w.offset
  len := min n w.len
  cap := w.cap
  len_le := Nat.le_trans (Nat.min_le_right n w.len) w.len_le

/-- An array that is shared, and the cells of it that were written. -/
structure Shared where
  array : Bytes
  written : List Nat

def Shared.store (m : Shared) (start : Nat) (bs : Bytes) : Shared where
  array := m.array.take start ++ bs ++ m.array.drop (start + bs.length)
  written := m.written ++ List.range' start bs.length

/-- A slice: a window on the shared array, or one that has its own. -/
inductive Slice
  | shared (w : Window)
  | own (bytes : Bytes)

def Slice.bytes (array : Bytes) : Slice → Bytes
  | shared w => w.bytes array
  | own bytes => bytes

/-- `append(w, bs...)`: in place if the capacity suffices, and to a new array if not. -/
def Shared.append (m : Shared) (w : Window) (bs : Bytes) : Shared × Slice :=
  if h : w.len + bs.length ≤ w.cap then
    (m.store (w.offset + w.len) bs, .shared ⟨w.offset, w.len + bs.length, w.cap, h⟩)
  else (m, .own (w.bytes m.array ++ bs))

theorem Window.length_bytes {w : Window} {array : Bytes} (h : w.offset + w.cap ≤ array.length) :
    (w.bytes array).length = w.len := by
  have hlen := w.len_le
  rw [Window.bytes, List.length_take, List.length_drop]
  omega

theorem Window.bytes_upTo (w : Window) (n : Nat) (array : Bytes) :
    (w.upTo n).bytes array = (w.bytes array).take n := by
  rw [Window.bytes, Window.bytes, List.take_take]
  rfl

/-- What is in the slice after `append`. -/
theorem Shared.bytes_append {m : Shared} {w : Window} (h : w.offset + w.cap ≤ m.array.length)
    (bs : Bytes) : (m.append w bs).2.bytes (m.append w bs).1.array = w.bytes m.array ++ bs := by
  have hlen := w.len_le
  unfold Shared.append
  split_ifs with hcap
  · have hfront : (m.array.take (w.offset + w.len)).length = w.offset + w.len := by
      rw [List.length_take]
      omega
    have hdrop : (m.array.take (w.offset + w.len)).drop w.offset = w.bytes m.array := by
      rw [List.drop_take, Nat.add_sub_cancel_left]
      rfl
    show ((m.array.take (w.offset + w.len) ++ bs ++ _).drop w.offset).take (w.len + bs.length) = _
    rw [List.append_assoc, List.drop_append_of_le_length (by omega), hdrop,
      ← Window.length_bytes h, List.take_length_add_append, List.take_left]
  · rfl

/-- `append` writes no cell of the shared array if there is nothing to append, or no room. -/
theorem Shared.written_append {m : Shared} {w : Window} {bs : Bytes} :
    (m.append w bs).1.written = m.written ↔ bs = [] ∨ w.cap < w.len + bs.length := by
  unfold Shared.append
  split_ifs with hcap
  · show m.written ++ List.range' _ bs.length = m.written ↔ _
    rw [List.append_right_eq_self, List.range'_eq_nil_iff, List.length_eq_zero_iff]
    exact (or_iff_left (by omega)).symm
  · exact iff_of_true rfl (.inr (by omega))

end Vwarp.Go
