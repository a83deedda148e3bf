import Vwarp.Go.Strings

/-!
# Reading from a connection

`io.Reader` as the modelled code uses it: a read is given a buffer, overwrites a
prefix of it and returns a count and an error.  The buffer's contents before and
after the call are explicit, because what a caller finds beyond the count is part
of what the code can get wrong.

A `Conn` is the script of what successive reads deliver.  A piece longer than the
buffer is handed out over several reads; a script that has run out reports its
final error for ever.  Every sequence of counts and errors a reader may produce is
the behaviour of some script.
-/

namespace Vwarp.Go

/-- Error values: the two the `io` package names, or any other with its text. -/
inductive Error
  | eof
  | unexpectedEOF
  | text (msg : Bytes)
deriving DecidableEq, Repr

/-- `copy(dst, src)`: the destination afterwards. -/
def copyInto (dst src : Bytes) : Bytes := src.take dst.length ++ dst.drop src.length

/-- `copy` does not change the length of its destination. -/
@[simp] theorem length_copyInto (dst src : Bytes) : (copyInto dst src).length = dst.length := by
  simp only [copyInto, List.length_append, List.length_take, List.length_drop]
  omega

/-- What `copy` wrote, when the destination has room for it. -/
theorem take_copyInto {dst src : Bytes} (h : src.length ≤ dst.length) :
    (copyInto dst src).take src.length = src := by
  rw [copyInto, List.take_of_length_le h, List.take_left]

/-- What `copy` wrote, when the source is at least as long as the destination. -/
theorem copyInto_of_le {dst src : Bytes} (h : dst.length ≤ src.length) :
    copyInto dst src = src.take dst.length := by
  rw [copyInto, List.drop_of_length_le h, List.append_nil]

/-- What `copy` leaves: as much of the source as both have room for, and the rest of the
destination. -/
theorem copyInto_eq (dst src : Bytes) :
    copyInto dst src = src.take (min dst.length src.length) ++
      dst.drop (min dst.length src.length) := by
  rcases Nat.le_total dst.length src.length with h | h
  · rw [copyInto_of_le h, Nat.min_eq_left h, List.drop_length, List.append_nil]
  · rw [copyInto, Nat.min_eq_right h, List.take_of_length_le h, List.take_length]

/-- A prefix of what `copy` leaves is what `copy` leaves in that prefix. -/
theorem copyInto_take (dst src : Bytes) (n : Nat) :
    (copyInto dst src).take n = copyInto (dst.take n) src := by
  simp only [copyInto, List.take_append, List.take_take, List.length_take, List.drop_take]
  congr 1
  rcases Nat.le_total src.length dst.length with h | h
  · rw [Nat.min_eq_right h]
  · simp [List.drop_of_length_le h]

/-- What one `Read` leaves behind: the caller's buffer, the count and the error. -/
structure ReadResult where
  buf : Bytes
  n : Nat
  err : Option Error
deriving DecidableEq, Repr

/-- The bytes the caller obtains: the count's worth of its buffer. -/
def ReadResult.data (r : ReadResult) : Bytes := r.buf.take r.n

/-- A connection, as the script of its reads. -/
structure Conn where
  /-- The pieces still to be read, each with the error returned at its end. -/
  reads : List (Bytes × Option Error)
  /-- The error returned once the script has run out. -/
  final : Error
deriving DecidableEq, Repr

namespace Conn

/-- `Conn.Read`. -/
def read (c : Conn) (p : Bytes) : ReadResult × Conn :=
  match c.reads with
  | [] => (⟨p, 0, some c.final⟩, c)
  | (d, err) :: rest =>
    if d.length ≤ p.length then (⟨copyInto p d, d.length, err⟩, { c with reads := rest })
    else (⟨copyInto p d, p.length, none⟩, { c with reads := (d.drop p.length, err) :: rest })

/-- Every byte the connection will ever deliver. -/
def stream (c : Conn) : Bytes := c.reads.flatMap Prod.fst

theorem read_n_le (c : Conn) (p : Bytes) : (c.read p).1.n ≤ p.length := by
  unfold read
  split
  · exact Nat.zero_le _
  · split
    · assumption
    · exact Nat.le_refl _

theorem stream_read (c : Conn) (p : Bytes) :
    c.stream = (c.read p).1.data ++ (c.read p).2.stream := by
  unfold read stream ReadResult.data
  split
  · rename_i h
    simp [h]
  · rename_i d err rest h
    split_ifs with hle
    · simp [h, take_copyInto hle]
    · rw [copyInto_of_le (by omega)]
      simp only [h, List.flatMap_cons, List.take_take, Nat.min_self]
      rw [← List.append_assoc, List.take_append_drop]

theorem read_congr (c : Conn) {p q : Bytes} (h : p.length = q.length) :
    (c.read p).1.data = (c.read q).1.data ∧ (c.read p).1.err = (c.read q).1.err ∧
      (c.read p).2 = (c.read q).2 := by
  unfold read ReadResult.data
  split
  · simp
  · rename_i d err rest _
    by_cases hp : d.length ≤ p.length
    · have hq : d.length ≤ q.length := h ▸ hp
      simp [hp, hq, take_copyInto hp, take_copyInto hq]
    · have hq : ¬ d.length ≤ q.length := h ▸ hp
      rw [if_neg hp, if_neg hq]
      refine ⟨?_, rfl, by rw [h]⟩
      rw [copyInto_of_le (by omega), copyInto_of_le (by omega), h]

end Conn

end Vwarp.Go
