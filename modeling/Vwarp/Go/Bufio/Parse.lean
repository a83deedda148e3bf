import Mathlib.Logic.Relation
import Vwarp.Go.Bufio

/-!
# Parsing from a `bufio.Reader`

A parser that takes the first bytes of a stream through a buffered reader leaves the reader with
whatever else was read with them.  The methods of the reader do two things: they read from the
connection, when the buffer does not have what is asked for, and they take bytes out of the
buffer.  A parser is a sequence of such steps (`Parsing`), and all that is assumed of it is that
it does not ask for more once the buffer has all that it wants.

The connection is given by what its reads return, so that a piece never exceeds the room in the
buffer it is read into.  `buf_eq_nil_iff` says when nothing is left in the buffer: exactly if one
of the reads ends where the parser stops.

`Discard` is the simplest parser, and `parsing_discard` says that it is one.
-/

namespace Vwarp.Go

namespace Conn

def front (c : Conn) (k : Nat) : Bytes := (c.reads.take k).flatMap Prod.fst

theorem front_append_drop (c : Conn) (k : Nat) :
    c.stream = c.front k ++ (c.reads.drop k).flatMap Prod.fst := by
  rw [front, ← List.flatMap_append, List.take_append_drop, stream]

theorem front_succ {c : Conn} {k : Nat} {d : Bytes} {err : Option Error}
    {rest : List (Bytes × Option Error)} (h : c.reads.drop k = (d, err) :: rest) :
    c.front (k + 1) = c.front k ++ d ∧ c.reads.drop (k + 1) = rest := by
  constructor
  · have hk : c.reads[k]? = some (d, err) := by
      rw [← List.head?_drop, h]
      rfl
    rw [front, List.take_add_one, hk, List.flatMap_append]
    simp [front]
  · rw [← List.drop_drop, h]
    rfl

theorem length_front_mono (c : Conn) {i j : Nat} (h : i ≤ j) :
    (c.front i).length ≤ (c.front j).length := by
  have hsplit : c.reads.take j = c.reads.take i ++ (c.reads.drop i).take (j - i) := by
    rw [← List.take_add, Nat.add_sub_cancel' h]
  rw [front, front, hsplit, List.flatMap_append, List.length_append]
  exact Nat.le_add_right ..

end Conn

namespace BufReader

variable {size : Nat}

/-- A step of a parser that wants a number of bytes. -/
inductive Parsing.Step : BufReader size × Nat → BufReader size × Nat → Prop
  /-- A read of the connection, if the buffer does not have all that is wanted. -/
  | read {d err rest final buf wanted} (hwanted : buf.length < wanted)
      (hroom : d.length ≤ size - buf.length) :
      Step (⟨⟨(d, err) :: rest, final⟩, buf, none⟩, wanted)
        (⟨⟨rest, final⟩, buf ++ d, err⟩, wanted)
  /-- Bytes that are taken out of the buffer. -/
  | take {b wanted n} (hbuf : n ≤ b.buf.length) (hwanted : n ≤ wanted) :
      Step (b, wanted) ({ b with buf := b.buf.drop n }, wanted - n)

/-- A parser takes the first `n` bytes of the connection. -/
def Parsing (c : Conn) (n : Nat) (b : BufReader size) : Prop :=
  Relation.ReflTransGen Parsing.Step (new size c, n) (b, 0)

namespace Parsing

/-- What is true at every step of a parser: `taken` has been taken, the buffer has what else was
read, and before the last read there was something wanted that had not been read. -/
structure Inv (c : Conn) (n : Nat) (s : BufReader size × Nat) (taken : Bytes) (k : Nat) :
    Prop where
  reads : s.1.rd.reads = c.reads.drop k
  wanted : taken.length + s.2 = n
  front : c.front k = taken ++ s.1.buf
  short : ∀ i < k, (c.front i).length < n

theorem inv_new (c : Conn) (n : Nat) : Inv c n (new size c, n) [] 0 where
  reads := rfl
  wanted := Nat.zero_add n
  front := rfl
  short := fun _ hi ↦ absurd hi (Nat.not_lt_zero _)

theorem Inv.step {c : Conn} {n : Nat} {s t : BufReader size × Nat} {taken : Bytes} {k : Nat}
    (h : Inv c n s taken k) (hstep : Step s t) : ∃ taken k, Inv c n t taken k := by
  cases hstep with
  | @read d err rest final buf wanted hwanted hroom =>
    obtain ⟨hfront, hdrop⟩ := Conn.front_succ h.reads.symm
    have hlen : (c.front k).length < n := by
      rw [h.front, List.length_append, ← h.wanted]
      exact Nat.add_lt_add_left hwanted _
    refine ⟨taken, k + 1, hdrop.symm, h.wanted, ?_, ?_⟩
    · rw [hfront, h.front, List.append_assoc]
    · intro i hi
      exact Nat.lt_of_le_of_lt (c.length_front_mono (Nat.le_of_lt_succ hi)) hlen
  | @take b wanted m hbuf hwanted =>
    refine ⟨taken ++ b.buf.take m, k, h.reads, ?_, ?_, h.short⟩
    · rw [List.length_append, List.length_take, Nat.min_eq_left hbuf, Nat.add_assoc,
        Nat.add_sub_cancel' hwanted]
      exact h.wanted
    · rw [h.front, List.append_assoc, List.take_append_drop]

theorem inv {c : Conn} {n : Nat} {s : BufReader size × Nat}
    (h : Relation.ReflTransGen Step (new size c, n) s) : ∃ taken k, Inv c n s taken k := by
  induction h with
  | refl => exact ⟨[], 0, inv_new c n⟩
  | tail _ hstep ih =>
    obtain ⟨taken, k, hinv⟩ := ih
    exact hinv.step hstep

variable {c : Conn} {n : Nat} {b : BufReader size}

theorem stream_eq (h : Parsing c n b) : ∃ taken, taken.length = n ∧
    c.stream = taken ++ (b.buf ++ b.rd.stream) := by
  obtain ⟨taken, k, hinv⟩ := inv h
  refine ⟨taken, hinv.wanted, ?_⟩
  rw [← List.append_assoc, ← hinv.front]
  refine (c.front_append_drop k).trans ?_
  rw [← hinv.reads]
  rfl

theorem buf_eq_nil_iff (h : Parsing c n b) : b.buf = [] ↔ ∃ k, (c.front k).length = n := by
  obtain ⟨taken, k, hinv⟩ := inv h
  have hlen : (c.front k).length = n + b.buf.length := by
    rw [hinv.front, List.length_append]
    exact congrArg (· + _) hinv.wanted
  constructor
  · intro hbuf
    exact ⟨k, by rw [hlen, hbuf]; rfl⟩
  · rintro ⟨i, hi⟩
    -- the reads before the last one do not come to the end, and those after it come no less far
    have hki : k ≤ i := Nat.le_of_not_lt fun hlt ↦ Nat.ne_of_lt (hinv.short i hlt) hi
    have hmono := c.length_front_mono hki
    exact List.length_eq_zero_iff.mp (by omega)

end Parsing

/-! ## `Discard` -/

/-- The loop of `Reader.Discard`. -/
def discardLoop : Nat → Nat → BufReader size → BufReader size
  | 0, _, b => b
  | fuel + 1, n, b =>
    let b := if b.buf = [] then b.fill else b
    let skip := min n b.buf.length
    let b := { b with buf := b.buf.drop skip }
    if n = skip ∨ b.err ≠ none then b else discardLoop fuel (n - skip) b

/-- `Reader.Discard`: the reader afterwards.  Each round takes a byte. -/
def discard (n : Nat) (b : BufReader size) : BufReader size := discardLoop n n b

/-- Reads that return something, with no error, and no more than a buffer has room for. -/
def Whole (size : Nat) (reads : List (Bytes × Option Error)) : Prop :=
  ∀ x ∈ reads, x.1 ≠ [] ∧ x.1.length ≤ size ∧ x.2 = none

instance (reads : List (Bytes × Option Error)) : Decidable (Whole size reads) :=
  inferInstanceAs (Decidable (∀ x ∈ reads, x.1 ≠ [] ∧ x.1.length ≤ size ∧ x.2 = none))

theorem fill_whole {rest : List (Bytes × Option Error)} {d : Bytes} {err : Option Error}
    {final : Error} (h : Whole size ((d, err) :: rest)) :
    (⟨⟨(d, err) :: rest, final⟩, [], none⟩ : BufReader size).fill = ⟨⟨rest, final⟩, d, none⟩ := by
  obtain ⟨hd, hsize, herr⟩ := h (d, err) List.mem_cons_self
  cases herr
  have hpos : 0 < d.length := List.length_pos_iff.mpr hd
  have htake : (copyInto (List.replicate size 0) d).take d.length = d :=
    take_copyInto (by simpa using hsize)
  simp [fill, fillLoop, Conn.read, hsize, hpos, ReadResult.data, htake]

theorem steps_discardLoop {fuel n : Nat} {reads : List (Bytes × Option Error)} {final : Error}
    {buf : Bytes} (hn : 0 < n) (hfuel : n ≤ fuel) (hwhole : Whole size reads)
    (hlen : n ≤ (buf ++ reads.flatMap Prod.fst).length) :
    Relation.ReflTransGen Parsing.Step (⟨⟨reads, final⟩, buf, none⟩, n)
      (discardLoop fuel n (⟨⟨reads, final⟩, buf, none⟩ : BufReader size), 0) := by
  induction fuel generalizing n reads buf with
  | zero => exact absurd hfuel (Nat.not_le_of_lt hn)
  | succ fuel ih =>
    -- once the buffer is filled, a round takes bytes out of it
    have hround {reads : List (Bytes × Option Error)} {buf : Bytes} (hbuf : buf ≠ [])
        (hwhole : Whole size reads) (hlen : n ≤ (buf ++ reads.flatMap Prod.fst).length) :
        Relation.ReflTransGen Parsing.Step (⟨⟨reads, final⟩, buf, none⟩, n)
          (discardLoop (fuel + 1) n (⟨⟨reads, final⟩, buf, none⟩ : BufReader size), 0) := by
      have hpos : 0 < buf.length := List.length_pos_iff.mpr hbuf
      simp only [discardLoop, if_neg hbuf, ne_eq, not_true_eq_false, or_false]
      rcases Nat.lt_or_ge buf.length n with hlt | hle
      · have hmin : min n buf.length = buf.length := Nat.min_eq_right (Nat.le_of_lt hlt)
        rw [hmin, if_neg (Nat.ne_of_gt hlt)]
        have hrest : n - buf.length ≤ (([] : Bytes) ++ reads.flatMap Prod.fst).length := by
          rw [List.length_append] at hlen
          exact Nat.sub_le_of_le_add (Nat.add_comm .. ▸ hlen)
        have hfuel' : n - buf.length ≤ fuel := by omega
        have hnext := ih (Nat.sub_pos_of_lt hlt) hfuel' hwhole hrest
        refine .head (.take (Nat.le_refl buf.length) (Nat.le_of_lt hlt)) ?_
        rw [List.drop_length]
        exact hnext
      · rw [if_pos (Nat.min_eq_left hle).symm, Nat.min_eq_left hle]
        have hstep := Parsing.Step.take (b := (⟨⟨reads, final⟩, buf, none⟩ : BufReader size))
          hle (Nat.le_refl n)
        rw [Nat.sub_self] at hstep
        exact .single hstep
    by_cases hbuf : buf = []
    · subst hbuf
      cases reads with
      | nil => exact absurd hlen (Nat.not_le_of_lt hn)
      | cons x rest =>
        obtain ⟨d, err⟩ := x
        obtain ⟨hd, hsize, herr⟩ := hwhole (d, err) List.mem_cons_self
        cases herr
        have hfilled : discardLoop (fuel + 1) n
            (⟨⟨(d, none) :: rest, final⟩, [], none⟩ : BufReader size) =
              discardLoop (fuel + 1) n ⟨⟨rest, final⟩, d, none⟩ := by
          rw [discardLoop, discardLoop, if_pos rfl, if_neg hd, fill_whole hwhole]
        rw [hfilled]
        refine .head (.read hn hsize) (hround hd ?_ hlen)
        exact fun x hx ↦ hwhole x (List.mem_cons_of_mem _ hx)
    · exact hround hbuf hwhole hlen

/-- `Discard` is a parser. -/
theorem parsing_discard {c : Conn} {n : Nat} (hwhole : Whole size c.reads)
    (hlen : n ≤ c.stream.length) : Parsing c n (discard n (new size c)) := by
  rcases Nat.eq_zero_or_pos n with rfl | hn
  · exact .refl
  · exact steps_discardLoop hn (Nat.le_refl n) hwhole hlen

end BufReader

end Vwarp.Go
