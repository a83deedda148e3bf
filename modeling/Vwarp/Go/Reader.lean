import Vwarp.Go.Io

/-!
# `io.Reader` and `io.ReadFull`

A `Reader` is anything with a `Read`.  Its `size` bounds the number of reads that can
succeed, which is what makes the loop of `io.ReadFull` a total function.

A `Source` is a reader with an abstract content: the bytes it has yet to deliver and
the error it then fails with.  How the content is cut into reads is not part of it, so
a function that is specified on the content of every source is independent of
segmentation.  `readFull_of_le` and `readFull_of_lt` specify `io.ReadFull` so.

`bytes.Buffer` is the simplest source; its content is itself.
-/

namespace Vwarp.Go

universe u

/-- `io.Reader`. -/
class Reader (ρ : Type u) where
  /-- `Read`. -/
  read : ρ → Bytes → ReadResult × ρ
  /-- A bound on the number of reads that succeed. -/
  size : ρ → Nat
  /-- A read into a buffer with room that does not fail uses the bound up. -/
  size_read_lt (r : ρ) {p : Bytes} : p ≠ [] → (read r p).1.err = none → size (read r p).2 < size r

variable {ρ : Type u}

/-- The loop of `io.ReadFull`: `done` has been filled, `rest` is still to be filled. -/
def readFullLoop [Reader ρ] : Nat → ρ → Bytes → Bytes → ReadResult × ρ
  | 0, r, done, rest => (⟨done ++ rest, done.length, none⟩, r)
  | fuel + 1, r, done, rest =>
    if rest = [] then (⟨done, done.length, none⟩, r)
    else
      let (res, r) := Reader.read r rest
      let done := done ++ res.data
      let rest := res.buf.drop res.n
      match res.err with
      | none => readFullLoop fuel r done rest
      | some err =>
        if rest = [] then (⟨done, done.length, none⟩, r)
        else
          let err := if done ≠ [] ∧ err = .eof then .unexpectedEOF else err
          (⟨done ++ rest, done.length, some err⟩, r)

/-- `io.ReadFull`. -/
def readFull [Reader ρ] (r : ρ) (p : Bytes) : ReadResult × ρ :=
  readFullLoop (Reader.size r + 1) r [] p

/-! ## Sources -/

/-- A reader with an abstract content. -/
class Source (ρ : Type u) extends Reader ρ where
  /-- The states a source can be in. -/
  Ready : ρ → Prop
  /-- The bytes it has yet to deliver. -/
  content : ρ → Bytes
  /-- The error it fails with after them. -/
  final : ρ → Error
  /-- The lengths of the buffers that it fills from its content and nothing else.  A buffered
  reader passes long ones on to what it reads from. -/
  Serves : Nat → Prop
  /-- If it fills a buffer so, it does a shorter one. -/
  serves_of_le {m n : Nat} : m ≤ n → Serves n → Serves m
  /-- Without content it fails. -/
  read_end (r : ρ) {p : Bytes} : Ready r → p ≠ [] → content r = [] →
    (read r p).1 = ⟨p, 0, some (final r)⟩
  /-- With content it delivers some of it, and no error. -/
  read_more (r : ρ) {p : Bytes} : Ready r → Serves p.length → p ≠ [] → content r ≠ [] →
    ∃ n, 0 < n ∧ n ≤ p.length ∧ n ≤ (content r).length ∧
      (read r p).1 = ⟨(content r).take n ++ p.drop n, n, none⟩ ∧
      Ready (read r p).2 ∧ content (read r p).2 = (content r).drop n ∧
      final (read r p).2 = final r

open Source (Ready Serves content serves_of_le)

variable [Source ρ]

/-- `r'` is `r` after `n` bytes of its content. -/
structure After (r : ρ) (n : Nat) (r' : ρ) : Prop where
  ready : Ready r'
  content : content r' = (content r).drop n
  final : Source.final r' = Source.final r

variable {r : ρ}

theorem After.trans {r' r'' : ρ} {m n : Nat} (h : After r m r') (h' : After r' n r'') :
    After r (m + n) r'' :=
  ⟨h'.ready, by rw [h'.content, h.content, List.drop_drop], h'.final.trans h.final⟩

/-- The error of `io.ReadFull` on a source that ends too early. -/
def shortError (r : ρ) : Error :=
  if content r ≠ [] ∧ Source.final r = .eof then .unexpectedEOF else Source.final r

theorem read_one (hr : Ready r) (hs : Serves ρ 1) {c : UInt8} {cs : Bytes}
    (h : content r = c :: cs) (b : UInt8) :
    ∃ r', Reader.read r [b] = (⟨[c], 1, none⟩, r') ∧ After r 1 r' := by
  obtain ⟨n, hn, hn', -, hres, hready, hcont, hfin⟩ :=
    Source.read_more r (p := [b]) hr hs (by simp) (by simp [h])
  obtain rfl : n = 1 := by simp only [List.length_cons, List.length_nil] at hn'; omega
  rw [h] at hres
  exact ⟨_, Prod.ext hres rfl, hready, hcont, hfin⟩

variable {fuel : Nat} {rest : Bytes}

theorem readFullLoop_more (hr : Ready r) (hf : Reader.size r < fuel + 1) (done : Bytes)
    (hs : Serves ρ rest.length) (hrest : rest ≠ []) (hc : content r ≠ []) :
    ∃ n r', n ≤ rest.length ∧ n ≤ (content r).length ∧ After r n r' ∧ Reader.size r' < fuel ∧
      Serves ρ (rest.drop n).length ∧ readFullLoop (fuel + 1) r done rest =
        readFullLoop fuel r' (done ++ (content r).take n) (rest.drop n) := by
  obtain ⟨n, -, hn, hn', hres, hready, hcont, hfin⟩ := Source.read_more r hr hs hrest hc
  have hsize := Reader.size_read_lt r hrest (by rw [hres])
  have htake : ((content r).take n ++ rest.drop n).take n = (content r).take n :=
    List.take_left' (by simp [hn'])
  have hdrop : ((content r).take n ++ rest.drop n).drop n = rest.drop n :=
    List.drop_left' (by simp [hn'])
  refine ⟨n, _, hn, hn', ⟨hready, hcont, hfin⟩, by omega, serves_of_le (by simp) hs, ?_⟩
  simp only [readFullLoop, hrest, if_false, hres, ReadResult.data, htake, hdrop]

/-- `io.ReadFull` of no more than the content has. -/
theorem readFullLoop_of_le (hr : Ready r) (hf : Reader.size r < fuel) (done : Bytes)
    (hs : Serves ρ rest.length) (h : rest.length ≤ (content r).length) :
    ∃ r', readFullLoop fuel r done rest =
        (⟨done ++ (content r).take rest.length, done.length + rest.length, none⟩, r') ∧
      After r rest.length r' := by
  induction fuel generalizing r done rest with
  | zero => omega
  | succ fuel ih =>
    by_cases hrest : rest = []
    · subst hrest
      exact ⟨r, by simp [readFullLoop], hr, by simp, rfl⟩
    · have hlen : 0 < rest.length := List.length_pos_iff.mpr hrest
      have hne : content r ≠ [] := List.length_pos_iff.mp (by omega)
      obtain ⟨n, r₁, hn, hn', hafter, hsize, hs', heq⟩ := readFullLoop_more hr hf done hs hrest hne
      have hrest' : (rest.drop n).length ≤ (content r₁).length := by
        simp only [hafter.content, List.length_drop]
        omega
      obtain ⟨r', hr', hafter'⟩ :=
        ih hafter.ready hsize (done ++ (content r).take n) hs' hrest'
      refine ⟨r', ?_, ?_⟩
      · rw [heq, hr', hafter.content, List.append_assoc, List.length_drop, ← List.take_add,
          Nat.add_sub_cancel' hn]
        simp only [List.length_append, List.length_take, Nat.min_eq_left hn', Prod.mk.injEq,
          ReadResult.mk.injEq, true_and, and_true]
        omega
      · have := hafter.trans hafter'
        rwa [List.length_drop, Nat.add_sub_cancel' hn] at this

/-- `io.ReadFull` of more than the content has fails, with `ErrUnexpectedEOF` if it had
read something before it met the end of the file. -/
theorem readFullLoop_of_lt (hr : Ready r) (hf : Reader.size r < fuel) (done : Bytes)
    (hs : Serves ρ rest.length) (h : (content r).length < rest.length) :
    (readFullLoop fuel r done rest).1.err =
      some (if done ++ content r ≠ [] ∧ Source.final r = .eof then .unexpectedEOF
        else Source.final r) := by
  induction fuel generalizing r done rest with
  | zero => omega
  | succ fuel ih =>
    have hrest : rest ≠ [] := List.length_pos_iff.mp (by omega)
    by_cases hc : content r = []
    · have hres := Source.read_end r hr hrest hc
      simp only [readFullLoop, hrest, if_false, hres, ReadResult.data, List.take_zero,
        List.append_nil, List.drop_zero, hc]
    · obtain ⟨n, r₁, hn, hn', hafter, hsize, hs', heq⟩ := readFullLoop_more hr hf done hs hrest hc
      have hrest' : (content r₁).length < (rest.drop n).length := by
        simp only [hafter.content, List.length_drop]
        omega
      rw [heq, ih hafter.ready hsize _ hs' hrest', hafter.content, hafter.final, List.append_assoc,
        List.take_append_drop]

/-- `io.ReadFull` of no more than the content has. -/
theorem readFull_of_le (hr : Ready r) {p : Bytes} (hs : Serves ρ p.length)
    (h : p.length ≤ (content r).length) :
    ∃ r', readFull r p = (⟨(content r).take p.length, p.length, none⟩, r') ∧
      After r p.length r' := by
  simpa [readFull] using readFullLoop_of_le hr (Nat.lt_succ_self _) [] hs h

/-- `io.ReadFull` of more than the content has. -/
theorem readFull_of_lt (hr : Ready r) {p : Bytes} (hs : Serves ρ p.length)
    (h : (content r).length < p.length) : (readFull r p).1.err = some (shortError r) := by
  simpa [readFull, shortError] using readFullLoop_of_lt hr (Nat.lt_succ_self _) [] hs h

/-! ## `bytes.Buffer` -/

/-- `bytes.Buffer`: the bytes that have not been read. -/
structure Buffer where
  bytes : Bytes
deriving DecidableEq, Repr

/-- `Buffer.Read`. -/
def Buffer.read (b : Buffer) (p : Bytes) : ReadResult × Buffer :=
  if b.bytes = [] then (⟨p, 0, if p = [] then none else some .eof⟩, ⟨[]⟩)
  else (⟨copyInto p b.bytes, min p.length b.bytes.length, none⟩, ⟨b.bytes.drop p.length⟩)

instance : Source Buffer where
  read := Buffer.read
  size b := b.bytes.length
  size_read_lt b p hp h := by
    have hlen : 0 < p.length := List.length_pos_iff.mpr hp
    unfold Buffer.read at h ⊢
    split at h
    · cases h
    · rename_i hb
      have := List.length_pos_iff.mpr hb
      simp only [hb, if_false, List.length_drop]
      omega
  Ready _ := True
  content := Buffer.bytes
  final _ := .eof
  Serves _ := True
  serves_of_le _ h := h
  read_end b p _ hp h := by simp [Buffer.read, h, hp]
  read_more b p _ _ hp h := by
    have hb := List.length_pos_iff.mpr h
    have hlen := List.length_pos_iff.mpr hp
    refine ⟨min p.length b.bytes.length, by omega, by omega, by omega, ?_, trivial, ?_, rfl⟩
    · simp only [Buffer.read, h, if_false, ← copyInto_eq]
    · simp only [Buffer.read, h, if_false]
      rcases Nat.le_total p.length b.bytes.length with hle | hle
      · rw [Nat.min_eq_left hle]
      · rw [Nat.min_eq_right hle, List.drop_of_length_le hle, List.drop_length]

end Vwarp.Go
