import Vwarp.Go.Reader

/-!
# `bufio.Reader`

A reader with a buffer of `size` bytes in front of a connection.  A read that finds the
buffer empty fills it with one read of the connection, unless the caller's buffer is no
smaller, which is then passed on to the connection.  An error that came with bytes is
kept until the bytes have been delivered.

The stream of a connection is what it delivers up to the first error.  If every read of
the connection makes progress, the buffered reader is a source of that stream, for
buffers shorter than its own, and `Peek` shows the front of it without consuming it.
-/

namespace Vwarp.Go

namespace Conn

/-- What a script delivers up to its first error, and that error, or `final` if there is
none. -/
def upTo (final : Error) : List (Bytes × Option Error) → Bytes × Error
  | [] => ([], final)
  | (d, none) :: rest => (d ++ (upTo final rest).1, (upTo final rest).2)
  | (d, some err) :: _ => (d, err)

def received (c : Conn) : Bytes := (upTo c.final c.reads).1

def firstError (c : Conn) : Error := (upTo c.final c.reads).2

/-- Every read returns at least one byte or an error. -/
def Progress (c : Conn) : Prop := ∀ x ∈ c.reads, x.1 ≠ [] ∨ x.2 ≠ none

/-- The measure of a connection: every read into a buffer with room uses some of it up. -/
def size (c : Conn) : Nat := c.stream.length + c.reads.length

theorem size_read (c : Conn) {p : Bytes} (hp : p ≠ []) :
    (c.read p).2.size + (c.read p).1.n ≤ c.size ∧
      ((c.read p).1.err = none → (c.read p).1.n = 0 → (c.read p).2.size < c.size) := by
  have hlen : 0 < p.length := List.length_pos_iff.mpr hp
  unfold read
  split
  · exact ⟨Nat.le_refl _, fun h ↦ nomatch h⟩
  · rename_i d err rest hreads
    split
    · simp only [size, stream, hreads, List.flatMap_cons, List.length_append, List.length_cons]
      omega
    · simp only [size, stream, hreads, List.flatMap_cons, List.length_append, List.length_cons,
        List.length_drop]
      omega

/-- What a read does to a connection that makes progress: it fails with the first error,
and there was nothing more to receive; or it delivers the front of what there is to
receive, and either the connection goes on as before or its first error came with these
bytes, which were the last. -/
theorem read_cases {c : Conn} (hc : c.Progress) {p : Bytes} (hp : p ≠ []) :
    (c.received = [] ∧ (c.read p).1 = ⟨p, 0, some c.firstError⟩) ∨
      ∃ n, 0 < n ∧ n ≤ p.length ∧ n ≤ c.received.length ∧
        (c.read p).1.buf = c.received.take n ++ p.drop n ∧ (c.read p).1.n = n ∧
        ((c.read p).1.err = none ∧ (c.read p).2.Progress ∧
            (c.read p).2.received = c.received.drop n ∧ (c.read p).2.firstError = c.firstError ∨
          (c.read p).1.err = some c.firstError ∧ n = c.received.length) := by
  obtain ⟨reads, final⟩ := c
  have hlen : 0 < p.length := List.length_pos_iff.mpr hp
  cases reads with
  | nil => exact .inl ⟨rfl, rfl⟩
  | cons x rest =>
    obtain ⟨d, err⟩ := x
    have hrest : (Conn.mk rest final).Progress := fun y hy ↦ hc y (List.mem_cons_of_mem _ hy)
    have hx := hc (d, err) List.mem_cons_self
    by_cases hd : d = []
    · -- a piece without bytes is an error
      subst hd
      obtain ⟨e, rfl⟩ := Option.ne_none_iff_exists'.mp (hx.resolve_left fun h ↦ h rfl)
      refine .inl ⟨rfl, ?_⟩
      simp [read, copyInto, firstError, upTo]
    · have hpos : 0 < d.length := List.length_pos_iff.mpr hd
      right
      by_cases hle : d.length ≤ p.length
      · -- the piece fits
        have htake := List.take_of_length_le hle
        cases err with
        | none =>
          refine ⟨d.length, hpos, hle, ?_, ?_, ?_,
            .inl ⟨?_, by simpa [read, hle] using hrest, ?_, ?_⟩⟩
          all_goals simp [read, hle, copyInto, received, firstError, upTo, htake]
        | some e =>
          refine ⟨d.length, hpos, hle, ?_, ?_, ?_, .inr ⟨?_, ?_⟩⟩
          all_goals simp [read, hle, copyInto, received, firstError, upTo, htake]
      · -- the piece is cut
        have hlt : p.length ≤ d.length := by omega
        have hcut : (Conn.mk ((d.drop p.length, err) :: rest) final).Progress := by
          intro y hy
          rcases List.mem_cons.mp hy with rfl | hy
          · exact .inl (List.length_pos_iff.mp (by rw [List.length_drop]; omega))
          · exact hrest y hy
        refine ⟨p.length, hlen, Nat.le_refl _, ?_, ?_, ?_, .inl ⟨?_, ?_, ?_, ?_⟩⟩
        · cases err with
          | none => simp only [received, upTo, List.length_append]; omega
          | some e => exact hlt
        · cases err with
          | none => simp [read, hle, copyInto, received, upTo, List.take_append_of_le_length hlt,
              List.drop_of_length_le hlt]
          | some e => simp [read, hle, copyInto, received, upTo, List.drop_of_length_le hlt]
        · simp [read, hle]
        · simp [read, hle]
        · simpa [read, hle] using hcut
        · cases err with
          | none => simp [read, hle, received, upTo, List.drop_append_of_le_length hlt]
          | some e => simp [read, hle, received, upTo]
        · cases err <;> simp [read, hle, firstError, upTo]

end Conn

/-- `bufio.Reader`: what it reads from, the bytes in the buffer that have not been read,
and the error that is still to be returned. -/
structure BufReader (size : Nat) where
  rd : Conn
  buf : Bytes
  err : Option Error
deriving DecidableEq, Repr

namespace BufReader

variable {size : Nat}

/-- `bufio.NewReaderSize`. -/
def new (size : Nat) (rd : Conn) : BufReader size := ⟨rd, [], none⟩

/-- `io.ErrNoProgress`. -/
def errNoProgress : Error := .text (str "multiple Read calls return no data or error")

/-- `bufio.ErrBufferFull`. -/
def errBufferFull : Error := .text (str "bufio: buffer full")

/-- The loop of `Reader.fill`. -/
def fillLoop : Nat → BufReader size → BufReader size
  | 0, b => { b with err := some errNoProgress }
  | i + 1, b =>
    match b.rd.read (List.replicate (size - b.buf.length) 0) with
    | (res, rd) =>
      let b := { b with rd := rd, buf := b.buf ++ res.data }
      match res.err with
      | some err => { b with err := some err }
      | none => if 0 < res.n then b else fillLoop i b

/-- `Reader.fill`. -/
def fill (b : BufReader size) : BufReader size := b.fillLoop 100

/-- The loop of `Reader.Peek`: each round adds a byte or sets the error. -/
def peekLoop (n : Nat) : Nat → BufReader size → BufReader size
  | 0, b => b
  | fuel + 1, b =>
    if b.buf.length < n ∧ b.buf.length < size ∧ b.err = none then peekLoop n fuel b.fill else b

/-- `Reader.Peek`: the bytes and the error. -/
def peek (n : Nat) (b : BufReader size) : (Bytes × Option Error) × BufReader size :=
  let b := b.peekLoop n n
  if size < n then ((b.buf, some errBufferFull), b)
  else if b.buf.length < n then
    ((b.buf, some (b.err.getD errBufferFull)), { b with err := none })
  else ((b.buf.take n, none), b)

/-- `Reader.Read`. -/
def read (b : BufReader size) (p : Bytes) : ReadResult × BufReader size :=
  if p = [] then
    if b.buf ≠ [] then (⟨p, 0, none⟩, b) else (⟨p, 0, b.err⟩, { b with err := none })
  else if b.buf ≠ [] then
    (⟨copyInto p b.buf, min p.length b.buf.length, none⟩, { b with buf := b.buf.drop p.length })
  else if b.err ≠ none then (⟨p, 0, b.err⟩, { b with err := none })
  else if size ≤ p.length then
    match b.rd.read p with
    | (res, rd) => (res, { b with rd := rd })
  else
    match b.rd.read (List.replicate size 0) with
    | (res, rd) =>
      if res.n = 0 then (⟨p, 0, res.err⟩, { b with rd := rd })
      else
        (⟨copyInto p res.data, min p.length res.data.length, none⟩,
          { rd := rd, buf := res.data.drop p.length, err := res.err })

/-! ## As a source -/

/-- What the reader has yet to deliver: its buffer, and what the connection has to deliver,
unless the error is already known. -/
def content (b : BufReader size) : Bytes :=
  b.buf ++ if b.err = none then b.rd.received else []

def final (b : BufReader size) : Error := b.err.getD b.rd.firstError

/-- The connection, if it is still to be read from, makes progress. -/
def Ready (b : BufReader size) : Prop := b.err = none → b.rd.Progress

variable {c : Conn} {p : Bytes}

theorem data_of_read {n : Nat} (hlen : n ≤ c.received.length)
    (hbuf : (c.read p).1.buf = c.received.take n ++ p.drop n) (hn : (c.read p).1.n = n) :
    (c.read p).1.data = c.received.take n := by
  rw [ReadResult.data, hbuf, hn, List.take_left' (by simp [hlen])]

/-- The reader after one read of the connection into an empty buffer. -/
def load (size : Nat) (c : Conn) : BufReader size :=
  ⟨(c.read (List.replicate size 0)).2, (c.read (List.replicate size 0)).1.data,
    (c.read (List.replicate size 0)).1.err⟩

theorem load_spec (size : Nat) (hc : c.Progress) (hsize : 0 < size) :
    (load size c).Ready ∧ (load size c).content = c.received ∧
      (load size c).final = c.firstError := by
  have hp : List.replicate size (0 : UInt8) ≠ [] :=
    List.length_pos_iff.mp (by rwa [List.length_replicate])
  have hfailed (herr : (load size c).err = some c.firstError)
      (hbuf : (load size c).buf = c.received) :
      (load size c).Ready ∧ (load size c).content = c.received ∧
        (load size c).final = c.firstError := by
    refine ⟨fun hnone ↦ absurd (herr.symm.trans hnone) (by simp), ?_, ?_⟩
    · rw [content, if_neg (by simp [herr]), hbuf, List.append_nil]
    · rw [final, herr]
      rfl
  rcases Conn.read_cases hc hp with ⟨hnil, hres⟩ | ⟨n, -, -, hlen, hbuf, hn, hnext⟩
  · refine hfailed (congrArg ReadResult.err hres) ((congrArg ReadResult.data hres).trans ?_)
    rw [hnil]
    rfl
  · have hdata : (load size c).buf = c.received.take n := data_of_read hlen hbuf hn
    rcases hnext with ⟨herr, hprogress, hrec, hfirst⟩ | ⟨herr, rfl⟩
    · have herr : (load size c).err = none := herr
      refine ⟨fun _ ↦ hprogress, ?_, ?_⟩
      · rw [content, if_pos herr, hdata]
        exact (congrArg _ hrec).trans (List.take_append_drop _ _)
      · rw [final, herr]
        exact hfirst
    · exact hfailed herr (hdata.trans (List.take_length ..))

theorem load_nonempty (size : Nat) (hc : c.Progress) (hsize : 0 < size) (h : c.received ≠ []) :
    (load size c).buf ≠ [] ∧ (c.read (List.replicate size 0)).1.n ≠ 0 := by
  have hp : List.replicate size (0 : UInt8) ≠ [] :=
    List.length_pos_iff.mp (by rwa [List.length_replicate])
  rcases Conn.read_cases hc hp with ⟨hnil, -⟩ | ⟨n, hpos, -, hlen, hbuf, hn, -⟩
  · exact absurd hnil h
  · have hdata : (load size c).buf = c.received.take n := data_of_read hlen hbuf hn
    refine ⟨?_, by omega⟩
    rw [hdata, ← List.length_pos_iff, List.length_take]
    omega

variable {b : BufReader size}

theorem read_buffered (hr : b.Ready) (hp : p ≠ []) (hb : b.buf ≠ []) :
    ∃ n, 0 < n ∧ n ≤ p.length ∧ n ≤ b.content.length ∧
      (b.read p).1 = ⟨b.content.take n ++ p.drop n, n, none⟩ ∧
      (b.read p).2.Ready ∧ (b.read p).2.content = b.content.drop n ∧
      (b.read p).2.final = b.final := by
  have hlen : 0 < p.length := List.length_pos_iff.mpr hp
  have hpos : 0 < b.buf.length := List.length_pos_iff.mpr hb
  have hle : min p.length b.buf.length ≤ b.buf.length := Nat.min_le_right _ _
  have hread : b.read p = (⟨copyInto p b.buf, min p.length b.buf.length, none⟩,
      { b with buf := b.buf.drop p.length }) := by
    rw [read, if_neg hp, if_pos hb]
  have hdrop : b.buf.drop p.length = b.buf.drop (min p.length b.buf.length) := by
    rcases Nat.le_total p.length b.buf.length with h | h
    · rw [Nat.min_eq_left h]
    · rw [Nat.min_eq_right h, List.drop_of_length_le h, List.drop_length]
  rw [hread]
  refine ⟨min p.length b.buf.length, by omega, Nat.min_le_left _ _, ?_, ?_, hr, ?_, rfl⟩
  · rw [content, List.length_append]
    omega
  · rw [content, List.take_append_of_le_length hle, copyInto_eq]
  · rw [content, content, List.drop_append_of_le_length hle, hdrop]

theorem read_load (hp : p ≠ []) (hlt : p.length < size) (hb : b.buf = []) (herr : b.err = none)
    (hn : (b.rd.read (List.replicate size 0)).1.n ≠ 0) (hbuf : (load size b.rd).buf ≠ []) :
    b.read p = (load size b.rd).read p := by
  rw [read, if_neg hp, if_neg (not_not.mpr hb), if_neg (not_not.mpr herr), if_neg (by omega),
    read, if_neg hp, if_pos hbuf]
  exact if_neg hn

theorem size_read_lt (b : BufReader size) {p : Bytes} (hp : p ≠ []) (h : (b.read p).1.err = none) :
    (b.read p).2.buf.length + (b.read p).2.rd.size < b.buf.length + b.rd.size := by
  have hlen : 0 < p.length := List.length_pos_iff.mpr hp
  unfold read at h ⊢
  rw [if_neg hp] at h ⊢
  split
  · rename_i hb
    have := List.length_pos_iff.mpr hb
    simp only [List.length_drop]
    omega
  · rename_i hb
    rw [if_neg hb] at h
    split
    · rename_i herr
      rw [if_pos herr] at h
      exact absurd h herr
    · rename_i herr
      rw [if_neg herr] at h
      split_ifs with hlong
      · rw [if_pos hlong] at h
        obtain ⟨hsize, hzero⟩ := b.rd.size_read hp
        have hzero := hzero h
        dsimp only
        omega
      · rw [if_neg hlong] at h
        obtain ⟨hsize, hzero⟩ := b.rd.size_read (p := List.replicate size 0)
          (List.length_pos_iff.mp (by rw [List.length_replicate]; omega))
        dsimp only at h ⊢
        split_ifs with hn
        · rw [if_pos hn] at h
          have := hzero h hn
          dsimp only
          omega
        · have hdata := List.length_take_le (b.rd.read (List.replicate size 0)).1.n
            (b.rd.read (List.replicate size 0)).1.buf
          simp only [ReadResult.data, List.length_drop]
          omega

theorem read_end (b : BufReader size) {p : Bytes} (hr : b.Ready) (hp : p ≠ [])
    (h : b.content = []) : (b.read p).1 = ⟨p, 0, some b.final⟩ := by
  obtain ⟨hb, hrd⟩ := List.append_eq_nil_iff.mp h
  rw [read, if_neg hp, if_neg (not_not.mpr hb)]
  split
  · rename_i herr
    obtain ⟨e, he⟩ := Option.ne_none_iff_exists'.mp herr
    rw [final, he]
    rfl
  · rename_i herr
    have herr : b.err = none := not_not.mp herr
    rw [if_pos herr] at hrd
    have hread {q : Bytes} (hq : q ≠ []) : (b.rd.read q).1 = ⟨q, 0, some b.rd.firstError⟩ := by
      rcases Conn.read_cases (hr herr) hq with ⟨-, hres⟩ | ⟨n, hpos, -, hle, -⟩
      · exact hres
      · rw [hrd, List.length_nil] at hle
        omega
    rw [final, herr]
    split_ifs with hshort
    · exact hread hp
    · have hres := hread (q := List.replicate size 0)
        (List.length_pos_iff.mp (by rw [List.length_replicate]; omega))
      simp only [hres, if_true]
      rfl

/-- While the buffer is empty and there is more, the error is not known yet. -/
theorem content_of_buf (hb : b.buf = []) (h : b.content ≠ []) :
    b.err = none ∧ b.content = b.rd.received := by
  have herr : b.err = none := by
    by_contra herr
    rw [content, hb, if_neg herr] at h
    exact h rfl
  exact ⟨herr, by rw [content, hb, if_pos herr, List.nil_append]⟩

theorem read_more (b : BufReader size) {p : Bytes} (hr : b.Ready) (hs : p.length < size)
    (hp : p ≠ []) (h : b.content ≠ []) :
    ∃ n, 0 < n ∧ n ≤ p.length ∧ n ≤ b.content.length ∧
      (b.read p).1 = ⟨b.content.take n ++ p.drop n, n, none⟩ ∧
      (b.read p).2.Ready ∧ (b.read p).2.content = b.content.drop n ∧
      (b.read p).2.final = b.final := by
  by_cases hb : b.buf = []
  · obtain ⟨herr, hcontent⟩ := content_of_buf hb h
    have hsize : 0 < size := Nat.lt_of_le_of_lt (Nat.zero_le _) hs
    obtain ⟨hready, hcont, hfin⟩ := load_spec size (hr herr) hsize
    obtain ⟨hbuf, hn⟩ := load_nonempty size (hr herr) hsize (hcontent ▸ h)
    have hmore := read_buffered hready hp hbuf
    rw [← read_load hp hs hb herr hn hbuf, hcont, ← hcontent, hfin] at hmore
    have hfinal : b.final = b.rd.firstError := by rw [final, herr]; rfl
    rwa [hfinal]
  · exact read_buffered hr hp hb

instance : Source (BufReader size) where
  read := read
  size b := b.buf.length + b.rd.size
  size_read_lt := size_read_lt
  Ready := Ready
  content := content
  final := final
  Serves n := n < size
  serves_of_le := Nat.lt_of_le_of_lt
  read_end := read_end
  read_more := read_more

theorem read_data (hr : b.Ready) (hp : p ≠ []) (h : b.content ≠ []) :
    ∃ n, 0 < n ∧ n ≤ b.content.length ∧ (b.read p).1.data = b.content.take n := by
  have hshort (hmore : ∃ n, 0 < n ∧ n ≤ p.length ∧ n ≤ b.content.length ∧
      (b.read p).1 = ⟨b.content.take n ++ p.drop n, n, none⟩) :
      ∃ n, 0 < n ∧ n ≤ b.content.length ∧ (b.read p).1.data = b.content.take n := by
    obtain ⟨n, hpos, -, hle, hres⟩ := hmore
    refine ⟨n, hpos, hle, ?_⟩
    rw [hres, ReadResult.data, List.take_left' (by simp [hle])]
  rcases Nat.lt_or_ge p.length size with hs | hs
  · obtain ⟨n, hpos, hle, hle', hres, -⟩ := Source.read_more b hr hs hp h
    exact hshort ⟨n, hpos, hle, hle', hres⟩
  · by_cases hb : b.buf = []
    · obtain ⟨herr, hcontent⟩ := content_of_buf hb h
      have hread : (b.read p).1 = (b.rd.read p).1 := by
        rw [read, if_neg hp, if_neg (not_not.mpr hb), if_neg (not_not.mpr herr), if_pos hs]
      rcases Conn.read_cases (hr herr) hp with ⟨hnil, -⟩ | ⟨n, hpos, -, hlen, hbuf, hn, -⟩
      · exact absurd (hcontent.trans hnil) h
      · rw [hread, hcontent]
        exact ⟨n, hpos, hlen, data_of_read hlen hbuf hn⟩
    · obtain ⟨n, hpos, hle, hle', hres, -⟩ := read_buffered hr hp hb
      exact hshort ⟨n, hpos, hle, hle', hres⟩

theorem fill_eq_load (hc : b.rd.Progress) (hsize : 0 < size) (hb : b.buf = [])
    (herr : b.err = none) : b.fill = load size b.rd := by
  have hp : List.replicate size (0 : UInt8) ≠ [] :=
    List.length_pos_iff.mp (by rwa [List.length_replicate])
  obtain ⟨rd, buf, err⟩ := b
  obtain rfl : buf = [] := hb
  obtain rfl : err = none := herr
  rw [fill, fillLoop]
  simp only [List.length_nil, Nat.sub_zero, List.nil_append, load]
  cases hres : (rd.read (List.replicate size 0)).1.err with
  | some e => rfl
  | none =>
    rcases Conn.read_cases hc hp with ⟨-, hfail⟩ | ⟨n, hpos, -, -, -, hn, -⟩
    · rw [hfail] at hres
      cases hres
    · exact if_pos (hn ▸ hpos)

/-- The loop of `Peek(1)` consumes nothing, and leaves the buffer empty only at the end. -/
theorem peekLoop_one (hr : b.Ready) (hsize : 0 < size) :
    After b 0 (b.peekLoop 1 1) ∧
      ((b.peekLoop 1 1).buf = [] → b.content = [] ∧ (b.peekLoop 1 1).err = some b.final) := by
  rw [peekLoop]
  split_ifs with hcond
  · have hb : b.buf = [] := List.length_eq_zero_iff.mp (Nat.lt_one_iff.mp hcond.1)
    have herr : b.err = none := hcond.2.2
    have hcontent : b.content = b.rd.received := by rw [content, hb, if_pos herr, List.nil_append]
    have hfinal : b.final = b.rd.firstError := by rw [final, herr]; rfl
    obtain ⟨hready, hcont, hfin⟩ := load_spec size (hr herr) hsize
    rw [peekLoop, fill_eq_load (hr herr) hsize hb herr]
    refine ⟨⟨hready, hcont.trans hcontent.symm, hfin.trans hfinal.symm⟩, ?_⟩
    intro hempty
    have hnil : b.rd.received = [] := by
      by_contra hne
      exact (load_nonempty size (hr herr) hsize hne).1 hempty
    refine ⟨hcontent.trans hnil, ?_⟩
    rcases Conn.read_cases (p := List.replicate size 0) (hr herr)
        (List.length_pos_iff.mp (by rwa [List.length_replicate])) with
      ⟨-, hres⟩ | ⟨n, hpos, -, hle, -⟩
    · exact (congrArg ReadResult.err hres).trans (congrArg some hfinal.symm)
    · rw [hnil, List.length_nil] at hle
      omega
  · refine ⟨⟨hr, rfl, rfl⟩, ?_⟩
    intro hb
    have herr : b.err ≠ none := fun herr ↦ hcond ⟨by rw [hb]; decide, by rw [hb]; exact hsize, herr⟩
    obtain ⟨e, he⟩ := Option.ne_none_iff_exists'.mp herr
    refine ⟨by rw [content, hb, if_neg herr]; rfl, ?_⟩
    rw [final, he]
    rfl

/-- `Peek(1)` shows the first byte of the content, and consumes nothing. -/
theorem peek_one_cons (hr : b.Ready) (hsize : 0 < size) {c : UInt8} {cs : Bytes}
    (h : b.content = c :: cs) : ∃ b', b.peek 1 = (([c], none), b') ∧ After b 0 b' := by
  obtain ⟨hafter, hempty⟩ := peekLoop_one hr hsize
  have hbuf : (b.peekLoop 1 1).buf ≠ [] := fun hb ↦ by
    rw [(hempty hb).1] at h
    cases h
  have hcontent : (b.peekLoop 1 1).content = c :: cs := hafter.content.trans h
  obtain ⟨x, xs, hx⟩ := List.exists_cons_of_ne_nil hbuf
  obtain rfl : x = c := by
    rw [content, hx] at hcontent
    exact (List.cons.inj hcontent).1
  refine ⟨b.peekLoop 1 1, ?_, hafter⟩
  simp only [peek]
  rw [if_neg (by omega), if_neg (by rw [hx, List.length_cons]; omega), hx]
  rfl

/-- `Peek(1)` without content returns the error. -/
theorem peek_one_nil (hr : b.Ready) (hsize : 0 < size) (h : b.content = []) :
    (b.peek 1).1 = ([], some b.final) := by
  obtain ⟨hafter, hempty⟩ := peekLoop_one hr hsize
  have hbuf : (b.peekLoop 1 1).buf = [] := (List.append_eq_nil_iff.mp (hafter.content.trans h)).1
  simp only [peek]
  rw [if_neg (by omega), if_pos (by rw [hbuf]; decide), hbuf, (hempty hbuf).2]
  rfl

end BufReader

end Vwarp.Go
