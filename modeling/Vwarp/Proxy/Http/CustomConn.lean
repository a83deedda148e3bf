import Vwarp.Go.Io

/-!
# The reader a plain HTTP proxy request hands to its handler

For a request that is not `CONNECT`, `Server.handleHTTP` wraps the client
connection in a `customConn`, whose first reads are meant to replay the request on
the wire before the rest of the connection.  `customConn.Read` serialises the
request once and then copies the bytes into the caller's buffer, but it reports
the length of the *buffer* instead of the number of bytes copied, and it forgets
what did not fit; and an error of the serialisation is overwritten by the result of
the read it falls through to.

`Faithful` states what a handler relies on over a sequence of reads, and
`customConn_faithful_iff` says for which requests and buffer sizes it holds.

`http.Request.Write` is not part of the repository; it enters as its outcome
`write`, which is the same on every call.
-/

namespace Vwarp.Proxy.Http

open Vwarp.Go

/-- `customConn`: the wrapped connection, the outcome of serialising the request,
the bytes still to be replayed and whether the initialiser has run. -/
structure CustomConn where
  conn : Conn
  /-- What `c.req.Write` puts in an empty buffer, or its error. -/
  write : Except Error Bytes
  initialData : Bytes
  once : Bool
deriving DecidableEq, Repr

namespace CustomConn

/-- The wrapper `handleHTTP` builds for a request. -/
def new (conn : Conn) (write : Except Error Bytes) : CustomConn := ⟨conn, write, [], false⟩

/-- The `sync.Once` initialiser, with the value it leaves in the named result
`err`. -/
def init (c : CustomConn) : CustomConn × Option Error :=
  if c.once then (c, none)
  else match c.write with
    | .error e => ({ c with once := true }, some e)
    | .ok buf => ({ c with once := true, initialData := buf }, none)

/-- `customConn.Read`. -/
def read (c : CustomConn) (p : Bytes) : ReadResult × CustomConn :=
  let (c, err) := c.init
  if 0 < c.initialData.length then
    (⟨copyInto p c.initialData, p.length, err⟩, { c with initialData := [] })
  else
    let (r, conn) := c.conn.read p
    (r, { c with conn := conn })

def reads (c : CustomConn) : List Bytes → List ReadResult × CustomConn
  | [] => ([], c)
  | p :: ps =>
    let (r, c₁) := c.read p
    let (rs, c₂) := c₁.reads ps
    (r :: rs, c₂)

/-- The bytes the handler obtains over a sequence of reads. -/
def delivered (rs : List ReadResult) : Bytes := rs.flatMap ReadResult.data

def Drained (c : CustomConn) : Prop := c.once = true ∧ c.initialData = []

variable {c : CustomConn}

theorem Drained.read_eq (h : c.Drained) (p : Bytes) :
    c.read p = ((c.conn.read p).1, { c with conn := (c.conn.read p).2 }) := by
  simp [read, init, h.1, h.2]

theorem Drained.reads_spec (h : c.Drained) (bufs : List Bytes) :
    List.Forall₂ (fun r p ↦ r.n ≤ p.length) (c.reads bufs).1 bufs ∧
      c.conn.stream = delivered (c.reads bufs).1 ++ (c.reads bufs).2.conn.stream := by
  induction bufs generalizing c with
  | nil => exact ⟨.nil, by simp [reads, delivered]⟩
  | cons p ps ih =>
    have hc : Drained { c with conn := (c.conn.read p).2 } := h
    obtain ⟨hn, hs⟩ := ih hc
    simp only [reads, h.read_eq]
    refine ⟨.cons (c.conn.read_n_le p) hn, ?_⟩
    simp only [delivered, List.flatMap_cons, List.append_assoc] at hs ⊢
    rw [← hs, ← Conn.stream_read]

theorem Drained.reads_congr (h : c.Drained) {bufs bufs' : List Bytes}
    (hl : bufs'.map List.length = bufs.map List.length) :
    (c.reads bufs').1.map ReadResult.data = (c.reads bufs).1.map ReadResult.data := by
  induction bufs generalizing c bufs' with
  | nil =>
    rw [List.map_nil, List.map_eq_nil_iff] at hl
    rw [hl]
  | cons p ps ih =>
    obtain ⟨q, qs, rfl, hq, hqs⟩ := List.map_eq_cons_iff.mp hl
    obtain ⟨hd, -, hconn⟩ := c.conn.read_congr hq
    have hc : Drained { c with conn := (c.conn.read p).2 } := h
    simp only [reads, h.read_eq, List.map_cons, hd, hconn, ih hc hqs]

/-- What a handler relies on when it reads a request from its `Reader` into the
given buffers. -/
structure Faithful (write : Except Error Bytes) (conn : Conn) (bufs : List Bytes) : Prop where
  /-- Each count fits its buffer. -/
  bounded : List.Forall₂ (fun r p ↦ r.n ≤ p.length) ((new conn write).reads bufs).1 bufs
  /-- The bytes obtained do not depend on what the buffers held before. -/
  fresh : ∀ bufs', bufs'.map List.length = bufs.map List.length →
    ((new conn write).reads bufs').1.map ReadResult.data =
      ((new conn write).reads bufs).1.map ReadResult.data
  /-- The bytes obtained are those of the serialised request followed by the bytes
  `under` that were read from the connection, and none of the latter comes before
  the whole request. -/
  content : ∀ w, write = .ok w → ∃ under,
    conn.stream = under ++ ((new conn write).reads bufs).2.conn.stream ∧
      delivered ((new conn write).reads bufs).1 <+: w ++ under ∧
      (under ≠ [] → delivered ((new conn write).reads bufs).1 = w ++ under)
  /-- An error of the serialisation is returned by the read that ran it. -/
  reported : ∀ e, write = .error e →
    ∀ r ∈ ((new conn write).reads bufs).1.head?, r.err = some e

/-! ## The first read -/

/-- The wrapper once it has replayed, or given up, the request. -/
def replayed (conn : Conn) (write : Except Error Bytes) : CustomConn := ⟨conn, write, [], true⟩

theorem drained_replayed (conn : Conn) (write : Except Error Bytes) :
    (replayed conn write).Drained := ⟨rfl, rfl⟩

variable {w : Bytes}

theorem read_new_ok (conn : Conn) (hw : w ≠ []) (p : Bytes) :
    (new conn (.ok w)).read p = (⟨copyInto p w, p.length, none⟩, replayed conn (.ok w)) := by
  have hw : 0 < w.length := List.length_pos_iff.mpr hw
  simp [read, init, new, replayed, hw]

theorem reads_new_nil (conn : Conn) (p : Bytes) (ps : List Bytes) :
    (new conn (.ok [])).reads (p :: ps) = (replayed conn (.ok [])).reads (p :: ps) := by
  simp [reads, read, init, new, replayed]

theorem reads_new_error (conn : Conn) (e : Error) (p : Bytes) (ps : List Bytes) :
    (new conn (.error e)).reads (p :: ps) = (replayed conn (.error e)).reads (p :: ps) := by
  simp [reads, read, init, new, replayed]

theorem reads_new_ok (conn : Conn) (hw : w ≠ []) (p : Bytes) (ps : List Bytes) :
    (new conn (.ok w)).reads (p :: ps) =
      (⟨copyInto p w, p.length, none⟩ :: ((replayed conn (.ok w)).reads ps).1,
        ((replayed conn (.ok w)).reads ps).2) := by
  simp only [reads, read_new_ok conn hw]

theorem delivered_of_zero {rs : List ReadResult} {bufs : List Bytes}
    (hn : List.Forall₂ (fun r p ↦ r.n ≤ p.length) rs bufs) (hz : ∀ p ∈ bufs, p.length = 0) :
    delivered rs = [] := by
  induction hn with
  | nil => rfl
  | @cons r p rs ps h _ ih =>
    have hr : r.n = 0 := by
      have := hz p List.mem_cons_self
      omega
    have hd : delivered rs = [] := ih fun q hq ↦ hz q (List.mem_cons_of_mem p hq)
    simp only [delivered, List.flatMap_cons] at hd ⊢
    rw [hd, ReadResult.data, hr]
    rfl

/-! ## When the reads are faithful -/

theorem faithful_nil (write : Except Error Bytes) (conn : Conn) : Faithful write conn [] :=
  ⟨.nil, fun bufs' hl ↦ by rw [List.map_eq_nil_iff.mp hl],
    fun w _ ↦ ⟨[], by simp [reads, new], by simp [reads, delivered], by simp⟩, by simp [reads]⟩

theorem faithful_of_empty (conn : Conn) (bufs : List Bytes) : Faithful (.ok []) conn bufs := by
  cases bufs with
  | nil => exact faithful_nil _ conn
  | cons p ps =>
    have hd := drained_replayed conn (.ok [])
    obtain ⟨hn, hs⟩ := hd.reads_spec (p :: ps)
    refine ⟨by rwa [reads_new_nil], fun bufs' hl ↦ ?_, fun w hw ↦ ?_, by simp⟩
    · obtain ⟨q, qs, rfl, -, -⟩ := List.map_eq_cons_iff.mp hl
      rw [reads_new_nil, reads_new_nil]
      exact hd.reads_congr hl
    · obtain rfl : [] = w := Except.ok.inj hw
      rw [reads_new_nil]
      exact ⟨_, hs, List.prefix_rfl, fun _ ↦ rfl⟩

variable {p : Bytes} {ps : List Bytes}

/-- A request that fits the first buffer exactly is read faithfully, and one that overflows it is as
long as no later buffer has room for a byte. -/
theorem faithful_of_first (conn : Conn) (hw : w ≠ []) (hp : p.length ≤ w.length)
    (hrest : p.length = w.length ∨ ∀ q ∈ ps, q.length = 0) : Faithful (.ok w) conn (p :: ps) := by
  have hd := drained_replayed conn (.ok w)
  obtain ⟨hn, hs⟩ := hd.reads_spec ps
  have first (q : Bytes) (hq : q.length = p.length) :
      (ReadResult.mk (copyInto q w) q.length none).data = w.take p.length := by
    rw [ReadResult.data, copyInto_of_le (by omega), hq, List.take_take, Nat.min_self]
  refine ⟨?_, fun bufs' hl ↦ ?_, fun w' hw' ↦ ?_, by simp⟩
  · rw [reads_new_ok conn hw]
    exact .cons (Nat.le_refl _) hn
  · obtain ⟨q, qs, rfl, hq, hqs⟩ := List.map_eq_cons_iff.mp hl
    simp only [reads_new_ok conn hw, List.map_cons, first p rfl, first q hq, hd.reads_congr hqs]
  · obtain rfl : w = w' := Except.ok.inj hw'
    rw [reads_new_ok conn hw]
    refine ⟨delivered ((replayed conn (.ok w)).reads ps).1, hs, ?_⟩
    simp only [delivered, List.flatMap_cons, first p rfl]
    rcases hrest with heq | hz
    · rw [heq, List.take_length]
      exact ⟨List.prefix_rfl, fun _ ↦ rfl⟩
    · have hnone := delivered_of_zero hn hz
      rw [delivered] at hnone
      rw [hnone, List.append_nil, List.append_nil]
      exact ⟨List.take_prefix _ _, fun h ↦ absurd rfl h⟩

/-! ## When they are not -/

/-- A first buffer longer than the request exposes what it held before. -/
theorem not_faithful_of_short (conn : Conn) (hw : w ≠ [])
    (hp : w.length < p.length) (ps : List Bytes) : ¬ Faithful (.ok w) conn (p :: ps) := by
  intro h
  have tail : ∀ (v : UInt8), ((new conn (.ok w)).reads (List.replicate p.length v :: ps)).1.map
      ReadResult.data = ((new conn (.ok w)).reads (p :: ps)).1.map ReadResult.data :=
    fun v ↦ h.fresh _ (by simp)
  have heq := (tail 0).trans (tail 1).symm
  simp only [reads_new_ok conn hw, List.map_cons, List.cons.injEq, ReadResult.data, copyInto,
    List.length_replicate] at heq
  have hlast : ∀ v : UInt8, (List.take p.length (List.take p.length w ++
      List.drop w.length (List.replicate p.length v)))[w.length]? = some v := fun v ↦ by
    rw [List.take_of_length_le (by simp; omega), List.take_of_length_le (Nat.le_of_lt hp),
      List.getElem?_append_right (Nat.le_refl _), Nat.sub_self, List.drop_replicate,
      List.getElem?_replicate, if_pos (Nat.sub_pos_of_lt hp)]
  have h0 := hlast 0
  rw [heq.1, hlast 1] at h0
  exact absurd (Option.some.inj h0) (by decide)

def oneByte : Conn := ⟨[([0], none)], .eof⟩

/-- A drained wrapper over `oneByte` reads that byte as soon as a buffer has room. -/
theorem Drained.stream_oneByte (h : c.Drained) (hc : c.conn = oneByte ∨ c.conn.reads = [])
    (hp : c.conn = oneByte → ∃ p ∈ ps, 0 < p.length) : (c.reads ps).2.conn.stream = [] := by
  induction ps generalizing c with
  | nil =>
    rcases hc with hc | hc
    · obtain ⟨p, hp, -⟩ := hp hc
      cases hp
    · simp [reads, Conn.stream, hc]
  | cons p ps ih =>
    simp only [reads, h.read_eq]
    refine ih (c := { c with conn := (c.conn.read p).2 }) h ?_ ?_
    · rcases hc with hc | hc
      · cases p with
        | nil => exact .inl (by simp [hc, oneByte, Conn.read])
        | cons b p => exact .inr (by simp [hc, oneByte, Conn.read])
      · exact .inr (by simp [Conn.read, hc])
    · intro hone
      rcases hc with hc | hc
      · obtain ⟨q, hq, hlen⟩ := hp hc
        rcases List.mem_cons.mp hq with rfl | hq
        · obtain ⟨b, q, rfl⟩ := List.exists_cons_of_length_pos hlen
          simp [hc, oneByte, Conn.read] at hone
        · exact ⟨q, hq, hlen⟩
      · simp only [Conn.read, hc] at hone
        simp [hone, oneByte] at hc

/-- When the request overflows the first buffer and a later one has room, a byte of
the connection takes the place of the rest of the request. -/
theorem not_faithful_of_long (hp : p.length < w.length) (hroom : ∃ q ∈ ps, 0 < q.length) :
    ¬ Faithful (.ok w) oneByte (p :: ps) := by
  intro h
  have hw : w ≠ [] := List.length_pos_iff.mp (by omega)
  have hd := drained_replayed oneByte (.ok w)
  obtain ⟨-, hs⟩ := hd.reads_spec ps
  have hnil := hd.stream_oneByte (.inl rfl) fun _ ↦ hroom
  obtain ⟨under, hunder, -, hall⟩ := h.content w rfl
  simp only [reads_new_ok oneByte hw] at hunder hall
  rw [hnil, List.append_nil] at hs hunder
  have hone : under = [0] := hunder.symm
  have := congrArg List.length (hall (by simp [hone]))
  rw [delivered, List.flatMap_cons, List.length_append, List.length_append] at this
  have hrest : (delivered ((replayed oneByte (.ok w)).reads ps).1).length = under.length := by
    rw [← hs, hone]
    rfl
  rw [delivered] at hrest
  rw [hrest, ReadResult.data, copyInto_of_le (Nat.le_of_lt hp)] at this
  simp only [List.length_take] at this
  omega

/-- For a given outcome of the serialisation and given buffer sizes, every
connection is read faithfully exactly when no read is made, or the serialisation
succeeded and either is empty, or has exactly the length of the first buffer, or
is longer than it and no later buffer has room for a byte. -/
theorem customConn_faithful_iff (write : Except Error Bytes) (sizes : List Nat) :
    (∀ conn bufs, bufs.map List.length = sizes → Faithful write conn bufs) ↔
      sizes = [] ∨ ∃ w, write = .ok w ∧ (w = [] ∨ sizes.head? = some w.length ∨
        ∃ n rest, sizes = n :: rest ∧ n < w.length ∧ ∀ m ∈ rest, m = 0) := by
  constructor
  · intro h
    cases sizes with
    | nil => exact .inl rfl
    | cons n rest =>
      refine .inr ?_
      have hbufs : (List.replicate n 0 :: rest.map fun m ↦ List.replicate m (0 : UInt8)).map
          List.length = n :: rest := by simp [Function.comp_def]
      cases write with
      | error e =>
        have hf := h ⟨[([], none)], .eof⟩ _ hbufs
        have := hf.reported e rfl
        rw [reads_new_error] at this
        simp only [reads, (drained_replayed _ _).read_eq, List.head?_cons, Option.mem_def,
          Option.some.injEq, forall_eq'] at this
        simp [replayed, Conn.read] at this
      | ok w =>
        refine ⟨w, rfl, ?_⟩
        by_cases hw : w = []
        · exact .inl hw
        rcases Nat.lt_trichotomy n w.length with hlt | heq | hgt
        · refine .inr (.inr ⟨n, rest, rfl, hlt, fun m hm ↦ ?_⟩)
          by_contra hne
          refine not_faithful_of_long (p := List.replicate n 0) (by simpa using hlt)
            ⟨List.replicate m 0, List.mem_map.mpr ⟨m, hm, rfl⟩, ?_⟩ (h oneByte _ hbufs)
          simp only [List.length_replicate]
          omega
        · exact .inr (.inl (by rw [heq]; rfl))
        · exact absurd (h oneByte _ hbufs)
            (not_faithful_of_short oneByte hw (by simpa using hgt) _)
  · rintro (rfl | ⟨w, rfl, hw | hw | ⟨n, rest, rfl, hlt, hz⟩⟩) conn bufs hl
    · rw [List.map_eq_nil_iff.mp hl]
      exact faithful_nil write conn
    · exact hw ▸ faithful_of_empty conn bufs
    · cases bufs with
      | nil => simp [← hl] at hw
      | cons p ps =>
        simp only [← hl, List.map_cons, List.head?_cons, Option.some.injEq] at hw
        by_cases hnil : w = []
        · exact hnil ▸ faithful_of_empty conn _
        · exact faithful_of_first conn hnil (by omega) (.inl hw)
    · obtain ⟨p, ps, rfl, hp, hps⟩ := List.map_eq_cons_iff.mp hl
      refine faithful_of_first conn (List.ne_nil_of_length_pos (by omega)) (by omega)
        (.inr fun q hq ↦ hz _ ?_)
      rw [← hps]
      exact List.mem_map_of_mem hq

def getRequest : Bytes :=
  str "GET / HTTP/1.1\r\nHost: example.com\r\nUser-Agent: Go-http-client/1.1\r\n\r\n"

/-- Read into the 64 KiB buffer of the production handler, an ordinary request is
followed by whatever the buffer held. -/
theorem copy_buffer_not_faithful :
    ¬ Faithful (.ok getRequest) ⟨[], .eof⟩ [List.replicate 65536 0] :=
  not_faithful_of_short _ (by decide) (by rw [List.length_replicate]; decide) []

end CustomConn

end Vwarp.Proxy.Http
