import Vwarp.Proxy.Socks5.Embed

/-!
# The association with a handler

What a step of the machine can do, and the two facts its runs are judged by.  Every
run halts, and as long as the goroutine goes on reading, each datagram is still to
come, on its way, or returned by `Read` (`Counted`).  On wanted datagrams more is
known: `Serving` says which datagram is where, and that the payloads returned are
those of the datagrams, as far as the caller's buffer holds them.
-/

namespace Vwarp.Proxy.Socks5

open Vwarp.Go Vwarp.Lib

/-! ## What a step of the association can do -/

namespace UdpCustomConn

/-- The goroutine is about to hand over a last item, or a payload. -/
def Offers (firstRead : Bool) (pc : ReaderPc) : Prop :=
  (∃ item, pc = .queue item true) ∨ ∃ item, pc = if firstRead then .queue item false else .frc item

theorem process_cases (s : UdpCustomConn) (n : Nat) (addr : Bytes) :
    ∃ source target pc, Offers s.firstRead pc ∧ s.process n addr =
      { s with sourceAddr := source, targetAddr := target, reader := pc } := by
  unfold process
  split
  · exact ⟨_, _, _, .inl ⟨_, rfl⟩, rfl⟩
  · dsimp only
    split
    · exact ⟨_, _, _, .inl ⟨_, rfl⟩, rfl⟩
    · split
      · exact ⟨_, _, _, .inl ⟨_, rfl⟩, rfl⟩
      · exact ⟨_, _, _, .inr ⟨_, rfl⟩, rfl⟩

/-- A `ReadFrom` fails, or takes a datagram off the socket into the goroutine's buffer. -/
theorem readFrom_cases {s s' : UdpCustomConn} (h : s.readFrom = some s') :
    s.reader = .readFrom ∧ ((∃ err item, s.closed = some err ∧ s.incoming = [] ∧
        s' = { s with reader := .queue item true }) ∨
      ∃ d ds source target pc, s.incoming = d :: ds ∧ Offers s.firstRead pc ∧ s' = { s with
        incoming := ds
        tempBuf := copyInto s.tempBuf d.bytes
        sourceAddr := source
        targetAddr := target
        reader := pc }) := by
  unfold readFrom at h
  split at h
  · rename_i hpc hin
    obtain ⟨err, herr, rfl⟩ := Option.map_eq_some_iff.mp h
    exact ⟨hpc, .inl ⟨err, _, herr, hin, rfl⟩⟩
  · rename_i d ds hpc hin
    cases h
    obtain ⟨source, target, pc, hoff, heq⟩ := process_cases
      { s with incoming := ds, tempBuf := copyInto s.tempBuf d.bytes }
      (min s.tempBuf.length d.bytes.length) d.source
    exact ⟨hpc, .inr ⟨d, ds, source, target, pc, hin, hoff, heq⟩⟩
  · cases h

/-- The rendezvous on `frc`. -/
theorem first_cases {s s' : UdpCustomConn} (h : s.first = some s') :
    ∃ item, s.reader = .frc item ∧ s.handler = .waitFrc ∧
      s' = { s with reader := .queue item false, firstRead := true, handler := .receive } := by
  unfold first at h
  split at h
  · rename_i item hpc hh
    exact ⟨item, hpc, hh, (Option.some.inj h).symm⟩
  · cases h

/-- The rendezvous on `packetQueue`. -/
theorem handOver_cases {s s' : UdpCustomConn} (h : s.handOver = some s') :
    ∃ item last, s.reader = .queue item last ∧ s.handler = .receive ∧
      s' = { s with reader := if last then .stopped else .readFrom, handler := .copy item } := by
  unfold handOver at h
  split at h
  · rename_i item last hpc hh
    exact ⟨item, last, hpc, hh, (Option.some.inj h).symm⟩
  · cases h

/-- What the caller has of `data` after `Read` into the buffer `b`. -/
def clip (b data : Bytes) : Bytes := (copyInto b data).take data.length

/-- The result of `Read`, given what the slice holds when it is copied. -/
def result (b : Bytes) (item : ReadStruct) (tempBuf : Bytes) : Except QueueError Bytes :=
  match item.err with
  | some err => .error err
  | none => .ok (clip b (item.slice tempBuf))

/-- The end of a `Read`. -/
theorem copy_cases {b : Bytes} {s s' : UdpCustomConn} (h : s.copy b = some s') :
    ∃ item, s.handler = .copy item ∧
      s' = { s with
        handler := .receive
        results := s.results ++ [result b item s.tempBuf] } := by
  unfold copy at h
  split at h
  · rename_i item hh
    exact ⟨item, hh, (Option.some.inj h).symm⟩
  · cases h

/-! ## Every run halts, and a run that is not stopped hands everything over -/

/-- How far the goroutine is from its next `ReadFrom`. -/
def readerWeight : ReaderPc → Nat
  | .frc _ => 6
  | .queue _ false => 5
  | .readFrom => 3
  | .queue _ true => 2
  | .stopped => 0

/-- A bound on the number of steps that are left. -/
def weight (s : UdpCustomConn) : Nat :=
  8 * s.incoming.length + readerWeight s.reader + match s.handler with | .copy _ => 1 | _ => 0

theorem readerWeight_le {f : Bool} {pc : ReaderPc} (h : Offers f pc) : readerWeight pc ≤ 6 := by
  rcases h with ⟨item, rfl⟩ | ⟨item, rfl⟩
  · simp [readerWeight]
  · cases f <;> simp [readerWeight]

theorem weight_next {b : Bytes} {s s' : UdpCustomConn} {a : Act} (h : s.next b a = some s') :
    weight s' < weight s := by
  cases a with
  | readFrom =>
    obtain ⟨hpc, ⟨err, item, -, -, rfl⟩ | ⟨d, ds, source, target, pc, hin, hoff, rfl⟩⟩ :=
      readFrom_cases h
    · simp only [weight, hpc, readerWeight]
      omega
    · have := readerWeight_le hoff
      have hread : readerWeight .readFrom = 3 := rfl
      simp only [weight, hpc, hin, hread, List.length_cons]
      omega
  | first =>
    obtain ⟨item, hpc, hh, rfl⟩ := first_cases h
    simp [weight, hpc, hh, readerWeight]
  | handOver =>
    obtain ⟨item, last, hpc, hh, rfl⟩ := handOver_cases h
    cases last <;> simp [weight, hpc, hh, readerWeight]
  | copy =>
    obtain ⟨item, hh, rfl⟩ := copy_cases h
    simp [weight, hh]

/-- Payloads on their way: offered by the goroutine, or received and not yet copied. -/
def inFlight (s : UdpCustomConn) : Nat :=
  (match s.reader with | .frc _ => 1 | .queue _ false => 1 | _ => 0) +
    match s.handler with | .copy _ => 1 | _ => 0

def Stopping (s : UdpCustomConn) : Prop := s.reader = .stopped ∨ ∃ item, s.reader = .queue item true

/-- As long as the goroutine goes on, each datagram is still to come, on its way or
returned by `Read`. -/
def Counted (n : Nat) (s : UdpCustomConn) : Prop :=
  Stopping s ∨ s.results.length + inFlight s + s.incoming.length = n

theorem counted_step {b : Bytes} {n : Nat} (s : UdpCustomConn) (a : Act) (s' : UdpCustomConn)
    (hs : Counted n s) (h : s.next b a = some s') : Counted n s' := by
  cases a with
  | readFrom =>
    obtain ⟨hpc, ⟨err, item, -, -, rfl⟩ | ⟨d, ds, source, target, pc, hin, hoff, rfl⟩⟩ :=
      readFrom_cases h
    · exact .inl (.inr ⟨item, rfl⟩)
    · rcases hoff with ⟨item, rfl⟩ | ⟨item, rfl⟩
      · exact .inl (.inr ⟨item, rfl⟩)
      · right
        have hs := hs.resolve_left (by simp [Stopping, hpc])
        simp only [inFlight, hpc, hin, List.length_cons] at hs
        cases hf : s.firstRead <;>
          simp only [inFlight, Bool.false_eq_true, if_false, if_true] <;> omega
  | first =>
    obtain ⟨item, hpc, hh, rfl⟩ := first_cases h
    have hs := hs.resolve_left (by simp [Stopping, hpc])
    exact .inr (by simpa [inFlight, hpc, hh] using hs)
  | handOver =>
    obtain ⟨item, last, hpc, hh, rfl⟩ := handOver_cases h
    cases last with
    | true => exact .inl (.inl rfl)
    | false =>
      have hs := hs.resolve_left (by simp [Stopping, hpc])
      exact .inr (by simpa [inFlight, hpc, hh] using hs)
  | copy =>
    obtain ⟨item, hh, rfl⟩ := copy_cases h
    rcases hs with hs | hs
    · exact .inl hs
    · refine .inr ?_
      simp only [inFlight, hh, List.length_append, List.length_singleton] at hs ⊢
      omega

end UdpCustomConn

/-! ## The association on wanted datagrams -/

def Datagram.item (d : Datagram) : ReadStruct :=
  ⟨d.read.length - d.payload.length, d.read.length, none⟩

/-- The payload of `d` survives the arrival of `d'` in the same buffer: wherever `d'` would
overwrite it, the bytes are the same. -/
def Undisturbed (d d' : Datagram) : Prop :=
  (copyInto d.read d'.bytes).drop (d.read.length - d.payload.length) = d.payload

namespace UdpCustomConn

variable {buf : Bytes} {d : Datagram}

theorem take_copyInto_read (h : buf.length = maxUdpPacket) (d : Datagram) :
    (copyInto buf d.bytes).take d.read.length = d.read ∧
      min buf.length d.bytes.length = d.read.length := by
  have hread : d.read = d.bytes.take buf.length := by rw [h]; rfl
  refine ⟨?_, by simp [hread]⟩
  rw [copyInto, ← hread, List.take_left' rfl]

theorem slice_item {a : Address} (hp : d.parse = some (a, d.payload))
    (h : buf.take d.read.length = d.read) : d.item.slice buf = d.payload := by
  rw [ReadStruct.slice, Datagram.item, h, drop_read hp]

theorem slice_copyInto (h : buf.take d.read.length = d.read) (d' : Datagram) :
    d.item.slice (copyInto buf d'.bytes) =
      (copyInto d.read d'.bytes).drop (d.read.length - d.payload.length) := by
  simp only [ReadStruct.slice, Datagram.item, copyInto_take, h]

/-- `ReadFrom` of a datagram that parses and names the target. -/
theorem readFrom_of_parse {s : UdpCustomConn} {ds : List Datagram} {a : Address}
    (hpc : s.reader = .readFrom) (hin : s.incoming = d :: ds)
    (hlen : s.tempBuf.length = maxUdpPacket) (hp : d.parse = some (a, d.payload))
    (ht : a.string = (s.targetAddr.getD a.udpAddr).string) :
    s.readFrom = some { s with
      incoming := ds
      tempBuf := copyInto s.tempBuf d.bytes
      sourceAddr := some (s.sourceAddr.getD d.source)
      targetAddr := some (s.targetAddr.getD a.udpAddr)
      reader := if s.firstRead then .queue d.item false else .frc d.item } := by
  obtain ⟨hthree, hread, -⟩ := parse_eq_some hp
  obtain ⟨htake, hmin⟩ := take_copyInto_read hlen d
  simp only [Address.udpAddr] at ht ⊢
  simp only [readFrom, hpc, hin, process, hmin, if_neg (Nat.not_lt.mpr hthree), htake, hread, ← ht,
    ne_eq, not_true_eq_false, if_false, Datagram.item]

/-- The association has been given wanted datagrams only: it has returned the payloads of
`delivered`, and holds at most one payload at the caller and one at the goroutine. -/
structure Serving (b : Bytes) (t : UDPAddr) (delivered : List Datagram)
    (copying offered : Option Datagram) (s : UdpCustomConn) : Prop where
  length_tempBuf : s.tempBuf.length = maxUdpPacket
  closed : s.closed = none
  results : s.results = delivered.map fun d ↦ .ok (clip b d.payload)
  reader : s.reader = match offered with
    | none => .readFrom
    | some d => if s.firstRead then .queue d.item false else .frc d.item
  handler : s.handler = match copying with
    | none => if s.firstRead then .receive else .waitFrc
    | some d => .copy d.item
  firstRead : s.firstRead = false → copying = none
  targetAddr : s.targetAddr =
    if delivered = [] ∧ copying = none ∧ offered = none then none else some t
  tempBuf : ∀ d, offered.or copying = some d → s.tempBuf.take d.read.length = d.read
  slice : ∀ d, copying = some d → d.item.slice s.tempBuf = d.payload

namespace Serving

variable {b src : Bytes} {t : UDPAddr} {delivered : List Datagram}
  {copying offered : Option Datagram}
  {s : UdpCustomConn}

theorem init (b : Bytes) (t : UDPAddr) (ds : List Datagram) :
    Serving b t [] none none (.init none ds) :=
  ⟨List.length_replicate .., rfl, rfl, rfl, rfl, fun _ ↦ rfl, rfl, by simp, by simp⟩

variable {d : Datagram}

/-- A wanted datagram is taken off the socket, if a payload that is still to be copied
survives it. -/
theorem fetch (h : Serving b t delivered copying none s) {ds : List Datagram}
    (hin : s.incoming = d :: ds) (hw : Wanted src t d)
    (hfirst : delivered = [] → copying = none → ∀ a, d.parse = some (a, d.payload) → a.udpAddr = t)
    (hund : ∀ c, copying = some c → Undisturbed c d) :
    ∃ s', s.readFrom = some s' ∧ s'.incoming = ds ∧ Serving b t delivered copying (some d) s' := by
  obtain ⟨-, a, hp, hstr⟩ := hw
  have ht : s.targetAddr.getD a.udpAddr = t := by
    rw [h.targetAddr]
    split_ifs with hnone
    · exact hfirst hnone.1 hnone.2.1 a hp
    · rfl
  have heq := readFrom_of_parse h.reader hin h.length_tempBuf hp (by rw [ht, hstr])
  rw [ht] at heq
  refine ⟨_, heq, rfl, ?_, h.closed, h.results, rfl, h.handler, h.firstRead, ?_, ?_, ?_⟩
  · rw [length_copyInto, h.length_tempBuf]
  · simp
  · rintro d' hd'
    obtain rfl : d = d' := by simpa using hd'
    exact (take_copyInto_read h.length_tempBuf d).1
  · rintro c hc
    rw [slice_copyInto (h.tempBuf c (by simp [hc]))]
    exact hund c hc

theorem first (h : Serving b t delivered none (some d) s) (hf : s.firstRead = false) :
    ∃ s', s.first = some s' ∧ s'.incoming = s.incoming ∧ s'.firstRead = true ∧
      Serving b t delivered none (some d) s' := by
  have hpc := h.reader
  have hh := h.handler
  simp only [hf, Bool.false_eq_true, if_false] at hpc hh
  have heq : s.first =
      some { s with reader := .queue d.item false, firstRead := true, handler := .receive } := by
    simp only [UdpCustomConn.first, hpc, hh]
  exact ⟨_, heq, rfl, rfl, h.length_tempBuf, h.closed, h.results, rfl, rfl, by simp, h.targetAddr,
    h.tempBuf, h.slice⟩

/-- A payload is received by `Read`. -/
theorem handOver {a : Address} (h : Serving b t delivered none (some d) s)
    (hf : s.firstRead = true) (hp : d.parse = some (a, d.payload)) :
    ∃ s', s.handOver = some s' ∧ s'.incoming = s.incoming ∧
      Serving b t delivered (some d) none s' := by
  have hpc := h.reader
  have hh := h.handler
  simp only [hf, if_true] at hpc hh
  have hbuf := h.tempBuf d rfl
  have heq : s.handOver = some { s with reader := .readFrom, handler := .copy d.item } := by
    simp only [UdpCustomConn.handOver, hpc, hh, Bool.false_eq_true, if_false]
  refine ⟨_, heq, rfl, h.length_tempBuf, h.closed, h.results, rfl, rfl, by simp [hf], ?_, ?_, ?_⟩
  · rw [h.targetAddr, if_neg (by simp), if_neg (by simp)]
  · rintro d' hd'
    obtain rfl : d = d' := by simpa using hd'
    exact hbuf
  · rintro d' hd'
    obtain rfl : d = d' := by simpa using hd'
    exact slice_item hp hbuf

theorem firstRead_of_copying (h : Serving b t delivered (some d) offered s) :
    s.firstRead = true := by
  cases hf : s.firstRead with
  | true => rfl
  | false => exact nomatch h.firstRead hf

theorem copy (h : Serving b t delivered (some d) offered s) :
    ∃ s', s.copy b = some s' ∧ s'.incoming = s.incoming ∧ s'.firstRead = true ∧
      Serving b t (delivered ++ [d]) none offered s' := by
  have hf := h.firstRead_of_copying
  have heq : s.copy b = some { s with
      handler := .receive
      results := s.results ++ [.ok (clip b d.payload)] } := by
    simp only [UdpCustomConn.copy, h.handler, ← h.slice d rfl]
    rfl
  refine ⟨_, heq, rfl, hf, h.length_tempBuf, h.closed, ?_, h.reader, ?_, fun _ ↦ rfl, ?_, ?_,
    by simp⟩
  · simp [h.results]
  · simp [hf]
  · rw [h.targetAddr, if_neg (by simp), if_neg (by simp)]
  · intro d' hd'
    have : offered = some d' := by simpa using hd'
    exact h.tempBuf d' (by simp [this])

end Serving

end UdpCustomConn

end Vwarp.Proxy.Socks5
