import Mathlib.Data.List.Chain
import Vwarp.Proxy.Socks5.UdpConn

/-!
# When the two UDP associations agree

The goroutine of `asyncReadPackets` goes on reading only while it hands over one
payload for each datagram, and `embedHandleAssociate` writes one payload for each
datagram only if all are wanted.  Hence the two can agree, with the goroutine still
reading at the end, only on wanted datagrams.

On wanted datagrams they still differ in two ways: `Read` returns the payload's
length even if the caller's buffer is shorter, and the next `ReadFrom` may
overwrite a payload before it has been copied (`Undisturbed` says when this leaves
it as it was).
-/

namespace Vwarp.Proxy.Socks5

open Vwarp.Go Vwarp.Lib

/-! ## Agreement -/

/-- The two loops agree on the datagrams `ds`, for a caller that reads into `b`: whenever the
association has come to rest, the calls of `Read` have returned exactly the payloads that
`embedHandleAssociate` writes, the targets are the same, and both are still reading, so
that whatever else arrived was skipped. -/
def Agree (ds : List Datagram) (b : Bytes) : Prop :=
  ∀ s, (association none ds b).Reachable s → (association none ds b).Halted s →
    let e := embedHandleAssociate writesSucceed none .init ds
    s.results = (payloads e.2.1).map .ok ∧ s.targetAddr = e.1.targetAddr ∧
      s.reader = .readFrom ∧ e.2.2 = .continue

/-- Every datagram is from the source of the first and for its target. -/
def AllWanted (ds : List Datagram) : Prop :=
  ∀ d₀ ∈ ds.head?, ∃ a, d₀.parse = some (a, d₀.payload) ∧ ∀ d ∈ ds, Wanted d₀.source a.udpAddr d

/-- Every datagram is wanted, has a payload that fits the caller's buffer, and is not
disturbed by the next. -/
structure ServedAlike (ds : List Datagram) (b : Bytes) : Prop where
  wanted : AllWanted ds
  fits : ∀ d ∈ ds, d.payload.length ≤ b.length
  undisturbed : ds.IsChain Undisturbed

theorem embed_of_allWanted {ds : List Datagram} (h : AllWanted ds) :
    payloads (embedHandleAssociate writesSucceed none .init ds).2.1 = ds.map Datagram.payload ∧
      (embedHandleAssociate writesSucceed none .init ds).2.2 = .continue ∧
      ∀ d₀ ∈ ds.head?, ∀ a, d₀.parse = some (a, d₀.payload) →
        (embedHandleAssociate writesSucceed none .init ds).1.targetAddr = some a.udpAddr := by
  cases ds with
  | nil => exact ⟨rfl, rfl, by simp⟩
  | cons d₀ ds =>
    obtain ⟨a, hp, hw⟩ := h d₀ rfl
    obtain ⟨-, a', hp', hstr⟩ := hw d₀ List.mem_cons_self
    obtain rfl : a' = a := by simpa [hp] using hp'.symm
    have hstep := embedStep_of_parse (e := .init) rfl hp hstr
    obtain ⟨ws, hws, hpay⟩ := embed_of_wanted
      (fun d hd ↦ hw d (List.mem_cons_of_mem d₀ hd)) none
    simp only [Embed.init, Option.getD_none] at hstep
    simp only [embedHandleAssociate, Embed.init, hstep, hws]
    refine ⟨by rw [payloads_append, hpay]; rfl, trivial, ?_⟩
    rintro d hd a'' ha''
    obtain rfl : d₀ = d := by simpa using hd
    rw [hp] at ha''
    simp_all

namespace UdpCustomConn

/-! ### Alike datagrams are served alike -/

/-- The datagrams are distributed over the stages of the association, in order. -/
def Distributed (ds : List Datagram) (b : Bytes) (t : UDPAddr) (s : UdpCustomConn) : Prop :=
  ∃ delivered copying offered, Serving b t delivered copying offered s ∧
    ds = delivered ++ copying.toList ++ offered.toList ++ s.incoming

theorem distributed_step {ds : List Datagram} {b src : Bytes} {t : UDPAddr}
    (hw : ∀ d ∈ ds, Wanted src t d)
    (ht : ∀ d ∈ ds.head?, ∀ a, d.parse = some (a, d.payload) → a.udpAddr = t)
    (hund : ds.IsChain Undisturbed) (s : UdpCustomConn) (a : Act) (s' : UdpCustomConn)
    (h : Distributed ds b t s) (hn : s.next b a = some s') : Distributed ds b t s' := by
  obtain ⟨delivered, copying, offered, hs, hds⟩ := h
  have hreader := hs.reader
  have hhandler := hs.handler
  cases a with
  | readFrom =>
    obtain ⟨hpc, ⟨err, -, hclosed, -, -⟩ | ⟨d, rest, -, -, -, hin, -, -⟩⟩ := readFrom_cases hn
    · rw [hs.closed] at hclosed
      cases hclosed
    · cases offered with
      | some d' =>
        rw [hpc] at hreader
        cases hf : s.firstRead <;> simp [hf] at hreader
      | none =>
        rw [hin] at hds
        obtain ⟨s'', hs'', hin'', hserv⟩ := hs.fetch hin (hw d (by rw [hds]; simp))
          (fun h₁ h₂ ↦ ht d (by rw [hds]; simp [h₁, h₂]))
          (fun c hc ↦ List.isChain_iff_forall_rel_of_append_cons_cons.mp hund
            (show ds = delivered ++ c :: d :: rest by rw [hds]; simp [hc]))
        obtain rfl : s'' = s' := Option.some.inj (hs''.symm.trans hn)
        exact ⟨_, _, _, hserv, by rw [hds, hin'']; simp⟩
  | first =>
    obtain ⟨item, hpc, hh, -⟩ := first_cases hn
    cases offered with
    | none => simp [hpc] at hreader
    | some d =>
      have hf : s.firstRead = false := by
        cases hf : s.firstRead <;> simp [hpc, hf] at hreader ⊢
      obtain rfl := hs.firstRead hf
      obtain ⟨s'', hs'', hin'', -, hserv⟩ := hs.first hf
      obtain rfl : s'' = s' := Option.some.inj (hs''.symm.trans hn)
      exact ⟨_, _, _, hserv, by rw [hin'']; exact hds⟩
  | handOver =>
    obtain ⟨item, last, hpc, hh, -⟩ := handOver_cases hn
    cases offered with
    | none => simp [hpc] at hreader
    | some d =>
      have hf : s.firstRead = true := by
        cases hf : s.firstRead <;> simp [hpc, hf] at hreader ⊢
      cases copying with
      | some c => simp [hh] at hhandler
      | none =>
        obtain ⟨-, a, hp, -⟩ := hw d (by rw [hds]; simp)
        obtain ⟨s'', hs'', hin'', hserv⟩ := hs.handOver hf hp
        obtain rfl : s'' = s' := Option.some.inj (hs''.symm.trans hn)
        exact ⟨_, _, _, hserv, by rw [hin'']; simpa using hds⟩
  | copy =>
    obtain ⟨item, hh, -⟩ := copy_cases hn
    cases copying with
    | none => cases hf : s.firstRead <;> simp [hh, hf] at hhandler
    | some d =>
      obtain ⟨s'', hs'', hin'', -, hserv⟩ := hs.copy
      obtain rfl : s'' = s' := Option.some.inj (hs''.symm.trans hn)
      exact ⟨_, _, _, hserv, by rw [hin'']; simpa using hds⟩

theorem Distributed.of_halted {ds : List Datagram} {b : Bytes} {t : UDPAddr} {s : UdpCustomConn}
    (h : Distributed ds b t s) (hh : ∀ a, s.next b a = none) : Serving b t ds none none s := by
  obtain ⟨delivered, copying, offered, hs, hds⟩ := h
  cases copying with
  | some c =>
    obtain ⟨s', hs', -⟩ := hs.copy
    exact nomatch hs'.symm.trans (hh .copy)
  | none =>
    have hreader := hs.reader
    have hhandler := hs.handler
    cases offered with
    | some d =>
      cases hf : s.firstRead with
      | false =>
        obtain ⟨s', hs', -⟩ := hs.first hf
        exact nomatch hs'.symm.trans (hh .first)
      | true =>
        simp only [hf, if_true] at hreader hhandler
        have := hh .handOver
        simp [next, UdpCustomConn.handOver, hreader, hhandler] at this
    | none =>
      cases hin : s.incoming with
      | cons d rest =>
        have := hh .readFrom
        simp [next, readFrom, hreader, hin] at this
      | nil =>
        obtain rfl : ds = delivered := by simpa [hin] using hds
        exact hs

end UdpCustomConn

theorem AllWanted.exists_target {ds : List Datagram} (h : AllWanted ds) :
    ∃ src t, (∀ d ∈ ds, Wanted src t d) ∧
      ∀ d ∈ ds.head?, ∀ a, d.parse = some (a, d.payload) → a.udpAddr = t := by
  cases ds with
  | nil => exact ⟨[], ⟨[], 0⟩, by simp, by simp⟩
  | cons d₀ ds =>
    obtain ⟨a, hp, hw⟩ := h d₀ rfl
    refine ⟨d₀.source, a.udpAddr, hw, fun d hd a' hp' ↦ ?_⟩
    obtain rfl : d₀ = d := by simpa using hd
    obtain rfl : a = a' := by simpa [hp] using hp'
    rfl

open UdpCustomConn in
/-- Datagrams that meet the condition are served alike. -/
theorem agree_of_servedAlike {ds : List Datagram} {b : Bytes} (h : ServedAlike ds b) :
    Agree ds b := by
  intro s hr hh
  obtain ⟨hpay, hflow, htarget⟩ := embed_of_allWanted h.wanted
  obtain ⟨src, t, hw, ht⟩ := h.wanted.exists_target
  have hclip : ∀ d ∈ ds, clip b d.payload = d.payload := fun d hd ↦ by
    rw [clip, take_copyInto (h.fits d hd)]
  have hdist : Distributed ds b t s := hr.invariant
    (fun s hs ↦ ⟨[], none, none, hs ▸ .init b t ds, by rw [hs]; rfl⟩)
    (fun s a s' h' _ hn ↦ distributed_step hw ht h.undisturbed s a s' h' hn)
  have hs := hdist.of_halted hh
  refine ⟨?_, ?_, hs.reader, hflow⟩
  · rw [hs.results, hpay, List.map_map]
    exact List.map_congr_left fun d hd ↦ by simp [hclip d hd]
  · rw [hs.targetAddr]
    cases ds with
    | nil => rfl
    | cons d₀ ds =>
      obtain ⟨a, hp, -⟩ := h.wanted d₀ rfl
      rw [if_neg (by simp), htarget d₀ rfl a hp, ht d₀ rfl a hp]

/-! ### Only alike datagrams are served alike -/

namespace UdpCustomConn

theorem results_step {b : Bytes} {rs : List (Except QueueError Bytes)} (s : UdpCustomConn) (a : Act)
    (s' : UdpCustomConn) (h : rs <+: s.results) (hn : s.next b a = some s') :
    rs <+: s'.results := by
  cases a with
  | readFrom =>
    obtain ⟨-, ⟨err, item, -, -, rfl⟩ | ⟨d, ds, source, target, pc, -, -, rfl⟩⟩ := readFrom_cases hn
    · exact h
    · exact h
  | first =>
    obtain ⟨item, -, -, rfl⟩ := first_cases hn
    exact h
  | handOver =>
    obtain ⟨item, last, -, -, rfl⟩ := handOver_cases hn
    exact h
  | copy =>
    obtain ⟨item, -, rfl⟩ := copy_cases hn
    exact h.trans (List.prefix_append ..)

theorem exists_halted {ds : List Datagram} {b : Bytes} {s : UdpCustomConn}
    (hr : (association none ds b).Reachable s) :
    ∃ s', (association none ds b).Reachable s' ∧ (association none ds b).Halted s' ∧
      s.results <+: s'.results := by
  obtain ⟨as, s', hrun, hh⟩ := Machine.exists_run_halted (M := association none ds b) weight
    (fun _ _ _ hn ↦ weight_next hn) s
  exact ⟨s', hr.of_run (fun _ _ _ ↦ trivial) hrun, hh,
    Machine.run_invariant (I := fun u ↦ s.results <+: u.results) results_step hrun
      (List.prefix_refl _)⟩

/-- An association at rest that is still reading has returned a result for each datagram. -/
theorem length_results {ds : List Datagram} {b : Bytes} {s : UdpCustomConn}
    (hr : (association none ds b).Reachable s) (hh : (association none ds b).Halted s)
    (hread : s.reader = .readFrom) : s.results.length = ds.length := by
  have hcount : Counted ds.length s := hr.invariant
    (fun s hs ↦ .inr (by rw [hs]; simp [init, inFlight]))
    (fun s a s' h _ hn ↦ counted_step s a s' h hn)
  have hin : s.incoming = [] := by
    cases hin : s.incoming with
    | nil => rfl
    | cons d ds =>
      have := hh .readFrom
      simp [association, next, readFrom, hread, hin] at this
  have h := hcount.resolve_left (by simp [Stopping, hread])
  cases hhandler : s.handler with
  | copy item =>
    have := hh .copy
    simp [association, next, UdpCustomConn.copy, hhandler] at this
  | waitFrc | receive => simpa [inFlight, hread, hin, hhandler] using h

end UdpCustomConn

open UdpCustomConn in
/-- If the two agree, every datagram is wanted. -/
theorem allWanted_of_agree {ds : List Datagram} {b : Bytes} (h : Agree ds b) : AllWanted ds := by
  have hstart : (association none ds b).Reachable (.init none ds) := .start rfl
  obtain ⟨s, hr, hh, -⟩ := exists_halted hstart
  obtain ⟨hres, -, hread, -⟩ := h s hr hh
  have hlen := length_results hr hh hread
  rw [hres, List.length_map] at hlen
  cases ds with
  | nil => exact fun _ h ↦ nomatch h
  | cons d₀ ds =>
    obtain ⟨-, a, hp, hstr, hrest⟩ := embed_cons_of_length hlen
    rintro d hd
    obtain rfl : d₀ = d := by simpa using hd
    refine ⟨a, hp, fun d hd ↦ ?_⟩
    rcases List.mem_cons.mp hd with rfl | hd
    · exact ⟨rfl, a, hp, hstr⟩
    · exact wanted_of_length hrest d hd

namespace UdpCustomConn

section Prompt

variable {ds : List Datagram} {b src : Bytes} {t : UDPAddr} (hw : ∀ d ∈ ds, Wanted src t d)
  (ht : ∀ d ∈ ds.head?, ∀ a, d.parse = some (a, d.payload) → a.udpAddr = t)

include hw ht

theorem exists_received {pre rest : List Datagram} {d : Datagram} (hds : ds = pre ++ d :: rest)
    {s : UdpCustomConn} (hr : (association none ds b).Reachable s) (hin : s.incoming = d :: rest)
    (hs : Serving b t pre none none s) :
    ∃ s', (association none ds b).Reachable s' ∧ s'.incoming = rest ∧
      Serving b t pre (some d) none s' := by
  have hwd := hw d (by rw [hds]; simp)
  obtain ⟨s₁, h₁, hin₁, hs₁⟩ := hs.fetch hin hwd
    (fun hpre _ ↦ ht d (by rw [hds]; simp [hpre])) (fun _ h ↦ nomatch h)
  have hr₁ : (association none ds b).Reachable s₁ := .step (a := .readFrom) hr trivial h₁
  obtain ⟨s₂, hr₂, hin₂, hf₂, hs₂⟩ : ∃ s₂, (association none ds b).Reachable s₂ ∧
      s₂.incoming = rest ∧ s₂.firstRead = true ∧ Serving b t pre none (some d) s₂ := by
    cases hf : s₁.firstRead with
    | true => exact ⟨s₁, hr₁, hin₁, hf, hs₁⟩
    | false =>
      obtain ⟨s₂, h₂, hin₂, hf₂, hs₂⟩ := hs₁.first hf
      exact ⟨s₂, .step (a := .first) hr₁ trivial h₂, hin₂.trans hin₁, hf₂, hs₂⟩
  obtain ⟨-, a, hp, -⟩ := hwd
  obtain ⟨s₃, h₃, hin₃, hs₃⟩ := hs₂.handOver hf₂ hp
  exact ⟨s₃, .step (a := .handOver) hr₂ trivial h₃, hin₃.trans hin₂, hs₃⟩

/-- The association can serve any number of wanted datagrams and be idle again. -/
theorem exists_idle {pre rest : List Datagram} (hds : ds = pre ++ rest) :
    ∃ s, (association none ds b).Reachable s ∧ s.incoming = rest ∧ Serving b t pre none none s := by
  induction pre using List.reverseRecOn generalizing rest with
  | nil => exact ⟨_, .start rfl, hds, .init b t ds⟩
  | append_singleton pre d ih =>
    have hds' : ds = pre ++ d :: rest := by simpa using hds
    obtain ⟨s₁, hr₁, hin₁, hs₁⟩ := ih hds'
    obtain ⟨s₂, hr₂, hin₂, hs₂⟩ := exists_received hw ht hds' hr₁ hin₁ hs₁
    obtain ⟨s₃, h₃, hin₃, -, hs₃⟩ := hs₂.copy
    exact ⟨s₃, .step (a := .copy) hr₂ trivial h₃, hin₃.trans hin₂, hs₃⟩

end Prompt

/-- What the caller has of `data` is `data` only if it fits. -/
theorem clip_eq {b data pay : Bytes} (hlen : data.length = pay.length) (h : clip b data = pay) :
    pay.length ≤ b.length ∧ data = pay := by
  have hcl : (clip b data).length = min data.length b.length := by
    simp only [clip, List.length_take, length_copyInto]
  have hle : data.length ≤ b.length := by
    rw [h] at hcl
    omega
  exact ⟨hlen ▸ hle, by rw [← h, clip, take_copyInto hle]⟩

/-- The item a caller is handed is copied when the goroutine has already read the next
datagram, if there is one. -/
theorem exists_late_copy {ds : List Datagram} {b : Bytes} {t : UDPAddr} {pre : List Datagram}
    {d d' : Datagram} {rest : List Datagram} {s : UdpCustomConn}
    (hr : (association none ds b).Reachable s) (hin : s.incoming = d' :: rest)
    (hs : Serving b t pre (some d) none s) :
    ∃ s', (association none ds b).Reachable s' ∧ s'.results = s.results ++
      [.ok (clip b ((copyInto d.read d'.bytes).drop (d.read.length - d.payload.length)))] := by
  obtain ⟨s₁, h₁⟩ : ∃ s₁, s.readFrom = some s₁ := by
    simp [readFrom, hs.reader, hin]
  obtain ⟨-, ⟨err, item, hclosed, -, -⟩ | ⟨d'', rest', source, target, pc, hin', -, heq⟩⟩ :=
    readFrom_cases h₁
  · cases hs.closed.symm.trans hclosed
  · obtain ⟨rfl, rfl⟩ : d' = d'' ∧ rest = rest' := by simpa [hin] using hin'
    have hslice := slice_copyInto (hs.tempBuf d rfl) d'
    have h₂ : s₁.copy b = some { s₁ with
        handler := .receive
        results := s.results ++ [.ok
          (clip b ((copyInto d.read d'.bytes).drop (d.read.length - d.payload.length)))] } := by
      rw [heq]
      simp only [UdpCustomConn.copy, hs.handler, ← hslice]
      rfl
    exact ⟨_, .step (a := .copy) (.step (a := .readFrom) hr trivial h₁) trivial h₂, rfl⟩

end UdpCustomConn

open UdpCustomConn

variable {pre rest : List Datagram}

theorem result_of_agree {ds : List Datagram} {b : Bytes} (h : Agree ds b)
    {d : Datagram} (hds : ds = pre ++ d :: rest) {s : UdpCustomConn}
    (hr : (association none ds b).Reachable s) {rs : List (Except QueueError Bytes)} {data : Bytes}
    (hres : s.results = rs ++ [.ok data]) (hlen : rs.length = pre.length) : data = d.payload := by
  obtain ⟨s', hr', hh', tail, htail⟩ := exists_halted hr
  obtain ⟨hres', -⟩ := h s' hr' hh'
  rw [(embed_of_allWanted (allWanted_of_agree h)).1] at hres'
  have hget : s'.results[rs.length]? = some (.ok data) := by simp [← htail, hres]
  simpa [hres', hds, hlen] using hget.symm

/-- If the two agree, a payload fits the caller's buffer and survives the next datagram. -/
theorem undisturbed_of_agree {ds : List Datagram} {b : Bytes} (h : Agree ds b) {d : Datagram}
    (hds : ds = pre ++ d :: rest) :
    d.payload.length ≤ b.length ∧ ∀ d' ∈ rest.head?, Undisturbed d d' := by
  obtain ⟨src, t, hw, ht⟩ := (allWanted_of_agree h).exists_target
  obtain ⟨s₁, hr₁, hin₁, hs₁⟩ := exists_idle (b := b) hw ht hds
  obtain ⟨s₂, hr₂, hin₂, hs₂⟩ := exists_received hw ht hds hr₁ hin₁ hs₁
  have hlen : s₂.results.length = pre.length := by simp [hs₂.results]
  cases rest with
  | nil =>
    obtain ⟨s₃, h₃, -, -, hs₃⟩ := hs₂.copy
    have hres : s₃.results = s₂.results ++ [.ok (clip b d.payload)] := by
      simp [hs₃.results, hs₂.results]
    have hclip := result_of_agree h hds (.step (a := .copy) hr₂ trivial h₃) hres hlen
    exact ⟨(clip_eq rfl hclip).1, by simp⟩
  | cons d' rest =>
    obtain ⟨s₃, hr₃, hres⟩ := exists_late_copy hr₂ hin₂ hs₂
    obtain ⟨-, a, hp, -⟩ := hw d (by rw [hds]; simp)
    have hsuffix := congrArg List.length (drop_read hp)
    obtain ⟨hfit, hund⟩ :=
      clip_eq (by simp only [List.length_drop, length_copyInto] at hsuffix ⊢; exact hsuffix)
      (result_of_agree h hds hr₃ hres hlen)
    refine ⟨hfit, fun d'' hd'' ↦ ?_⟩
    obtain rfl : d' = d'' := by simpa using hd''
    exact hund

theorem servedAlike_of_agree {ds : List Datagram} {b : Bytes} (h : Agree ds b) :
    ServedAlike ds b where
  wanted := allWanted_of_agree h
  fits d hd := by
    obtain ⟨pre, rest, hds⟩ := List.append_of_mem hd
    exact (undisturbed_of_agree h hds).1
  undisturbed := List.isChain_iff_forall_rel_of_append_cons_cons.mpr fun d d' pre rest hds ↦
    (undisturbed_of_agree h hds).2 d' rfl

/-- The two associations serve a sequence of datagrams alike exactly when every datagram
comes from the source of the first, parses, names the target of the first, has a
payload that fits the caller's buffer, and is not disturbed by the one after it. -/
theorem associate_agree_iff (ds : List Datagram) (b : Bytes) : Agree ds b ↔ ServedAlike ds b :=
  ⟨servedAlike_of_agree, agree_of_servedAlike⟩

/-- Two payloads for `8.8.8.8:53` with a one-byte datagram between them: the loop with a
handler hands out an empty payload for it and stops. -/
theorem short_datagram_not_agree :
    ¬ Agree [⟨str "10.0.0.2:4000", [0, 0, 0, 1, 8, 8, 8, 8, 0, 53, 1]⟩, ⟨str "10.0.0.2:4000", [0]⟩,
      ⟨str "10.0.0.2:4000", [0, 0, 0, 1, 8, 8, 8, 8, 0, 53, 2]⟩] (List.replicate 2048 0) := by
  intro h
  obtain ⟨a, -, hw⟩ := (servedAlike_of_agree h).wanted _ rfl
  obtain ⟨-, a', hp, -⟩ := hw ⟨str "10.0.0.2:4000", [0]⟩ (by simp)
  exact nomatch hp

end Vwarp.Proxy.Socks5
