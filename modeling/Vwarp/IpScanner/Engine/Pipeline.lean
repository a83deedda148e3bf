import Mathlib.Tactic.Push
import Vwarp.IpScanner.Engine.Run

/-!
# The scan pipeline works

For every interleaving, every outcome of the pings and a cancellation at any point:
no closed channel is closed or sent on, some process can move until all have
finished, and a scan that ends without having been cancelled has pinged exactly the
candidates that passed the filters, each once, and has enqueued each success once.

The invariant is `Sound`.  It is assembled from one fact for each process and its
channels, and from the accounts of what is where (`Flow`); each step touches one
process and leaves the others' facts alone.
-/

namespace Vwarp.IpScanner.Engine

open Vwarp.Go Vwarp.Lib

/-- How often a WARP worker holds `c` without having pinged it. -/
def WarpPc.waiting (c : AddrPort) : WarpPc → Nat
  | check c' => if c' = c then 1 else 0
  | _ => 0

/-- How often a WARP worker holds `info` to enqueue it. -/
def WarpPc.pending (info : IPInfo) : WarpPc → Nat
  | enqueue info' => if info' = info then 1 else 0
  | _ => 0

namespace Scan

/-- How often the WARP stage has taken `c` off its input. -/
def warpTaken (s : Scan) (c : AddrPort) : Nat :=
  tally (WarpPc.waiting c) s.warp + (s.pings.map WarpPing.candidate).count c

/-- The generator is consistent with its channel. -/
structure GenOk (rest : List AddrPort) (returned genDone cancelled : Bool)
    (ipStream : Chan AddrPort) : Prop where
  closed : ipStream.closed = genDone
  left : genDone = true → rest = [] ∨ returned = true
  cancelled : returned = true → cancelled = true

/-- The WARP stage is consistent with its channel. -/
structure WarpOk (warp : List WarpPc) (warpDone cancelled : Bool) (tcpStream : Chan AddrPort) :
    Prop where
  joined : warpDone = true → ∀ w ∈ warp, w = .done
  manned : warp ≠ []
  drained : cancelled = false → .done ∈ warp → tcpStream.buf = [] ∧ tcpStream.closed = true

/-- Where the candidates and the results are. -/
structure Flow (candidates : List AddrPort) (s : Scan) : Prop where
  generated : ∀ c, candidates.count c = s.rest.count c + (s.ipStream.buf.count c + s.icmp.taken c)
  pinged : ∀ c, s.icmp.passed c = s.icmp.held c + (s.icmpStream.buf.count c + s.tcp.taken c)
  dialled : ∀ c, s.tcp.passed c = s.tcp.held c + (s.tcpStream.buf.count c + s.warpTaken c)
  queued : ∀ info, s.successes.count info =
    tally (WarpPc.pending info) s.warp + (s.enqueued.map Prod.snd).count info

/-- The invariant of a scan. -/
structure Sound (opts : Options) (candidates : List AddrPort) (s : Scan) : Prop where
  gen : GenOk s.rest s.returned s.genDone s.cancelled s.ipStream
  icmp : s.icmpLink.Ok s.cancelled
  tcp : s.tcpLink.Ok s.cancelled
  warp : WarpOk s.warp s.warpDone s.cancelled s.tcpStream
  icmpMode : s.icmp.filtering = opts.icmpPing
  tcpMode : s.tcp.filtering = opts.tcpPing
  ports : ∀ p ∈ s.pings, p.port = warpPort opts p.candidate
  flow : s.cancelled = false → s.Flow candidates

variable {opts : Options} {candidates : List AddrPort} {s s' : Scan}

variable {cap : Nat}

theorem Sound.gen_step {a : GenAct} (h : s.Sound opts candidates)
    (hn : s.genNext cap a = some s') : s'.Sound opts candidates := by
  cases a with
  | send =>
    simp only [genNext] at hn
    split at hn
    · rename_i c rest hrest hret
      obtain ⟨⟨ch, fault⟩, hsend, rfl⟩ := Option.map_eq_some_iff.mp hn
      have hopen : s.ipStream.closed = false := by
        cases hc : s.ipStream.closed with
        | false => rfl
        | true =>
          rcases h.gen.left (h.gen.closed.symm.trans hc) with h' | h'
          · cases hrest.symm.trans h'
          · cases hret.symm.trans h'
      obtain ⟨rfl, -, rfl⟩ := Chan.send_cases hsend hopen
      have hdone : s.genDone = false := h.gen.closed.symm.trans hopen
      rw [Bool.or_false]
      refine ⟨⟨hdone.symm, (fun hd ↦ by cases hdone.symm.trans hd), h.gen.cancelled⟩,
        h.icmp.setInp _ (fun _ hc ↦ by cases hopen.symm.trans hc), h.tcp, h.warp, h.icmpMode,
        h.tcpMode, h.ports, fun hc ↦ ?_⟩
      obtain ⟨h₁, h₂, h₃, h₄⟩ := h.flow hc
      refine ⟨fun c' ↦ ?_, h₂, h₃, h₄⟩
      have := h₁ c'
      simp only [hrest, List.count_cons, List.count_append, List.count_nil] at this ⊢
      omega
    · cases hn
  | abort =>
    obtain ⟨hpre, ⟨⟩⟩ := Option.ite_none_right_eq_some.mp hn
    exact ⟨⟨h.gen.closed, fun _ ↦ .inr rfl, fun _ ↦ hpre.2.2⟩, h.icmp, h.tcp, h.warp, h.icmpMode,
      h.tcpMode, h.ports, fun hc ↦ by cases hpre.2.2.symm.trans hc⟩
  | close =>
    obtain ⟨hpre, ⟨⟩⟩ := Option.ite_none_right_eq_some.mp hn
    have hopen : s.ipStream.closed = false := h.gen.closed.trans hpre.2
    have hfault : (s.fault || s.ipStream.close.2) = s.fault := by
      simp [Chan.close, hopen]
    simp only [hfault]
    refine ⟨⟨rfl, fun _ ↦ hpre.1, h.gen.cancelled⟩,
      h.icmp.setInp _ (fun _ hc ↦ by cases hopen.symm.trans hc), h.tcp, h.warp, h.icmpMode,
      h.tcpMode, h.ports, fun hc ↦ ?_⟩
    obtain ⟨h₁, h₂, h₃, h₄⟩ := h.flow hc
    exact ⟨h₁, h₂, h₃, h₄⟩

theorem Sound.icmp_step {l : Link AddrPort} (h : s.Sound opts candidates)
    (hs : Step cap s.cancelled s.icmpLink l) : (s.setIcmp l).Sound opts candidates := by
  have hok : l.Ok s.cancelled := h.icmp.step hs
  have hfault : l.fault = s.fault := hok.fault.trans h.icmp.fault.symm
  have htcp : (s.setIcmp l).tcpLink.Ok s.cancelled := by
    have := h.tcp.setInp l.out fun _ hc ↦ h.icmp.out_of_closed hs hc
    rwa [tcpLink, ← hfault] at this
  refine ⟨⟨hs.inp_closed.trans h.gen.closed, h.gen.left, h.gen.cancelled⟩, hok, htcp, h.warp,
    hs.filtering.trans h.icmpMode, h.tcpMode, h.ports, fun hc ↦ ?_⟩
  have hc' : s.cancelled = false := hc
  rw [hc'] at hs
  obtain ⟨h₁, h₂, h₃, h₄⟩ := h.flow hc'
  refine ⟨fun c ↦ ?_, fun c ↦ ?_, h₃, h₄⟩
  · have := hs.input c
    have := h₁ c
    simp only [icmpLink, setIcmp] at *
    omega
  · have := hs.output (hc' ▸ h.icmp) c
    have := h₂ c
    simp only [icmpLink, setIcmp] at *
    omega

theorem Sound.tcp_step {l : Link AddrPort} (h : s.Sound opts candidates)
    (hs : Step cap s.cancelled s.tcpLink l) : (s.setTcp l).Sound opts candidates := by
  have hok : l.Ok s.cancelled := h.tcp.step hs
  have hfault : l.fault = s.fault := hok.fault.trans h.tcp.fault.symm
  have hicmp : (s.setTcp l).icmpLink.Ok s.cancelled := by
    have := h.icmp.setOut l.inp hs.inp_closed
    rwa [icmpLink, ← hfault] at this
  refine ⟨h.gen, hicmp, hok, ⟨h.warp.joined, h.warp.manned, fun hc hmem ↦ ?_⟩, h.icmpMode,
    hs.filtering.trans h.tcpMode, h.ports, fun hc ↦ ?_⟩
  · obtain ⟨hbuf, hclosed⟩ := h.warp.drained hc hmem
    have hout : l.out = s.tcpStream := h.tcp.out_of_closed hs hclosed
    simp only [setTcp, hout]
    exact ⟨hbuf, hclosed⟩
  · have hc' : s.cancelled = false := hc
    rw [hc'] at hs
    obtain ⟨h₁, h₂, h₃, h₄⟩ := h.flow hc'
    refine ⟨h₁, fun c ↦ ?_, fun c ↦ ?_, h₄⟩
    · have := hs.input c
      have := h₂ c
      simp only [tcpLink, setTcp] at *
      omega
    · have := hs.output (hc' ▸ h.tcp) c
      have := h₃ c
      simp only [tcpLink, setTcp, warpTaken] at *
      omega

variable {ch : Chan AddrPort} {i : Nat} {w' : WarpPc}

theorem WarpOk.move {warp : List WarpPc} {warpDone cancelled cancelled' : Bool}
    {ch' : Chan AddrPort} (h : WarpOk warp warpDone cancelled ch) {w : WarpPc}
    (hw : warp[i]? = some w) (hne : w ≠ .done)
    (hdrain : cancelled' = false → .done ∈ warp.set i w' → ch'.buf = [] ∧ ch'.closed = true) :
    WarpOk (warp.set i w') warpDone cancelled' ch' := by
  refine ⟨fun hd ↦ absurd (h.joined hd w (mem_of_worker hw)) hne, ?_, hdrain⟩
  simpa using h.manned

theorem WarpOk.drained_set {warp : List WarpPc} {warpDone cancelled : Bool}
    (h : WarpOk warp warpDone cancelled ch) (hne : w' ≠ .done)
    (hc : cancelled = false) (hmem : .done ∈ warp.set i w') : ch.buf = [] ∧ ch.closed = true := by
  rcases mem_set_cases hmem with heq | hmem
  · exact absurd heq.symm hne
  · exact h.drained hc hmem

/-- A move of a WARP worker keeps the invariant, if it keeps the accounts. -/
theorem Sound.warp_move (h : s.Sound opts candidates) {w : WarpPc}
    (hw : s.warp[i]? = some w) (hne : w ≠ .done)
    {pings : List WarpPing} {successes : List IPInfo} {enqueued : List (Nat × IPInfo)}
    {queue : IPQueue} {observed : List Nat} {b : Bool}
    (hclosed : ch.closed = s.tcpStream.closed) (hb : b = false → s.cancelled = false)
    (hdrain : b = false → .done ∈ s.warp.set i w' → ch.buf = [] ∧ ch.closed = true)
    (hports : ∀ p ∈ pings, p.port = warpPort opts p.candidate)
    (hdial :
      b = false → ∀ c, ch.buf.count c + (w'.waiting c + (pings.map WarpPing.candidate).count c) =
      s.tcpStream.buf.count c + (w.waiting c + (s.pings.map WarpPing.candidate).count c))
    (hqueue :
      ∀ info, successes.count info + (w.pending info + (s.enqueued.map Prod.snd).count info) =
      s.successes.count info + (w'.pending info + (enqueued.map Prod.snd).count info)) :
    Sound opts candidates { s.setWarp i w' with
      tcpStream := ch
      pings := pings
      successes := successes
      enqueued := enqueued
      queue := queue
      observed := observed
      cancelled := b } := by
  have hcancel : ∀ l : Link AddrPort, l.Ok s.cancelled → l.Ok b := by
    intro l hl
    cases b with
    | true => exact hl.cancel
    | false => exact hb rfl ▸ hl
  refine ⟨⟨h.gen.closed, h.gen.left, fun hret ↦ ?_⟩, hcancel _ h.icmp,
    hcancel _ (h.tcp.setOut ch hclosed), h.warp.move hw hne hdrain, h.icmpMode, h.tcpMode, hports,
    fun hc ↦ ?_⟩
  · cases b with
    | true => rfl
    | false => exact nomatch (hb rfl).symm.trans (h.gen.cancelled hret)
  · obtain ⟨h₁, h₂, h₃, h₄⟩ := h.flow (hb hc)
    refine ⟨h₁, h₂, fun c ↦ ?_, fun info ↦ ?_⟩
    · have htally := tally_set (f := WarpPc.waiting c) hw w'
      have hbefore := h₃ c
      have hdial := hdial hc c
      simp only [warpTaken, setWarp] at *
      omega
    · have htally := tally_set (f := WarpPc.pending info) hw w'
      have hbefore := h₄ info
      have hqueue := hqueue info
      simp only [setWarp] at *
      omega

theorem Sound.warp_step (h : s.Sound opts candidates) {a : WarpAct} (hs : WarpStep opts s a s') :
    s'.Sound opts candidates := by
  cases hs with
  | @take i c buf hw hbuf =>
    refine h.warp_move hw (by simp) rfl id (fun hc hmem ↦ ?_) h.ports (fun _ c' ↦ ?_) (fun _ ↦ rfl)
    · exact nomatch hbuf.symm.trans (h.warp.drained_set (by simp) hc hmem).1
    · simp only [setWarp, hbuf, List.count_cons, beq_iff_eq, WarpPc.waiting]
      omega
  | @ended i hw hbuf hclosed =>
    exact h.warp_move hw (by simp) rfl id (fun _ _ ↦ ⟨hbuf, hclosed⟩) h.ports (fun _ _ ↦ rfl)
      (fun _ ↦ rfl)
  | @quit i c hw hc =>
    exact h.warp_move hw (by simp) rfl id (fun hc' _ ↦ nomatch hc.symm.trans hc') h.ports
      (fun hc' _ ↦ nomatch hc.symm.trans hc') (fun _ ↦ rfl)
  | @ping i c hw hc =>
    refine h.warp_move hw (by simp) rfl id (fun hc hmem ↦ h.warp.drained_set (by simp) hc hmem)
      (forall_mem_concat.mpr ⟨h.ports, rfl⟩) (fun _ c' ↦ ?_) (fun _ ↦ rfl)
    simp only [setWarp, List.map_append, List.map_cons, List.map_nil, List.count_append,
      List.count_cons, List.count_nil, beq_iff_eq, WarpPc.waiting]
    omega
  | @success i c info hw =>
    refine h.warp_move hw (by simp) rfl id (fun hc hmem ↦ h.warp.drained_set (by simp) hc hmem)
      h.ports (fun _ _ ↦ rfl) (fun info' ↦ ?_)
    simp only [setWarp, List.count_append, List.count_cons, List.count_nil, beq_iff_eq,
      WarpPc.pending]
    omega
  | failure hw | enough hw _ | more hw _ =>
    exact h.warp_move hw (by simp) rfl id (fun hc hmem ↦ h.warp.drained_set (by simp) hc hmem)
      h.ports (fun _ _ ↦ rfl) (fun _ ↦ rfl)
  | @enqueue i info hw =>
    refine h.warp_move hw (by simp) rfl id
      (fun hc hmem ↦ h.warp.drained_set (by split <;> simp) hc hmem) h.ports (fun _ c ↦ ?_)
      (fun info' ↦ ?_)
    · split <;> rfl
    · have hpending : WarpPc.pending info'
          (if 0 < opts.stopOnFirstGoodIPs then .size else .recv) = 0 := by split <;> rfl
      rw [hpending]
      simp only [setWarp, List.map_append, List.map_cons, List.map_nil, List.count_append,
        List.count_cons, List.count_nil, beq_iff_eq, WarpPc.pending]
      omega
  | @cancel i hw =>
    exact h.warp_move hw (by simp) rfl (fun hc ↦ nomatch hc) (fun hc ↦ nomatch hc) h.ports
      (fun _ _ ↦ rfl) (fun _ ↦ rfl)
  | join hd hall =>
    exact { h with
      warp := { h.warp with joined := fun _ ↦ hall }
      flow := fun hc ↦ { h.flow hc with } }

theorem Sound.step {a : ScanAct} (h : s.Sound opts candidates) (hn : s.next opts a = some s') :
    s'.Sound opts candidates := by
  cases a with
  | gen a => exact h.gen_step hn
  | icmp a =>
    obtain ⟨l, hl, rfl⟩ := Option.map_eq_some_iff.mp hn
    exact h.icmp_step (Link.step_of_next hl)
  | tcp a =>
    obtain ⟨l, hl, rfl⟩ := Option.map_eq_some_iff.mp hn
    exact h.tcp_step (Link.step_of_next hl)
  | warp a => exact h.warp_step (warpStep_of_next hn)
  | cancel =>
    cases hn
    exact { h with
      gen := { h.gen with cancelled := fun _ ↦ rfl }
      icmp := h.icmp.cancel
      tcp := h.tcp.cancel
      warp := { h.warp with drained := fun hc ↦ nomatch hc }
      flow := fun hc ↦ nomatch hc }

/-- A stage whose workers are all done has one that is. -/
theorem done_mem {α : Type*} {l : List α} {d : α} (hne : l ≠ []) (hall : ∀ w ∈ l, w = d) :
    d ∈ l := by
  obtain ⟨w, hw⟩ := List.exists_mem_of_ne_nil _ hne
  exact hall w hw ▸ hw

theorem tally_done {α : Type*} {l : List α} {d : α} {f : α → Nat} (hall : ∀ w ∈ l, w = d)
    (hf : f d = 0) : tally f l = 0 :=
  tally_eq_zero fun w hw ↦ hall w hw ▸ hf

/-- The filter of a stage, if it is switched on, accepted the candidate. -/
def Accepted (on : Bool) (stage : Stage AddrPort) (c : AddrPort) : Prop :=
  on = true → (c, true) ∈ stage.verdicts

/-- What a scan has done when it has finished without having been cancelled. -/
structure Complete (opts : Options) (candidates : List AddrPort) (s : Scan) : Prop where
  /-- The first filter judged each candidate once. -/
  judged : ∀ c ∈ candidates, s.icmp.verdicts.count (c, true) + s.icmp.verdicts.count (c, false) = 1
  /-- The second filter judged what the first one accepted, as often as it did. -/
  rejudged : ∀ c, s.tcp.verdicts.count (c, true) + s.tcp.verdicts.count (c, false) =
    s.icmp.verdicts.count (c, true)
  /-- Each candidate that passed the enabled filters was pinged once. -/
  once : ∀ c ∈ candidates, Accepted opts.icmpPing s.icmp c → Accepted opts.tcpPing s.tcp c →
    (s.pings.map WarpPing.candidate).count c = 1
  only : ∀ p ∈ s.pings, p.candidate ∈ candidates ∧ Accepted opts.icmpPing s.icmp p.candidate ∧
    Accepted opts.tcpPing s.tcp p.candidate ∧ p.port = warpPort opts p.candidate
  /-- Each success was enqueued once, and nothing else was. -/
  enqueued : (s.enqueued.map Prod.snd).Perm s.successes

/-- When a scan has finished without having been cancelled, nothing is on its way. -/
theorem Sound.settled (h : s.Sound opts candidates) (hf : s.Finished) (hc : s.cancelled = false) :
    (∀ c, candidates.count c = s.icmp.verdicts.count (c, true) + s.icmp.verdicts.count (c, false)) ∧
      (∀ c, s.icmp.passed c = s.tcp.verdicts.count (c, true) + s.tcp.verdicts.count (c, false)) ∧
      (∀ c, s.tcp.passed c = (s.pings.map WarpPing.candidate).count c) ∧
      ∀ info, s.successes.count info = (s.enqueued.map Prod.snd).count info := by
  obtain ⟨hgen, ⟨-, hicmp⟩, ⟨-, htcp⟩, -, hwarp⟩ := hf
  obtain ⟨h₁, h₂, h₃, h₄⟩ := h.flow hc
  have hrest : s.rest = [] := (h.gen.left hgen).elim id fun hret ↦
    nomatch hc.symm.trans (h.gen.cancelled hret)
  have hip : s.ipStream.buf = [] := (h.icmp.drained hc (done_mem h.icmp.manned hicmp)).1
  have hicmpStream : s.icmpStream.buf = [] := (h.tcp.drained hc (done_mem h.tcp.manned htcp)).1
  have htcpStream : s.tcpStream.buf = [] := (h.warp.drained hc (done_mem h.warp.manned hwarp)).1
  refine ⟨fun c ↦ ?_, fun c ↦ ?_, fun c ↦ ?_, fun info ↦ ?_⟩
  · have hnone : tally (WorkerPc.waiting c) s.icmp.workers = 0 := tally_done hicmp rfl
    simpa [hrest, hip, Stage.taken, hnone] using h₁ c
  · have hheld : s.icmp.held c = 0 := tally_done hicmp rfl
    have hnone : tally (WorkerPc.waiting c) s.tcp.workers = 0 := tally_done htcp rfl
    simpa [hheld, hicmpStream, Stage.taken, hnone] using h₂ c
  · have hheld : s.tcp.held c = 0 := tally_done htcp rfl
    have hnone : tally (WarpPc.waiting c) s.warp = 0 := tally_done hwarp rfl
    simpa [hheld, htcpStream, warpTaken, hnone] using h₃ c
  · have hnone : tally (WarpPc.pending info) s.warp = 0 := tally_done hwarp rfl
    simpa [hnone] using h₄ info

/-- A candidate that was judged once and accepted passed once. -/
theorem passed_eq_one {on : Bool} {stage : Stage AddrPort} (hmode : stage.filtering = on)
    (hpass : stage.filtering = false → ∀ v ∈ stage.verdicts, v.2 = true) {c : AddrPort}
    (hone : stage.verdicts.count (c, true) + stage.verdicts.count (c, false) = 1)
    (hacc : Accepted on stage c) : stage.passed c = 1 := by
  have hpos : on = true → 0 < stage.verdicts.count (c, true) := fun hon ↦
    List.count_pos_iff.mpr (hacc hon)
  have hzero : on = false → stage.verdicts.count (c, false) = 0 := fun hoff ↦
    List.count_eq_zero.mpr fun hmem ↦ nomatch hpass (hmode.trans hoff) _ hmem
  unfold Stage.passed
  cases on with
  | true => have := hpos rfl; omega
  | false => have := hzero rfl; omega

theorem accepted_of_passed {on : Bool} {stage : Stage AddrPort} {c : AddrPort}
    (h : 0 < stage.passed c) : Accepted on stage c := fun _ ↦ List.count_pos_iff.mp h

/-- A scan that has finished without having been cancelled is complete. -/
theorem Sound.complete (h : s.Sound opts candidates) (hnd : candidates.Nodup) (hf : s.Finished)
    (hc : s.cancelled = false) : s.Complete opts candidates := by
  obtain ⟨h₁, h₂, h₃, h₄⟩ := h.settled hf hc
  have hjudged (c : AddrPort) (hmem : c ∈ candidates) :=
    (h₁ c).symm.trans (List.count_eq_one_of_mem hnd hmem)
  refine ⟨hjudged, fun c ↦ (h₂ c).symm, fun c hmem hicmp htcp ↦ ?_, fun p hp ↦ ?_, ?_⟩
  · have hpassed := passed_eq_one h.icmpMode h.icmp.passing (hjudged c hmem) hicmp
    have hpassed' := passed_eq_one h.tcpMode h.tcp.passing ((h₂ c).symm.trans hpassed) htcp
    exact (h₃ c).symm.trans hpassed'
  · have hpos : 0 < (s.pings.map WarpPing.candidate).count p.candidate :=
      List.count_pos_iff.mpr (List.mem_map_of_mem hp)
    have htcp : 0 < s.tcp.passed p.candidate := h₃ p.candidate ▸ hpos
    have hicmp : 0 < s.icmp.passed p.candidate := by
      rw [h₂]
      exact Nat.add_pos_left htcp _
    refine ⟨?_, accepted_of_passed hicmp, accepted_of_passed htcp, h.ports p hp⟩
    exact List.count_pos_iff.mp (by rw [h₁]; exact Nat.add_pos_left hicmp _)
  · exact List.perm_iff_count.mpr fun info ↦ (h₄ info).symm

end Scan

end Vwarp.IpScanner.Engine
