import Vwarp.IpScanner.Engine.Run

/-!
# What a scan pings

The processes of a scan hand candidates on and make none up, so whatever holds of all
candidates holds of everything a scan pings, cancelled or not (`pings_of_reach`).  The
other way round, every candidate gets its WARP ping in some run (`exists_warp_ping`).
-/

namespace Vwarp.IpScanner.Engine

open Vwarp.Go Vwarp.Lib

universe u

variable {α : Type u}

/-! ## Stages -/

def WorkerPc.item? : WorkerPc α → Option α
  | check x | filter x | send x => some x
  | recv | done => none

/-- Everything in a channel has the property `P`. -/
def ChanIn (P : α → Prop) (c : Chan α) : Prop := ∀ x ∈ c.buf, P x

/-- Everything the workers hold has the property `P`. -/
def WorkersIn (P : α → Prop) (ws : List (WorkerPc α)) : Prop := ∀ w ∈ ws, ∀ x ∈ w.item?, P x

variable {P : α → Prop}

theorem ChanIn.send {cap : Nat} {c c' : Chan α} {x : α} {fault : Bool} (h : ChanIn P c) (hx : P x)
    (hsend : c.send cap x = some (c', fault)) : ChanIn P c' := by
  unfold Chan.send at hsend
  split at hsend
  · obtain ⟨rfl, -⟩ := Prod.mk.inj (Option.some.inj hsend)
    exact h
  · split at hsend
    · obtain ⟨rfl, -⟩ := Prod.mk.inj (Option.some.inj hsend)
      exact List.forall_mem_append.mpr ⟨h, List.forall_mem_singleton.mpr hx⟩
    · cases hsend

theorem ChanIn.recv {c : Chan α} {x : α} {buf : List α} (h : ChanIn P c) (hbuf : c.buf = x :: buf) :
    P x ∧ ∀ y ∈ buf, P y := by
  unfold ChanIn at h
  rw [hbuf] at h
  exact List.forall_mem_cons.mp h

theorem WorkersIn.set {ws : List (WorkerPc α)} (h : WorkersIn P ws) {i : Nat} {w : WorkerPc α}
    (hw : ∀ x ∈ w.item?, P x) : WorkersIn P (ws.set i w) := by
  intro v hv
  rcases mem_set_cases hv with rfl | hv
  · exact hw
  · exact h v hv

/-- Everything in a stage and its channels has the property `P`. -/
structure Link.In (P : α → Prop) (l : Link α) : Prop where
  workers : WorkersIn P l.stage.workers
  inp : ChanIn P l.inp
  out : ChanIn P l.out

theorem Link.In.step {cap : Nat} {cancelled : Bool} {l l' : Link α} (h : l.In P)
    (hs : Step cap cancelled l l') : l'.In P := by
  cases hs with
  | @take i x buf hw hbuf hf | @pass i x buf hw hbuf hf =>
    obtain ⟨hx, hrest⟩ := h.inp.recv hbuf
    exact ⟨h.workers.set (fun y hy ↦ Option.some.inj hy ▸ hx), hrest, h.out⟩
  | @ended i hw hbuf hclosed | @quit i x hw hc | @abort i x hw hc =>
    exact ⟨h.workers.set (fun y hy ↦ nomatch hy), h.inp, h.out⟩
  | @ask i x hw hc =>
    exact ⟨h.workers.set fun y hy ↦ h.workers _ (mem_of_worker hw) y hy, h.inp, h.out⟩
  | @verdict i x ok hw =>
    refine ⟨h.workers.set fun y hy ↦ h.workers _ (mem_of_worker hw) y ?_, h.inp, h.out⟩
    cases ok with
    | true => exact hy
    | false => exact nomatch hy
  | @send i x out fault hw hsend =>
    have hx : P x := h.workers _ (mem_of_worker hw) x rfl
    exact ⟨h.workers.set (fun y hy ↦ nomatch hy), h.inp, h.out.send hx hsend⟩
  | close hf hall => exact ⟨h.workers, h.inp, h.out⟩

/-! ## Scans -/

def WarpPc.item? : WarpPc → Option AddrPort
  | check c | ping c => some c
  | _ => none

/-- Everything in a scan has the property `P`. -/
structure Scan.In (P : AddrPort → Prop) (s : Scan) : Prop where
  rest : ∀ c ∈ s.rest, P c
  ipStream : ChanIn P s.ipStream
  icmp : WorkersIn P s.icmp.workers
  icmpStream : ChanIn P s.icmpStream
  tcp : WorkersIn P s.tcp.workers
  tcpStream : ChanIn P s.tcpStream
  warp : ∀ w ∈ s.warp, ∀ c ∈ w.item?, P c
  pings : ∀ p ∈ s.pings, P p.candidate

namespace Scan

variable {P : AddrPort → Prop} {opts : Options} {candidates : List AddrPort} {s s' : Scan}

theorem In.gen_step {cap : Nat} {a : GenAct} (h : s.In P) (hn : s.genNext cap a = some s') :
    s'.In P := by
  cases a with
  | send =>
    simp only [genNext] at hn
    split at hn
    · rename_i c rest hrest hret
      obtain ⟨⟨ch, fault⟩, hsend, rfl⟩ := Option.map_eq_some_iff.mp hn
      obtain ⟨hc, hrest'⟩ := List.forall_mem_cons.mp (hrest ▸ h.rest)
      exact { h with rest := hrest', ipStream := h.ipStream.send hc hsend }
    · cases hn
  | abort =>
    obtain ⟨-, ⟨⟩⟩ := Option.ite_none_right_eq_some.mp hn
    exact { h with }
  | close =>
    obtain ⟨-, ⟨⟩⟩ := Option.ite_none_right_eq_some.mp hn
    exact { h with ipStream := h.ipStream }

theorem In.warp_set (h : s.In P) {i : Nat} {w : WarpPc} (hw : ∀ c ∈ w.item?, P c) :
    ∀ v ∈ s.warp.set i w, ∀ c ∈ v.item?, P c := by
  intro v hv
  rcases mem_set_cases hv with rfl | hv
  · exact hw
  · exact h.warp v hv

theorem In.warp_step (h : s.In P) {a : WarpAct} (hs : WarpStep opts s a s') : s'.In P := by
  cases hs with
  | @take i c buf hw hbuf =>
    obtain ⟨hc, hrest⟩ := h.tcpStream.recv hbuf
    exact { h with warp := h.warp_set fun y hy ↦ Option.some.inj hy ▸ hc, tcpStream := hrest }
  | @ping i c hw hc =>
    have hP : P c := h.warp _ (mem_of_worker hw) c rfl
    exact { h with
      warp := h.warp_set fun y hy ↦ Option.some.inj hy ▸ hP
      pings := List.forall_mem_append.mpr ⟨h.pings, List.forall_mem_singleton.mpr hP⟩ }
  | @enqueue i info hw =>
    refine { h with warp := h.warp_set fun y hy ↦ ?_ }
    split at hy <;> cases hy
  | join hf hall => exact { h with }
  | _ => exact { h with warp := h.warp_set fun y hy ↦ nomatch hy }

theorem In.step {a : ScanAct} (h : s.In P) (hn : s.next opts a = some s') : s'.In P := by
  cases a with
  | gen a => exact h.gen_step hn
  | icmp a =>
    obtain ⟨l, hl, rfl⟩ := Option.map_eq_some_iff.mp hn
    have hlink : s.icmpLink.In P := ⟨h.icmp, h.ipStream, h.icmpStream⟩
    have hl' := hlink.step (Link.step_of_next hl)
    exact { h with ipStream := hl'.inp, icmp := hl'.workers, icmpStream := hl'.out }
  | tcp a =>
    obtain ⟨l, hl, rfl⟩ := Option.map_eq_some_iff.mp hn
    have hlink : s.tcpLink.In P := ⟨h.tcp, h.icmpStream, h.tcpStream⟩
    have hl' := hlink.step (Link.step_of_next hl)
    exact { h with icmpStream := hl'.inp, tcp := hl'.workers, tcpStream := hl'.out }
  | warp a => exact h.warp_step (warpStep_of_next hn)
  | cancel =>
    cases hn
    exact { h with }

theorem in_init (h : ∀ c ∈ candidates, P c) : (init opts candidates).In P where
  rest := h
  ipStream _ hx := nomatch hx
  icmp _ hw _ hx := by rw [List.eq_of_mem_replicate hw] at hx; cases hx
  icmpStream _ hx := nomatch hx
  tcp _ hw _ hx := by rw [List.eq_of_mem_replicate hw] at hx; cases hx
  tcpStream _ hx := nomatch hx
  warp _ hw _ hx := by rw [List.eq_of_mem_replicate hw] at hx; cases hx
  pings _ hp := nomatch hp

/-- The scan pings the address: a worker of the ICMP or the TCP stage is in its filter, or a
WARP ping was started. -/
def Pings (s : Scan) (ip : Addr) : Prop :=
  (∃ c, .filter c ∈ s.icmp.workers ∧ c.addr = ip) ∨ (∃ c, .filter c ∈ s.tcp.workers ∧ c.addr = ip) ∨
    ∃ p ∈ s.pings, p.candidate.addr = ip

variable {G : Scan → ScanAct → Prop}

theorem in_of_reach (hr : (scan opts candidates).Reach G s) : s.In (· ∈ candidates) :=
  hr.invariant (fun _ hs ↦ hs.2 ▸ in_init fun _ hc ↦ hc) (fun _ _ _ h _ hn ↦ h.step hn)

theorem pings_of_reach (hr : (scan opts candidates).Reachable s) {ip : Addr} (hp : s.Pings ip) :
    ∃ c ∈ candidates, c.addr = ip := by
  have hin := in_of_reach hr
  rcases hp with ⟨c, hw, hc⟩ | ⟨c, hw, hc⟩ | ⟨p, hp, hc⟩
  · exact ⟨c, hin.icmp _ hw c rfl, hc⟩
  · exact ⟨c, hin.tcp _ hw c rfl, hc⟩
  · exact ⟨p.candidate, hin.pings p hp, hc⟩

theorem port_of_reach (hr : (scan opts candidates).Reach G s) :
    ∀ p ∈ s.pings, p.port = warpPort opts p.candidate := by
  refine hr.invariant (I := fun s ↦ ∀ p ∈ s.pings, p.port = warpPort opts p.candidate)
    (fun s hs p hp ↦ ?_) fun s a s' h _ hn ↦ ?_
  · obtain ⟨-, rfl⟩ := hs
    cases hp
  · obtain ⟨b, -, hs⟩ | ⟨-, -, hpings, -⟩ := step_cases hn
    · cases hs with
      | ping => exact List.forall_mem_append.mpr ⟨h, List.forall_mem_singleton.mpr rfl⟩
      | _ => exact h
    · rw [hpings]
      exact h

/-- A scan with nothing under way, `rest` still to be sent and the given answers of its two
stages. -/
def idle (opts : Options) (rest : List AddrPort) (icmp tcp : List (AddrPort × Bool)) : Scan :=
  { init opts rest with
    icmp := { Stage.start opts.icmpPing opts.concurrentScanners with verdicts := icmp }
    tcp := { Stage.start opts.tcpPing opts.concurrentScanners with verdicts := tcp } }

/-- A guard that lets everything through but answers of WARP pings, which it may test. -/
def OpenGuard (G : Scan → ScanAct → Prop) : Prop :=
  ∀ s a, (∀ i info, a ≠ .warp (.success i info)) → G s a

variable (hicmp : opts.icmpPing = false) (htcp : opts.tcpPing = true)
  (hk : 1 ≤ opts.concurrentScanners)

include hicmp htcp hk

/-- The next candidate fails the TCP filter, or passes it and a worker starts a WARP ping of it. -/
theorem run_next (c : AddrPort) (rest : List AddrPort) (icmp tcp : List (AddrPort × Bool)) :
    (scan opts candidates).run (idle opts (c :: rest) icmp tcp)
      [.gen .send, .icmp (.recv 0), .icmp (.send 0), .tcp (.recv 0), .tcp (.check 0),
        .tcp (.verdict 0 false)] =
      some (idle opts rest (icmp ++ [(c, true)]) (tcp ++ [(c, false)])) ∧
    ∃ s, (scan opts candidates).run (idle opts (c :: rest) icmp tcp)
      [.gen .send, .icmp (.recv 0), .icmp (.send 0), .tcp (.recv 0), .tcp (.check 0),
        .tcp (.verdict 0 true), .tcp (.send 0), .warp (.recv 0), .warp (.check 0)] = some s ∧
      s.pings = [⟨0, c, warpPort opts c⟩] := by
  obtain ⟨k, hk⟩ := Nat.exists_eq_add_of_le' hk
  obtain ⟨icmpPing, tcpPing, concurrency, stop, queue, port⟩ := opts
  obtain rfl : icmpPing = false := hicmp
  obtain rfl : tcpPing = true := htcp
  obtain rfl : concurrency = k + 1 := hk
  exact ⟨rfl, _, rfl, rfl⟩

/-- Every candidate gets its WARP ping in some run of a scan with the TCP stage and without
the ICMP stage: the candidates before it are turned down by the TCP filter. -/
theorem exists_warp_ping (hG : OpenGuard G) {c : AddrPort} (hc : c ∈ candidates) :
    ∃ s, (scan opts candidates).Reach G s ∧ ⟨0, c, warpPort opts c⟩ ∈ s.pings := by
  obtain ⟨before, after, rfl⟩ := List.append_of_mem hc
  have hskip (l : List AddrPort) : ∀ {icmp tcp : List (AddrPort × Bool)},
      (scan opts (before ++ c :: after)).Reach G (idle opts (l ++ c :: after) icmp tcp) →
      ∃ icmp tcp, (scan opts (before ++ c :: after)).Reach G (idle opts (c :: after) icmp tcp) := by
    induction l with
    | nil => exact fun h ↦ ⟨_, _, h⟩
    | cons d l ih =>
      intro icmp tcp h
      refine ih (h.of_run (fun a ha s ↦ hG s a ?_) (run_next hicmp htcp hk d _ icmp tcp).1)
      rintro i info rfl
      simp at ha
  have hstart :
      (scan opts (before ++ c :: after)).Reach G (idle opts (before ++ c :: after) [] []) :=
    .start ⟨List.append_ne_nil_of_right_ne_nil _ (List.cons_ne_nil c after), rfl⟩
  obtain ⟨icmp, tcp, hreach⟩ := hskip before hstart
  obtain ⟨s, hrun, hping⟩ := (run_next hicmp htcp hk c after icmp tcp).2
  refine ⟨s, hreach.of_run (fun a ha s ↦ hG s a ?_) hrun, hping ▸ List.mem_singleton_self _⟩
  rintro i info rfl
  simp at ha

theorem exists_pings {c : AddrPort} (hc : c ∈ candidates) :
    ∃ s, (scan opts candidates).Reachable s ∧ s.Pings c.addr := by
  obtain ⟨s, hreach, hping⟩ := exists_warp_ping hicmp htcp hk (fun _ _ _ ↦ trivial) hc
  exact ⟨s, hreach, .inr (.inr ⟨_, hping, rfl⟩)⟩

end Scan

end Vwarp.IpScanner.Engine
