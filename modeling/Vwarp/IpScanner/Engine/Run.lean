import Vwarp.IpScanner.Engine.Candidates
import Vwarp.IpScanner.Engine.Queue
import Vwarp.IpScanner.Engine.Stage
import Vwarp.Lib.Machine

/-!
# `Engine.Run`: the scan pipeline

A generator feeds the candidates into a channel; an ICMP stage and a TCP stage,
each a filter or a pass-through, hand on what they accept; the workers of the WARP
stage ping what arrives and enqueue what answers.  All channels have room for as many
items as there are workers.  A worker that finds enough results in the queue cancels
the scan; the scan can also be cancelled from outside at any time.

The outcome of a ping is the environment's, and so is the order of the steps.  The
last four components of the state only record what happened: which pings were
started, which of them succeeded, what was enqueued by whom, and which workers saw
the queue reach its target.
-/

namespace Vwarp.IpScanner.Engine

open Vwarp.Go Vwarp.Lib

/-- The options `Run` reads. -/
structure Options where
  icmpPing : Bool
  tcpPing : Bool
  concurrentScanners : Nat
  stopOnFirstGoodIPs : Int
  ipQueueSize : Int
  port : UInt16

/-- Where a worker of the WARP stage stands: at its receive, before the test for
cancellation, in the ping, before `Enqueue`, before `Size`, before `cancel`, or past its
return. -/
inductive WarpPc
  | recv
  | check (candidate : AddrPort)
  | ping (candidate : AddrPort)
  | enqueue (info : IPInfo)
  | size
  | cancel
  | done
deriving DecidableEq, Repr

/-- A WARP ping: who started it, for which candidate, and on which port. -/
structure WarpPing where
  worker : Nat
  candidate : AddrPort
  port : UInt16
deriving DecidableEq, Repr

/-- `localOpts.Port`: the candidate's own port, if it has one. -/
def warpPort (opts : Options) (candidate : AddrPort) : UInt16 :=
  if candidate.port ≠ 0 then candidate.port else opts.port

structure Scan where
  rest : List AddrPort
  returned : Bool
  genDone : Bool
  ipStream : Chan AddrPort
  icmp : Stage AddrPort
  icmpStream : Chan AddrPort
  tcp : Stage AddrPort
  tcpStream : Chan AddrPort
  warp : List WarpPc
  warpDone : Bool
  queue : IPQueue
  cancelled : Bool
  /-- A closed channel was closed or sent on. -/
  fault : Bool
  pings : List WarpPing
  successes : List IPInfo
  enqueued : List (Nat × IPInfo)
  observed : List Nat

inductive GenAct
  | send
  | abort
  | close
deriving DecidableEq, Repr

/-- The steps of the WARP stage.  The outcome of a ping is the environment's. -/
inductive WarpAct
  | recv (i : Nat)
  | check (i : Nat)
  | success (i : Nat) (info : IPInfo)
  | failure (i : Nat)
  | enqueue (i : Nat)
  | size (i : Nat)
  | cancel (i : Nat)
  | join
deriving DecidableEq, Repr

/-- The steps of a scan: one process moves, or the scan is cancelled from outside. -/
inductive ScanAct
  | gen (a : GenAct)
  | icmp (a : StageAct)
  | tcp (a : StageAct)
  | warp (a : WarpAct)
  | cancel
deriving DecidableEq, Repr

namespace Scan

def icmpLink (s : Scan) : Link AddrPort := ⟨s.icmp, s.ipStream, s.icmpStream, s.fault⟩

def tcpLink (s : Scan) : Link AddrPort := ⟨s.tcp, s.icmpStream, s.tcpStream, s.fault⟩

def setIcmp (s : Scan) (l : Link AddrPort) : Scan :=
  { s with icmp := l.stage, ipStream := l.inp, icmpStream := l.out, fault := l.fault }

def setTcp (s : Scan) (l : Link AddrPort) : Scan :=
  { s with tcp := l.stage, icmpStream := l.inp, tcpStream := l.out, fault := l.fault }

def genNext (cap : Nat) (s : Scan) : GenAct → Option Scan
  | .send =>
    match s.rest, s.returned with
    | c :: rest, false =>
      (s.ipStream.send cap c).map fun (ch, fault) ↦
        { s with rest := rest, ipStream := ch, fault := s.fault || fault }
    | _, _ => none
  | .abort =>
    if s.rest ≠ [] ∧ s.returned = false ∧ s.cancelled then some { s with returned := true }
    else none
  | .close =>
    if (s.rest = [] ∨ s.returned) ∧ s.genDone = false then
      some { s with
        ipStream := s.ipStream.close.1
        fault := s.fault || s.ipStream.close.2
        genDone := true }
    else none

def setWarp (s : Scan) (i : Nat) (pc : WarpPc) : Scan := { s with warp := s.warp.set i pc }

def warpNext (opts : Options) (s : Scan) : WarpAct → Option Scan
  | .recv i =>
    match s.warp[i]? with
    | some .recv =>
      s.tcpStream.recv.map fun (item, ch) ↦
        { s.setWarp i (match item with | none => .done | some c => .check c) with tcpStream := ch }
    | _ => none
  | .check i =>
    match s.warp[i]? with
    | some (.check c) =>
      if s.cancelled then some (s.setWarp i .done)
      else some { s.setWarp i (.ping c) with pings := s.pings ++ [⟨i, c, warpPort opts c⟩] }
    | _ => none
  | .success i info =>
    match s.warp[i]? with
    | some (.ping _) =>
      some { s.setWarp i (.enqueue info) with successes := s.successes ++ [info] }
    | _ => none
  | .failure i =>
    match s.warp[i]? with
    | some (.ping _) => some (s.setWarp i .recv)
    | _ => none
  | .enqueue i =>
    match s.warp[i]? with
    | some (.enqueue info) =>
      some { s.setWarp i (if 0 < opts.stopOnFirstGoodIPs then .size else .recv) with
        queue := s.queue.enqueue info
        enqueued := s.enqueued ++ [(i, info)] }
    | _ => none
  | .size i =>
    match s.warp[i]? with
    | some .size =>
      if opts.stopOnFirstGoodIPs ≤ s.queue.size then
        some { s.setWarp i .cancel with observed := s.observed ++ [i] }
      else some (s.setWarp i .recv)
    | _ => none
  | .cancel i =>
    match s.warp[i]? with
    | some .cancel => some { s.setWarp i .recv with cancelled := true }
    | _ => none
  | .join =>
    if s.warpDone = false ∧ ∀ w ∈ s.warp, w = .done then some { s with warpDone := true } else none

def next (opts : Options) (s : Scan) : ScanAct → Option Scan
  | .gen a => s.genNext opts.concurrentScanners a
  | .icmp a => (s.icmpLink.next opts.concurrentScanners s.cancelled a).map s.setIcmp
  | .tcp a => (s.tcpLink.next opts.concurrentScanners s.cancelled a).map s.setTcp
  | .warp a => s.warpNext opts a
  | .cancel => some { s with cancelled := true }

/-- A scan of the given candidates, with every process started. -/
def init (opts : Options) (candidates : List AddrPort) : Scan where
  rest := candidates
  returned := false
  genDone := false
  ipStream := .make
  icmp := .start opts.icmpPing opts.concurrentScanners
  icmpStream := .make
  tcp := .start opts.tcpPing opts.concurrentScanners
  tcpStream := .make
  warp := List.replicate opts.concurrentScanners .recv
  warpDone := false
  queue := .new opts.ipQueueSize
  cancelled := false
  fault := false
  pings := []
  successes := []
  enqueued := []
  observed := []

end Scan

/-- `Engine.Run` after it has listed the candidates, of which there is at least one. -/
def scan (opts : Options) (candidates : List AddrPort) : Machine Scan ScanAct where
  start s := candidates ≠ [] ∧ s = .init opts candidates
  next := Scan.next opts

structure Scan.Finished (s : Scan) : Prop where
  gen : s.genDone = true
  icmp : s.icmp.finished = true ∧ ∀ w ∈ s.icmp.workers, w = .done
  tcp : s.tcp.finished = true ∧ ∀ w ∈ s.tcp.workers, w = .done
  warp : s.warpDone = true ∧ ∀ w ∈ s.warp, w = .done

/-! ## What a step of the WARP stage can do -/

/-- The steps of the WARP stage, as a relation. -/
inductive WarpStep (opts : Options) : Scan → WarpAct → Scan → Prop
  | take {s i c buf} :
      s.warp[i]? = some .recv → s.tcpStream.buf = c :: buf → WarpStep opts s (.recv i)
        { s.setWarp i (.check c) with tcpStream := ⟨buf, s.tcpStream.closed⟩ }
  | ended {s i} :
      s.warp[i]? = some .recv → s.tcpStream.buf = [] → s.tcpStream.closed = true →
      WarpStep opts s (.recv i) (s.setWarp i .done)
  | quit {s i c} :
      s.warp[i]? = some (.check c) → s.cancelled = true →
      WarpStep opts s (.check i) (s.setWarp i .done)
  | ping {s i c} :
      s.warp[i]? = some (.check c) → s.cancelled = false → WarpStep opts s (.check i)
        { s.setWarp i (.ping c) with pings := s.pings ++ [⟨i, c, warpPort opts c⟩] }
  | success {s i c info} :
      s.warp[i]? = some (.ping c) → WarpStep opts s (.success i info)
        { s.setWarp i (.enqueue info) with successes := s.successes ++ [info] }
  | failure {s i c} :
      s.warp[i]? = some (.ping c) → WarpStep opts s (.failure i) (s.setWarp i .recv)
  | enqueue {s i info} :
      s.warp[i]? = some (.enqueue info) → WarpStep opts s (.enqueue i)
        { s.setWarp i (if 0 < opts.stopOnFirstGoodIPs then .size else .recv) with
          queue := s.queue.enqueue info
          enqueued := s.enqueued ++ [(i, info)] }
  | enough {s i} :
      s.warp[i]? = some .size → opts.stopOnFirstGoodIPs ≤ s.queue.size →
      WarpStep opts s (.size i) { s.setWarp i .cancel with observed := s.observed ++ [i] }
  | more {s i} :
      s.warp[i]? = some .size → ¬ opts.stopOnFirstGoodIPs ≤ s.queue.size →
      WarpStep opts s (.size i) (s.setWarp i .recv)
  | cancel {s i} :
      s.warp[i]? = some .cancel →
      WarpStep opts s (.cancel i) { s.setWarp i .recv with cancelled := true }
  | join {s} :
      s.warpDone = false → (∀ w ∈ s.warp, w = .done) →
      WarpStep opts s .join { s with warpDone := true }

theorem Scan.warpStep_of_next {opts : Options} {s s' : Scan} {a : WarpAct}
    (h : s.warpNext opts a = some s') : WarpStep opts s a s' := by
  cases a with
  | recv i =>
    simp only [warpNext] at h
    split at h
    · rename_i hw
      obtain ⟨⟨item, ch⟩, hrecv, rfl⟩ := Option.map_eq_some_iff.mp h
      obtain ⟨c, buf, rfl, hbuf, rfl⟩ | ⟨rfl, hbuf, hclosed, rfl⟩ := Chan.recv_cases hrecv
      · exact .take hw hbuf
      · exact .ended hw hbuf hclosed
    · cases h
  | check i =>
    simp only [warpNext] at h
    repeat' split at h
    all_goals cases h
    · exact .quit ‹_› ‹_›
    · exact .ping ‹_› (Bool.eq_false_of_not_eq_true ‹_›)
  | success i info =>
    simp only [warpNext] at h
    split at h <;> cases h
    exact .success ‹_›
  | failure i =>
    simp only [warpNext] at h
    split at h <;> cases h
    exact .failure ‹_›
  | enqueue i =>
    simp only [warpNext] at h
    split at h <;> cases h
    exact .enqueue ‹_›
  | size i =>
    simp only [warpNext] at h
    repeat' split at h
    all_goals cases h
    · exact .enough ‹_› ‹_›
    · exact .more ‹_› ‹_›
  | cancel i =>
    simp only [warpNext] at h
    split at h <;> cases h
    exact .cancel ‹_›
  | join =>
    simp only [warpNext] at h
    split at h <;> cases h
    rename_i hj
    exact .join hj.1 hj.2

/-- The other processes leave alone the workers of the WARP stage and what they recorded, and no
process takes a cancellation back. -/
theorem Scan.step_cases {opts : Options} {s s' : Scan} {a : ScanAct} (h : s.next opts a = some s') :
    (∃ b, a = .warp b ∧ WarpStep opts s b s') ∨
      s'.warp = s.warp ∧ s'.queue = s.queue ∧ s'.pings = s.pings ∧ s'.enqueued = s.enqueued ∧
        s'.observed = s.observed ∧ (s.cancelled = true → s'.cancelled = true) ∧
        ∀ b, a ≠ .warp b := by
  cases a with
  | gen a =>
    right
    cases a with
    | send =>
      simp only [next, genNext] at h
      split at h
      · obtain ⟨⟨ch, fault⟩, -, rfl⟩ := Option.map_eq_some_iff.mp h
        exact ⟨rfl, rfl, rfl, rfl, rfl, id, nofun⟩
      · cases h
    | abort | close =>
      obtain ⟨-, ⟨⟩⟩ := Option.ite_none_right_eq_some.mp h
      exact ⟨rfl, rfl, rfl, rfl, rfl, id, nofun⟩
  | icmp a | tcp a =>
    obtain ⟨l, -, rfl⟩ := Option.map_eq_some_iff.mp h
    exact .inr ⟨rfl, rfl, rfl, rfl, rfl, id, nofun⟩
  | warp b => exact .inl ⟨b, rfl, warpStep_of_next h⟩
  | cancel =>
    cases h
    exact .inr ⟨rfl, rfl, rfl, rfl, rfl, fun _ ↦ rfl, nofun⟩

end Vwarp.IpScanner.Engine
