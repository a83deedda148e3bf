import Vwarp.IpScanner.Engine.Results
import Vwarp.Wiresocks.Scanner

/-!
# What `RunScan` returns

`RunScan` asks for one endpoint and returns the first in the queue, which is the fastest one that
answered.  The user's limit for the round-trip time is handed to the scanner, multiplied by a
second although it is a duration already, and no code compares anything with it:
`runScan_rtt_iff` says when the limit of the scanner is the user's, and in which states and after
which answers of the pings what is returned keeps to the user's limit.
-/

namespace Vwarp.Wiresocks

open Vwarp.Go Vwarp.Lib Vwarp.IpScanner

/-- What `RunScan` makes of the available endpoints, once the scanner has stopped; `ctxErr` is
`scanCtx.Err()`. -/
def scanResult (ctxErr : Option Bytes) (ipList : List Engine.IPInfo) :
    Except Bytes (List Engine.IPInfo) :=
  let desiredIPs := 1
  if ipList.length = 0 then
    match ctxErr with
    | some err => .error err
    | none => .error (str "scan finished with no working IPs found")
  else
    let count := if desiredIPs < ipList.length then desiredIPs else ipList.length
    .ok (ipList.take count)

/-- The endpoint is returned if the scan is in this state when the scanner stops. -/
def Returned (s : Engine.Scan) (info : Engine.IPInfo) : Prop :=
  ∃ ctxErr infos, scanResult ctxErr s.queue.queue = .ok infos ∧ info ∈ infos

theorem scanResult_nil (ctxErr : Option Bytes) : ∃ err, scanResult ctxErr [] = .error err := by
  cases ctxErr with
  | none => exact ⟨_, rfl⟩
  | some err => exact ⟨err, rfl⟩

theorem scanResult_cons (ctxErr : Option Bytes) (best : Engine.IPInfo) (rest : List Engine.IPInfo) :
    scanResult ctxErr (best :: rest) = .ok [best] := by
  cases rest <;> rfl

theorem returned_iff {s : Engine.Scan} {info : Engine.IPInfo} :
    Returned s info ↔ ∃ rest, s.queue.queue = info :: rest := by
  unfold Returned
  cases s.queue.queue with
  | nil =>
    refine iff_of_false ?_ fun ⟨rest, h⟩ ↦ nomatch h
    rintro ⟨ctxErr, infos, h, -⟩
    obtain ⟨err, herr⟩ := scanResult_nil ctxErr
    exact nomatch herr.symm.trans h
  | cons best rest =>
    simp only [scanResult_cons]
    constructor
    · rintro ⟨-, infos, h, hinfo⟩
      obtain rfl := Except.ok.inj h
      exact ⟨rest, by rw [List.mem_singleton.mp hinfo]⟩
    · rintro ⟨rest', h⟩
      exact ⟨none, _, rfl, List.mem_singleton.mpr (List.cons.inj h).1.symm⟩

/-! ## The limit for the round-trip time -/

/-- `time.Second`, in nanoseconds. -/
def second : Int64 := 1000000000

/-- The argument of `WithMaxDesirableRTT`. -/
def maxDesirableRTT (maxRTT : Int64) : Int64 := maxRTT * second

theorem maxDesirableRTT_eq_iff {d : Int64} : maxDesirableRTT d = d ↔ d = 0 := by
  constructor
  · intro h
    have hzero : d * (second - 1) = 0 := by
      rw [Int64.mul_sub, Int64.mul_one, show d * second = d from h, Int64.sub_self]
    have hinv : (second - 1) * -9106126717344205313 = 1 := by decide
    rw [← Int64.mul_one d, ← hinv, ← Int64.mul_assoc, hzero, Int64.zero_mul]
  · rintro rfl
    rfl

/-- What is returned keeps to a limit exactly when nothing was enqueued, or something that does. -/
theorem returned_le_iff {opts : Engine.Options} {candidates : List AddrPort} {s : Engine.Scan}
    (hr : (Engine.scan opts candidates).Reachable s) {d : Int} :
    (∀ info, Returned s info → info.rtt ≤ d) ↔
      s.enqueued = [] ∨ ∃ e ∈ s.enqueued, e.2.rtt ≤ d := by
  obtain ⟨-, hqueue⟩ := Engine.Scan.ranks_of_reach hr
  simp only [returned_iff, hqueue]
  by_cases hnil : s.enqueued = []
  · rw [hnil]
    refine iff_of_true (fun info ⟨rest, h⟩ ↦ ?_) (.inl rfl)
    rw [List.map_nil, Engine.ranking_nil] at h
    cases h
  · have hne : s.enqueued.map Prod.snd ≠ [] := by simpa using hnil
    obtain ⟨best, rest, hrank, hbest, hle⟩ := Engine.ranking_eq_cons hne (m := opts.ipQueueSize)
    rw [hrank, or_iff_right hnil]
    constructor
    · intro h
      obtain ⟨e, he, rfl⟩ := List.mem_map.mp hbest
      exact ⟨e, he, h _ ⟨rest, rfl⟩⟩
    · rintro ⟨e, he, hrtt⟩ info ⟨rest', h⟩
      obtain rfl := (List.cons.inj h).1
      exact le_trans (hle e.2 (List.mem_map_of_mem he)) hrtt

/-- **The limit of the scanner is the user's for zero only.  What is returned keeps to the user's
limit exactly in those states in which nothing was enqueued, or something that does; and at the end
of a scan exactly if no ping succeeded, or one within the limit.** -/
theorem runScan_rtt_iff (maxRTT : Int64) (candidates : List AddrPort) (s : Engine.Scan)
    (hr : (Engine.scan engineOptions candidates).Reachable s) :
    (maxDesirableRTT maxRTT = maxRTT ↔ maxRTT = 0) ∧
      ((∀ info, Returned s info → info.rtt ≤ maxRTT.toInt) ↔
        s.enqueued = [] ∨ ∃ e ∈ s.enqueued, e.2.rtt ≤ maxRTT.toInt) ∧
      ∀ acts, (Engine.scan engineOptions candidates).run (.init engineOptions candidates) acts =
        some s → s.Finished →
        ((∀ info, Returned s info → info.rtt ≤ maxRTT.toInt) ↔
          (∀ i info, .warp (.success i info) ∉ acts) ∨
            ∃ i info, .warp (.success i info) ∈ acts ∧ info.rtt ≤ maxRTT.toInt) := by
  refine ⟨maxDesirableRTT_eq_iff, returned_le_iff hr, fun acts hrun hf ↦ ?_⟩
  have henqueued := Engine.Scan.exists_enqueued_iff hrun hf
  rw [returned_le_iff hr]
  refine or_congr ?_ ?_
  · constructor
    · intro hnil i info hsuccess
      obtain ⟨e, he, -⟩ := (henqueued info).mpr ⟨i, hsuccess⟩
      exact List.not_mem_nil (hnil ▸ he)
    · intro hnone
      refine List.eq_nil_iff_forall_not_mem.mpr fun e he ↦ ?_
      obtain ⟨i, hsuccess⟩ := (henqueued e.2).mp ⟨e, he, rfl⟩
      exact hnone i e.2 hsuccess
  · constructor
    · rintro ⟨e, he, hle⟩
      obtain ⟨i, hsuccess⟩ := (henqueued e.2).mp ⟨e, he, rfl⟩
      exact ⟨i, e.2, hsuccess, hle⟩
    · rintro ⟨i, info, hsuccess, hle⟩
      obtain ⟨e, he, rfl⟩ := (henqueued info).mpr ⟨i, hsuccess⟩
      exact ⟨e, he, hle⟩

/-- The endpoint `1.2.3.4:2408`, with a round-trip time of five seconds. -/
def slowInfo : Engine.IPInfo := ⟨⟨.v4 0x01020304, 2408⟩, 5000000000⟩

def slowSteps : List Engine.ScanAct :=
  [.gen .send, .icmp (.recv 0), .icmp (.send 0), .tcp (.recv 0), .tcp (.check 0),
    .tcp (.verdict 0 true), .tcp (.send 0), .warp (.recv 0), .warp (.check 0),
    .warp (.success 0 slowInfo), .warp (.enqueue 0), .warp (.size 0), .warp (.cancel 0)]

/-- The steps in which a scan that has nothing under way comes to its end. -/
def endSteps : List Engine.ScanAct :=
  List.flatten [[.gen .close, .icmp (.recv 0), .icmp .close],
    (List.range 10).map fun i ↦ .tcp (.recv i), [.tcp .close],
    (List.range 10).map fun i ↦ .warp (.recv i), [.warp .join]]

/-- The scan ends with the endpoint in the queue. -/
theorem exists_slow_scan :
    ∃ s, (Engine.scan engineOptions [slowInfo.addrPort]).run
        (.init engineOptions [slowInfo.addrPort]) (slowSteps ++ endSteps) = some s ∧
      (Engine.scan engineOptions [slowInfo.addrPort]).Reachable s ∧ s.Finished ∧
      s.queue.queue = [slowInfo] := by
  have hstart : (Engine.scan engineOptions [slowInfo.addrPort]).Reachable
      (.init engineOptions [slowInfo.addrPort]) := .start ⟨List.cons_ne_nil _ _, rfl⟩
  have hcomputed : ((Engine.scan engineOptions [slowInfo.addrPort]).run
      (.init engineOptions [slowInfo.addrPort]) (slowSteps ++ endSteps)).map (fun s ↦
        (s.genDone && s.icmp.finished && s.icmp.workers.all Engine.WorkerPc.isDone &&
          s.tcp.finished && s.tcp.workers.all Engine.WorkerPc.isDone && s.warpDone &&
          s.warp.all (· = .done), s.queue.queue)) = some (true, [slowInfo]) := by decide +kernel
  obtain ⟨s, hrun, hs⟩ := Option.map_eq_some_iff.mp hcomputed
  obtain ⟨hdone, hqueue⟩ := Prod.mk.inj hs
  simp only [Bool.and_eq_true, List.all_eq_true, Engine.WorkerPc.isDone_iff,
    decide_eq_true_eq] at hdone
  obtain ⟨⟨⟨⟨⟨⟨hgen, hicmp⟩, hicmp'⟩, htcp⟩, htcp'⟩, hwarp⟩, hwarp'⟩ := hdone
  exact ⟨s, hrun, hstart.of_run (fun _ _ _ ↦ trivial) hrun,
    ⟨hgen, ⟨hicmp, hicmp'⟩, ⟨htcp, htcp'⟩, ⟨hwarp, hwarp'⟩⟩, hqueue⟩

/-- What is found in five seconds is within a limit of six. -/
theorem runScan_rtt_six_seconds :
    ∃ s, (Engine.scan engineOptions [slowInfo.addrPort]).Reachable s ∧ s.Finished ∧
      Returned s slowInfo ∧ ∀ info, Returned s info → info.rtt ≤ (6 * second).toInt := by
  obtain ⟨s, hrun, hr, hf, hqueue⟩ := exists_slow_scan
  refine ⟨s, hr, hf, returned_iff.mpr ⟨[], hqueue⟩, ?_⟩
  refine ((runScan_rtt_iff (6 * second) _ s hr).2.2 _ hrun hf).mpr (.inr ⟨0, slowInfo, ?_, ?_⟩)
  · simp [slowSteps]
  · decide +kernel

/-- A limit of one second is not the scanner's, and one of ten seconds becomes negative.  With
either, a scan of `1.2.3.4:2408` can end with an endpoint that took five seconds. -/
theorem runScan_exceeds_rtt :
    maxDesirableRTT second ≠ second ∧ maxDesirableRTT (10 * second) < 0 ∧
      ∃ o result candidates s info,
        runScanner ⟨str "1.2.3.4:2408", true, false⟩ (fun _ _ ↦ none) = .ok o ∧
        Listed o result candidates ∧ (Engine.scan engineOptions candidates).Reachable s ∧
        s.Finished ∧ Returned s info ∧ second.toInt < info.rtt := by
  refine ⟨by decide +kernel, by decide +kernel, ?_⟩
  obtain ⟨s, -, hr, hfinished, hqueue⟩ := exists_slow_scan
  refine ⟨_, .error (str "no IP ranges configured or no IPs generated"), _, s, slowInfo, rfl,
    ⟨.inl rfl, ⟨[], rfl⟩, _, .refl _, rfl⟩, hr, hfinished, returned_iff.mpr ⟨[], hqueue⟩, by decide⟩

end Vwarp.Wiresocks
