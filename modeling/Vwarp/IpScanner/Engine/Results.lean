import Vwarp.IpScanner.Engine.Pings
import Vwarp.IpScanner.Engine.Ranking

/-!
# Where the results of a scan come from

Two facts about the queue of a scan.  It is the ranking of everything the workers enqueued
(`ranks_of_reach`), so its first result is the fastest of all.  And if the pings answer as they
should, every result is the answer of a ping that was started (`traced_of_reach`): which answers a
ping can give is a relation `A`, and `Honest A` is the guard on the steps of a scan that makes
every success an answer of the ping that the worker is in.
-/

namespace Vwarp.IpScanner.Engine

open Vwarp.Go Vwarp.Lib

/-! ## Rankings -/

theorem mem_of_mem_ranking {m : Int} {infos : List IPInfo} {info : IPInfo}
    (h : info ∈ ranking m infos) : info ∈ infos := by
  unfold ranking cut at h
  split at h
  · exact mem_stableSort.mp (List.mem_of_mem_take h)
  · exact mem_stableSort.mp h

theorem ranking_eq_cons {m : Int} {infos : List IPInfo} (h : infos ≠ []) :
    ∃ best rest, ranking m infos = best :: rest ∧ best ∈ infos ∧
      ∀ info ∈ infos, best.rtt ≤ info.rtt := by
  obtain ⟨info, hinfo⟩ := List.exists_mem_of_ne_nil _ h
  have hmem : info ∈ stableSort IPInfo.rtt infos := mem_stableSort.mpr hinfo
  obtain ⟨best, tail, hsort⟩ := List.exists_cons_of_ne_nil (List.ne_nil_of_mem hmem)
  have hbest : best ∈ infos := mem_stableSort.mp (hsort ▸ List.mem_cons_self)
  have hle : ∀ info ∈ infos, best.rtt ≤ info.rtt := by
    intro info hinfo
    have hpair := pairwise_stableSort IPInfo.rtt infos
    have hmem : info ∈ stableSort IPInfo.rtt infos := mem_stableSort.mpr hinfo
    rw [hsort] at hpair hmem
    rcases List.mem_cons.mp hmem with rfl | hmem
    · exact le_rfl
    · exact (List.pairwise_cons.mp hpair).1 info hmem
  unfold ranking cut
  rw [hsort]
  split
  · obtain ⟨k, hk⟩ := Nat.exists_eq_succ_of_ne_zero (n := m.toNat) (by omega)
    exact ⟨best, tail.take k, by rw [hk, List.take_succ_cons], hbest, hle⟩
  · exact ⟨best, tail, rfl, hbest, hle⟩

namespace Scan

variable {opts : Options} {candidates : List AddrPort} {s s' : Scan}

/-! ## The queue -/

/-- The queue holds the best of what was enqueued. -/
def Ranks (opts : Options) (queue : IPQueue) (enqueued : List (Nat × IPInfo)) : Prop :=
  queue.maxQueueSize = opts.ipQueueSize ∧
    queue.queue = ranking opts.ipQueueSize (enqueued.map Prod.snd)

theorem Ranks.step {a : ScanAct} (h : Ranks opts s.queue s.enqueued)
    (hn : s.next opts a = some s') : Ranks opts s'.queue s'.enqueued := by
  obtain ⟨b, -, hs⟩ | ⟨-, hqueue, -, henqueued, -⟩ := step_cases hn
  · cases hs with
    | @enqueue i info hw =>
      obtain ⟨hlimit, hqueue⟩ := h
      refine ⟨(maxQueueSize_enqueue _ _).trans hlimit, ?_⟩
      rw [← hlimit] at hqueue ⊢
      rw [List.map_append]
      exact ranking_enqueue hqueue info
    | _ => exact h
  · rw [hqueue, henqueued]
    exact h

theorem ranks_of_reach {G : Scan → ScanAct → Prop} (hr : (scan opts candidates).Reach G s) :
    Ranks opts s.queue s.enqueued := by
  refine hr.invariant (I := fun s ↦ Ranks opts s.queue s.enqueued) (fun s hs ↦ ?_)
    fun _ _ _ h _ hn ↦ Ranks.step h hn
  obtain ⟨-, rfl⟩ := hs
  exact ⟨rfl, (ranking_nil _).symm⟩

/-! ## Answers -/

/-- What a ping answers when it succeeds is in `A`. -/
def Honest (opts : Options) (A : WarpPing → IPInfo → Prop) (s : Scan) (a : ScanAct) : Prop :=
  ∀ i info c, a = .warp (.success i info) → s.warp[i]? = some (.ping c) →
    A ⟨i, c, warpPort opts c⟩ info

variable {A : WarpPing → IPInfo → Prop}

theorem openGuard_honest : OpenGuard (Honest opts A) :=
  fun _ _ hne i info _ heq _ ↦ absurd heq (hne i info)

/-- The pings that the workers are in were recorded, and the results they hold and those that they
have enqueued are answers of recorded pings. -/
structure Traced (opts : Options) (A : WarpPing → IPInfo → Prop) (warp : List WarpPc)
    (pings : List WarpPing) (enqueued : List (Nat × IPInfo)) : Prop where
  pinging {i : Nat} {c : AddrPort} : warp[i]? = some (.ping c) → ⟨i, c, warpPort opts c⟩ ∈ pings
  answered {i : Nat} {info : IPInfo} : warp[i]? = some (.enqueue info) → ∃ p ∈ pings, A p info
  enqueued : ∀ e ∈ enqueued, ∃ p ∈ pings, A p e.2

variable {warp : List WarpPc} {pings pings' : List WarpPing} {enqueued : List (Nat × IPInfo)}

theorem Traced.move (h : Traced opts A warp pings enqueued) (hsub : pings ⊆ pings') {i : Nat}
    {w : WarpPc} (hping : ∀ c, w = .ping c → ⟨i, c, warpPort opts c⟩ ∈ pings')
    (hanswer : ∀ info, w = .enqueue info → ∃ p ∈ pings', A p info) :
    Traced opts A (warp.set i w) pings' enqueued := by
  have hold {info : IPInfo} : (∃ p ∈ pings, A p info) → ∃ p ∈ pings', A p info :=
    fun ⟨p, hp, hA⟩ ↦ ⟨p, hsub hp, hA⟩
  refine ⟨fun {j c} hj ↦ ?_, fun {j info} hj ↦ ?_, fun e he ↦ hold (h.enqueued e he)⟩
  · rw [List.getElem?_set] at hj
    split at hj
    · rename_i hij
      split at hj
      · exact hij ▸ hping c (Option.some.inj hj)
      · cases hj
    · exact hsub (h.pinging hj)
  · rw [List.getElem?_set] at hj
    split at hj
    · split at hj
      · exact hanswer info (Option.some.inj hj)
      · cases hj
    · exact hold (h.answered hj)

theorem Traced.step {a : ScanAct} (h : Traced opts A s.warp s.pings s.enqueued)
    (hhonest : Honest opts A s a) (hn : s.next opts a = some s') :
    Traced opts A s'.warp s'.pings s'.enqueued := by
  obtain ⟨b, rfl, hs⟩ | ⟨hwarp, -, hpings, henqueued, -⟩ := step_cases hn
  · cases hs with
    | @ping i c hw hc =>
      refine h.move (List.subset_append_left _ _) (fun c' heq ↦ ?_) fun _ heq ↦ nomatch heq
      rw [← WarpPc.ping.inj heq]
      exact List.mem_append_right _ List.mem_cons_self
    | @success i c info hw =>
      refine h.move (List.Subset.refl _) (fun _ heq ↦ nomatch heq) fun info' heq ↦ ?_
      obtain rfl := WarpPc.enqueue.inj heq
      exact ⟨_, h.pinging hw, hhonest i info c rfl hw⟩
    | @enqueue i info hw =>
      have hmove :
          Traced opts A (s.warp.set i (if 0 < opts.stopOnFirstGoodIPs then .size else .recv))
          s.pings s.enqueued := by
        refine h.move (List.Subset.refl _) (fun _ heq ↦ ?_) fun _ heq ↦ ?_
        all_goals split at heq <;> cases heq
      refine { hmove with enqueued := List.forall_mem_append.mpr ⟨h.enqueued, ?_⟩ }
      exact List.forall_mem_singleton.mpr (h.answered hw)
    | join => exact h
    | _ => exact h.move (List.Subset.refl _) (fun _ heq ↦ nomatch heq) fun _ heq ↦ nomatch heq
  · rw [hwarp, hpings, henqueued]
    exact h

/-- In every state of a scan whose pings answer in `A`, the results are answers of pings that were
started. -/
theorem traced_of_reach (hr : (scan opts candidates).Reach (Honest opts A) s) :
    Traced opts A s.warp s.pings s.enqueued := by
  refine hr.invariant (I := fun s ↦ Traced opts A s.warp s.pings s.enqueued) (fun s hs ↦ ?_)
    fun _ _ _ h hhonest hn ↦ Traced.step h hhonest hn
  obtain ⟨-, rfl⟩ := hs
  refine ⟨fun hw ↦ ?_, fun hw ↦ ?_, fun e he ↦ nomatch he⟩
  all_goals exact nomatch List.eq_of_mem_replicate (mem_of_worker hw)

theorem exists_ping_of_mem_queue (hr : (scan opts candidates).Reach (Honest opts A) s)
    {info : IPInfo} (h : info ∈ s.queue.queue) : ∃ p ∈ s.pings, A p info := by
  obtain ⟨-, hqueue⟩ := ranks_of_reach hr
  rw [hqueue] at h
  obtain ⟨e, he, rfl⟩ := List.mem_map.mp (mem_of_mem_ranking h)
  exact (traced_of_reach hr).enqueued e he

/-! ## Successes -/

/-- The results that the steps reported were enqueued or are held by the workers, and there are no
others. -/
def Reported (acts : List ScanAct) (warp : List WarpPc) (enqueued : List (Nat × IPInfo)) : Prop :=
  ∀ info, (∃ i, .warp (.success i info) ∈ acts) ↔
    (∃ e ∈ enqueued, e.2 = info) ∨ .enqueue info ∈ warp

variable {acts : List ScanAct} {a : ScanAct}

theorem Reported.other (h : Reported acts warp enqueued)
    (ha : ∀ i info, a ≠ .warp (.success i info)) : Reported (acts ++ [a]) warp enqueued := by
  intro info
  rw [← h info]
  refine exists_congr fun i ↦ ?_
  rw [List.mem_append, List.mem_singleton, or_iff_left (ha i info).symm]

theorem Reported.move (h : Reported acts warp enqueued) (ha : ∀ i info, a ≠ .warp (.success i info))
    {i : Nat} {w w' : WarpPc} (hw : warp[i]? = some w) (hne : ∀ info, w ≠ .enqueue info)
    (hne' : ∀ info, w' ≠ .enqueue info) : Reported (acts ++ [a]) (warp.set i w') enqueued := by
  intro info
  rw [h.other ha info, mem_set_iff hw (hne info), or_iff_right (hne' info).symm]

theorem Reported.step (h : Reported acts s.warp s.enqueued) (hn : s.next opts a = some s') :
    Reported (acts ++ [a]) s'.warp s'.enqueued := by
  obtain ⟨b, rfl, hs⟩ | ⟨hwarp, -, -, henqueued, -, -, ha⟩ := step_cases hn
  · cases hs with
    | @success i c reported hw =>
      intro info
      have hnew : (∃ j, ScanAct.warp (.success j info) ∈ acts ++ [.warp (.success i reported)]) ↔
          (∃ j, .warp (.success j info) ∈ acts) ∨ info = reported := by
        simp [List.mem_append, exists_or]
      have hset : .enqueue info ∈ s.warp.set i (.enqueue reported) ↔
          .enqueue info = WarpPc.enqueue reported ∨ .enqueue info ∈ s.warp := mem_set_iff hw nofun
      rw [hnew, h info, setWarp, hset, WarpPc.enqueue.injEq, or_assoc,
        or_comm (a := info = reported)]
    | @enqueue i held hw =>
      intro info
      rw [h.other (by simp) info]
      by_cases hinfo : info = held
      · subst hinfo
        refine iff_of_true (.inr (mem_of_worker hw)) (.inl ⟨(i, info), ?_, rfl⟩)
        exact List.mem_append_right _ (List.mem_singleton_self _)
      · have hpc : WarpPc.enqueue info ≠ if 0 < opts.stopOnFirstGoodIPs then .size else .recv := by
          split <;> nofun
        have hne : WarpPc.enqueue held ≠ .enqueue info := fun h ↦ hinfo (WarpPc.enqueue.inj h).symm
        simp only [setWarp, mem_set_iff hw hne, or_iff_right hpc, List.mem_append, or_and_right,
          exists_or, List.mem_singleton, exists_eq_left, or_iff_left (Ne.symm hinfo)]
    | join => exact h.other (by simp)
    | _ hw => exact h.move (by simp) hw (by simp) (by simp)
  · rw [hwarp, henqueued]
    exact h.other fun i info ↦ ha _

/-- What a finished scan has enqueued is what its pings reported. -/
theorem exists_enqueued_iff
    (hrun : (scan opts candidates).run (.init opts candidates) acts = some s)
    (hf : s.Finished) (info : IPInfo) :
    (∃ e ∈ s.enqueued, e.2 = info) ↔ ∃ i, .warp (.success i info) ∈ acts := by
  have hinit : Reported [] (init opts candidates).warp (init opts candidates).enqueued := by
    intro info
    refine iff_of_false nofun ?_
    rintro (⟨e, he, -⟩ | hmem)
    · cases he
    · exact nomatch List.eq_of_mem_replicate hmem
  have h : Reported acts s.warp s.enqueued :=
    Machine.run_trace (I := fun acts (s : Scan) ↦ Reported acts s.warp s.enqueued)
      (fun _ _ _ _ h hn ↦ h.step hn) [] hrun hinit
  have hnone : .enqueue info ∉ s.warp := fun hmem ↦ nomatch hf.warp.2 _ hmem
  rw [h info, or_iff_left hnone]

/-! ## What a scan has to offer -/

/-- **However the workers interleave, what a scan has to offer is the answer of a ping of a
candidate, and the first of it is the fastest result so far.** -/
theorem best_of_reach (hr : (scan opts candidates).Reach (Honest opts A) s) :
    (∀ info ∈ s.queue.queue, ∃ p ∈ s.pings, p.candidate ∈ candidates ∧ A p info) ∧
      ∀ e ∈ s.enqueued, ∃ best rest, s.queue.queue = best :: rest ∧ best.rtt ≤ e.2.rtt := by
  constructor
  · intro info hinfo
    obtain ⟨p, hp, hA⟩ := exists_ping_of_mem_queue hr hinfo
    exact ⟨p, hp, (in_of_reach hr).pings p hp, hA⟩
  · intro e he
    have hmem : e.2 ∈ s.enqueued.map Prod.snd := List.mem_map_of_mem he
    obtain ⟨best, rest, hrank, -, hle⟩ := ranking_eq_cons (List.ne_nil_of_mem hmem)
    exact ⟨best, rest, (ranks_of_reach hr).2.trans hrank, hle _ hmem⟩

/-- Two workers report what they pinged.  The slow result is enqueued first, and the fast one is
ranked before it. -/
theorem best_of_two_pings : let opts : Options := ⟨false, false, 2, 0, 0, 2408⟩
    let candidates : List AddrPort := [⟨.v4 0xa29fc001, 0⟩, ⟨.v4 0xa29fc002, 500⟩]
    let slow : IPInfo := ⟨⟨.v4 0xa29fc001, 2408⟩, 80000000⟩
    let fast : IPInfo := ⟨⟨.v4 0xa29fc002, 500⟩, 20000000⟩
    let A : WarpPing → IPInfo → Prop := fun p info ↦ info.addrPort = ⟨p.candidate.addr, p.port⟩
    ∃ s, (scan opts candidates).Reach (Honest opts A) s ∧ s.enqueued = [(0, slow), (1, fast)] ∧
      s.queue.queue = [fast, slow] ∧
      (∀ info ∈ s.queue.queue, ∃ p ∈ s.pings, p.candidate ∈ candidates ∧ A p info) ∧
      ∀ e ∈ s.enqueued, ∃ best rest, s.queue.queue = best :: rest ∧ best.rtt ≤ e.2.rtt := by
  intro opts candidates slow fast A
  let before : List ScanAct := [.gen .send, .gen .send, .icmp (.recv 0), .icmp (.send 0),
    .icmp (.recv 0), .icmp (.send 0), .tcp (.recv 0), .tcp (.send 0), .tcp (.recv 0),
    .tcp (.send 0), .warp (.recv 0), .warp (.recv 1), .warp (.check 1), .warp (.check 0)]
  obtain ⟨s₁, s₂, s₃, s, h₁, hw₁, h₂, hw₂, h₃, h₄, henqueued, hqueue⟩ : ∃ s₁ s₂ s₃ s : Scan,
      (scan opts candidates).run (.init opts candidates) before = some s₁ ∧
      s₁.warp = candidates.map .ping ∧
      (scan opts candidates).next s₁ (.warp (.success 0 slow)) = some s₂ ∧
      s₂.warp[1]? = some (.ping ⟨.v4 0xa29fc002, 500⟩) ∧
      (scan opts candidates).next s₂ (.warp (.success 1 fast)) = some s₃ ∧
      (scan opts candidates).run s₃ [.warp (.enqueue 0), .warp (.enqueue 1)] = some s ∧
      s.enqueued = [(0, slow), (1, fast)] ∧ s.queue.queue = [fast, slow] :=
    ⟨_, _, _, _, rfl, rfl, rfl, rfl, rfl, rfl, rfl, by decide +kernel⟩
  have hopen {acts : List ScanAct} (h : ∀ a ∈ acts, ∀ i info, a ≠ .warp (.success i info)) :
      ∀ a ∈ acts, ∀ s, Honest opts A s a := fun a ha s ↦ openGuard_honest s a (h a ha)
  have hr₁ : (scan opts candidates).Reach (Honest opts A) s₁ :=
    .of_run (.start ⟨by simp [candidates], rfl⟩) (hopen (by simp [before])) h₁
  have hr₂ : (scan opts candidates).Reach (Honest opts A) s₂ := by
    refine hr₁.step (fun i info c ha hc ↦ ?_) h₂
    cases ha
    rw [hw₁] at hc
    cases hc
    rfl
  have hr₃ : (scan opts candidates).Reach (Honest opts A) s₃ := by
    refine hr₂.step (fun i info c ha hc ↦ ?_) h₃
    cases ha
    cases hw₂.symm.trans hc
    rfl
  have hr : (scan opts candidates).Reach (Honest opts A) s := hr₃.of_run (hopen (by simp)) h₄
  exact ⟨s, hr, henqueued, hqueue, best_of_reach hr⟩

end Scan

end Vwarp.IpScanner.Engine
