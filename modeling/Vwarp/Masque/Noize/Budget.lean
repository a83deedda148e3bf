import Vwarp.Lib.Pool
import Vwarp.Masque.Noize.Obfuscate

/-!
# The noise budget of a destination

What the layer writes to a destination on its own is bounded: each of the two sequences is
started at most once, and a sequence writes what its list of acts allows.

The state of a destination in `hsState` says which sequences were started (`Counted`).
With it, what was written and what goroutines still have to write is at most what the
started sequences consist of (`Budget`).  The account is kept for an arbitrary choice `P`
of kinds, so that the bound on junk and the bound on each signature are the same invariant.
-/

namespace Vwarp.Masque.Noize

open Vwarp.Go Vwarp.Lib

variable {δ : Type} [DecidableEq δ] {n : Layer} {s t : State δ} {a : Label}

/-! ## Accounts -/

section Accounts

variable (P : Kind → Bool)

def Act.cost : Act → Nat
  | .delay => 0
  | act => if P act.kind then 1 else 0

def cost (acts : List Act) : Nat := tally (Act.cost P) acts

def written (dst : δ) (sent : List (Sent δ)) : Nat :=
  sent.countP fun e ↦ e.dst = some dst ∧ P e.kind

/-- What goroutines can still write to the destination. -/
def pending (dst : δ) (tasks : List (Task δ)) : Nat :=
  tally (fun g ↦ if g.dst = dst then cost P g.acts else 0) tasks

/-- How often a sequence was started for the destination. -/
def starts (sequence : Sequence) (dst : δ) (started : List (Start δ)) : Nat :=
  started.countP fun p ↦ p.sequence = sequence ∧ p.dst = dst

variable {P} {dst : δ}

theorem cost_cons (act : Act) (acts : List Act) : cost P (act :: acts) = act.cost P + cost P acts :=
  List.sum_cons

theorem cost_append (acts acts' : List Act) :
    cost P (acts ++ acts') = cost P acts + cost P acts' := by
  unfold cost tally
  rw [List.map_append, List.sum_append]

theorem written_concat (sent : List (Sent δ)) (e : Sent δ) :
    written P dst (sent ++ [e]) =
      written P dst sent + if e.dst = some dst ∧ P e.kind = true then 1 else 0 := by
  unfold written
  rw [List.countP_append, List.countP_singleton]
  congr 1
  simp only [decide_eq_true_eq]

theorem starts_concat (sequence : Sequence) (started : List (Start δ)) (p : Start δ) :
    starts sequence dst (started ++ [p]) =
      starts sequence dst started + if p.sequence = sequence ∧ p.dst = dst then 1 else 0 := by
  unfold starts
  rw [List.countP_append, List.countP_singleton]
  congr 1
  simp only [decide_eq_true_eq]

theorem pending_concat (tasks : List (Task δ)) (g : Task δ) :
    pending P dst (tasks ++ [g]) =
      pending P dst tasks + if g.dst = dst then cost P g.acts else 0 :=
  tally_concat _ _ _

theorem cost_of_packet {config : NoizeConfig} {act : Act} {draws : List (Option Nat)}
    {packet : Bytes} (h : (act.packet config).run draws = some (some packet)) :
    act.cost P = if P act.kind then 1 else 0 := by
  cases act with
  | delay =>
    have hnone : (Act.delay.packet config).Ensures True fun o ↦ o = none := by
      rw [Act.packet, Draw.ensures_bind]
      exact (Draw.ensures_true _).mono fun _ _ ↦ rfl
    exact absurd (hnone.of_run h) (Option.some_ne_none packet)
  | junk zeroSize => rfl
  | signature k cps => rfl
  | fragment bytes => rfl

theorem cost_acts_le (n : Layer) (acts : List Act) : cost P (n.acts acts) ≤ cost P acts := by
  unfold Layer.acts
  split
  · exact Nat.le_refl _
  · exact Nat.zero_le _

theorem cost_junks (zeroSize : Bool) (count : Int64) :
    cost P (junks zeroSize count) = count.toNatClampNeg * if P .junk then 1 else 0 := by
  unfold junks
  induction count.toNatClampNeg with
  | zero => exact (Nat.zero_mul _).symm
  | succ m ih =>
    rw [List.replicate_succ, List.flatten_cons, cost_append, ih, cost_cons, cost_cons,
      Nat.succ_mul, Nat.add_comm]
    rfl

theorem cost_signatureAct (k : Fin 5) (cps : Bytes) :
    cost P (signatureAct k cps) ≤ if P (.signature k) then 1 else 0 := by
  unfold signatureAct
  split
  · exact Nat.zero_le _
  · rw [cost_cons]
    exact Nat.le_refl _

theorem cost_fragments (hfragment : P .fragment = false) (fragments : List Bytes) :
    cost P (fragments.map .fragment) = 0 := by
  refine tally_eq_zero fun act hact ↦ ?_
  obtain ⟨bytes, -, rfl⟩ := List.mem_map.mp hact
  show (if P .fragment = true then 1 else 0) = 0
  rw [hfragment]
  rfl

end Accounts

/-! ## The sequences that were started -/

/-- The state of each destination tells which sequences were started for it, and the first
was started by the call that was first there. -/
structure Counted (reqs : List (Entry δ × Bytes)) (s : State δ) : Prop where
  requests : s.calls.map (fun c ↦ (c.entry, c.buf)) = reqs
  pre : ∀ dst, starts .preHandshake dst s.started = if s.hsState dst = none then 0 else 1
  post : ∀ dst, starts .postHandshake dst s.started = if s.hsState dst = some true then 1 else 0
  /-- A destination without a state was not seen. -/
  unseen : ∀ dst, s.hsState dst = none → ∀ q ∈ s.seen, q.2 ≠ dst
  first : ∀ p ∈ s.started, p.sequence = .preHandshake →
    s.seen.find? (fun q ↦ q.2 = p.dst) = some (p.call, p.dst)
  oneRTT : ∀ p ∈ s.started, p.sequence = .postHandshake →
    ∃ r, reqs[p.call]? = some r ∧ detectQUICPacketType r.2 = .oneRTT

namespace Counted

variable {reqs : List (Entry δ × Bytes)} {i : Nat} {c : Call δ}

theorem requests_setPc (h : Counted reqs s) (hc : s.calls[i]? = some c) (pc : Pc δ) :
    (s.setPc i c pc).calls.map (fun c ↦ (c.entry, c.buf)) = reqs := by
  rw [← h.requests]
  exact map_set_of_eq hc rfl

theorem setPc (h : Counted reqs s) (hc : s.calls[i]? = some c) (pc : Pc δ) :
    Counted reqs (s.setPc i c pc) :=
  { h with requests := h.requests_setPc hc pc }

/-- The counts after a sequence was started, which moves its destination on to the next state. -/
theorem start (h : Counted reqs s) {sequence : Sequence} {addr : δ} {next : Bool}
    (hmove : sequence = .preHandshake ∧ s.hsState addr = none ∧ next = false ∨
      sequence = .postHandshake ∧ s.hsState addr = some false ∧ next = true) (i : Nat) (dst : δ) :
    (starts .preHandshake dst (s.started ++ [⟨sequence, i, addr⟩]) =
        if Function.update s.hsState addr (some next) dst = none then 0 else 1) ∧
      starts .postHandshake dst (s.started ++ [⟨sequence, i, addr⟩]) =
        if Function.update s.hsState addr (some next) dst = some true then 1 else 0 := by
  rw [starts_concat, starts_concat, h.pre, h.post]
  by_cases hdst : dst = addr
  · subst hdst
    rcases hmove with ⟨rfl, hstate, rfl⟩ | ⟨rfl, hstate, rfl⟩
    all_goals simp [hstate]
  · simp [Function.update_of_ne hdst, Ne.symm hdst]

/-- A destination without a state is another one, and had none. -/
theorem of_update_eq_none {addr dst : δ} {v : Bool}
    (h : Function.update s.hsState addr (some v) dst = none) :
    dst ≠ addr ∧ s.hsState dst = none := by
  have hne : dst ≠ addr := by
    rintro rfl
    simp at h
  rw [Function.update_of_ne hne] at h
  exact ⟨hne, h⟩

theorem preHandshake (h : Counted reqs s) (hc : s.calls[i]? = some c) {addr : δ}
    (hstate : s.hsState addr = none) (tasks : List (Task δ)) :
    Counted reqs { s.setPc i c (.seen addr) with
      seen := s.seen ++ [(i, addr)], tasks := tasks
      started := s.started ++ [⟨.preHandshake, i, addr⟩]
      hsState := Function.update s.hsState addr (some false) } := by
  have hstart := h.start (.inl ⟨rfl, hstate, rfl⟩) i
  refine ⟨h.requests_setPc hc _, fun dst ↦ (hstart dst).1, fun dst ↦ (hstart dst).2, ?_, ?_, ?_⟩
  · intro dst hdst
    obtain ⟨hne, hnone⟩ := of_update_eq_none hdst
    exact forall_mem_concat.mpr ⟨h.unseen dst hnone, Ne.symm hne⟩
  · intro p hp hpre
    show (s.seen ++ [(i, addr)]).find? _ = _
    rw [List.find?_append]
    rcases mem_concat.mp hp with hp | rfl
    · rw [h.first p hp hpre]
      rfl
    · have hnone : s.seen.find? (fun q ↦ q.2 = addr) = none := by
        rw [List.find?_eq_none]
        intro q hq
        simpa using h.unseen addr hstate q hq
      rw [hnone]
      simp
  · exact forall_mem_concat.mpr ⟨h.oneRTT, nofun⟩

theorem postHandshake (h : Counted reqs s) (hc : s.calls[i]? = some c) {addr : δ}
    (htype : detectQUICPacketType c.buf = .oneRTT) (hstate : s.hsState addr = some false)
    (tasks : List (Task δ)) :
    Counted reqs { s.setPc i c (.pad addr) with
      tasks := tasks
      started := s.started ++ [⟨.postHandshake, i, addr⟩]
      hsState := Function.update s.hsState addr (some true) } := by
  have hstart := h.start (.inr ⟨rfl, hstate, rfl⟩) i
  refine ⟨h.requests_setPc hc _, fun dst ↦ (hstart dst).1, fun dst ↦ (hstart dst).2, ?_, ?_, ?_⟩
  · exact fun dst hdst ↦ h.unseen dst (of_update_eq_none hdst).2
  · exact forall_mem_concat.mpr ⟨h.first, nofun⟩
  · refine forall_mem_concat.mpr ⟨h.oneRTT, fun _ ↦ ⟨(c.entry, c.buf), ?_, htype⟩⟩
    rw [← h.requests, List.getElem?_map, hc]
    rfl

theorem step (h : Counted reqs s) (hstep : Step n s a t) : Counted reqs t := by
  cases hstep with
  | raw hc _ | emit hc _ _ => exact { h.setPc hc .returned with }
  | goto hc _ | empty hc _ _ | plain hc _ | padded hc _ _ | ret hc _ _ => exact h.setPc hc _
  | @again i c addr postSent hc hpc hbuf hstate =>
    refine { h.setPc hc (.seen addr) with unseen := ?_, first := ?_ }
    · refine fun dst hdst ↦ forall_mem_concat.mpr ⟨h.unseen dst hdst, ?_⟩
      rintro rfl
      cases hstate.symm.trans hdst
    · intro p hp hpre
      show (s.seen ++ [(i, addr)]).find? _ = _
      rw [List.find?_append, h.first p hp hpre]
      rfl
  | pre hc hpc hbuf hstate => exact h.preHandshake hc hstate _
  | fragment hc hpc hfragments => exact { h with requests := h.requests_setPc hc _ }
  | post hc hpc htype hstate => exact h.postHandshake hc htype hstate _
  | panic | crash | skip | send | disable | enable => exact { h with }

theorem fresh (reqs : List (Entry δ × Bytes)) : Counted reqs (State.fresh reqs) where
  requests := by
    show (reqs.map _).map _ = reqs
    rw [List.map_map]
    exact List.map_id _
  pre _ := rfl
  post _ := rfl
  unseen _ _ q hq := absurd hq List.not_mem_nil
  first p hp := absurd hp List.not_mem_nil
  oneRTT p hp := absurd hp List.not_mem_nil

end Counted

/-! ## The account -/

/-- The kinds that only the goroutines of the sequences write. -/
structure Noise (P : Kind → Bool) : Prop where
  raw : P .raw = false
  obfuscated : P .obfuscated = false
  fragment : P .fragment = false

/-- What the sequences that were started for a destination consist of. -/
def allowance (P : Kind → Bool) (config : NoizeConfig) (started : List (Start δ)) (dst : δ) : Nat :=
  starts .preHandshake dst started * cost P (preHandshakeActs config) +
    starts .postHandshake dst started * cost P (postHandshakeActs config)

/-- What was written and what can still be written is covered by what was started. -/
def Budget (P : Kind → Bool) (n : Layer) (s : State δ) : Prop :=
  ∀ dst, written P dst s.sent + pending P dst s.tasks ≤ allowance P n.config s.started dst

namespace Budget

variable {P : Kind → Bool}

theorem write_uncounted (h : Budget P n s) {kind : Kind} (hkind : P kind = false) (dst : Option δ)
    (bytes : Bytes) : Budget P n (s.write kind dst bytes) := by
  intro d
  show written P d (s.sent ++ [_]) + _ ≤ _
  rw [written_concat]
  simp only [hkind, Bool.false_eq_true, and_false, if_false, Nat.add_zero]
  exact h d

theorem start (h : Budget P n s) (sequence : Sequence) (i : Nat) (addr : δ) {acts : List Act}
    (hacts : acts = preHandshakeActs n.config ∧ sequence = .preHandshake ∨
      acts = postHandshakeActs n.config ∧ sequence = .postHandshake) (dst : δ) :
    written P dst s.sent + pending P dst (s.tasks ++ [⟨addr, n.acts acts⟩]) ≤
      allowance P n.config (s.started ++ [⟨sequence, i, addr⟩]) dst := by
  have hbudget := h dst
  have hcost := cost_acts_le (P := P) n acts
  unfold allowance at hbudget ⊢
  rw [pending_concat, starts_concat, starts_concat]
  by_cases hdst : addr = dst
  · rcases hacts with ⟨rfl, rfl⟩ | ⟨rfl, rfl⟩
    all_goals
      simp only [hdst, if_true, and_true, reduceCtorEq, if_false, Nat.add_zero, Nat.add_mul,
        Nat.one_mul]
      omega
  · simp only [hdst, if_false, and_false, Nat.add_zero]
    exact hbudget

theorem act (h : Budget P n s) {k : Nat} {g : Task δ} {act : Act} {acts : List Act}
    (hg : s.tasks[k]? = some g) (hacts : g.acts = act :: acts) {sent : List (Sent δ)}
    (hsent : ∀ dst, written P dst sent ≤
      written P dst s.sent + if g.dst = dst then act.cost P else 0) (dst : δ) :
    written P dst sent + pending P dst (s.tasks.set k { g with acts := acts }) ≤
      allowance P n.config s.started dst := by
  have hbudget := h dst
  have hwritten := hsent dst
  have hpending : pending P dst (s.tasks.set k { g with acts := acts }) +
      (if g.dst = dst then cost P g.acts else 0) =
        pending P dst s.tasks + if g.dst = dst then cost P acts else 0 := tally_set hg _
  rw [hacts, cost_cons] at hpending
  split_ifs at hwritten hpending <;> omega

theorem step (hP : Noise P) (h : Budget P n s) (hstep : Step n s a t) : Budget P n t := by
  cases hstep with
  | raw hc hroute => exact h.write_uncounted hP.raw _ _
  | pre hc hpc hbuf hstate => exact h.start .preHandshake _ _ (.inl ⟨rfl, rfl⟩)
  | @fragment i c addr hc hpc hfragments =>
    intro dst
    have hcost : cost P (n.acts (fragmentActs n.config c.buf)) = 0 := by
      apply Nat.eq_zero_of_le_zero
      exact Nat.le_trans (cost_acts_le n _) (Nat.le_of_eq (cost_fragments hP.fragment _))
    show _ + pending P dst (s.tasks ++ [_]) ≤ _
    rw [pending_concat, hcost, ite_self, Nat.add_zero]
    exact h dst
  | post hc hpc htype hstate => exact h.start .postHandshake _ _ (.inr ⟨rfl, rfl⟩)
  | emit hc hpc hwrites => exact h.write_uncounted hP.obfuscated _ _
  | skip hg hacts hrun => exact h.act hg hacts fun dst ↦ Nat.le_add_right _ _
  | @send k draws g act acts packet hg hacts hrun =>
    refine h.act hg hacts fun dst ↦ ?_
    show written P dst (s.sent ++ [_]) ≤ _
    rw [written_concat, cost_of_packet hrun]
    by_cases hdst : g.dst = dst
    · simp [hdst]
    · simp [hdst]
  | _ => exact h

end Budget

theorem counted_of_reach {reqs : List (Entry δ × Bytes)} (h : (machine n reqs).Reachable s) :
    Counted reqs s := by
  refine Machine.Reach.invariant (I := Counted reqs) ?_ ?_ h
  · rintro s rfl
    exact Counted.fresh reqs
  · intro s a t hs _ hnext
    exact hs.step (step_of_next hnext).2

theorem budget_of_reach {P : Kind → Bool} (hP : Noise P) {reqs : List (Entry δ × Bytes)}
    (h : (machine n reqs).Reachable s) : Budget P n s := by
  refine Machine.Reach.invariant (I := Budget P n) ?_ ?_ h
  · rintro s rfl dst
    exact Nat.zero_le _
  · intro s a t hs _ hnext
    exact hs.step hP (step_of_next hnext).2

/-! ## The bounds -/

theorem Counted.starts_le {reqs : List (Entry δ × Bytes)} (h : Counted reqs s) (dst : δ) :
    starts .preHandshake dst s.started ≤ 1 ∧ starts .postHandshake dst s.started ≤ 1 := by
  rw [h.pre, h.post]
  constructor
  · split
    · exact Nat.zero_le 1
    · exact Nat.le_refl 1
  · split
    · exact Nat.le_refl 1
    · exact Nat.zero_le 1

/-- What is written to a destination is at most what the two sequences consist of. -/
theorem written_le {P : Kind → Bool} (hP : Noise P) {reqs : List (Entry δ × Bytes)}
    (h : (machine n reqs).Reachable s) (dst : δ) :
    written P dst s.sent ≤
      cost P (preHandshakeActs n.config) + cost P (postHandshakeActs n.config) := by
  obtain ⟨hpre, hpost⟩ := (counted_of_reach h).starts_le dst
  calc written P dst s.sent ≤ written P dst s.sent + pending P dst s.tasks := Nat.le_add_right _ _
    _ ≤ allowance P n.config s.started dst := budget_of_reach hP h dst
    _ ≤ 1 * cost P (preHandshakeActs n.config) + 1 * cost P (postHandshakeActs n.config) :=
        Nat.add_le_add (Nat.mul_le_mul_right _ hpre) (Nat.mul_le_mul_right _ hpost)
    _ = _ := by rw [Nat.one_mul, Nat.one_mul]

def isJunk (kind : Kind) : Bool := kind = .junk

def isSignature (k : Fin 5) (kind : Kind) : Bool := kind = .signature k

theorem noise_isJunk : Noise isJunk := ⟨rfl, rfl, rfl⟩

theorem noise_isSignature (k : Fin 5) : Noise (isSignature k) := ⟨rfl, rfl, rfl⟩

theorem cost_isJunk_junks (zeroSize : Bool) (count : Int64) :
    cost isJunk (junks zeroSize count) = count.toNatClampNeg := by
  rw [cost_junks]
  exact Nat.mul_one _

theorem cost_isJunk_preHandshakeActs (config : NoizeConfig) :
    cost isJunk (preHandshakeActs config) = config.jcBeforeHS.toNatClampNeg +
      config.jcAfterI1.toNatClampNeg + config.jcDuringHS.toNatClampNeg := by
  have hsignature : ∀ (k : Fin 5) (cps : Bytes), cost isJunk (signatureAct k cps) = 0 :=
    fun k cps ↦ Nat.eq_zero_of_le_zero (cost_signatureAct k cps)
  unfold preHandshakeActs
  simp only [cost_append, hsignature, cost_isJunk_junks, Nat.add_zero]

theorem cost_isJunk (config : NoizeConfig) :
    cost isJunk (preHandshakeActs config) + cost isJunk (postHandshakeActs config) =
      config.jcBeforeHS.toNatClampNeg + config.jcAfterI1.toNatClampNeg +
        config.jcDuringHS.toNatClampNeg + config.jcAfterHS.toNatClampNeg := by
  rw [cost_isJunk_preHandshakeActs, postHandshakeActs, cost_isJunk_junks]

/-- Each signature occurs once at most. -/
theorem cost_isSignature (k : Fin 5) (config : NoizeConfig) :
    cost (isSignature k) (preHandshakeActs config) +
      cost (isSignature k) (postHandshakeActs config) ≤ 1 := by
  have hjunks : ∀ (zeroSize : Bool) (count : Int64),
      cost (isSignature k) (junks zeroSize count) = 0 := by
    intro zeroSize count
    rw [cost_junks]
    exact Nat.mul_zero _
  have hsignature : ∀ (j : Fin 5) (cps : Bytes),
      cost (isSignature k) (signatureAct j cps) ≤ if j = k then 1 else 0 := by
    intro j cps
    refine Nat.le_trans (cost_signatureAct j cps) (Nat.le_of_eq ?_)
    simp [isSignature]
  have h0 := hsignature 0 config.i1
  have h1 := hsignature 1 config.i2
  have h2 := hsignature 2 config.i3
  have h3 := hsignature 3 config.i4
  have h4 := hsignature 4 config.i5
  have honce : ∀ k : Fin 5, (if 0 = k then 1 else 0) + (if 1 = k then 1 else 0) +
      (if 2 = k then 1 else 0) + (if 3 = k then 1 else 0) + (if 4 = k then 1 else 0) = 1 := by
    decide
  have hsum := honce k
  unfold preHandshakeActs postHandshakeActs
  simp only [cost_append, hjunks]
  omega

/-- What holds for a destination in a state. -/
structure WithinBudget (config : NoizeConfig) (reqs : List (Entry δ × Bytes)) (s : State δ)
    (dst : δ) : Prop where
  /-- The sequence before the handshake is started at most once, -/
  preOnce : starts .preHandshake dst s.started ≤ 1
  /-- by the first packet for the destination, -/
  preFirst : ∀ p ∈ s.started, p.sequence = .preHandshake → p.dst = dst →
    s.seen.find? (fun q ↦ q.2 = dst) = some (p.call, dst)
  /-- which does start it. -/
  preStarted : ∀ q ∈ s.seen, q.2 = dst → starts .preHandshake dst s.started = 1
  /-- The sequence after the handshake is started at most once, -/
  postOnce : starts .postHandshake dst s.started ≤ 1
  /-- and only by a packet that is classified as 1-RTT. -/
  postOneRTT : ∀ p ∈ s.started, p.sequence = .postHandshake → p.dst = dst →
    ∃ r, reqs[p.call]? = some r ∧ detectQUICPacketType r.2 = .oneRTT
  /-- Each signature is sent at most once. -/
  signatures : ∀ k, written (isSignature k) dst s.sent ≤ 1
  /-- The junk packets are at most those of the four counts together. -/
  junk : (written isJunk dst s.sent : Int) ≤ max 0 config.jcBeforeHS.toInt +
    max 0 config.jcAfterI1.toInt + max 0 config.jcDuringHS.toInt + max 0 config.jcAfterHS.toInt

/-- Every destination stays within its budget, whatever is written concurrently. -/
theorem within_budget {reqs : List (Entry δ × Bytes)} (h : (machine n reqs).Reachable s) (dst : δ) :
    WithinBudget n.config reqs s dst := by
  have hcounted := counted_of_reach h
  obtain ⟨hpre, hpost⟩ := hcounted.starts_le dst
  refine ⟨hpre, ?_, ?_, hpost, ?_, ?_, ?_⟩
  · rintro p hp hseq rfl
    exact hcounted.first p hp hseq
  · intro q hq hdst
    rw [hcounted.pre, if_neg fun hnone ↦ hcounted.unseen dst hnone q hq hdst]
  · intro p hp hseq _
    exact hcounted.oneRTT p hp hseq
  · intro k
    exact Nat.le_trans (written_le (noise_isSignature k) h dst) (cost_isSignature k n.config)
  · have hclamp : ∀ count : Int64, (count.toNatClampNeg : Int) = max 0 count.toInt := by
      intro count
      show ((count.toInt.toNat : Nat) : Int) = _
      rw [Int.ofNat_toNat, Int.max_comm]
    rw [← hclamp, ← hclamp, ← hclamp, ← hclamp]
    exact_mod_cast Nat.le_trans (written_le noise_isJunk h dst) (cost_isJunk n.config).le

/-- Two calls race for a destination: `WriteToUDP` comes first and starts the sequence before
the handshake, `ObfuscateWrite` the one after it, and one junk packet is written by each. -/
theorem within_budget_race : ∃ s : State Nat,
    s.started = [⟨.preHandshake, 1, 7⟩, ⟨.postHandshake, 0, 7⟩] ∧ written isJunk 7 s.sent = 2 ∧
    WithinBudget { (default : NoizeConfig) with
        jmin := 1, jmax := 1, jcBeforeHS := 1, jcAfterHS := 1 }
      [(.obfuscateWrite 7, [0x40]), (.writeToUDP 7, [0x41])] s 7 := by
  have hrun : (machine (δ := Nat)
      ⟨{ (default : NoizeConfig) with jmin := 1, jmax := 1, jcBeforeHS := 1, jcAfterHS := 1 }, true⟩
      [(.obfuscateWrite 7, [0x40]), (.writeToUDP 7, [0x41])]).run
      (.fresh [(.obfuscateWrite 7, [0x40]), (.writeToUDP 7, [0x41])])
      [.enter 0, .enter 1, .first 1, .first 0, .second 0, .second 1, .act 1 [some 3],
        .act 0 [some 4], .finish 1 [], .emit 1, .act 0 [], .finish 0 [], .emit 0] = some _ := rfl
  have hreach := Machine.Reach.of_run (G := Machine.anyStep) (.start rfl) (fun _ _ _ ↦ trivial) hrun
  exact ⟨_, rfl, rfl, within_budget hreach 7⟩

end Vwarp.Masque.Noize
