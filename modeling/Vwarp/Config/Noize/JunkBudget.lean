import Vwarp.Masque.Noize.Budget
import Vwarp.Wireguard.PreflightBind.Order

/-!
# The junk budget

The validators compare the sum of the specific junk counts with `Jc`, which is at most 128 or 20.
The counts have no upper bound of their own, and the sum is one of machine integers.  If it wraps it
can be anything, and then the loops of the preflights, which use the counts one by one, are not
bounded by `Jc`: `junk_budget_iff`.
-/

namespace Vwarp.Config.Noize

open Vwarp.Go Vwarp.Lib Vwarp.Wireguard Vwarp.Masque.Noize

/-! ## Sums of machine integers -/

theorem le_iff_of_bmod_le {total jc : Int} (hnonneg : 0 ≤ total) (hjc : jc ≤ 128)
    (h : total.bmod (2 ^ 64) ≤ jc) : total ≤ jc ↔ total < 2 ^ 63 := by
  constructor
  · intro hle
    omega
  · intro hlt
    rwa [Int.bmod_eq_of_le (by omega) (by omega)] at h

theorem natCast_toNatClampNeg {count : Int64} (h : 0 ≤ count.toInt) :
    (count.toNatClampNeg : Int) = count.toInt :=
  Int.toNat_of_nonneg h

/-! ## WireGuard -/

section WireGuard

open PreflightBind

variable {config : AtomicNoizeConfig}

def atomicTotal (config : AtomicNoizeConfig) : Int :=
  config.jcAfterI1.toInt + config.jcBeforeHS.toInt + config.jcAfterHS.toInt

/-- What the check of the sum is for. -/
structure AtomicBudget (config : AtomicNoizeConfig) : Prop where
  total : atomicTotal config ≤ config.jc.toInt
  /-- The loops of a preflight make at most 128 junk packets. -/
  loops :
    ∀ {ε : Type} {b : Bind ε}, b.config = some config → b.preflightActs.countP Act.isJunk ≤ 128
  /-- No call of `Send` hands over more than that, in any run. -/
  sent : ∀ {ε : Type} {b : Bind ε} {reqs : List (List Bytes × ε)} {s : PreflightBind.State ε},
    b.config = some config → (PreflightBind.machine b reqs).Reachable s →
    ∀ (i : Nat) (c : PreflightBind.Call ε), s.calls[i]? = some c →
      (transcript s.sent i).countP (·.kind = .junk) ≤ 128

/-- What the validators of WireGuard check of the counts. -/
structure AtomicChecked (config : AtomicNoizeConfig) : Prop where
  jc_le : config.jc.toInt ≤ 128
  afterI1 : 0 ≤ config.jcAfterI1.toInt
  beforeHS : 0 ≤ config.jcBeforeHS.toInt
  afterHS : 0 ≤ config.jcAfterHS.toInt
  total : (config.jcAfterI1 + config.jcBeforeHS + config.jcAfterHS).toInt ≤ config.jc.toInt

theorem atomicChecked_of_validate (h : validateAtomicNoizeConfig config = none) :
    AtomicChecked config := by
  rw [validateAtomicNoizeConfig, firstFailure_eq_none] at h
  simp only [List.forall_mem_cons, decide_eq_false_iff_not, not_or, gt_iff_lt, Int64.not_lt,
    Int64.le_iff_toInt_le] at h
  obtain ⟨⟨-, hjc⟩, -, ⟨hafterI1, hbeforeHS, hafterHS⟩, htotal, -⟩ := h
  exact ⟨hjc, hafterI1, hbeforeHS, hafterHS, htotal⟩

theorem atomicChecked_of_strict (h : ConfigValidator.validateAtomicNoizeConfig config = none) :
    AtomicChecked config := by
  rw [ConfigValidator.validateAtomicNoizeConfig, Option.or_eq_none_iff, firstFailure_eq_none] at h
  obtain ⟨h, -⟩ := h
  rw [List.forall_mem_append, List.forall_mem_append] at h
  simp only [List.forall_mem_cons, ConfigValidator.notNegative_eq_false, ConfigValidator.totalCheck,
    decide_eq_false_iff_not, not_or, gt_iff_lt, Int64.not_lt, Int64.le_iff_toInt_le] at h
  obtain ⟨⟨⟨⟨-, hjc⟩, -⟩, -⟩, hafterI1, hbeforeHS, hafterHS, htotal, -⟩ := h
  exact ⟨hjc, hafterI1, hbeforeHS, hafterHS, htotal⟩

section Phases

variable {ε : Type} {b : Bind ε} {i : Nat} {c : PreflightBind.Call ε} {started : Prop} {ep : ε}
  {told : List (PreflightBind.Sent ε)}

theorem countP_of_afterJunk (h : ∀ e ∈ told, e.kind = .afterJunk) :
    told.countP (·.kind = .junk) = 0 := by
  rw [List.countP_eq_zero]
  intro e he
  rw [h e he]
  decide

theorem junk_of_realises {acts : List PreflightBind.Act} (h : Realises b i ep acts told) :
    told.countP (·.kind = .junk) ≤ acts.countP Act.isJunk := by
  refine Nat.le_trans (List.countP_mono_left fun e _ hjunk ↦ ?_) h.junkCount_le
  exact decide_eq_true (.inl (of_decide_eq_true hjunk))

theorem junk_of_preflighted (h : Preflighted b i ep started told) :
    told.countP (·.kind = .junk) ≤ b.preflightActs.countP Act.isJunk := by
  rcases h with ⟨-, hreal⟩ | ⟨-, rfl⟩
  · exact junk_of_realises hreal
  · exact Nat.zero_le _

theorem junk_of_phase (h : Phase b i c started told) :
    told.countP (·.kind = .junk) ≤ b.preflightActs.countP Act.isJunk := by
  unfold Phase at h
  split at h
  · rw [h.2]
    exact Nat.zero_le _
  · rw [h.2]
    exact Nat.zero_le _
  · obtain ⟨-, acts, hacts, hreal⟩ := h
    rw [← hacts, List.countP_append]
    exact Nat.le_add_right_of_le (junk_of_realises hreal)
  · exact junk_of_preflighted h
  · obtain ⟨before, after, rfl, hbefore, hafter⟩ := h
    rw [List.countP_append, countP_of_afterJunk hafter, Nat.add_zero]
    exact junk_of_preflighted hbefore
  · obtain ⟨before, early, late, rfl, hbefore, hearly, hlate⟩ := h
    rw [List.countP_append, List.countP_append, List.countP_cons_of_neg (by simp),
      countP_of_afterJunk hearly, countP_of_afterJunk hlate, Nat.add_zero]
    exact junk_of_preflighted hbefore

end Phases

theorem AtomicChecked.budget_iff (h : AtomicChecked config) :
    AtomicBudget config ↔ atomicTotal config < 2 ^ 63 := by
  have hbmod : (atomicTotal config).bmod (2 ^ 64) ≤ config.jc.toInt := by
    have htotal := h.total
    rwa [Int64.toInt_add, Int64.toInt_add, Int.bmod_add_bmod] at htotal
  have hnonneg : 0 ≤ atomicTotal config :=
    Int.add_nonneg (Int.add_nonneg h.afterI1 h.beforeHS) h.afterHS
  have hiff := le_iff_of_bmod_le hnonneg h.jc_le hbmod
  refine ⟨fun hbudget ↦ hiff.mp hbudget.total, fun hlt ↦ ?_⟩
  have hle := hiff.mpr hlt
  have hloops : ∀ {ε : Type} {b : Bind ε}, b.config = some config →
      b.preflightActs.countP Act.isJunk ≤ 128 := by
    intro ε b hconfig
    have hafterI1 := natCast_toNatClampNeg h.afterI1
    have hbeforeHS := natCast_toNatClampNeg h.beforeHS
    have hafterHS := h.afterHS
    have hjc := h.jc_le
    unfold atomicTotal at hle
    rw [countP_preflightActs hconfig]
    omega
  refine ⟨hle, hloops, fun hconfig hreach i c hc ↦ ?_⟩
  exact Nat.le_trans (junk_of_phase ((told_of_reach hreach).phase i c hc)) (hloops hconfig)

end WireGuard

/-! ## MASQUE -/

section Masque

variable {config : NoizeConfig}

def noizeTotal (config : NoizeConfig) : Int :=
  config.jcBeforeHS.toInt + config.jcAfterI1.toInt + config.jcDuringHS.toInt +
    config.jcAfterHS.toInt

/-- What the check of the sum is for. -/
structure NoizeBudget (config : NoizeConfig) : Prop where
  total : noizeTotal config ≤ config.jc.toInt
  /-- The loops of the two sequences make at most 20 junk packets together. -/
  loops : cost isJunk (preHandshakeActs config) + cost isJunk (postHandshakeActs config) ≤ 20
  /-- No more than that are written to a destination, in any run. -/
  sent : ∀ {δ : Type} [DecidableEq δ] {n : Layer} {reqs : List (Entry δ × Bytes)}
    {s : Masque.Noize.State δ}, n.config = config → (Masque.Noize.machine n reqs).Reachable s →
    ∀ dst, written isJunk dst s.sent ≤ 20

/-- What the validator of MASQUE checks of the counts. -/
structure NoizeChecked (config : NoizeConfig) : Prop where
  jc_le : config.jc.toInt ≤ 20
  beforeHS : 0 ≤ config.jcBeforeHS.toInt
  afterI1 : 0 ≤ config.jcAfterI1.toInt
  duringHS : 0 ≤ config.jcDuringHS.toInt
  afterHS : 0 ≤ config.jcAfterHS.toInt
  total : (config.jcBeforeHS + config.jcAfterI1 + config.jcDuringHS + config.jcAfterHS).toInt ≤
    config.jc.toInt

theorem noizeChecked_of_validate {formatDuration : Int64 → Bytes} {formatFloat : BitVec 32 → Bytes}
    (h : ConfigValidator.validateNoizeConfig formatDuration formatFloat config = none) :
    NoizeChecked config := by
  rw [ConfigValidator.validateNoizeConfig, Option.or_eq_none_iff, firstFailure_eq_none] at h
  obtain ⟨h, -⟩ := h
  rw [List.forall_mem_append, List.forall_mem_append] at h
  simp only [List.forall_mem_cons, ConfigValidator.notNegative_eq_false, ConfigValidator.totalCheck,
    decide_eq_false_iff_not, not_or, gt_iff_lt, Int64.not_lt, Int64.le_iff_toInt_le] at h
  obtain ⟨⟨⟨⟨-, hjc⟩, -⟩, -⟩, hbeforeHS, hafterI1, hduringHS, hafterHS, htotal, -⟩ := h
  exact ⟨hjc, hbeforeHS, hafterI1, hduringHS, hafterHS, htotal⟩

theorem NoizeChecked.budget_iff (h : NoizeChecked config) :
    NoizeBudget config ↔ noizeTotal config < 2 ^ 63 := by
  have hbmod : (noizeTotal config).bmod (2 ^ 64) ≤ config.jc.toInt := by
    have htotal := h.total
    rwa [Int64.toInt_add, Int64.toInt_add, Int64.toInt_add, Int.bmod_add_bmod, Int.add_assoc,
      Int.bmod_add_bmod, ← Int.add_assoc] at htotal
  have hnonneg : 0 ≤ noizeTotal config :=
    Int.add_nonneg (Int.add_nonneg (Int.add_nonneg h.beforeHS h.afterI1) h.duringHS) h.afterHS
  have hjc := h.jc_le
  have hiff := le_iff_of_bmod_le hnonneg (by omega) hbmod
  refine ⟨fun hbudget ↦ hiff.mp hbudget.total, fun hlt ↦ ?_⟩
  have hle := hiff.mpr hlt
  have hloops :
      cost isJunk (preHandshakeActs config) + cost isJunk (postHandshakeActs config) ≤ 20 := by
    have hbeforeHS := natCast_toNatClampNeg h.beforeHS
    have hafterI1 := natCast_toNatClampNeg h.afterI1
    have hduringHS := natCast_toNatClampNeg h.duringHS
    have hafterHS := natCast_toNatClampNeg h.afterHS
    have hcost := cost_isJunk config
    unfold noizeTotal at hle
    omega
  refine ⟨hle, hloops, fun hconfig hreach dst ↦ ?_⟩
  have hwritten := written_le noise_isJunk hreach dst
  rw [hconfig] at hwritten
  exact Nat.le_trans hwritten hloops

end Masque

/-! ## The three validators -/

/-- Of what a validator accepts, the budget is kept if and only if the counts do not add up to
`2 ^ 63` or more. -/
theorem junk_budget_iff (formatDuration : Int64 → Bytes) (formatFloat : BitVec 32 → Bytes) :
    (∀ config, validateAtomicNoizeConfig config = none →
      (AtomicBudget config ↔ atomicTotal config < 2 ^ 63)) ∧
    (∀ config, ConfigValidator.validateAtomicNoizeConfig config = none →
      (AtomicBudget config ↔ atomicTotal config < 2 ^ 63)) ∧
    (∀ config, ConfigValidator.validateNoizeConfig formatDuration formatFloat config = none →
      (NoizeBudget config ↔ noizeTotal config < 2 ^ 63)) :=
  ⟨fun _ h ↦ (atomicChecked_of_validate h).budget_iff,
    fun _ h ↦ (atomicChecked_of_strict h).budget_iff,
    fun _ h ↦ (noizeChecked_of_validate h).budget_iff⟩

/-- Counts that add up to `Jc`, and the default configuration of MASQUE, are accepted and kept. -/
theorem junk_budget_kept : let counts := PreflightBind.junkConfig 5 1 2
    validateAtomicNoizeConfig counts = none ∧
      ConfigValidator.validateAtomicNoizeConfig counts = none ∧
      ConfigValidator.validateNoizeConfig (fun _ ↦ []) (fun _ ↦ []) defaultConfig = none ∧
      AtomicBudget counts ∧ NoizeBudget defaultConfig := by
  intro counts
  have hcounts : validateAtomicNoizeConfig counts = none := by decide
  have hdefault : ConfigValidator.validateNoizeConfig (fun _ ↦ []) (fun _ ↦ []) defaultConfig =
    none := by decide
  obtain ⟨hatomic, -, hnoize⟩ := junk_budget_iff (fun _ ↦ []) (fun _ ↦ [])
  exact ⟨hcounts, by decide, hdefault, (hatomic counts hcounts).mpr (by decide),
    (hnoize defaultConfig hdefault).mpr (by decide)⟩

/-- Two counts whose sum is `-2 ^ 63` for the machine. -/
def wrappingCounts : PreflightBind.AtomicNoizeConfig :=
  PreflightBind.junkConfig 0 0x4000000000000000 0x4000000000000000

def wrappingNoize : NoizeConfig :=
  { (default : NoizeConfig) with jcBeforeHS := 0x4000000000000000, jcAfterI1 := 0x4000000000000000 }

/-- With `Jc = 0` all three accept counts for which the loops make `2 ^ 63` junk packets. -/
theorem junk_budget_wraps :
    validateAtomicNoizeConfig wrappingCounts = none ∧
      ConfigValidator.validateAtomicNoizeConfig wrappingCounts = none ∧
      ConfigValidator.validateNoizeConfig (fun _ ↦ []) (fun _ ↦ []) wrappingNoize = none ∧
      (PreflightBind.junkBind wrappingCounts).preflightActs.countP PreflightBind.Act.isJunk =
        2 ^ 63 ∧
      cost isJunk (preHandshakeActs wrappingNoize) = 2 ^ 63 ∧
      ¬ AtomicBudget wrappingCounts ∧ ¬ NoizeBudget wrappingNoize := by
  have hatomic : (PreflightBind.junkBind wrappingCounts).preflightActs.countP
      PreflightBind.Act.isJunk = 2 ^ 63 := by
    rw [PreflightBind.countP_preflightActs rfl]
    rfl
  have hnoize : cost isJunk (preHandshakeActs wrappingNoize) = 2 ^ 63 := by
    rw [cost_isJunk_preHandshakeActs]
    rfl
  refine ⟨by decide, by decide, by decide, hatomic, hnoize, fun hbudget ↦ ?_, fun hbudget ↦ ?_⟩
  · have hloops := hbudget.loops (b := PreflightBind.junkBind wrappingCounts) rfl
    omega
  · have hloops := hbudget.loops
    omega

end Vwarp.Config.Noize
