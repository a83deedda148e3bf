import Vwarp.Wireguard.PreflightBind.Safety
import Vwarp.Masque.Noize.Crash

/-!
# The unified configuration

What `--config` loads.  `Validate` looks at which protocols there are, and `GetNoizeConfig`
parses the configurations of the noise layers.  Neither looks at a number in them, so that
what the data path needs of the numbers is not checked on this path: `survives_iff`.
-/

namespace Vwarp.Config

open Vwarp.Go Vwarp.Wireguard Vwarp.Masque.Noize

/-- `WireGuardConfig`.  For the raw message `AtomicNoize` there is what `json.Unmarshal` makes
of it: an error, or a pointer. -/
structure WireGuardConfig where
  enabled : Bool
  config : Bytes
  atomicNoize : Option (Except Bytes (Option PreflightBind.AtomicNoizeConfig))

/-- `MASQUEConfig`, with the raw message as above. -/
structure MASQUEConfig where
  enabled : Bool
  config : Option (Except Bytes (Option NoizeConfig))

/-- `UnifiedConfig`. -/
structure UnifiedConfig where
  endpoint : Bytes
  wireGuard : Option WireGuardConfig
  masque : Option MASQUEConfig

/-- `noize.WireGuardNoize`. -/
structure WireGuardNoize where
  enabled : Bool
  atomicNoize : Option PreflightBind.AtomicNoizeConfig
deriving DecidableEq

/-- `noize.MASQUENoize`. -/
structure MASQUENoize where
  enabled : Bool
  config : Option NoizeConfig
deriving DecidableEq

/-- `noize.UnifiedNoizeConfig`. -/
structure UnifiedNoizeConfig where
  wireGuard : Option WireGuardNoize
  masque : Option MASQUENoize
deriving DecidableEq

namespace UnifiedConfig

/-- `Validate`. -/
def validate (uc : UnifiedConfig) : Option Bytes :=
  if uc.wireGuard.isNone ∧ uc.masque.isNone then
    some (str "at least one of 'wireguard' or 'masque' must be configured")
  else
    match uc.wireGuard with
    | some w =>
      if w.enabled ∧ w.config = [] ∧ uc.endpoint = [] then
        some (str "wireguard requires either 'config' file path or 'endpoint'")
      else none
    | none => none

/-- The first part of `GetNoizeConfig`. -/
def getWireGuard (uc : UnifiedConfig) : Except Bytes (Option WireGuardNoize) :=
  match uc.wireGuard with
  | some ⟨true, _, some (.error err)⟩ => .error (str "failed to parse AtomicNoize config: " ++ err)
  | some ⟨true, _, some (.ok atomicNoize)⟩ => .ok (some ⟨true, atomicNoize⟩)
  | _ => .ok none

/-- The second part of `GetNoizeConfig`. -/
def getMASQUE (uc : UnifiedConfig) : Except Bytes (Option MASQUENoize) :=
  match uc.masque with
  | some ⟨true, some (.error err)⟩ => .error (str "failed to parse MASQUE noize config: " ++ err)
  | some ⟨true, some (.ok config)⟩ => .ok (some ⟨true, config⟩)
  | _ => .ok none

/-- `GetNoizeConfig`. -/
def getNoizeConfig (uc : UnifiedConfig) : Except Bytes UnifiedNoizeConfig := do
  let wireGuard ← uc.getWireGuard
  let masque ← uc.getMASQUE
  pure ⟨wireGuard, masque⟩

/-! ## What `GetNoizeConfig` returns -/

/-- AtomicNoize is enabled, and this is its configuration. -/
def HasAtomicNoize (uc : UnifiedConfig) (atomicNoize : Option PreflightBind.AtomicNoizeConfig) :
    Prop :=
  ∃ config, uc.wireGuard = some ⟨true, config, some (.ok atomicNoize)⟩

/-- The MASQUE noise layer is enabled, and this is its configuration. -/
def HasNoize (uc : UnifiedConfig) (config : Option NoizeConfig) : Prop :=
  uc.masque = some ⟨true, some (.ok config)⟩

variable {uc : UnifiedConfig}

theorem getWireGuard_eq_ok {w : Option WireGuardNoize} (h : uc.getWireGuard = .ok w)
    (atomicNoize : Option PreflightBind.AtomicNoizeConfig) :
    w = some ⟨true, atomicNoize⟩ ↔ uc.HasAtomicNoize atomicNoize := by
  unfold getWireGuard at h
  unfold HasAtomicNoize
  split at h
  · cases h
  · rename_i config parsed huc
    cases h
    rw [huc]
    simp
  · rename_i hother
    cases h
    constructor
    · intro hsome
      cases hsome
    · rintro ⟨config, huc⟩
      exact absurd huc (hother _ _)

theorem getMASQUE_eq_ok {m : Option MASQUENoize} (h : uc.getMASQUE = .ok m)
    (config : Option NoizeConfig) : m = some ⟨true, config⟩ ↔ uc.HasNoize config := by
  unfold getMASQUE at h
  unfold HasNoize
  split at h
  · cases h
  · rename_i parsed huc
    cases h
    rw [huc]
    simp
  · rename_i hother
    cases h
    constructor
    · intro hsome
      cases hsome
    · intro huc
      exact absurd huc (hother _)

theorem getNoizeConfig_eq_ok {nc : UnifiedNoizeConfig} (h : uc.getNoizeConfig = .ok nc) :
    uc.getWireGuard = .ok nc.wireGuard ∧ uc.getMASQUE = .ok nc.masque := by
  unfold getNoizeConfig at h
  cases hw : uc.getWireGuard with
  | error err =>
    rw [hw] at h
    cases h
  | ok w =>
    cases hm : uc.getMASQUE with
    | error err =>
      rw [hw, hm] at h
      cases h
    | ok m =>
      rw [hw, hm] at h
      cases h
      exact ⟨rfl, rfl⟩

end UnifiedConfig

/-! ## The data path -/

/-- No packet and no buffer makes the data path panic that is set up from this. -/
structure Survives (nc : UnifiedNoizeConfig) : Prop where
  send : ∀ atomicNoize, nc.wireGuard = some ⟨true, atomicNoize⟩ → PreflightBind.NoCrash atomicNoize
  obfuscateWrite : ∀ config, nc.masque = some ⟨true, config⟩ → NoCrash (newConfig config)

/-- What is accepted does not crash the data path exactly if the configurations of the layers
that are enabled fit, which nothing on this path checks. -/
theorem survives_iff (uc : UnifiedConfig) {nc : UnifiedNoizeConfig} (_hvalid : uc.validate = none)
    (hnoize : uc.getNoizeConfig = .ok nc) :
    Survives nc ↔ (∀ config, uc.HasAtomicNoize (some config) → PreflightBind.Fits config) ∧
      ∀ config, uc.HasNoize config → Fits (newConfig config) := by
  obtain ⟨hw, hm⟩ := UnifiedConfig.getNoizeConfig_eq_ok hnoize
  constructor
  · intro hsurvives
    constructor
    · intro config hconfig
      rw [← UnifiedConfig.getWireGuard_eq_ok hw] at hconfig
      exact (hsurvives.send _ hconfig).fits
    · intro config hconfig
      rw [← UnifiedConfig.getMASQUE_eq_ok hm] at hconfig
      exact noCrash_iff.mp (hsurvives.obfuscateWrite config hconfig)
  · rintro ⟨hsend, hobfuscate⟩
    constructor
    · intro atomicNoize hconfig
      rw [UnifiedConfig.getWireGuard_eq_ok hw] at hconfig
      apply PreflightBind.noCrash_iff.mpr
      rintro c rfl
      exact hsend c hconfig
    · intro config hconfig
      rw [UnifiedConfig.getMASQUE_eq_ok hm] at hconfig
      exact noCrash_iff.mpr (hobfuscate config hconfig)

def fewJunk : PreflightBind.AtomicNoizeConfig :=
  { (default : PreflightBind.AtomicNoizeConfig) with
    jc := 4, jmin := 40, jmax := 90, jcBeforeHS := 2 }

/-- Both layers, with modest numbers. -/
theorem survives_modest :
    Survives ⟨some ⟨true, some fewJunk⟩, some ⟨true, some defaultConfig⟩⟩ := by
  refine (survives_iff
    ⟨[], some ⟨true, str "wg.conf", some (.ok (some fewJunk))⟩,
      some ⟨true, some (.ok (some defaultConfig))⟩⟩ rfl rfl).mpr ⟨?_, ?_⟩
  · rintro config ⟨path, hconfig⟩
    cases hconfig
    decide
  · rintro config hconfig
    cases hconfig
    decide

/-- Random padding with its bounds the wrong way round. -/
def reversedPadding : NoizeConfig :=
  { (default : NoizeConfig) with paddingMin := 64, paddingMax := 16, randomPadding := true }

/-- The file is accepted, and a packet of 16 bytes makes `rng.Intn` panic. -/
theorem accepted_and_crashes :
    UnifiedConfig.validate ⟨[], none, some ⟨true, some (.ok (some reversedPadding))⟩⟩ = none ∧
    UnifiedConfig.getNoizeConfig ⟨[], none, some ⟨true, some (.ok (some reversedPadding))⟩⟩ =
      .ok ⟨none, some ⟨true, some reversedPadding⟩⟩ ∧
    ∃ s : State Unit,
      (machine ⟨newConfig (some reversedPadding), true⟩
        [(.obfuscateWrite (), List.replicate 16 0x40)]).Reachable s ∧ s.crashed = true := by
  refine ⟨rfl, rfl, ?_⟩
  have hrun : (machine ⟨reversedPadding, true⟩
      [((.obfuscateWrite () : Entry Unit), List.replicate 16 0x40)]).run
      (.fresh [(.obfuscateWrite (), List.replicate 16 0x40)])
      [.enter 0, .first 0, .second 0, .finish 0 []] = some _ := rfl
  exact ⟨_, Vwarp.Lib.Machine.Reach.of_run (.start rfl) (fun _ _ _ ↦ trivial) hrun, rfl⟩

end Vwarp.Config
