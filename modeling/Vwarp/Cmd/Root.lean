import Vwarp.App.Noize
import Vwarp.Config.Noize.Presets
import Vwarp.Go.Net

/-!
# The noise of the root command

`exec` takes the parameters of the noise layers from a configuration file or from the flags.  A file
that loads always has a configuration for them, even if it says nothing about noise, and then the
flags are not looked at: `inEffect_iff`.
-/

namespace Vwarp.Cmd.Root

open Vwarp.Go Vwarp.Go.Json Vwarp.Wireguard Vwarp.Masque.Noize Vwarp.Config Vwarp.Config.Noize

/-- `config.UnifiedConfig`, with what only the command reads of it.  `reserved`, `fwmark` and
`preferred` are fields of the two sections. -/
structure FileConfig extends UnifiedConfig where
  version : Bytes := []
  bind : Bytes := []
  key : Bytes := []
  dns : Bytes := []
  testURL : Bytes := []
  proxy : Bytes := []
  reserved : Bytes := []
  fwmark : UInt32 := 0
  preferred : Bool := false
  /-- Whether `psiphon` is enabled, and its country. -/
  psiphon : Option (Bool × Bytes) := none
  metadata : Option ConfigMetadata := none

/-- `GetNoizeConfig`, which leaves the presets empty. -/
def FileConfig.noize (uc : FileConfig) : Except Bytes Noize.UnifiedNoizeConfig :=
  uc.getNoizeConfig.map fun nc ↦
    { version := uc.version
      wireGuard := nc.wireGuard.map fun w ↦ ⟨w.enabled, [], w.atomicNoize⟩
      masque := nc.masque.map fun m ↦ ⟨m.enabled, [], m.config⟩
      metadata := uc.metadata }

/-- `rootConfig`, as far as the options of the noise layers depend on it, with the defaults of the
flags. -/
structure RootConfig where
  v4 : Bool := false
  v6 : Bool := false
  bind : Bytes := str "127.0.0.1:8086"
  endpoint : Bytes := []
  key : Bytes := []
  dns : Bytes := str "1.1.1.1"
  gool : Bool := false
  psiphon : Bool := false
  masque : Bool := false
  masquePreferred : Bool := false
  country : Bytes := []
  fwmark : UInt32 := 0
  reserved : Bytes := []
  wgConf : Bytes := []
  testUrl : Bytes := str "http://connectivity.cloudflareclient.com/cdn-cgi/trace"
  noize : Bool := false
  noizePreset : Bytes := str "medium"
  noizeExport : Bytes := []
  masqueNoizeConfigOld : Bytes := []
  proxyAddress : Bytes := []

namespace RootConfig

/-- A value of the file for a flag that has this value. -/
def override (flag unset value : Bytes) : Bytes := if value ≠ [] ∧ flag = unset then value else flag

/-- The first part of `applyUnifiedConfig`. -/
def applyCommon (c : RootConfig) (uc : FileConfig) : RootConfig :=
  { c with
    bind := override c.bind (str "127.0.0.1:8086") uc.bind
    endpoint := override c.endpoint [] uc.endpoint
    key := override c.key [] uc.key
    dns := override c.dns (str "1.1.1.1") uc.dns
    testUrl := override c.testUrl (str "https://cp.cloudflare.com/") uc.testURL
    proxyAddress := override c.proxyAddress [] uc.proxy }

/-- What a `wireguard` section that is enabled sets. -/
def applyWireGuard (c : RootConfig) (uc : FileConfig) : RootConfig :=
  match uc.wireGuard with
  | some ⟨true, config, _⟩ =>
    { c with
      wgConf := override c.wgConf [] config
      reserved := override c.reserved [] uc.reserved
      fwmark := if uc.fwmark ≠ 0 ∧ c.fwmark = 0 then uc.fwmark else c.fwmark }
  | _ => c

/-- What a `masque` section that is enabled sets. -/
def applyMASQUE (c : RootConfig) (uc : FileConfig) : RootConfig :=
  match uc.masque with
  | some ⟨true, _⟩ =>
    { c with masque := true, masquePreferred := uc.preferred || c.masquePreferred }
  | _ => c

/-- What a `psiphon` section that is enabled sets. -/
def applyPsiphon (c : RootConfig) (uc : FileConfig) : RootConfig :=
  match uc.psiphon with
  | some (true, country) => { c with psiphon := true, country := override c.country [] country }
  | _ => c

/-- `applyUnifiedConfig`. -/
def applyUnifiedConfig (c : RootConfig) (uc : FileConfig) : RootConfig :=
  (((c.applyCommon uc).applyWireGuard uc).applyMASQUE uc).applyPsiphon uc

/-- What `exec` ends with before there are options. -/
inductive Stop
  | /-- `handleNoizeExport`. -/
    exported
  | /-- `fatal`. -/
    fatal (err : Bytes)

variable (invalid : Bytes → Bytes)

/-- The tests of `exec`; `invalid` gives the text of an error of `netip`. -/
def stop (c : RootConfig) : Option Stop :=
  if c.noizeExport ≠ [] then some .exported
  else if c.psiphon && c.gool then some (.fatal (str "can't use cfon and gool at the same time"))
  else if c.masque && c.gool then some (.fatal (str "can't use masque and gool at the same time"))
  else if c.masque && c.psiphon then
    some (.fatal (str "can't use masque and cfon at the same time"))
  else if c.masque && c.masquePreferred then
    some (.fatal (str "can't use masque and masque-preferred at the same time"))
  else if c.masquePreferred && c.gool then
    some (.fatal (str "can't use masque-preferred and gool at the same time"))
  else if c.masquePreferred && c.psiphon then
    some (.fatal (str "can't use masque-preferred and cfon at the same time"))
  else if c.v4 && c.v6 then some (.fatal (str "can't force v4 and v6 at the same time"))
  else if (parseAddrPort c.bind).isNone then
    some (.fatal (str "invalid bind address: " ++ invalid c.bind))
  else if (parseAddr c.dns).isNone then
    some (.fatal (str "invalid DNS address: " ++ invalid c.dns))
  else none

variable (e : DirectEncoding) (now : Bytes)

/-- `EnableWireGuard`. -/
def enableWireGuard (config : Noize.UnifiedNoizeConfig) (preset : Bytes) :
    Noize.UnifiedNoizeConfig :=
  let w := config.wireGuard.getD default
  { config with
    wireGuard :=
      some { w with enabled := true, preset := if preset ≠ [] then preset else w.preset } }

/-- `EnableMASQUE`. -/
def enableMASQUE (config : Noize.UnifiedNoizeConfig) (preset : Bytes) : Noize.UnifiedNoizeConfig :=
  let m := config.masque.getD default
  { config with
    masque := some { m with enabled := true, preset := if preset ≠ [] then preset else m.preset } }

/-- `buildUnifiedNoizeConfig` without a file, or if the file cannot be parsed. -/
def presetNoize (c : RootConfig) : Option Noize.UnifiedNoizeConfig :=
  if !c.noize ∧ c.noizePreset = [] then none
  else
    match getPreset e now c.noizePreset with
    | .error _ => none
    | .ok config =>
      if c.masque || c.masquePreferred then
        some (enableMASQUE (enableWireGuard config c.noizePreset) c.noizePreset)
      else some (enableWireGuard config c.noizePreset)

/-- `buildUnifiedNoizeConfig`. -/
def buildUnifiedNoizeConfig (c : RootConfig) (uc : Option FileConfig) :
    Option Noize.UnifiedNoizeConfig :=
  match uc.map FileConfig.noize with
  | some (.ok noizeConfig) => some noizeConfig
  | _ => c.presetNoize e now

/-- The options of `exec`. -/
def options (c : RootConfig) (unified : Option Noize.UnifiedNoizeConfig) : App.WarpOptions where
  masqueNoize := c.noize && (c.masque || c.masquePreferred)
  masqueNoizePreset := c.noizePreset
  masqueNoizeConfig := c.masqueNoizeConfigOld
  atomicNoizeConfig := none
  unifiedNoizeConfig := unified

/-- `exec`, up to the options, with the flags as they are after `applyUnifiedConfig`. -/
def exec (c : RootConfig) (uc : Option FileConfig) : Except Stop App.WarpOptions :=
  match c.stop invalid with
  | some stop => .error stop
  | none => .ok (c.options (c.buildUnifiedNoizeConfig e now uc))

/-- What is in effect: the AtomicNoize parameters and the configuration of the MASQUE layer. -/
def inEffect (load : Bytes → Option NoizeConfig) (c : RootConfig) (uc : Option FileConfig) :
    Except Stop (Option PreflightBind.AtomicNoizeConfig × Option NoizeConfig) :=
  (c.exec invalid e now uc).map fun opts ↦
    (opts.getAtomicNoizeConfig, opts.getMASQUENoizeConfig load)

end RootConfig

/-! ## Files without noise -/

/-- The file has neither `wireguard.atomicnoize` nor `masque.config`. -/
structure FileConfig.WithoutNoize (uc : FileConfig) : Prop where
  atomicNoize : (uc.wireGuard.bind fun w ↦ w.atomicNoize) = none
  config : (uc.masque.bind fun m ↦ m.config) = none

theorem FileConfig.WithoutNoize.noize_eq {uc : FileConfig} (h : uc.WithoutNoize) :
    uc.noize = .ok ⟨uc.version, none, none, uc.metadata⟩ := by
  have hwireGuard : uc.getWireGuard = .ok none := by
    have hatomic := h.atomicNoize
    unfold UnifiedConfig.getWireGuard
    split
    · rename_i huc
      rw [huc] at hatomic
      cases hatomic
    · rename_i huc
      rw [huc] at hatomic
      cases hatomic
    · rfl
  have hmasque : uc.getMASQUE = .ok none := by
    have hconfig := h.config
    unfold UnifiedConfig.getMASQUE
    split
    · rename_i huc
      rw [huc] at hconfig
      cases hconfig
    · rename_i huc
      rw [huc] at hconfig
      cases hconfig
    · rfl
  rw [FileConfig.noize, UnifiedConfig.getNoizeConfig, hwireGuard, hmasque]
  rfl

namespace RootConfig

variable {c : RootConfig} {uc : FileConfig} {e : StandardEncoding} {now : Bytes}

theorem noizePreset_applyUnifiedConfig (c : RootConfig) (uc : FileConfig) :
    (c.applyUnifiedConfig uc).noizePreset = c.noizePreset := by
  have hwireGuard (c : RootConfig) : (c.applyWireGuard uc).noizePreset = c.noizePreset := by
    unfold applyWireGuard
    split <;> rfl
  have hmasque (c : RootConfig) : (c.applyMASQUE uc).noizePreset = c.noizePreset := by
    unfold applyMASQUE
    split <;> rfl
  have hpsiphon (c : RootConfig) : (c.applyPsiphon uc).noizePreset = c.noizePreset := by
    unfold applyPsiphon
    split <;> rfl
  rw [applyUnifiedConfig, hpsiphon, hmasque, hwireGuard]
  rfl

/-- Without a file, the parameters of a preset that is known are in effect. -/
theorem choice_of_preset {config : Noize.UnifiedNoizeConfig} {w : Noize.WireGuardNoize}
    {m : Noize.MASQUENoize} {noizeConfig : NoizeConfig} (load : Bytes → Option NoizeConfig)
    (h : getPreset e.toDirectEncoding now c.noizePreset = .ok config)
    (hw : config.wireGuard = some w) (hm : config.masque = some m) (henabled : m.enabled = true)
    (hconfig : m.config = some noizeConfig) :
    (c.options (c.presetNoize e.toDirectEncoding now)).getAtomicNoizeConfig = w.atomicNoize ∧
      (c.options (c.presetNoize e.toDirectEncoding now)).getMASQUENoizeConfig load =
        some noizeConfig := by
  have hne : c.noizePreset ≠ [] := by
    intro hnil
    rw [hnil] at h
    cases h
  have hwireGuard : (enableWireGuard config c.noizePreset).wireGuard =
      some ⟨true, if c.noizePreset ≠ [] then c.noizePreset else w.preset, w.atomicNoize⟩ := by
    rw [enableWireGuard, hw]
    rfl
  unfold presetNoize
  rw [if_neg fun hnone ↦ hne hnone.2, h]
  dsimp only
  split
  · have hboth :
        (enableMASQUE (enableWireGuard config c.noizePreset) c.noizePreset).wireGuard = _ :=
      hwireGuard
    refine ⟨?_, App.WarpOptions.getMASQUENoizeConfig_of_enabled rfl rfl rfl ?_⟩
    · rw [App.WarpOptions.getAtomicNoizeConfig_of_enabled rfl hboth rfl]
    · show (config.masque.getD default).config = some noizeConfig
      rw [hm]
      exact hconfig
  · have hmasque : (enableWireGuard config c.noizePreset).masque = some m := hm
    refine ⟨?_, App.WarpOptions.getMASQUENoizeConfig_of_enabled rfl hmasque henabled hconfig⟩
    rw [App.WarpOptions.getAtomicNoizeConfig_of_enabled rfl hwireGuard rfl]

theorem presetNoize_eq_none {err : Bytes}
    (h : getPreset e.toDirectEncoding now c.noizePreset = .error err) :
    c.presetNoize e.toDirectEncoding now = none := by
  unfold presetNoize
  rw [h]
  exact ite_self _

end RootConfig

/-- With a file without noise, the same noise is in effect as without a file if and only if `exec`
stops before, or the preset of the flags is not known. -/
theorem inEffect_iff (e : StandardEncoding) (now : Bytes) (invalid : Bytes → Bytes)
    (load : Bytes → Option NoizeConfig) (c : RootConfig) (uc : FileConfig) (h : uc.WithoutNoize) :
    (c.applyUnifiedConfig uc).inEffect invalid e.toDirectEncoding now load (some uc) =
        (c.applyUnifiedConfig uc).inEffect invalid e.toDirectEncoding now load none ↔
      (∃ stop, (c.applyUnifiedConfig uc).stop invalid = some stop) ∨
        ∃ err, getPreset e.toDirectEncoding now c.noizePreset = .error err := by
  rw [← RootConfig.noizePreset_applyUnifiedConfig c uc]
  generalize c.applyUnifiedConfig uc = c
  unfold RootConfig.inEffect RootConfig.exec
  cases hstop : c.stop invalid with
  | some stop => exact iff_of_true rfl (.inl ⟨stop, rfl⟩)
  | none =>
    have hnostop : ¬∃ stop, (none : Option RootConfig.Stop) = some stop := nofun
    rw [or_iff_right hnostop]
    have hfile : c.buildUnifiedNoizeConfig e.toDirectEncoding now (some uc) =
        some ⟨uc.version, none, none, uc.metadata⟩ := by
      rw [RootConfig.buildUnifiedNoizeConfig, Option.map_some, h.noize_eq]
    have hflags : c.buildUnifiedNoizeConfig e.toDirectEncoding now none =
        c.presetNoize e.toDirectEncoding now := rfl
    rw [hfile, hflags]
    cases hpreset : getPreset e.toDirectEncoding now c.noizePreset with
    | error err =>
      rw [RootConfig.presetNoize_eq_none hpreset]
      exact iff_of_true rfl ⟨err, rfl⟩
    | ok config =>
      have hpreset' := isPreset_of_getPreset hpreset
      obtain ⟨w, hw, -, -, hatomic⟩ := hpreset'.doubled.wireGuard
      obtain ⟨m, noizeConfig, hm, -, -, hconfig, -⟩ := hpreset'.doubled.masque
      have henabled : m.enabled = true := by
        have hmap := hpreset'.masque
        rw [hm] at hmap
        exact Option.some.inj hmap
      have hchoice := RootConfig.choice_of_preset load hpreset hw hm henabled hconfig
      refine iff_of_false (fun hsame ↦ ?_) nofun
      -- the file has no AtomicNoize parameters, and the preset has
      have hnone : none = (c.options (c.presetNoize e.toDirectEncoding now)).getAtomicNoizeConfig :=
        congrArg Prod.fst (Except.ok.inj hsame)
      rw [hchoice.1] at hnone
      rw [← hnone] at hatomic
      cases hatomic

/-- The file `{"wireguard":{"enabled":true},"endpoint":"1.2.3.4:2408"}`. -/
def wireGuardFile : FileConfig where
  endpoint := str "1.2.3.4:2408"
  wireGuard := some ⟨true, [], none⟩
  masque := none

/-- The file `{"masque":{"enabled":true}}`. -/
def masqueFile : FileConfig where
  endpoint := []
  wireGuard := none
  masque := some ⟨true, none⟩

/-- With `--noize-preset none` the file makes no difference. -/
theorem inEffect_unknown :
    masqueFile.WithoutNoize ∧
      (({ noizePreset := str "none" } : RootConfig).applyUnifiedConfig masqueFile).inEffect id
          StandardEncoding.exact.toDirectEncoding [] (fun _ ↦ none) (some masqueFile) =
        (({ noizePreset := str "none" } : RootConfig).applyUnifiedConfig masqueFile).inEffect id
          StandardEncoding.exact.toDirectEncoding [] (fun _ ↦ none) none :=
  ⟨⟨rfl, rfl⟩, (inEffect_iff .exact [] id (fun _ ↦ none) { noizePreset := str "none" } masqueFile
    ⟨rfl, rfl⟩).mpr (.inr ⟨_, rfl⟩)⟩

/-- The flags `--masque --noize --noize-preset heavy`. -/
def masqueHeavy : RootConfig := { masque := true, noize := true, noizePreset := str "heavy" }

/-- Without flags the preset "medium" is in effect, and with a file for WireGuard nothing is.  With
flags for MASQUE the preset "heavy" has 6 junk packets, and with a file for MASQUE the older one,
which has 10. -/
theorem inEffect_differs :
    ((({} : RootConfig).applyUnifiedConfig wireGuardFile).inEffect id
        StandardEncoding.exact.toDirectEncoding [] (fun _ ↦ none) (some wireGuardFile) =
          .ok (none, none) ∧
      ∃ atomicNoize config, (({} : RootConfig).applyUnifiedConfig wireGuardFile).inEffect id
        StandardEncoding.exact.toDirectEncoding [] (fun _ ↦ none) none =
          .ok (some atomicNoize, some config) ∧ atomicNoize.jc = 4) ∧
    (masqueHeavy.applyUnifiedConfig masqueFile).inEffect id
        StandardEncoding.exact.toDirectEncoding [] (fun _ ↦ none) (some masqueFile) =
          .ok (none, some App.heavyObfuscationConfig) ∧
      ∃ atomicNoize config, (masqueHeavy.applyUnifiedConfig masqueFile).inEffect id
        StandardEncoding.exact.toDirectEncoding [] (fun _ ↦ none) none =
          .ok (some atomicNoize, some config) ∧ config.jc = 6 := by
  have hcopy {preset : Noize.UnifiedNoizeConfig} (h : IsPreset .exact preset) :
      Except.ok (deepCopy StandardEncoding.exact.toDirectEncoding preset) =
        (.ok (coercedConfig StandardEncoding.exact.toDirectEncoding preset) :
          Except Bytes Noize.UnifiedNoizeConfig) :=
    congrArg Except.ok (deepCopy_of_writable h.doubled.writable)
  have hmedium := hcopy (isPreset_builtin [] (str "medium", createMediumPreset [])
    (by simp [builtinPresets]))
  have hheavy := hcopy (isPreset_builtin [] (str "heavy", createHeavyPreset [])
    (by simp [builtinPresets]))
  obtain ⟨hatomic, hmasque⟩ := RootConfig.choice_of_preset
    (c := ({} : RootConfig).applyUnifiedConfig wireGuardFile) (fun _ ↦ none) hmedium rfl rfl rfl rfl
  obtain ⟨hatomic', hmasque'⟩ := RootConfig.choice_of_preset
    (c := masqueHeavy.applyUnifiedConfig masqueFile) (fun _ ↦ none) hheavy rfl rfl rfl rfl
  exact ⟨⟨rfl, _, _, congrArg₂ (fun a m ↦ Except.ok (a, m)) hatomic hmasque, rfl⟩, rfl, _, _,
    congrArg₂ (fun a m ↦ Except.ok (a, m)) hatomic' hmasque', rfl⟩

end Vwarp.Cmd.Root
