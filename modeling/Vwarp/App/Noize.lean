import Vwarp.Config.Noize.Copy

/-!
# Which noise is in effect

`getAtomicNoizeConfig` and `runWarpWithMasque` choose the parameters of the noise layers from the
options: from the unified configuration if it enables the protocol, and otherwise from what is left
of the older options, which have presets of their own.
-/

namespace Vwarp.App

open Vwarp.Go Vwarp.Wireguard Vwarp.Masque.Noize

/-! ## The older presets -/

/-- `MinimalObfuscationConfig`. -/
def minimalObfuscationConfig : NoizeConfig :=
  { (default : NoizeConfig) with
    i1 := str "<b 474554202f20485454502f312e31><r 8>"
    fragmentSize := 1280, fragmentInitial := true, fragmentDelay := milliseconds 3
    paddingMin := 1
    jc := 8, jcBeforeHS := 3, jcAfterI1 := 2, jcDuringHS := 3, jcAfterHS := 4
    jmin := 40, jmax := 1285
    junkInterval := milliseconds 5, junkRandom := true
    handshakeDelay := milliseconds 5, randomDelay := true
    delayMin := milliseconds 5, delayMax := milliseconds 15
    sniFragmentation := true, useTimestamp := true, useNonce := true, randomizeInitial := true
    allowZeroSize := true }

/-- `LightObfuscationConfig`. -/
def lightObfuscationConfig : NoizeConfig :=
  { (default : NoizeConfig) with
    i1 := str "<b 474554202f20485454502f312e31><r 8>"
    jc := 8, jcBeforeHS := 2, jcAfterI1 := 1, jcDuringHS := 2, jcAfterHS := 3
    jmin := 40, jmax := 120
    junkInterval := milliseconds 3, junkRandom := true
    handshakeDelay := milliseconds 5, randomDelay := true
    delayMin := milliseconds 1, delayMax := milliseconds 5
    sniFragmentation := true, useNonce := true, randomizeInitial := true }

/-- `MediumObfuscationConfig`. -/
def mediumObfuscationConfig : NoizeConfig := defaultConfig

/-- `HeavyObfuscationConfig`. -/
def heavyObfuscationConfig : NoizeConfig :=
  { (default : NoizeConfig) with
    i1 := str "<b 0d0a0d0a><t><r 32>", i2 := str "<b 474554202f20485454502f312e31><r 16>"
    i3 := str "<r 64>"
    fragmentSize := 1280, fragmentInitial := true, fragmentDelay := milliseconds 3
    paddingMin := 3, paddingMax := 12, randomPadding := true
    jc := 10, jmin := 128, jmax := 512
    jcBeforeHS := 3, jcAfterI1 := 2, jcDuringHS := 2, jcAfterHS := 3
    junkInterval := milliseconds 8, junkRandom := true
    handshakeDelay := milliseconds 20, randomDelay := true
    delayMin := milliseconds 2, delayMax := milliseconds 15
    sniFragmentation := true, sniFragment := 16
    useTimestamp := true, useNonce := true, randomizeInitial := true }

/-- `StealthObfuscationConfig`. -/
def stealthObfuscationConfig : NoizeConfig :=
  { (default : NoizeConfig) with
    i1 := str "<b 160301><r 2><b 0100>"
    paddingMin := 16, paddingMax := 18
    jc := 3, jmin := 40, jmax := 200, jcBeforeHS := 1, jcAfterI1 := 1, jcAfterHS := 1
    junkInterval := milliseconds 10, handshakeDelay := milliseconds 15, randomDelay := true
    delayMin := milliseconds 5, delayMax := milliseconds 25 }

/-- `GFWBypassConfig`, with a fake loss of 0.02. -/
def gfwBypassConfig : NoizeConfig :=
  { (default : NoizeConfig) with
    i1 := str "<b 0d0a0d0a><t><r 24>", i2 := str "<r 48>"
    fragmentSize := 1200, fragmentDelay := milliseconds 3
    paddingMin := 8, paddingMax := 12, randomPadding := true
    jc := 8, jmin := 64, jmax := 384
    jcBeforeHS := 3, jcAfterI1 := 2, jcDuringHS := 2, jcAfterHS := 1
    junkInterval := milliseconds 3, junkRandom := true
    handshakeDelay := milliseconds 25, randomDelay := true
    delayMin := milliseconds 1, delayMax := milliseconds 20
    sniFragmentation := true, sniFragment := 8
    useTimestamp := true, useNonce := true, randomizeInitial := true
    fakeLoss := 0x3ca3d70a }

/-- `FirewallBypassConfig`, with a fake loss of 0.01. -/
def firewallBypassConfig : NoizeConfig :=
  { (default : NoizeConfig) with
    i1 := str "<b 0d0a0d0a><t><r 24>", i2 := str "<r 48>"
    fragmentSize := 1200, fragmentDelay := milliseconds 2
    paddingMin := 2, paddingMax := 6
    jc := 6, jmin := 48, jmax := 190
    jcBeforeHS := 2, jcAfterI1 := 2, jcDuringHS := 2, jcAfterHS := 2
    junkInterval := milliseconds 4, junkRandom := true
    handshakeDelay := milliseconds 5, randomDelay := true
    delayMin := milliseconds 2, delayMax := milliseconds 12
    sniFragment := 12, useNonce := true
    fakeLoss := 0x3c23d70a }

/-- `getMASQUEPresetConfig`. -/
def getMASQUEPresetConfig (preset : Bytes) : Option NoizeConfig :=
  if preset = str "minimal" then some minimalObfuscationConfig
  else if preset = str "light" then some lightObfuscationConfig
  else if preset = str "medium" then some mediumObfuscationConfig
  else if preset = str "heavy" then some heavyObfuscationConfig
  else if preset = str "stealth" then some stealthObfuscationConfig
  else if preset = str "gfw" then some gfwBypassConfig
  else if preset = str "firewall" then some firewallBypassConfig
  else if preset = str "none" then none
  else some mediumObfuscationConfig

/-! ## The choice -/

/-- `WarpOptions`, as far as the noise layers go by them. -/
structure WarpOptions where
  masqueNoize : Bool
  masqueNoizePreset : Bytes
  masqueNoizeConfig : Bytes
  atomicNoizeConfig : Option PreflightBind.AtomicNoizeConfig
  unifiedNoizeConfig : Option Config.Noize.UnifiedNoizeConfig

namespace WarpOptions

variable (opts : WarpOptions)

/-- `getAtomicNoizeConfig`. -/
def getAtomicNoizeConfig : Option PreflightBind.AtomicNoizeConfig :=
  -- `IsWireGuardEnabled`
  match opts.unifiedNoizeConfig.bind fun c ↦ c.wireGuard.filter (·.enabled) with
  | some w => w.atomicNoize
  | none => opts.atomicNoizeConfig

variable (load : Bytes → Option NoizeConfig)

/-- What `runWarpWithMasque` falls back to; `load` is `masquenoize.LoadConfigFromFile`. -/
def legacyNoize : Option NoizeConfig :=
  if opts.masqueNoize then
    match if opts.masqueNoizeConfig ≠ [] then load opts.masqueNoizeConfig else none with
    | some customConfig => some customConfig
    | none =>
      getMASQUEPresetConfig
        (if opts.masqueNoizePreset = [] then str "medium" else opts.masqueNoizePreset)
  else none

/-- The choice in `runWarpWithMasque`. -/
def getMASQUENoizeConfig : Option NoizeConfig :=
  -- `IsMASQUEEnabled`
  match opts.unifiedNoizeConfig.bind fun c ↦ c.masque.filter (·.enabled) with
  | some m =>
    match m.config with
    | some config => some config
    | none => if m.preset ≠ [] then getMASQUEPresetConfig m.preset else none
  | none => opts.legacyNoize load

variable {opts load} {c : Config.Noize.UnifiedNoizeConfig} (hc : opts.unifiedNoizeConfig = some c)

include hc

theorem getAtomicNoizeConfig_of_enabled {w : Config.Noize.WireGuardNoize}
    (hw : c.wireGuard = some w) (henabled : w.enabled = true) :
    opts.getAtomicNoizeConfig = w.atomicNoize := by
  rw [getAtomicNoizeConfig, hc, Option.bind_some, hw, Option.filter_some_pos henabled]

theorem getMASQUENoizeConfig_of_enabled {m : Config.Noize.MASQUENoize} {config : NoizeConfig}
    (hm : c.masque = some m) (henabled : m.enabled = true) (hconfig : m.config = some config) :
    opts.getMASQUENoizeConfig load = some config := by
  rw [getMASQUENoizeConfig, hc, Option.bind_some, hm, Option.filter_some_pos henabled]
  dsimp only
  rw [hconfig]

end WarpOptions

end Vwarp.App
