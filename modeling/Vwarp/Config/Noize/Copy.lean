import Vwarp.Config.Export
import Vwarp.Config.Noize.Validator

/-!
# `UnifiedNoizeConfig` and its copies

The configuration of both noise layers with all its fields, how it is read from a document and how
it is validated.  A deep copy is made by writing and reading it.  What comes back is the
configuration with its strings as `encoding/json` keeps them, or the empty one if it cannot be
written.
-/

namespace Vwarp.Config.Noize

open Vwarp.Go Vwarp.Go.Json Vwarp.Wireguard Vwarp.Masque.Noize

/-- `WireGuardNoize`. -/
structure WireGuardNoize where
  enabled : Bool
  preset : Bytes
  atomicNoize : Option PreflightBind.AtomicNoizeConfig
deriving DecidableEq

/-- `MASQUENoize`. -/
structure MASQUENoize where
  enabled : Bool
  preset : Bytes
  config : Option NoizeConfig
deriving DecidableEq

deriving instance DecidableEq for ConfigMetadata

/-- `UnifiedNoizeConfig`. -/
structure UnifiedNoizeConfig where
  version : Bytes
  wireGuard : Option WireGuardNoize
  masque : Option MASQUENoize
  metadata : Option ConfigMetadata
deriving DecidableEq

instance : Inhabited WireGuardNoize := ⟨false, [], none⟩

instance : Inhabited MASQUENoize := ⟨false, [], none⟩

instance : Inhabited ConfigMetadata := ⟨[], [], [], []⟩

instance : Inhabited UnifiedNoizeConfig := ⟨[], none, none, none⟩

/-- The configuration as it is exported. -/
def UnifiedNoizeConfig.full (c : UnifiedNoizeConfig) : FullNoizeConfig where
  version := c.version
  wireGuard := c.wireGuard.map fun w ↦ ⟨w.enabled, w.atomicNoize⟩
  wireGuardPreset := (c.wireGuard.map (·.preset)).getD []
  masque := c.masque.map fun m ↦ ⟨m.enabled, m.config⟩
  masquePreset := (c.masque.map (·.preset)).getD []
  metadata := c.metadata

/-! ## Validation -/

/-- `validateMASQUEConfig`. -/
def validateMASQUEConfig (config : NoizeConfig) : Option Bytes :=
  firstFailure [
    (config.jc < 0 ∨ config.jc > 20, str "MASQUE junk packet count must be between 0 and 20"),
    (config.jmin < 0 ∨ config.jmax < config.jmin, str "invalid MASQUE junk packet size range"),
    (config.fragmentSize < 0, str "fragment size cannot be negative")]

/-- What `Validate` checks of the WireGuard section. -/
def WireGuardNoize.validate (w : WireGuardNoize) : Option Bytes :=
  if w.enabled then
    if w.preset ≠ [] ∧ w.atomicNoize.isSome then
      some (str "cannot specify both preset and custom AtomicNoize config")
    else
      (w.atomicNoize.bind validateAtomicNoizeConfig).map (str "invalid AtomicNoize config: " ++ ·)
  else none

/-- What `Validate` checks of the MASQUE section. -/
def MASQUENoize.validate (m : MASQUENoize) : Option Bytes :=
  if m.enabled then
    if m.preset ≠ [] ∧ m.config.isSome then
      some (str "cannot specify both preset and custom MASQUE config")
    else (m.config.bind validateMASQUEConfig).map (str "invalid MASQUE config: " ++ ·)
  else none

/-- `Validate`, which also sets a version: the configuration afterwards, and the error. -/
def UnifiedNoizeConfig.validate (c : UnifiedNoizeConfig) : UnifiedNoizeConfig × Option Bytes :=
  ({ c with version := if c.version = [] then str "1.0" else c.version },
    (c.wireGuard.bind WireGuardNoize.validate).or (c.masque.bind MASQUENoize.validate))

/-! ## Reading -/

variable (e : DirectEncoding)

/-- The fields of `AtomicNoizeConfig`. -/
def atomicNoizeSlots : List (Slot e.Number PreflightBind.AtomicNoizeConfig) :=
  ((atomicNoizeColumns e).map (·.toField)).map .ofField

/-- The slot of a field of `NoizeConfig`, which has one slice. -/
def noizeSlot (field : Field e.Number NoizeConfig) : Slot e.Number NoizeConfig :=
  if field.name = str "FakeALPN" then .ofSlice field else .ofField field

/-- The fields of `NoizeConfig`. -/
def noizeSlots : List (Slot e.Number NoizeConfig) :=
  (noizeFields e.toEncoding).map (noizeSlot e)

/-- The fields of `WireGuardNoize`. -/
def wireGuardNoizeSlots : List (Slot e.Number WireGuardNoize) := [
  .ofField (.bool (str "enabled") fun v c ↦ { c with enabled := v }),
  .ofField (.string (str "preset") fun v c ↦ { c with preset := v }),
  .pointer (str "atomicnoize") (atomicNoizeSlots e) default (·.atomicNoize)
    fun v c ↦ { c with atomicNoize := v }]

/-- The fields of `MASQUENoize`. -/
def masqueNoizeSlots : List (Slot e.Number MASQUENoize) := [
  .ofField (.bool (str "enabled") fun v c ↦ { c with enabled := v }),
  .ofField (.string (str "preset") fun v c ↦ { c with preset := v }),
  .pointer (str "config") (noizeSlots e) default (·.config) fun v c ↦ { c with config := v }]

/-- The fields of `ConfigMetadata`. -/
def configMetadataSlots : List (Slot e.Number ConfigMetadata) := [
  .ofField (.string (str "name") fun v c ↦ { c with name := v }),
  .ofField (.string (str "description") fun v c ↦ { c with description := v }),
  .ofField (.string (str "author") fun v c ↦ { c with author := v }),
  .ofField (.string (str "created_at") fun v c ↦ { c with createdAt := v })]

/-- The fields of `UnifiedNoizeConfig`. -/
def unifiedNoizeSlots : List (Slot e.Number UnifiedNoizeConfig) := [
  .ofField (.string (str "version") fun v c ↦ { c with version := v }),
  .pointer (str "wireguard") (wireGuardNoizeSlots e) default (·.wireGuard)
    fun v c ↦ { c with wireGuard := v },
  .pointer (str "masque") (masqueNoizeSlots e) default (·.masque) fun v c ↦ { c with masque := v },
  .pointer (str "metadata") (configMetadataSlots e) default (·.metadata)
    fun v c ↦ { c with metadata := v }]

/-- `json.Unmarshal` of a document into a `UnifiedNoizeConfig`. -/
def unmarshalNoize : Document e.Number → Option UnifiedNoizeConfig
  | .null => some default
  | .leaf _ => none
  | .array => none
  | .object entries => unmarshalEntries (unifiedNoizeSlots e) entries default

/-- `FromJSON`, with the text of the error of `encoding/json`. -/
def fromJSON (malformed : Document e.Number → Bytes) (data : Document e.Number) :
    Except Bytes UnifiedNoizeConfig :=
  match unmarshalNoize e data with
  | none => .error (str "failed to parse configuration: " ++ malformed data)
  | some config => .ok config

/-! ## Copies -/

/-- `deepCopy`, of the loader and of the presets.  The errors of writing and reading are ignored. -/
def deepCopy (c : UnifiedNoizeConfig) : UnifiedNoizeConfig :=
  ((toJSON e c.full).bind (unmarshalNoize e)).getD default

/-- The configuration with its strings as `encoding/json` keeps them. -/
def coercedConfig (c : UnifiedNoizeConfig) : UnifiedNoizeConfig where
  version := e.coerce c.version
  wireGuard := c.wireGuard.map fun w ↦
    ⟨w.enabled, e.coerce w.preset, w.atomicNoize.map (coercedAtomicNoize e)⟩
  masque := c.masque.map fun m ↦ ⟨m.enabled, e.coerce m.preset, m.config.map (coercedNoize e)⟩
  metadata := c.metadata.map fun m ↦
    ⟨e.coerce m.name, e.coerce m.description, e.coerce m.author, e.coerce m.createdAt⟩

variable {e}

/-- A string with `omitempty` that is read into its slot. -/
theorem unmarshalEntries_stringEntry {σ : Type} {slots : List (Slot e.Number σ)} {name : Bytes}
    {set : Bytes → σ → σ} (hslot : findSlot slots name = some (.ofField (.string name set)))
    {s : Bytes} {c : σ} (hempty : set [] c = c) :
    unmarshalEntries slots (stringEntry e name s) c = some (set (e.coerce s) c) := by
  unfold stringEntry
  split_ifs with hs
  · have hcoerce : e.coerce [] = [] := e.coerce_utf8 ⟨[], rfl⟩
    rw [hs, hcoerce, hempty]
    rfl
  · rw [unmarshalEntries, hslot]
    rfl

variable {c : UnifiedNoizeConfig} {object : Object e.Number} {tree : Document e.Number}

theorem name_noizeSlot (field : Field e.Number NoizeConfig) :
    (noizeSlot e field).name = field.name := by
  unfold noizeSlot
  split <;> rfl

theorem set_noizeSlot_leaf (field : Field e.Number NoizeConfig) (value : Value e.Number)
    (c : NoizeConfig) : (noizeSlot e field).set (.leaf value) c = field.set value c := by
  unfold noizeSlot
  split <;> rfl

theorem unmarshal_wireGuardNoize {w : WireGuardNoize}
    (h : wireGuardTree e w.preset ⟨w.enabled, w.atomicNoize⟩ = some tree) :
    ∃ entries, tree = .object entries ∧
      unmarshalEntries (wireGuardNoizeSlots e) entries default =
        some ⟨w.enabled, e.coerce w.preset, w.atomicNoize.map (coercedAtomicNoize e)⟩ := by
  obtain ⟨block, hblock, rfl⟩ := Option.map_eq_some_iff.mp h
  refine ⟨_, rfl, unmarshalEntries_block hblock (unmarshalEntries_stringEntry rfl rfl) rfl
    (fun (hnil : w.atomicNoize = none) ↦ by rw [hnil]; rfl) ?_⟩
  rintro config object (hconfig : w.atomicNoize = some config) hobject
  rw [hconfig]
  have hread := unmarshal_atomicNoize hobject
  rw [← @unmarshalEntries_flat _ _ .ofField (fun _ ↦ rfl) (fun _ _ _ ↦ rfl)] at hread
  exact congrArg (Option.map _) hread

theorem unmarshal_masqueNoize {m : MASQUENoize}
    (h : masqueTree e m.preset ⟨m.enabled, m.config⟩ = some tree) :
    ∃ entries, tree = .object entries ∧
      unmarshalEntries (masqueNoizeSlots e) entries default =
        some ⟨m.enabled, e.coerce m.preset, m.config.map (coercedNoize e)⟩ := by
  obtain ⟨block, hblock, rfl⟩ := Option.map_eq_some_iff.mp h
  refine ⟨_, rfl, unmarshalEntries_block hblock (unmarshalEntries_stringEntry rfl rfl) rfl
    (fun (hnil : m.config = none) ↦ by rw [hnil]; rfl) ?_⟩
  rintro config object (hconfig : m.config = some config) hobject
  rw [hconfig]
  have hread := unmarshal_noize hobject
  rw [← unmarshalEntries_flat name_noizeSlot set_noizeSlot_leaf] at hread
  exact congrArg (Option.map _) hread

theorem unmarshal_configMetadata (m : ConfigMetadata) :
    ∃ entries, metadataTree e m = .object entries ∧
      unmarshalEntries (configMetadataSlots e) entries default =
        some
          ⟨e.coerce m.name, e.coerce m.description, e.coerce m.author, e.coerce m.createdAt⟩ := by
  refine ⟨_, rfl, ?_⟩
  rw [unmarshalEntries_append, unmarshalEntries_append, unmarshalEntries_append,
    unmarshalEntries_stringEntry rfl rfl, Option.bind_some,
    unmarshalEntries_stringEntry rfl rfl, Option.bind_some,
    unmarshalEntries_stringEntry rfl rfl, Option.bind_some,
    unmarshalEntries_stringEntry rfl rfl]

theorem unmarshalNoize_toJSON {data : Document e.Number}
    (h : toJSON e c.full = some data) : unmarshalNoize e data = some (coercedConfig e c) := by
  obtain ⟨wireGuard, hw, h⟩ := Option.bind_eq_some_iff.mp h
  obtain ⟨masque, hm, h⟩ := Option.bind_eq_some_iff.mp h
  obtain ⟨metadata, hmeta, rfl⟩ := Option.map_eq_some_iff.mp h
  have hwireGuard : unmarshalEntries (unifiedNoizeSlots e) wireGuard
      ⟨(coercedConfig e c).version, none, none, none⟩ =
        some ⟨(coercedConfig e c).version, (coercedConfig e c).wireGuard, none, none⟩ := by
    refine unmarshalEntries_pointerEntry hw rfl ?_ ?_
    · intro hnil
      rw [coercedConfig, Option.map_eq_none_iff.mp hnil]
      rfl
    · intro v tree hsection htree
      obtain ⟨w, hwsome, rfl⟩ := Option.map_eq_some_iff.mp hsection
      rw [show c.full.wireGuardPreset = w.preset by simp [UnifiedNoizeConfig.full, hwsome]] at htree
      obtain ⟨entries, rfl, hentries⟩ := unmarshal_wireGuardNoize htree
      rw [coercedConfig, hwsome]
      exact congrArg (Option.map _) hentries
  have hmasque : unmarshalEntries (unifiedNoizeSlots e) masque
      ⟨(coercedConfig e c).version, (coercedConfig e c).wireGuard, none, none⟩ =
        some ⟨(coercedConfig e c).version, (coercedConfig e c).wireGuard,
          (coercedConfig e c).masque, none⟩ := by
    refine unmarshalEntries_pointerEntry hm rfl ?_ ?_
    · intro hnil
      rw [coercedConfig, Option.map_eq_none_iff.mp hnil]
      rfl
    · intro v tree hsection htree
      obtain ⟨m, hmsome, rfl⟩ := Option.map_eq_some_iff.mp hsection
      rw [show c.full.masquePreset = m.preset by simp [UnifiedNoizeConfig.full, hmsome]] at htree
      obtain ⟨entries, rfl, hentries⟩ := unmarshal_masqueNoize htree
      rw [coercedConfig, hmsome]
      exact congrArg (Option.map _) hentries
  have hmetadata : unmarshalEntries (unifiedNoizeSlots e) metadata
      ⟨(coercedConfig e c).version, (coercedConfig e c).wireGuard,
        (coercedConfig e c).masque, none⟩ =
        some (coercedConfig e c) := by
    refine unmarshalEntries_pointerEntry hmeta rfl ?_ ?_
    · rintro (hnil : c.metadata = none)
      rw [coercedConfig, hnil]
      rfl
    · rintro m tree (hsection : c.metadata = some m) htree
      obtain ⟨entries, hobject, hentries⟩ := unmarshal_configMetadata (e := e) m
      rw [← Option.some.inj htree, hobject, coercedConfig, hsection]
      exact congrArg (Option.map _) hentries
  have hversion :
      unmarshalEntries (unifiedNoizeSlots e) (stringEntry e (str "version") c.full.version)
      default = some ⟨(coercedConfig e c).version, none, none, none⟩ := by
    rw [unmarshalEntries_stringEntry rfl rfl]
    rfl
  rw [unmarshalNoize, unmarshalEntries_append, unmarshalEntries_append, unmarshalEntries_append,
    hversion, Option.bind_some, hwireGuard, Option.bind_some, hmasque, Option.bind_some, hmetadata]

def UnifiedNoizeConfig.Writable (e : DirectEncoding) (c : UnifiedNoizeConfig) : Prop :=
  ∀ m config, c.masque = some m → m.config = some config → (e.ofFloat32 config.fakeLoss).isSome

theorem isSome_toJSON_full (c : UnifiedNoizeConfig) : (toJSON e c.full).isSome ↔ c.Writable e := by
  rw [isSome_toJSON]
  constructor
  · intro h m config hm hconfig
    exact h (Config.MASQUENoize.mk m.enabled m.config) config
      (by simp [UnifiedNoizeConfig.full, hm]) hconfig
  · intro h v config hv hconfig
    obtain ⟨m, hm, rfl⟩ := Option.map_eq_some_iff.mp hv
    exact h m config hm hconfig

theorem deepCopy_of_writable (h : c.Writable e) : deepCopy e c = coercedConfig e c := by
  obtain ⟨data, hdata⟩ := Option.isSome_iff_exists.mp ((isSome_toJSON_full c).mpr h)
  rw [deepCopy, hdata, Option.bind_some, unmarshalNoize_toJSON hdata, Option.getD_some]

theorem deepCopy_of_not_writable (h : ¬ c.Writable e) : deepCopy e c = default := by
  rw [← isSome_toJSON_full, Option.not_isSome_iff_eq_none] at h
  rw [deepCopy, h]
  rfl

end Vwarp.Config.Noize
