import Vwarp.Config.Noize.Merge

/-!
# Presets

`LoadMixed` lays a configuration file over a built-in preset.  The file is validated, but what is
merged is not.  Every preset has its name and its parameters in both sections and enables both,
which is what `Validate` rejects; so what is merged is valid only if the file disables both
sections: `loadMixed_valid_iff`.
-/

namespace Vwarp.Config.Noize

open Vwarp.Go Vwarp.Go.Json Vwarp.Lib Vwarp.Wireguard Vwarp.Masque.Noize

/-- `NewUnifiedConfig`, at a time. -/
def newUnifiedConfig (now : Bytes) : UnifiedNoizeConfig :=
  ⟨str "1.0", none, none, some { (default : ConfigMetadata) with createdAt := now }⟩

/-- What the functions that create a preset have in common. -/
def createPreset (now preset name description : Bytes)
    (atomicNoize : PreflightBind.AtomicNoizeConfig) (config : NoizeConfig) : UnifiedNoizeConfig :=
  { newUnifiedConfig now with
    metadata := some { (default : ConfigMetadata) with
      name := name, description := description, createdAt := now }
    wireGuard := some ⟨true, preset, some atomicNoize⟩
    masque := some ⟨true, preset, some config⟩ }

/-- `createMinimalPreset`. -/
def createMinimalPreset (now : Bytes) : UnifiedNoizeConfig :=
  createPreset now (str "minimal") (str "Minimal")
    (str "Minimal obfuscation, maximum performance")
    default
    default

/-- `createLightPreset`. -/
def createLightPreset (now : Bytes) : UnifiedNoizeConfig :=
  createPreset now (str "light") (str "Light")
    (str "Light obfuscation, good performance, basic DPI evasion")
    { (default : PreflightBind.AtomicNoizeConfig) with
      i1 := str "<b 0c0d0e0f>", jc := 2, jmin := 20, jmax := 50, jcAfterI1 := 1, jcBeforeHS := 1
      junkInterval := milliseconds 10, handshakeDelay := milliseconds 5 }
    { (default : NoizeConfig) with
      i1 := str "<b 0d0a0d0a>", jc := 2, jmin := 20, jmax := 50, jcBeforeHS := 2
      junkInterval := milliseconds 5, handshakeDelay := milliseconds 10
      mimicProtocol := str "quic" }

/-- `createMediumPreset`. -/
def createMediumPreset (now : Bytes) : UnifiedNoizeConfig :=
  createPreset now (str "medium") (str "Medium")
    (str "Balanced obfuscation and performance")
    { (default : PreflightBind.AtomicNoizeConfig) with
      i1 := str "<b 0xc200><t><r 16>", jc := 4, jmin := 40, jmax := 70, jcAfterI1 := 1
      jcBeforeHS := 2, jcAfterHS := 1, junkInterval := milliseconds 10
      handshakeDelay := milliseconds 10 }
    { (default : NoizeConfig) with
      i1 := str "<b 0d0a0d0a><t><r 16>", jc := 3, jmin := 40, jmax := 80, jcBeforeHS := 2
      jcAfterI1 := 1, junkInterval := milliseconds 10, fragmentInitial := true
      fragmentSize := 512, fragmentDelay := milliseconds 2, paddingMin := 16, paddingMax := 32
      randomPadding := true, handshakeDelay := milliseconds 15, mimicProtocol := str "h3" }

/-- `createHeavyPreset`. -/
def createHeavyPreset (now : Bytes) : UnifiedNoizeConfig :=
  createPreset now (str "heavy") (str "Heavy")
    (str "Heavy obfuscation, higher latency, strong DPI evasion")
    { (default : PreflightBind.AtomicNoizeConfig) with
      i1 := str "<b 0xc200><t><r 32><p 64>", i2 := str "<r 16>", i3 := str "<r 24>", jc := 8
      jmin := 60, jmax := 120, jcAfterI1 := 2, jcBeforeHS := 3, jcAfterHS := 3
      junkInterval := milliseconds 15, handshakeDelay := milliseconds 25 }
    { (default : NoizeConfig) with
      i1 := str "<b 0d0a0d0a><t><r 32><p 64>", i2 := str "<r 16>", i3 := str "<r 24>", jc := 6
      jmin := 64, jmax := 128, jcBeforeHS := 3, jcAfterI1 := 1, jcDuringHS := 1, jcAfterHS := 1
      junkInterval := milliseconds 20, junkRandom := true, fragmentInitial := true
      fragmentSize := 256, fragmentDelay := milliseconds 5, paddingMin := 32, paddingMax := 128
      randomPadding := true, handshakeDelay := milliseconds 50, randomDelay := true
      delayMin := milliseconds 5, delayMax := milliseconds 25, mimicProtocol := str "https" }

/-- `createStealthPreset`. -/
def createStealthPreset (now : Bytes) : UnifiedNoizeConfig :=
  createPreset now (str "stealth") (str "Stealth")
    (str "Maximum stealth, advanced protocol mimicry")
    { (default : PreflightBind.AtomicNoizeConfig) with
      i1 := str "<b 0xc200><t><r 48><p 128>", i2 := str "<r 32><t>", i3 := str "<r 16><p 32>"
      i4 := str "<r 24>", jc := 12, jmin := 80, jmax := 200, jcAfterI1 := 3, jcBeforeHS := 4
      jcAfterHS := 5, junkInterval := milliseconds 25, handshakeDelay := milliseconds 50 }
    { (default : NoizeConfig) with
      i1 := str "<b 0d0a0d0a><t><r 48><p 128>", i2 := str "<r 32><t>", i3 := str "<r 16><p 32>"
      i4 := str "<r 24>", jc := 8, jmin := 100, jmax := 256, jcBeforeHS := 4, jcAfterI1 := 1
      jcDuringHS := 2, jcAfterHS := 1, junkInterval := milliseconds 30, junkRandom := true
      fragmentInitial := true, fragmentSize := 200, fragmentDelay := milliseconds 10
      paddingMin := 64, paddingMax := 200, randomPadding := true
      handshakeDelay := milliseconds 100, randomDelay := true, delayMin := milliseconds 10
      delayMax := milliseconds 50, mimicProtocol := str "dtls", sniFragmentation := true
      sniFragment := 32, useTimestamp := true, useNonce := true }

/-- `createGFWPreset`. -/
def createGFWPreset (now : Bytes) : UnifiedNoizeConfig :=
  createPreset now (str "gfw") (str "GFW")
    (str "Optimized for Great Firewall bypass")
    { (default : PreflightBind.AtomicNoizeConfig) with
      i1 := str "<b 0x16030100><r 32><t>", i2 := str "<r 16><b 0x140303>", jc := 6, jmin := 50
      jmax := 100, jcAfterI1 := 1, jcBeforeHS := 3, jcAfterHS := 2
      junkInterval := milliseconds 20, handshakeDelay := milliseconds 30 }
    { (default : NoizeConfig) with
      i1 := str "<b 16030100><r 32><t>", i2 := str "<r 16><b 140303>", jc := 5, jmin := 64
      jmax := 120, jcBeforeHS := 3, jcAfterI1 := 1, jcDuringHS := 1
      junkInterval := milliseconds 25, junkRandom := true, fragmentInitial := true
      fragmentSize := 300, fragmentDelay := milliseconds 8, paddingMin := 32, paddingMax := 80
      randomPadding := true, handshakeDelay := milliseconds 40, randomDelay := true
      delayMin := milliseconds 5, delayMax := milliseconds 20, mimicProtocol := str "https"
      sniFragmentation := true, sniFragment := 16, useNonce := true, randomizeInitial := true }

/-- `createFirewallPreset`. -/
def createFirewallPreset (now : Bytes) : UnifiedNoizeConfig :=
  createPreset now (str "firewall") (str "Firewall")
    (str "Corporate firewall circumvention")
    { (default : PreflightBind.AtomicNoizeConfig) with
      i1 := str "<b 0x45000028><r 20>", jc := 3, jmin := 30, jmax := 60, jcAfterI1 := 1
      jcBeforeHS := 1, jcAfterHS := 1, junkInterval := milliseconds 15
      handshakeDelay := milliseconds 20 }
    { (default : NoizeConfig) with
      i1 := str "<b 45000028><r 20>", jc := 4, jmin := 32, jmax := 64, jcBeforeHS := 2
      jcAfterI1 := 1, jcDuringHS := 1, junkInterval := milliseconds 12, paddingMin := 16
      paddingMax := 48, handshakeDelay := milliseconds 25, mimicProtocol := str "stun" }

/-- `loadBuiltinPresets`. -/
def builtinPresets (now : Bytes) : List (Bytes × UnifiedNoizeConfig) := [
  (str "minimal", createMinimalPreset now),
  (str "light", createLightPreset now),
  (str "medium", createMediumPreset now),
  (str "heavy", createHeavyPreset now),
  (str "stealth", createStealthPreset now),
  (str "gfw", createGFWPreset now),
  (str "firewall", createFirewallPreset now)]

section Loading

variable (e : DirectEncoding) (host : Host e.Number) (now : Bytes)

/-- `GetPreset`, with the time at which the presets were created. -/
def getPreset (name : Bytes) : Except Bytes UnifiedNoizeConfig :=
  let name := toLower (trimSpace name)
  match (builtinPresets now).lookup name with
  | some preset => .ok (deepCopy e preset)
  | none => .error (str "unknown preset: " ++ name)

/-- `ConfigLoader.LoadFromFile`. -/
def loadNoizeFile (filepath : Bytes) (disk : Disk e.Number) : Except Bytes UnifiedNoizeConfig :=
  match disk filepath with
  | none => .error (str "failed to read config file " ++ filepath ++ str ": " ++ host.noFile)
  | some data =>
    match fromJSON e host.malformed data with
    | .error err => .error (str "failed to parse config file " ++ filepath ++ str ": " ++ err)
    | .ok config =>
      match config.validate with
      | (_, some err) => .error (str "invalid config in file " ++ filepath ++ str ": " ++ err)
      | (config, none) => .ok config

/-- `LoadMixed`. -/
def loadMixed (presetName configPath : Bytes) (disk : Disk e.Number) :
    Except Bytes UnifiedNoizeConfig :=
  match getPreset e now presetName with
  | .error err => .error (str "failed to load preset " ++ presetName ++ str ": " ++ err)
  | .ok baseConfig =>
    if configPath = [] then .ok baseConfig
    else
      match loadNoizeFile e host configPath disk with
      | .error err => .error (str "failed to load custom config: " ++ err)
      | .ok customConfig => .ok (mergeConfigs e baseConfig customConfig)

end Loading

/-! ## What is validated -/

theorem WireGuardNoize.validate_eq_none {w : WireGuardNoize} (hpreset : w.preset ≠ [])
    (hblock : w.atomicNoize.isSome) : w.validate = none ↔ w.enabled = false := by
  rw [validate]
  cases w.enabled with
  | false => exact iff_of_true rfl rfl
  | true =>
    rw [if_pos rfl, if_pos ⟨hpreset, hblock⟩]
    exact iff_of_false nofun nofun

theorem MASQUENoize.validate_eq_none {m : MASQUENoize} (hpreset : m.preset ≠ [])
    (hblock : m.config.isSome) : m.validate = none ↔ m.enabled = false := by
  rw [validate]
  cases m.enabled with
  | false => exact iff_of_true rfl rfl
  | true =>
    rw [if_pos rfl, if_pos ⟨hpreset, hblock⟩]
    exact iff_of_false nofun nofun

/-- Both sections are there, with a name that a copy keeps and with parameters that can be
written. -/
structure Doubled (e : StandardEncoding) (c : UnifiedNoizeConfig) : Prop where
  wireGuard : ∃ w, c.wireGuard = some w ∧ w.preset ≠ [] ∧ e.coerce w.preset = w.preset ∧
    w.atomicNoize.isSome
  masque : ∃ m config, c.masque = some m ∧ m.preset ≠ [] ∧ e.coerce m.preset = m.preset ∧
    m.config = some config ∧ Finite32 config.fakeLoss

variable {e : StandardEncoding} {c : UnifiedNoizeConfig}

theorem stringRule_ne_nil {a : Bytes} (ha : a ≠ []) (b : Bytes) : stringRule.merge a b ≠ [] := by
  show (if b.isEmpty = true then a else b) ≠ []
  split_ifs with hb
  · exact ha
  · rintro rfl
    exact hb rfl

theorem isSome_mergeSection {α : Type} {merge : α → α → α} {zero : α} {a : Option α} (ha : a.isSome)
    (b : Option α) : (mergeSection merge zero a b).isSome := by
  cases b with
  | none => exact ha
  | some b => rfl

namespace Doubled

theorem writable (h : Doubled e c) : c.Writable e.toDirectEncoding := by
  intro m config hm hconfig
  obtain ⟨m', config', hm', -, -, hconfig', hfinite⟩ := h.masque
  cases hm.symm.trans hm'
  cases hconfig.symm.trans hconfig'
  exact (e.isSome_ofFloat32 _).mpr hfinite

theorem deepCopy (h : Doubled e c) :
    Doubled e (deepCopy e.toDirectEncoding c) ∧
      (deepCopy e.toDirectEncoding c).wireGuard.map (·.enabled) = c.wireGuard.map (·.enabled) ∧
      (deepCopy e.toDirectEncoding c).masque.map (·.enabled) = c.masque.map (·.enabled) := by
  rw [deepCopy_of_writable h.writable]
  obtain ⟨w, hw, hpreset, hcoerce, hblock⟩ := h.wireGuard
  obtain ⟨m, config, hm, hpreset', hcoerce', hconfig, hfinite⟩ := h.masque
  refine ⟨⟨⟨_, by rw [coercedConfig, hw, Option.map_some], ?_, ?_, ?_⟩,
    ⟨_, coercedNoize e.toDirectEncoding config, by rw [coercedConfig, hm, Option.map_some],
      ?_, ?_, ?_, hfinite⟩⟩, ?_, ?_⟩
  · rwa [hcoerce]
  · rw [hcoerce, hcoerce]
  · rwa [Option.isSome_map]
  · rwa [hcoerce']
  · rw [hcoerce', hcoerce']
  · rw [hconfig, Option.map_some]
  · rw [coercedConfig, hw]
    rfl
  · rw [coercedConfig, hm]
    rfl

/-- What is laid over it does not take the sections away, and enables or disables them. -/
theorem validate_mergeInto (h : Doubled e c) (o : UnifiedNoizeConfig) :
    (mergeInto c o).validate.2 = none ↔
      (o.wireGuard.map (·.enabled)).or (c.wireGuard.map (·.enabled)) = some false ∧
        (o.masque.map (·.enabled)).or (c.masque.map (·.enabled)) = some false := by
  obtain ⟨w, hw, hpreset, -, hblock⟩ := h.wireGuard
  obtain ⟨m, config, hm, hpreset', -, hconfig, -⟩ := h.masque
  have hblock' : m.config.isSome := by
    rw [hconfig]
    rfl
  rw [UnifiedNoizeConfig.validate, Option.or_eq_none_iff, mergeInto, hw, hm]
  refine and_congr ?_ ?_
  · cases o.wireGuard with
    | none =>
      show w.validate = none ↔ some w.enabled = some false
      rw [WireGuardNoize.validate_eq_none hpreset hblock, Option.some_inj]
    | some ow =>
      show (mergeWireGuardConfig w ow).validate = none ↔ some ow.enabled = some false
      rw [WireGuardNoize.validate_eq_none (stringRule_ne_nil hpreset _)
        (isSome_mergeSection hblock _), Option.some_inj]
      rfl
  · cases o.masque with
    | none =>
      show m.validate = none ↔ some m.enabled = some false
      rw [MASQUENoize.validate_eq_none hpreset' hblock', Option.some_inj]
    | some om =>
      show (mergeMASQUEConfig m om).validate = none ↔ some om.enabled = some false
      rw [MASQUENoize.validate_eq_none (stringRule_ne_nil hpreset' _)
        (isSome_mergeSection hblock' _), Option.some_inj]
      rfl

end Doubled

/-! ## The presets -/

/-- A preset has both sections, and they are enabled. -/
structure IsPreset (e : StandardEncoding) (c : UnifiedNoizeConfig) : Prop where
  doubled : Doubled e c
  wireGuard : c.wireGuard.map (·.enabled) = some true
  masque : c.masque.map (·.enabled) = some true

theorem isPreset_createPreset {now preset name description : Bytes}
    {atomicNoize : PreflightBind.AtomicNoizeConfig} {config : NoizeConfig} (hutf8 : Utf8 preset)
    (hpreset : preset ≠ []) (hfinite : Finite32 config.fakeLoss) :
    IsPreset e (createPreset now preset name description atomicNoize config) where
  doubled := ⟨⟨_, rfl, hpreset, e.coerce_utf8 hutf8, rfl⟩,
    ⟨_, config, rfl, hpreset, e.coerce_utf8 hutf8, rfl, hfinite⟩⟩
  wireGuard := rfl
  masque := rfl

theorem isPreset_builtin (now : Bytes) : ∀ entry ∈ builtinPresets now, IsPreset e entry.2 := by
  simp only [builtinPresets, List.forall_mem_cons]
  exact ⟨isPreset_createPreset ⟨"minimal".toList, by decide⟩ (by decide) (by decide),
    isPreset_createPreset ⟨"light".toList, by decide⟩ (by decide) (by decide),
    isPreset_createPreset ⟨"medium".toList, by decide⟩ (by decide) (by decide),
    isPreset_createPreset ⟨"heavy".toList, by decide⟩ (by decide) (by decide),
    isPreset_createPreset ⟨"stealth".toList, by decide⟩ (by decide) (by decide),
    isPreset_createPreset ⟨"gfw".toList, by decide⟩ (by decide) (by decide),
    isPreset_createPreset ⟨"firewall".toList, by decide⟩ (by decide) (by decide),
    fun _ hmem ↦ absurd hmem List.not_mem_nil⟩

theorem IsPreset.deepCopy (h : IsPreset e c) : IsPreset e (deepCopy e.toDirectEncoding c) := by
  obtain ⟨hdoubled, hwireGuard, hmasque⟩ := h.doubled.deepCopy
  exact ⟨hdoubled, hwireGuard.trans h.wireGuard, hmasque.trans h.masque⟩

theorem isPreset_of_getPreset {now name : Bytes}
    (h : getPreset e.toDirectEncoding now name = .ok c) : IsPreset e c := by
  unfold getPreset at h
  dsimp only at h
  split at h
  · rename_i preset hlookup
    cases h
    obtain ⟨before, after, hentries, -⟩ := List.lookup_eq_some_iff.mp hlookup
    have hmem : (toLower (trimSpace name), preset) ∈ builtinPresets now := by
      rw [hentries]
      exact List.mem_append_right _ List.mem_cons_self
    exact (isPreset_builtin now _ hmem).deepCopy
  · cases h

theorem IsPreset.validate_mergeInto (h : IsPreset e c) (o : UnifiedNoizeConfig) :
    (mergeInto c o).validate.2 = none ↔
      (∃ w, o.wireGuard = some w ∧ w.enabled = false) ∧
        ∃ m, o.masque = some m ∧ m.enabled = false := by
  have hover {α : Type} (enabled : α → Bool) (s : Option α) :
      (s.map enabled).or (some true) = some false ↔ ∃ a, s = some a ∧ enabled a = false := by
    cases s with
    | none | some a => simp
  rw [h.doubled.validate_mergeInto, h.wireGuard, h.masque, hover, hover]

/-- What `LoadMixed` returns is accepted by `Validate` if and only if there is a file and the file
disables both sections. -/
theorem loadMixed_valid_iff (e : StandardEncoding) (host : Host e.Number)
    (now presetName configPath : Bytes) (disk : Disk e.Number) {c : UnifiedNoizeConfig}
    (h : loadMixed e.toDirectEncoding host now presetName configPath disk = .ok c) :
    c.validate.2 = none ↔ ∃ config, configPath ≠ [] ∧
      loadNoizeFile e.toDirectEncoding host configPath disk = .ok config ∧
      (∃ w, config.wireGuard = some w ∧ w.enabled = false) ∧
      ∃ m, config.masque = some m ∧ m.enabled = false := by
  unfold loadMixed at h
  split at h
  · cases h
  · rename_i base hbase
    have hpreset := isPreset_of_getPreset hbase
    split_ifs at h with hpath
    · cases h
      -- nothing is laid over the preset
      have hnone := hpreset.validate_mergeInto default
      refine iff_of_false ?_ fun ⟨_, hne, _⟩ ↦ hne hpath
      intro hvalid
      obtain ⟨⟨w, hw, -⟩, -⟩ := hnone.mp hvalid
      exact absurd hw (Option.some_ne_none w).symm
    · split at h
      · cases h
      · rename_i config hconfig
        cases h
        rw [mergeConfigs, hpreset.deepCopy.validate_mergeInto]
        constructor
        · intro hdisabled
          exact ⟨config, hpath, hconfig, hdisabled⟩
        · rintro ⟨config', -, hconfig', hdisabled⟩
          cases hconfig.symm.trans hconfig'
          exact hdisabled

/-- A host on which nothing goes wrong but what must. -/
def plainHost : Host StandardEncoding.exact.Number where
  mkdirAll _ := none
  writeFile _ := none
  noFile := str "no such file or directory"
  unsupported := str "unsupported value"
  malformed _ := str "unexpected end of JSON input"

def disabledSection : Document StandardEncoding.exact.Number :=
  .object [(str "enabled", .leaf (.bool false))]

/-- The file `{"wireguard":{"enabled":false},"masque":{"enabled":false}}` makes a preset valid. -/
theorem loadMixed_valid_disabled :
    ∃ c, loadMixed StandardEncoding.exact.toDirectEncoding plainHost [] (str "light")
        (str "off.json")
        (fun _ ↦
          some (.object [(str "wireguard", disabledSection), (str "masque", disabledSection)])) =
          .ok c ∧
      c.validate.2 = none := by
  have hload : loadMixed StandardEncoding.exact.toDirectEncoding plainHost [] (str "light")
      (str "off.json")
      (fun _ ↦
        some (.object [(str "wireguard", disabledSection), (str "masque", disabledSection)])) =
        .ok (mergeConfigs StandardEncoding.exact.toDirectEncoding
          (deepCopy StandardEncoding.exact.toDirectEncoding (createLightPreset []))
          ⟨str "1.0", some ⟨false, [], none⟩, some ⟨false, [], none⟩, none⟩) := rfl
  refine ⟨_, hload, (loadMixed_valid_iff _ _ _ _ _ _ hload).mpr ?_⟩
  exact ⟨⟨str "1.0", some ⟨false, [], none⟩, some ⟨false, [], none⟩, none⟩, by decide, rfl,
    ⟨_, rfl, rfl⟩, ⟨_, rfl, rfl⟩⟩

/-- The file `{}` is valid, and the preset "light" with it is not. -/
theorem loadMixed_invalid :
    ∃ c, loadMixed StandardEncoding.exact.toDirectEncoding plainHost [] (str "light")
        (str "empty.json")
        (fun _ ↦ some (.object [])) = .ok c ∧
      c.validate.2 ≠ none := by
  have hpreset : IsPreset .exact (createLightPreset []) :=
    isPreset_builtin [] (str "light", createLightPreset [])
      (List.mem_cons_of_mem _ List.mem_cons_self)
  refine ⟨mergeConfigs StandardEncoding.exact.toDirectEncoding
    (deepCopy StandardEncoding.exact.toDirectEncoding (createLightPreset [])) default, rfl,
    fun hvalid ↦ ?_⟩
  obtain ⟨⟨w, hw, -⟩, -⟩ := (hpreset.deepCopy.deepCopy.validate_mergeInto default).mp hvalid
  exact absurd hw (Option.some_ne_none w).symm

end Vwarp.Config.Noize
