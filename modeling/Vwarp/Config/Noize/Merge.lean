import Vwarp.Config.Noize.Copy
import Vwarp.Lib.Overlay

/-!
# Merging configurations

`MergeConfigs` lays a configuration over a copy of another.  There are three rules for the fields: a
string, a number or a list is taken over unless it is zero, a `bool` is always taken over, and the
version is never looked at.  Sections that are missing below are created.

Each record is an `Overlay`, and so is the whole.  What is left is the copy: a configuration that
survives it is `Clean`, and laying one over another keeps it so (`Clean.merge`).
-/

namespace Vwarp.Config.Noize

open Vwarp.Go Vwarp.Go.Json Vwarp.Lib Vwarp.Wireguard Vwarp.Masque.Noize

/-! ## The fields -/

/-- `if override.F != "" { base.F = override.F }`. -/
def stringRule : Overlay Bytes := .lastNonzero [] (·.isEmpty) rfl

/-- The same for an `int` or a `time.Duration`. -/
def intRule : Overlay Int64 := .lastNonzero 0 (· = 0) rfl

/-- The same for a `float32`, which has two zeros. -/
def float32Rule : Overlay (BitVec 32) := .lastNonzero 0 (fun x ↦ x.toNat % 2 ^ 31 = 0) rfl

/-- `if len(override.F) > 0 { base.F = override.F }`. -/
def stringsRule : Overlay (List Bytes) := .lastNonzero [] (·.isEmpty) rfl

/-- `base.F = override.F`. -/
def boolRule : Overlay Bool := .overwrite false

/-! ## The records -/

/-- `mergeMetadata`. -/
def mergeMetadata (base override : ConfigMetadata) : ConfigMetadata where
  name := stringRule.merge base.name override.name
  description := stringRule.merge base.description override.description
  author := stringRule.merge base.author override.author
  createdAt := stringRule.merge base.createdAt override.createdAt

/-- `mergeAtomicNoizeConfig`. -/
def mergeAtomicNoizeConfig (base override : PreflightBind.AtomicNoizeConfig) :
    PreflightBind.AtomicNoizeConfig where
  i1 := stringRule.merge base.i1 override.i1
  i2 := stringRule.merge base.i2 override.i2
  i3 := stringRule.merge base.i3 override.i3
  i4 := stringRule.merge base.i4 override.i4
  i5 := stringRule.merge base.i5 override.i5
  s1 := intRule.merge base.s1 override.s1
  s2 := intRule.merge base.s2 override.s2
  jc := intRule.merge base.jc override.jc
  jmin := intRule.merge base.jmin override.jmin
  jmax := intRule.merge base.jmax override.jmax
  jcAfterI1 := intRule.merge base.jcAfterI1 override.jcAfterI1
  jcBeforeHS := intRule.merge base.jcBeforeHS override.jcBeforeHS
  jcAfterHS := intRule.merge base.jcAfterHS override.jcAfterHS
  junkInterval := intRule.merge base.junkInterval override.junkInterval
  allowZeroSize := boolRule.merge base.allowZeroSize override.allowZeroSize
  handshakeDelay := intRule.merge base.handshakeDelay override.handshakeDelay

/-- `mergeNoizeConfig`. -/
def mergeNoizeConfig (base override : NoizeConfig) : NoizeConfig where
  i1 := stringRule.merge base.i1 override.i1
  i2 := stringRule.merge base.i2 override.i2
  i3 := stringRule.merge base.i3 override.i3
  i4 := stringRule.merge base.i4 override.i4
  i5 := stringRule.merge base.i5 override.i5
  fragmentSize := intRule.merge base.fragmentSize override.fragmentSize
  fragmentInitial := boolRule.merge base.fragmentInitial override.fragmentInitial
  fragmentDelay := intRule.merge base.fragmentDelay override.fragmentDelay
  paddingMin := intRule.merge base.paddingMin override.paddingMin
  paddingMax := intRule.merge base.paddingMax override.paddingMax
  randomPadding := boolRule.merge base.randomPadding override.randomPadding
  jc := intRule.merge base.jc override.jc
  jmin := intRule.merge base.jmin override.jmin
  jmax := intRule.merge base.jmax override.jmax
  jcBeforeHS := intRule.merge base.jcBeforeHS override.jcBeforeHS
  jcAfterI1 := intRule.merge base.jcAfterI1 override.jcAfterI1
  jcDuringHS := intRule.merge base.jcDuringHS override.jcDuringHS
  jcAfterHS := intRule.merge base.jcAfterHS override.jcAfterHS
  junkInterval := intRule.merge base.junkInterval override.junkInterval
  junkRandom := boolRule.merge base.junkRandom override.junkRandom
  mimicProtocol := stringRule.merge base.mimicProtocol override.mimicProtocol
  customWrapper := boolRule.merge base.customWrapper override.customWrapper
  handshakeDelay := intRule.merge base.handshakeDelay override.handshakeDelay
  packetDelay := intRule.merge base.packetDelay override.packetDelay
  randomDelay := boolRule.merge base.randomDelay override.randomDelay
  delayMin := intRule.merge base.delayMin override.delayMin
  delayMax := intRule.merge base.delayMax override.delayMax
  sniFragmentation := boolRule.merge base.sniFragmentation override.sniFragmentation
  sniFragment := intRule.merge base.sniFragment override.sniFragment
  fakeALPN := stringsRule.merge base.fakeALPN override.fakeALPN
  reversedOrder := boolRule.merge base.reversedOrder override.reversedOrder
  duplicatePackets := boolRule.merge base.duplicatePackets override.duplicatePackets
  allowZeroSize := boolRule.merge base.allowZeroSize override.allowZeroSize
  useTimestamp := boolRule.merge base.useTimestamp override.useTimestamp
  useNonce := boolRule.merge base.useNonce override.useNonce
  randomizeInitial := boolRule.merge base.randomizeInitial override.randomizeInitial
  fakeLoss := float32Rule.merge base.fakeLoss override.fakeLoss

/-- `mergeMetadata` as an overlay. -/
def metadataOverlay : Overlay ConfigMetadata where
  zero := default
  merge := mergeMetadata
  assoc a b c := by simp only [mergeMetadata, Overlay.assoc]
  merge_zero_merge a c := by
    cases c
    simp only [mergeMetadata, ConfigMetadata.mk.injEq]
    exact ⟨stringRule.merge_zero_merge _ _, stringRule.merge_zero_merge _ _,
      stringRule.merge_zero_merge _ _, stringRule.merge_zero_merge _ _⟩
  self a := by simp only [mergeMetadata, Overlay.self]

theorem stringRule_nil (s t : Bytes) :
    stringRule.merge (stringRule.merge s []) t = stringRule.merge s t :=
  stringRule.merge_zero_merge s t

theorem intRule_zero (s t : Int64) : intRule.merge (intRule.merge s 0) t = intRule.merge s t :=
  intRule.merge_zero_merge s t

/-- `mergeAtomicNoizeConfig` as an overlay. -/
def atomicNoizeOverlay : Overlay PreflightBind.AtomicNoizeConfig where
  zero := default
  merge := mergeAtomicNoizeConfig
  assoc a b c := by simp only [mergeAtomicNoizeConfig, Overlay.assoc]
  merge_zero_merge a c := by
    simp only [mergeAtomicNoizeConfig, default, stringRule_nil, intRule_zero]
    rfl
  self a := by simp only [mergeAtomicNoizeConfig, Overlay.self]

/-- `mergeNoizeConfig` as an overlay. -/
def noizeOverlay : Overlay NoizeConfig where
  zero := default
  merge := mergeNoizeConfig
  assoc a b c := by simp only [mergeNoizeConfig, Overlay.assoc]
  merge_zero_merge a c := by
    have hstrings (s t : List Bytes) :
        stringsRule.merge (stringsRule.merge s []) t = stringsRule.merge s t :=
      stringsRule.merge_zero_merge s t
    have hfloat32 (s t : BitVec 32) :
        float32Rule.merge (float32Rule.merge s 0) t = float32Rule.merge s t :=
      float32Rule.merge_zero_merge s t
    simp only [mergeNoizeConfig, default, stringRule_nil, intRule_zero, hstrings, hfloat32]
    rfl
  self a := by simp only [mergeNoizeConfig, Overlay.self]

/-! ## The sections -/

/-- A section is laid over another, which is created if it is missing. -/
def mergeSection {α : Type} (merge : α → α → α) (zero : α) : Option α → Option α → Option α
  | base, none => base
  | base, some override => some (merge (base.getD zero) override)

/-- `mergeWireGuardConfig`. -/
def mergeWireGuardConfig (base override : WireGuardNoize) : WireGuardNoize where
  enabled := boolRule.merge base.enabled override.enabled
  preset := stringRule.merge base.preset override.preset
  atomicNoize := mergeSection mergeAtomicNoizeConfig default base.atomicNoize override.atomicNoize

/-- `mergeMASQUEConfig`. -/
def mergeMASQUEConfig (base override : MASQUENoize) : MASQUENoize where
  enabled := boolRule.merge base.enabled override.enabled
  preset := stringRule.merge base.preset override.preset
  config := mergeSection mergeNoizeConfig default base.config override.config

/-- What `MergeConfigs` does to its copy. -/
def mergeInto (merged override : UnifiedNoizeConfig) : UnifiedNoizeConfig where
  version := merged.version
  wireGuard := mergeSection mergeWireGuardConfig default merged.wireGuard override.wireGuard
  masque := mergeSection mergeMASQUEConfig default merged.masque override.masque
  metadata := mergeSection mergeMetadata default merged.metadata override.metadata

/-- `MergeConfigs`. -/
def mergeConfigs (e : DirectEncoding) (base override : UnifiedNoizeConfig) : UnifiedNoizeConfig :=
  mergeInto (deepCopy e base) override

theorem mergeSection_eq {α : Type} (o : Overlay α) (a b : Option α) :
    mergeSection o.merge o.zero a b = o.optional.merge a b := by
  cases b <;> rfl

/-- `mergeWireGuardConfig` as an overlay. -/
def wireGuardOverlay : Overlay WireGuardNoize where
  zero := default
  merge := mergeWireGuardConfig
  assoc a b c := by
    have hblock := atomicNoizeOverlay.optional.assoc a.atomicNoize b.atomicNoize c.atomicNoize
    simp only [← mergeSection_eq] at hblock
    simp only [mergeWireGuardConfig, Overlay.assoc, WireGuardNoize.mk.injEq, true_and]
    exact hblock
  merge_zero_merge a c := by
    simp only [mergeWireGuardConfig, WireGuardNoize.mk.injEq]
    exact ⟨rfl, stringRule.merge_zero_merge _ _, rfl⟩
  self a := by
    have hblock := atomicNoizeOverlay.optional.self a.atomicNoize
    rw [← mergeSection_eq] at hblock
    obtain ⟨enabled, preset, atomicNoize⟩ := a
    simp only [mergeWireGuardConfig, Overlay.self, WireGuardNoize.mk.injEq, true_and]
    exact hblock

/-- `mergeMASQUEConfig` as an overlay. -/
def masqueOverlay : Overlay MASQUENoize where
  zero := default
  merge := mergeMASQUEConfig
  assoc a b c := by
    have hblock := noizeOverlay.optional.assoc a.config b.config c.config
    simp only [← mergeSection_eq] at hblock
    simp only [mergeMASQUEConfig, Overlay.assoc, MASQUENoize.mk.injEq, true_and]
    exact hblock
  merge_zero_merge a c := by
    simp only [mergeMASQUEConfig, MASQUENoize.mk.injEq]
    exact ⟨rfl, stringRule.merge_zero_merge _ _, rfl⟩
  self a := by
    have hblock := noizeOverlay.optional.self a.config
    rw [← mergeSection_eq] at hblock
    obtain ⟨enabled, preset, config⟩ := a
    simp only [mergeMASQUEConfig, Overlay.self, MASQUENoize.mk.injEq, true_and]
    exact hblock

theorem mergeInto_assoc (a b c : UnifiedNoizeConfig) :
    mergeInto (mergeInto a b) c = mergeInto a (mergeInto b c) := by
  have hwireGuard := wireGuardOverlay.optional.assoc a.wireGuard b.wireGuard c.wireGuard
  have hmasque := masqueOverlay.optional.assoc a.masque b.masque c.masque
  have hmetadata := metadataOverlay.optional.assoc a.metadata b.metadata c.metadata
  simp only [← mergeSection_eq] at hwireGuard hmasque hmetadata
  simp only [mergeInto, UnifiedNoizeConfig.mk.injEq, true_and]
  exact ⟨hwireGuard, hmasque, hmetadata⟩

theorem mergeInto_mergeInto_self (a b : UnifiedNoizeConfig) :
    mergeInto (mergeInto a b) b = mergeInto a b := by
  have hwireGuard := wireGuardOverlay.optional.merge_merge_self a.wireGuard b.wireGuard
  have hmasque := masqueOverlay.optional.merge_merge_self a.masque b.masque
  have hmetadata := metadataOverlay.optional.merge_merge_self a.metadata b.metadata
  simp only [← mergeSection_eq] at hwireGuard hmasque hmetadata
  simp only [mergeInto, UnifiedNoizeConfig.mk.injEq, true_and]
  exact ⟨hwireGuard, hmasque, hmetadata⟩

/-! ## Configurations that survive a copy -/

/-- The strings of an `AtomicNoizeConfig`. -/
def atomicTexts (c : PreflightBind.AtomicNoizeConfig) : List Bytes := [c.i1, c.i2, c.i3, c.i4, c.i5]

def metadataTexts (m : ConfigMetadata) : List Bytes :=
  [m.name, m.description, m.author, m.createdAt]

/-- The values of a section that may be missing. -/
def sectionValues {α β : Type} (values : α → List β) (s : Option α) : List β :=
  (s.map values).getD []

def WireGuardNoize.texts (w : WireGuardNoize) : List Bytes :=
  w.preset :: sectionValues atomicTexts w.atomicNoize

def MASQUENoize.texts (m : MASQUENoize) : List Bytes :=
  m.preset :: sectionValues NoizeConfig.texts m.config

def UnifiedNoizeConfig.texts (c : UnifiedNoizeConfig) : List Bytes :=
  c.version :: (sectionValues WireGuardNoize.texts c.wireGuard ++
    sectionValues MASQUENoize.texts c.masque ++ sectionValues metadataTexts c.metadata)

/-- The `FakeLoss` of the MASQUE section. -/
def MASQUENoize.losses (m : MASQUENoize) : List (BitVec 32) :=
  sectionValues (fun config : NoizeConfig ↦ [config.fakeLoss]) m.config

/-- The strings and the number that could get lost. -/
structure Clean (e : StandardEncoding) (c : UnifiedNoizeConfig) : Prop where
  texts : ∀ s ∈ c.texts, e.coerce s = s
  losses : ∀ x ∈ sectionValues MASQUENoize.losses c.masque, Finite32 x

section Values

variable {α β : Type} {values : α → List β} {P : β → Prop}

theorem forall_mem_sectionValues {s : Option α} :
    (∀ v ∈ sectionValues values s, P v) ↔ ∀ a, s = some a → ∀ v ∈ values a, P v := by
  cases s with
  | none => exact iff_of_true nofun nofun
  | some a =>
    constructor
    · intro h b hb
      cases hb
      exact h
    · intro h
      exact h a rfl

theorem sectionValues_merge {merge : α → α → α} {zero : α}
    (hmerge : ∀ a b, (∀ v ∈ values a, P v) → (∀ v ∈ values b, P v) → ∀ v ∈ values (merge a b), P v)
    (hzero : ∀ v ∈ values zero, P v) {a b : Option α} (ha : ∀ v ∈ sectionValues values a, P v)
    (hb : ∀ v ∈ sectionValues values b, P v) :
    ∀ v ∈ sectionValues values (mergeSection merge zero a b), P v := by
  cases b with
  | none => exact ha
  | some b =>
    cases a with
    | none => exact hmerge zero b hzero hb
    | some a => exact hmerge a b ha hb

end Values

section Kept

variable {P : Bytes → Prop}

theorem stringRule_of {a b : Bytes} (ha : P a) (hb : P b) : P (stringRule.merge a b) :=
  Overlay.lastNonzero_of ha hb

theorem metadataTexts_merge (a b : ConfigMetadata) (ha : ∀ s ∈ metadataTexts a, P s)
    (hb : ∀ s ∈ metadataTexts b, P s) : ∀ s ∈ metadataTexts (mergeMetadata a b), P s := by
  simp only [metadataTexts, List.forall_mem_cons] at ha hb ⊢
  exact ⟨stringRule_of ha.1 hb.1, stringRule_of ha.2.1 hb.2.1, stringRule_of ha.2.2.1 hb.2.2.1,
    stringRule_of ha.2.2.2.1 hb.2.2.2.1, nofun⟩

theorem atomicTexts_merge (a b : PreflightBind.AtomicNoizeConfig) (ha : ∀ s ∈ atomicTexts a, P s)
    (hb : ∀ s ∈ atomicTexts b, P s) : ∀ s ∈ atomicTexts (mergeAtomicNoizeConfig a b), P s := by
  simp only [atomicTexts, List.forall_mem_cons] at ha hb ⊢
  exact ⟨stringRule_of ha.1 hb.1, stringRule_of ha.2.1 hb.2.1, stringRule_of ha.2.2.1 hb.2.2.1,
    stringRule_of ha.2.2.2.1 hb.2.2.2.1, stringRule_of ha.2.2.2.2.1 hb.2.2.2.2.1, nofun⟩

theorem noizeTexts_merge (a b : NoizeConfig) (ha : ∀ s ∈ a.texts, P s) (hb : ∀ s ∈ b.texts, P s) :
    ∀ s ∈ (mergeNoizeConfig a b).texts, P s := by
  simp only [NoizeConfig.texts, List.forall_mem_append, List.forall_mem_cons] at ha hb ⊢
  obtain ⟨⟨ha1, ha2, ha3, ha4, ha5, ha6, -⟩, ha7⟩ := ha
  obtain ⟨⟨hb1, hb2, hb3, hb4, hb5, hb6, -⟩, hb7⟩ := hb
  have halpn : ∀ s ∈ stringsRule.merge a.fakeALPN b.fakeALPN, P s :=
    @Overlay.lastNonzero_of _ _ _ _ (fun ss ↦ ∀ s ∈ ss, P s) _ _ ha7 hb7
  exact ⟨⟨stringRule_of ha1 hb1, stringRule_of ha2 hb2, stringRule_of ha3 hb3,
    stringRule_of ha4 hb4, stringRule_of ha5 hb5, stringRule_of ha6 hb6,
      fun _ h ↦ absurd h List.not_mem_nil⟩, halpn⟩

theorem wireGuardTexts_merge (hnil : P []) (a b : WireGuardNoize) (ha : ∀ s ∈ a.texts, P s)
    (hb : ∀ s ∈ b.texts, P s) : ∀ s ∈ (mergeWireGuardConfig a b).texts, P s := by
  simp only [WireGuardNoize.texts, List.forall_mem_cons] at ha hb ⊢
  have hzero : ∀ s ∈ atomicTexts default, P s := by
    simpa [atomicTexts, default] using hnil
  exact ⟨stringRule_of ha.1 hb.1, sectionValues_merge atomicTexts_merge hzero ha.2 hb.2⟩

theorem masqueTexts_merge (hnil : P []) (a b : MASQUENoize) (ha : ∀ s ∈ a.texts, P s)
    (hb : ∀ s ∈ b.texts, P s) : ∀ s ∈ (mergeMASQUEConfig a b).texts, P s := by
  simp only [MASQUENoize.texts, List.forall_mem_cons] at ha hb ⊢
  have hzero : ∀ s ∈ (default : NoizeConfig).texts, P s := by
    simpa [NoizeConfig.texts, default] using hnil
  exact ⟨stringRule_of ha.1 hb.1, sectionValues_merge noizeTexts_merge hzero ha.2 hb.2⟩

theorem texts_mergeInto (hnil : P []) {a b : UnifiedNoizeConfig} (ha : ∀ s ∈ a.texts, P s)
    (hb : ∀ s ∈ b.texts, P s) : ∀ s ∈ (mergeInto a b).texts, P s := by
  simp only [UnifiedNoizeConfig.texts, List.forall_mem_cons, List.forall_mem_append] at ha hb ⊢
  have hwireGuard : ∀ s ∈ (default : WireGuardNoize).texts, P s := by
    simpa [WireGuardNoize.texts, sectionValues, default] using hnil
  have hmasque : ∀ s ∈ (default : MASQUENoize).texts, P s := by
    simpa [MASQUENoize.texts, sectionValues, default] using hnil
  have hmetadata : ∀ s ∈ metadataTexts default, P s := by
    simpa [metadataTexts, default] using hnil
  exact ⟨ha.1, ⟨sectionValues_merge (wireGuardTexts_merge hnil) hwireGuard ha.2.1.1 hb.2.1.1,
    sectionValues_merge (masqueTexts_merge hnil) hmasque ha.2.1.2 hb.2.1.2⟩,
    sectionValues_merge metadataTexts_merge hmetadata ha.2.2 hb.2.2⟩

end Kept

variable {e : StandardEncoding}

/-- The `FakeLoss` of a merged section. -/
theorem losses_merge (a b : MASQUENoize) (ha : ∀ x ∈ a.losses, Finite32 x)
    (hb : ∀ x ∈ b.losses, Finite32 x) : ∀ x ∈ (mergeMASQUEConfig a b).losses, Finite32 x := by
  refine sectionValues_merge ?_ ?_ ha hb
  · intro a b ha hb
    rw [List.forall_mem_singleton] at ha hb ⊢
    have hloss : Finite32 (float32Rule.merge a.fakeLoss b.fakeLoss) := Overlay.lastNonzero_of ha hb
    exact hloss
  · rw [List.forall_mem_singleton]
    decide

namespace Clean

theorem merge {a b : UnifiedNoizeConfig} (ha : Clean e a) (hb : Clean e b) :
    Clean e (mergeInto a b) := by
  have hnil : e.coerce [] = [] := e.coerce_utf8 ⟨[], rfl⟩
  have hzero : ∀ x ∈ (default : MASQUENoize).losses, Finite32 x := by
    intro x hx
    exact absurd hx List.not_mem_nil
  exact ⟨texts_mergeInto (P := fun s ↦ e.coerce s = s) hnil ha.texts hb.texts,
    sectionValues_merge losses_merge hzero ha.losses hb.losses⟩

theorem writable {c : UnifiedNoizeConfig} (h : Clean e c) : c.Writable e.toDirectEncoding := by
  intro m config hm hconfig
  have hlosses :=
    forall_mem_sectionValues.mp (forall_mem_sectionValues.mp h.losses m hm) config hconfig
  exact (e.isSome_ofFloat32 _).mpr (hlosses _ (List.mem_singleton.mpr rfl))

end Clean

/-- The block of AtomicNoize comes back as it was if `encoding/json` keeps its strings. -/
theorem coercedAtomicNoize_eq_self {e : DirectEncoding} {c : PreflightBind.AtomicNoizeConfig} :
    coercedAtomicNoize e c = c ↔ ∀ s ∈ atomicTexts c, e.coerce s = s := by
  simp only [atomicTexts, List.forall_mem_cons]
  constructor
  · intro h
    exact ⟨congrArg (·.i1) h, congrArg (·.i2) h, congrArg (·.i3) h, congrArg (·.i4) h,
      congrArg (·.i5) h, nofun⟩
  · rintro ⟨h1, h2, h3, h4, h5, -⟩
    rw [coercedAtomicNoize, h1, h2, h3, h4, h5]

theorem map_eq_self_iff {α : Type} {f : α → α} {s : Option α} :
    s.map f = s ↔ ∀ a, s = some a → f a = a := by
  cases s with
  | none => exact iff_of_true rfl nofun
  | some a =>
    constructor
    · intro h b hb
      cases hb
      exact Option.some.inj h
    · intro h
      exact congrArg some (h a rfl)

/-- A configuration comes back as it was if `encoding/json` keeps its strings. -/
theorem coercedConfig_eq_self {e : DirectEncoding} {c : UnifiedNoizeConfig} :
    coercedConfig e c = c ↔ ∀ s ∈ c.texts, e.coerce s = s := by
  have hconfig : coercedConfig e c = c ↔ e.coerce c.version = c.version ∧
      (coercedConfig e c).wireGuard = c.wireGuard ∧ (coercedConfig e c).masque = c.masque ∧
      (coercedConfig e c).metadata = c.metadata := by
    obtain ⟨version, wireGuard, masque, metadata⟩ := c
    exact UnifiedNoizeConfig.mk.injEq .. ▸ Iff.rfl
  have hwireGuard : (coercedConfig e c).wireGuard = c.wireGuard ↔
      ∀ s ∈ sectionValues WireGuardNoize.texts c.wireGuard, e.coerce s = s := by
    rw [forall_mem_sectionValues, coercedConfig, map_eq_self_iff]
    refine forall₂_congr fun w _ ↦ ?_
    rw [WireGuardNoize.texts, List.forall_mem_cons, forall_mem_sectionValues]
    simp only [← coercedAtomicNoize_eq_self]
    rw [← map_eq_self_iff]
    obtain ⟨enabled, preset, atomicNoize⟩ := w
    simp only [WireGuardNoize.mk.injEq, true_and]
  have hmasque : (coercedConfig e c).masque = c.masque ↔
      ∀ s ∈ sectionValues MASQUENoize.texts c.masque, e.coerce s = s := by
    rw [forall_mem_sectionValues, coercedConfig, map_eq_self_iff]
    refine forall₂_congr fun m _ ↦ ?_
    rw [MASQUENoize.texts, List.forall_mem_cons, forall_mem_sectionValues]
    simp only [← coercedNoize_eq_self]
    rw [← map_eq_self_iff]
    obtain ⟨enabled, preset, config⟩ := m
    simp only [MASQUENoize.mk.injEq, true_and]
  have hmetadata : (coercedConfig e c).metadata = c.metadata ↔
      ∀ s ∈ sectionValues metadataTexts c.metadata, e.coerce s = s := by
    rw [forall_mem_sectionValues, coercedConfig, map_eq_self_iff]
    refine forall₂_congr fun m _ ↦ ?_
    obtain ⟨name, description, author, createdAt⟩ := m
    simp only [metadataTexts, List.forall_mem_cons, ConfigMetadata.mk.injEq]
    simp
  rw [hconfig, hwireGuard, hmasque, hmetadata, UnifiedNoizeConfig.texts, List.forall_mem_cons,
    List.forall_mem_append, List.forall_mem_append, and_assoc]

/-- The JSON deep copy preserves the configuration. -/
def Preserved (e : DirectEncoding) (c : UnifiedNoizeConfig) : Prop := deepCopy e c = c

theorem preserved_iff_clean {c : UnifiedNoizeConfig} :
    Preserved e.toDirectEncoding c ↔ Clean e c := by
  constructor
  · intro h
    have hwritable : c.Writable e.toDirectEncoding := by
      by_contra hnot
      have hzero : c = default := h.symm.trans (deepCopy_of_not_writable hnot)
      refine hnot fun m config hm _ ↦ ?_
      rw [hzero] at hm
      exact absurd hm (Option.some_ne_none m).symm
    rw [Preserved, deepCopy_of_writable hwritable, coercedConfig_eq_self] at h
    refine ⟨h, forall_mem_sectionValues.mpr fun m hm ↦
      forall_mem_sectionValues.mpr fun config hconfig ↦ ?_⟩
    rw [List.forall_mem_singleton, ← e.isSome_ofFloat32]
    exact hwritable m config hm hconfig
  · intro h
    rw [Preserved, deepCopy_of_writable h.writable]
    exact coercedConfig_eq_self.mpr h.texts

theorem mergeConfigs_of_preserved {a b : UnifiedNoizeConfig} (ha : Preserved e.toDirectEncoding a)
    (hb : Preserved e.toDirectEncoding b) :
    mergeConfigs e.toDirectEncoding a b = mergeInto a b ∧
      Preserved e.toDirectEncoding (mergeInto a b) := by
  refine ⟨by rw [mergeConfigs, ha], ?_⟩
  rw [preserved_iff_clean] at ha hb ⊢
  exact ha.merge hb

end Vwarp.Config.Noize
