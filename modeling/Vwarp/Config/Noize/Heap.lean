import Vwarp.Config.Noize.Merge

/-!
# Merging on the heap

`MergeConfigs` gets two pointers.  Its sections are objects of their own, which the arguments may
share, and it writes to the objects of its copy.  The heap has a list of objects for each type, and
a pointer is a place in the list.

`Heap.mergeConfigs_spec` says that what was on the heap before is still there, so that no
configuration that could be read has changed, and that the new one is what `mergeConfigs` returns.
-/

namespace Vwarp.Config.Noize

open Vwarp.Go Vwarp.Go.Json Vwarp.Lib Vwarp.Wireguard Vwarp.Masque.Noize

/-! ## Objects of one type -/

section Objects

variable {α : Type}

/-- What a pointer stands for; `none` is a pointer to nothing. -/
def readPointer (objects : List α) : Option Nat → Option (Option α)
  | none => some none
  | some p => objects[p]?.map some

/-- `if base.F == nil { base.F = &T{} }`. -/
def createIfNil (objects : List α) (zero : α) : Option Nat → List α × Nat
  | some p => (objects, p)
  | none => (objects ++ [zero], objects.length)

/-- Merge the object at `override` into the one at `base`; `none` is a panic. -/
def mergeObject (merge : α → α → α) (objects : List α) (base override : Nat) : Option (List α) := do
  let b ← objects[base]?
  let o ← objects[override]?
  some (objects.set base (merge b o))

/-- The merging of a section without sections of its own, with the pointer to it afterwards. -/
def mergePointer (merge : α → α → α) (zero : α) (objects : List α) (base : Option Nat) :
    Option Nat → Option (List α × Option Nat)
  | none => some (objects, base)
  | some override =>
    let (objects, p) := createIfNil objects zero base
    (mergeObject merge objects p override).map fun objects ↦ (objects, some p)

/-- The pointer stands for the value and, if it is not `nil`, is none of the old ones. -/
def Fresh (old objects : List α) (p : Option Nat) (v : Option α) : Prop :=
  readPointer objects p = some v ∧ ∀ q, p = some q → old.length ≤ q

variable {old objects : List α}

theorem getElem?_of_prefix (h : old <+: objects) {p : Nat} {a : α} (ha : old[p]? = some a) :
    objects[p]? = some a := by
  obtain ⟨rest, rfl⟩ := h
  rwa [List.getElem?_append_left (List.getElem?_eq_some_iff.mp ha).1]

theorem readPointer_mono (h : old <+: objects) {p : Option Nat} {v : Option α}
    (hp : readPointer old p = some v) : readPointer objects p = some v := by
  cases p with
  | none => exact hp
  | some p =>
    obtain ⟨a, ha, rfl⟩ := Option.map_eq_some_iff.mp hp
    exact Option.map_eq_some_iff.mpr ⟨a, getElem?_of_prefix h ha, rfl⟩

theorem prefix_set (h : old <+: objects) {p : Nat} (hp : old.length ≤ p) (a : α) :
    old <+: objects.set p a := by
  obtain ⟨rest, rfl⟩ := h
  rw [List.set_append_right _ _ hp]
  exact List.prefix_append _ _

theorem createIfNil_spec (zero : α) (h : old <+: objects) {p : Option Nat} {v : Option α}
    (hp : Fresh old objects p v) :
    ∃ created place, createIfNil objects zero p = (created, place) ∧ old <+: created ∧
      old.length ≤ place ∧ created[place]? = some (v.getD zero) := by
  cases p with
  | none =>
    obtain rfl := Option.some.inj hp.1
    exact ⟨_, _, rfl, h.trans (List.prefix_append _ _), h.length_le, List.getElem?_concat_length⟩
  | some p =>
    obtain ⟨a, ha, rfl⟩ := Option.map_eq_some_iff.mp hp.1
    exact ⟨_, _, rfl, h, hp.2 p rfl, ha⟩

theorem mergeObject_spec (merge : α → α → α) (h : old <+: objects) {base override : Nat} {b o : α}
    (hbase : old.length ≤ base) (hb : objects[base]? = some b) (ho : old[override]? = some o) :
    ∃ objects', mergeObject merge objects base override = some objects' ∧ old <+: objects' ∧
      objects'[base]? = some (merge b o) := by
  refine ⟨objects.set base (merge b o), ?_, prefix_set h hbase _, ?_⟩
  · rw [mergeObject, hb, getElem?_of_prefix h ho]
    rfl
  · exact List.getElem?_set_self (List.getElem?_eq_some_iff.mp hb).1

/-- A section is merged into the copy, and nothing old is touched. -/
theorem mergePointer_spec (merge : α → α → α) (zero : α) (h : old <+: objects)
    {base override : Option Nat} {b o : Option α} (hb : Fresh old objects base b)
    (ho : readPointer old override = some o) :
    ∃ objects' p, mergePointer merge zero objects base override = some (objects', p) ∧
      old <+: objects' ∧ Fresh old objects' p (mergeSection merge zero b o) := by
  cases override with
  | none =>
    cases ho
    exact ⟨objects, base, rfl, h, hb⟩
  | some override =>
    obtain ⟨o, hoverride, rfl⟩ := Option.map_eq_some_iff.mp ho
    obtain ⟨created, place, hcreate, hcreated, hplace, hget⟩ := createIfNil_spec zero h hb
    obtain ⟨objects', hmerge, hprefix, hresult⟩ :=
      mergeObject_spec merge hcreated hplace hget hoverride
    refine ⟨objects', some place, ?_, hprefix, ?_, ?_⟩
    · rw [mergePointer, hcreate]
      dsimp only
      rw [hmerge]
      rfl
    · exact congrArg (Option.map some) hresult
    · rintro q ⟨⟩
      exact hplace

end Objects

/-! ## Sections with a block -/

/-- A `WireGuardNoize` or a `MASQUENoize`, with the pointer to its block. -/
structure SectionObject where
  enabled : Bool
  preset : Bytes
  block : Option Nat

/-- The section with the block itself. -/
structure SectionValue (α : Type) where
  enabled : Bool
  preset : Bytes
  block : Option α

section Sections

variable {α : Type} (merge : α → α → α) (zero : α)

def SectionObject.read (blocks : List α) (s : SectionObject) : Option (SectionValue α) :=
  (readPointer blocks s.block).map fun block ↦ ⟨s.enabled, s.preset, block⟩

def readSection (sections : List SectionObject) (blocks : List α) :
    Option Nat → Option (Option (SectionValue α))
  | none => some none
  | some p => sections[p]?.bind fun s ↦ (s.read blocks).map some

/-- `mergeWireGuardConfig` and `mergeMASQUEConfig`, which differ in the merging of the block. -/
def mergeSectionObject (blocks : List α) (base override : SectionObject) :
    Option (List α × SectionObject) :=
  (mergePointer merge zero blocks base.block override.block).map fun merged ↦
    (merged.1, ⟨boolRule.merge base.enabled override.enabled,
      stringRule.merge base.preset override.preset, merged.2⟩)

/-- The merging of a section with a block, with the pointer to it afterwards. -/
def mergeSectionPointer (sections : List SectionObject) (blocks : List α) (base : Option Nat) :
    Option Nat → Option (List SectionObject × List α × Option Nat)
  | none => some (sections, blocks, base)
  | some override => do
      let (sections, p) := createIfNil sections ⟨false, [], none⟩ base
      let b ← sections[p]?
      let o ← sections[override]?
      let (blocks, merged) ← mergeSectionObject merge zero blocks b o
      some (sections.set p merged, blocks, some p)

def mergeSectionValue (b o : SectionValue α) : SectionValue α where
  enabled := boolRule.merge b.enabled o.enabled
  preset := stringRule.merge b.preset o.preset
  block := mergeSection merge zero b.block o.block

/-- The pointer stands for the section, and it and the one in the section are none of the old
ones. -/
inductive FreshSection (old sections : List SectionObject) (oldBlocks blocks : List α) :
    Option Nat → Option (SectionValue α) → Prop
  | nil : FreshSection old sections oldBlocks blocks none none
  | object {q : Nat} {s : SectionObject} {block : Option α} : old.length ≤ q →
      sections[q]? = some s → Fresh oldBlocks blocks s.block block →
      FreshSection old sections oldBlocks blocks (some q) (some ⟨s.enabled, s.preset, block⟩)

variable {merge zero} {old sections : List SectionObject} {oldBlocks blocks : List α}

variable {base p : Option Nat} {b v : Option (SectionValue α)}

theorem readSection_mono (h : old <+: sections) (hblocks : oldBlocks <+: blocks)
    (hp : readSection old oldBlocks p = some v) : readSection sections blocks p = some v := by
  cases p with
  | none => exact hp
  | some p =>
    obtain ⟨s, hs, hv⟩ := Option.bind_eq_some_iff.mp hp
    obtain ⟨v, hread, rfl⟩ := Option.map_eq_some_iff.mp hv
    obtain ⟨block, hblock, rfl⟩ := Option.map_eq_some_iff.mp hread
    rw [readSection, getElem?_of_prefix h hs, Option.bind_some, SectionObject.read,
      readPointer_mono hblocks hblock]
    rfl

theorem FreshSection.read (h : FreshSection old sections oldBlocks blocks p v) :
    readSection sections blocks p = some v := by
  cases h with
  | nil => rfl
  | object hplace hs hblock =>
    rw [readSection, hs, Option.bind_some, SectionObject.read, hblock.1]
    rfl

/-- The section that is merged into is there, or it is created. -/
theorem createSection_spec (h : old <+: sections)
    (hb : FreshSection old sections oldBlocks blocks base b) :
    ∃ created place s block, createIfNil sections ⟨false, [], none⟩ base = (created, place) ∧
      old <+: created ∧ old.length ≤ place ∧ created[place]? = some s ∧
      Fresh oldBlocks blocks s.block block ∧
      b.getD ⟨false, [], none⟩ = ⟨s.enabled, s.preset, block⟩ := by
  cases hb with
  | nil =>
    exact ⟨_, _, _, none, rfl, h.trans (List.prefix_append _ _), h.length_le,
      List.getElem?_concat_length, ⟨rfl, nofun⟩, rfl⟩
  | object hplace hs hblock => exact ⟨_, _, _, _, rfl, h, hplace, hs, hblock, rfl⟩

variable (merge zero) in
/-- A section with a block is merged into the copy, and nothing old is touched. -/
theorem mergeSectionPointer_spec (h : old <+: sections) (hblocks : oldBlocks <+: blocks)
    {override : Option Nat} {o : Option (SectionValue α)}
    (hb : FreshSection old sections oldBlocks blocks base b)
    (ho : readSection old oldBlocks override = some o) :
    ∃ sections' blocks' p,
      mergeSectionPointer merge zero sections blocks base override = some (sections', blocks', p) ∧
      old <+: sections' ∧ oldBlocks <+: blocks' ∧
      FreshSection old sections' oldBlocks blocks' p
        (mergeSection (mergeSectionValue merge zero) ⟨false, [], none⟩ b o) := by
  cases override with
  | none =>
    cases ho
    exact ⟨sections, blocks, base, rfl, h, hblocks, hb⟩
  | some override =>
    obtain ⟨os, hos, hsome⟩ := Option.bind_eq_some_iff.mp ho
    obtain ⟨o, hread, rfl⟩ := Option.map_eq_some_iff.mp hsome
    obtain ⟨oblock, hoblock, rfl⟩ := Option.map_eq_some_iff.mp hread
    obtain ⟨created, place, bs, block, hcreate, hcreated, hplace, hbs, hblock, hvalue⟩ :=
      createSection_spec h hb
    obtain ⟨blocks', p, hmerge, hprefix, hfresh⟩ :=
      mergePointer_spec merge zero hblocks hblock hoblock
    have hobject : mergeSectionObject merge zero blocks bs os = some (blocks',
        ⟨boolRule.merge bs.enabled os.enabled, stringRule.merge bs.preset os.preset, p⟩) := by
      rw [mergeSectionObject, hmerge]
      rfl
    refine ⟨created.set place ⟨boolRule.merge bs.enabled os.enabled,
      stringRule.merge bs.preset os.preset, p⟩, blocks', some place, ?_,
      prefix_set hcreated hplace _, hprefix, ?_⟩
    · rw [mergeSectionPointer, hcreate]
      dsimp only
      rw [hbs, getElem?_of_prefix hcreated hos, Option.bind_eq_bind, Option.bind_some,
        Option.bind_eq_bind, Option.bind_some, hobject]
      rfl
    · rw [mergeSection, hvalue]
      exact .object hplace (List.getElem?_set_self (List.getElem?_eq_some_iff.mp hbs).1) hfresh

end Sections

/-! ## Configurations -/

/-- A `UnifiedNoizeConfig`, with the pointers to its sections. -/
structure ConfigObject where
  version : Bytes
  wireGuard : Option Nat
  masque : Option Nat
  metadata : Option Nat

/-- The objects of each type. -/
structure Heap where
  configs : List ConfigObject
  wireGuards : List SectionObject
  atomicNoizes : List PreflightBind.AtomicNoizeConfig
  masques : List SectionObject
  noizes : List NoizeConfig
  metadatas : List ConfigMetadata

def WireGuardNoize.ofValue (v : SectionValue PreflightBind.AtomicNoizeConfig) : WireGuardNoize :=
  ⟨v.enabled, v.preset, v.block⟩

def MASQUENoize.ofValue (v : SectionValue NoizeConfig) : MASQUENoize :=
  ⟨v.enabled, v.preset, v.block⟩

def WireGuardNoize.value (w : WireGuardNoize) : SectionValue PreflightBind.AtomicNoizeConfig :=
  ⟨w.enabled, w.preset, w.atomicNoize⟩

def MASQUENoize.value (m : MASQUENoize) : SectionValue NoizeConfig :=
  ⟨m.enabled, m.preset, m.config⟩

namespace Heap

/-- What the object of a configuration stands for. -/
def readObject (h : Heap) (c : ConfigObject) : Option UnifiedNoizeConfig := do
  let wireGuard ← readSection h.wireGuards h.atomicNoizes c.wireGuard
  let masque ← readSection h.masques h.noizes c.masque
  let metadata ← readPointer h.metadatas c.metadata
  some ⟨c.version, wireGuard.map .ofValue, masque.map .ofValue, metadata⟩

/-- The configuration that a pointer stands for. -/
def readConfig (h : Heap) (p : Nat) : Option UnifiedNoizeConfig := h.configs[p]?.bind h.readObject

/-- The heap has all objects that another had, and they are as they were. -/
structure Extends (h h' : Heap) : Prop where
  configs : h.configs <+: h'.configs
  wireGuards : h.wireGuards <+: h'.wireGuards
  atomicNoizes : h.atomicNoizes <+: h'.atomicNoizes
  masques : h.masques <+: h'.masques
  noizes : h.noizes <+: h'.noizes
  metadatas : h.metadatas <+: h'.metadatas

/-- A pointer to a new object, or `nil`. -/
def allocPointer {α : Type} (objects : List α) : Option α → List α × Option Nat
  | none => (objects, none)
  | some a => (objects ++ [a], some objects.length)

/-- The objects that `json.Unmarshal` creates for a configuration. -/
def alloc (h : Heap) (c : UnifiedNoizeConfig) : Heap × Nat :=
  let atomicNoize := allocPointer h.atomicNoizes (c.wireGuard.bind (·.atomicNoize))
  let wireGuard := allocPointer h.wireGuards
    (c.wireGuard.map fun w ↦ ⟨w.enabled, w.preset, atomicNoize.2⟩)
  let noize := allocPointer h.noizes (c.masque.bind (·.config))
  let masque := allocPointer h.masques (c.masque.map fun m ↦ ⟨m.enabled, m.preset, noize.2⟩)
  let metadata := allocPointer h.metadatas c.metadata
  ({ configs := h.configs ++ [⟨c.version, wireGuard.2, masque.2, metadata.2⟩]
     wireGuards := wireGuard.1
     atomicNoizes := atomicNoize.1
     masques := masque.1
     noizes := noize.1
     metadatas := metadata.1 }, h.configs.length)

/-- `MergeConfigs` on the heap: the pointer that it returns, and the heap afterwards; `none` is a
panic. -/
def mergeConfigs (e : DirectEncoding) (h : Heap) (base override : Nat) : Option (Nat × Heap) := do
  let src ← h.readConfig base
  let (h, merged) := h.alloc (deepCopy e src)
  let m ← h.configs[merged]?
  let o ← h.configs[override]?
  let (metadatas, metadata) ← mergePointer mergeMetadata default h.metadatas m.metadata o.metadata
  let (wireGuards, atomicNoizes, wireGuard) ←
    mergeSectionPointer mergeAtomicNoizeConfig default h.wireGuards h.atomicNoizes
      m.wireGuard o.wireGuard
  let (masques, noizes, masque) ←
    mergeSectionPointer mergeNoizeConfig default h.masques h.noizes m.masque o.masque
  some (merged,
    { configs := h.configs.set merged ⟨m.version, wireGuard, masque, metadata⟩
      wireGuards := wireGuards
      atomicNoizes := atomicNoizes
      masques := masques
      noizes := noizes
      metadatas := metadatas })

variable {h h' : Heap}

variable {c : UnifiedNoizeConfig}

theorem allocPointer_spec {α : Type} (objects : List α) (v : Option α) :
    objects <+: (allocPointer objects v).1 ∧
      Fresh objects (allocPointer objects v).1 (allocPointer objects v).2 v := by
  cases v with
  | none => exact ⟨List.prefix_refl _, rfl, nofun⟩
  | some a =>
    refine ⟨List.prefix_append _ _, congrArg (Option.map some) List.getElem?_concat_length, ?_⟩
    rintro q ⟨⟩
    exact Nat.le_refl _

theorem allocSection_spec {α : Type} (sections : List SectionObject) (blocks : List α)
    (v : Option (SectionValue α)) :
    FreshSection sections
      (allocPointer sections (v.map fun s ↦
        ⟨s.enabled, s.preset, (allocPointer blocks (v.bind (·.block))).2⟩)).1
      blocks (allocPointer blocks (v.bind (·.block))).1
      (allocPointer sections (v.map fun s ↦
        ⟨s.enabled, s.preset, (allocPointer blocks (v.bind (·.block))).2⟩)).2 v := by
  cases v with
  | none => exact .nil
  | some s =>
    exact .object (Nat.le_refl _) List.getElem?_concat_length
      (allocPointer_spec blocks s.block).2

/-- The configuration at a place is this one, and all its objects are new. -/
structure FreshConfig (old h : Heap) (object : ConfigObject) (c : UnifiedNoizeConfig) : Prop where
  version : object.version = c.version
  wireGuard : FreshSection old.wireGuards h.wireGuards old.atomicNoizes h.atomicNoizes
    object.wireGuard (c.wireGuard.map WireGuardNoize.value)
  masque : FreshSection old.masques h.masques old.noizes h.noizes object.masque
    (c.masque.map MASQUENoize.value)
  metadata : Fresh old.metadatas h.metadatas object.metadata c.metadata

theorem map_map_of_inverse {α β : Type} {f : α → β} {g : β → α} (h : ∀ a, g (f a) = a)
    (o : Option α) : (o.map f).map g = o := by
  cases o with
  | none => rfl
  | some a => exact congrArg some (h a)

theorem readObject_eq {object : ConfigObject}
    (hversion : object.version = c.version)
    (hwireGuard : readSection h.wireGuards h.atomicNoizes object.wireGuard =
      some (c.wireGuard.map WireGuardNoize.value))
    (hmasque : readSection h.masques h.noizes object.masque = some (c.masque.map MASQUENoize.value))
    (hmetadata : readPointer h.metadatas object.metadata = some c.metadata) :
    h.readObject object = some c := by
  obtain ⟨version, wireGuard, masque, metadata⟩ := c
  rw [readObject, hwireGuard, hmasque, hmetadata, hversion]
  show some (UnifiedNoizeConfig.mk version _ _ _) = _
  rw [map_map_of_inverse fun _ ↦ rfl, map_map_of_inverse fun _ ↦ rfl]

theorem readObject_cases {object : ConfigObject} (hread : h.readObject object = some c) :
    object.version = c.version ∧ readSection h.wireGuards h.atomicNoizes object.wireGuard =
        some (c.wireGuard.map WireGuardNoize.value) ∧
      readSection h.masques h.noizes object.masque = some (c.masque.map MASQUENoize.value) ∧
      readPointer h.metadatas object.metadata = some c.metadata := by
  obtain ⟨wireGuard, hwireGuard, hread⟩ := Option.bind_eq_some_iff.mp hread
  obtain ⟨masque, hmasque, hread⟩ := Option.bind_eq_some_iff.mp hread
  obtain ⟨metadata, hmetadata, hread⟩ := Option.bind_eq_some_iff.mp hread
  cases hread
  refine ⟨rfl, hwireGuard.trans ?_, hmasque.trans ?_, hmetadata⟩
  all_goals exact congrArg some (map_map_of_inverse (fun _ ↦ rfl) _).symm

theorem Extends.readConfig (hext : h.Extends h') {p : Nat} (hp : h.readConfig p = some c) :
    h'.readConfig p = some c := by
  obtain ⟨object, hobject, hread⟩ := Option.bind_eq_some_iff.mp hp
  obtain ⟨hversion, hwireGuard, hmasque, hmetadata⟩ := readObject_cases hread
  rw [Heap.readConfig, getElem?_of_prefix hext.configs hobject, Option.bind_some]
  exact readObject_eq hversion (readSection_mono hext.wireGuards hext.atomicNoizes hwireGuard)
    (readSection_mono hext.masques hext.noizes hmasque)
    (readPointer_mono hext.metadatas hmetadata)

theorem alloc_spec (h : Heap) (c : UnifiedNoizeConfig) :
    h.Extends (h.alloc c).1 ∧ (h.alloc c).2 = h.configs.length ∧
      ∃ object, (h.alloc c).1.configs[h.configs.length]? = some object ∧
        FreshConfig h (h.alloc c).1 object c := by
  have hwireGuard :=
    allocSection_spec h.wireGuards h.atomicNoizes (c.wireGuard.map WireGuardNoize.value)
  have hmasque := allocSection_spec h.masques h.noizes (c.masque.map MASQUENoize.value)
  rw [Option.map_map, Option.bind_map] at hwireGuard hmasque
  exact ⟨⟨List.prefix_append _ _, (allocPointer_spec _ _).1, (allocPointer_spec _ _).1,
      (allocPointer_spec _ _).1, (allocPointer_spec _ _).1, (allocPointer_spec _ _).1⟩, rfl,
    _, List.getElem?_concat_length,
    ⟨rfl, hwireGuard, hmasque, (allocPointer_spec h.metadatas c.metadata).2⟩⟩

theorem mergeSection_map {σ τ : Type} {f : σ → τ} {m : σ → σ → σ} {n : τ → τ → τ} {z : σ} {v : τ}
    (hz : f z = v) (hm : ∀ b o, n (f b) (f o) = f (m b o)) (b o : Option σ) :
    mergeSection n v (b.map f) (o.map f) = (mergeSection m z b o).map f := by
  subst hz
  cases o with
  | none => rfl
  | some o => cases b <;> exact congrArg some (hm _ _)

/-- `MergeConfigs` returns a new configuration, which is the merged one, and leaves everything else
as it is. -/
theorem mergeConfigs_spec (e : DirectEncoding) {base override : Nat} {a b : UnifiedNoizeConfig}
    (ha : h.readConfig base = some a) (hb : h.readConfig override = some b) :
    ∃ merged h', h.mergeConfigs e base override = some (merged, h') ∧ h.Extends h' ∧
      h.configs.length ≤ merged ∧ h'.readConfig merged = some (Noize.mergeConfigs e a b) := by
  obtain ⟨o, ho, hob⟩ := Option.bind_eq_some_iff.mp hb
  obtain ⟨-, howireGuard, homasque, hometadata⟩ := readObject_cases hob
  obtain ⟨hext, hplace, m, hm, hfresh⟩ := alloc_spec h (deepCopy e a)
  obtain ⟨metadatas, metadata, hmetadata, hmetadatas, hmetadataFresh⟩ :=
    mergePointer_spec mergeMetadata default hext.metadatas hfresh.metadata hometadata
  obtain ⟨wireGuards, atomicNoizes, wireGuard, hwireGuard, hwireGuards, hatomicNoizes,
      hwireGuardFresh⟩ :=
    mergeSectionPointer_spec mergeAtomicNoizeConfig default hext.wireGuards hext.atomicNoizes
      hfresh.wireGuard howireGuard
  obtain ⟨masques, noizes, masque, hmasque, hmasques, hnoizes, hmasqueFresh⟩ :=
    mergeSectionPointer_spec mergeNoizeConfig default hext.masques hext.noizes
      hfresh.masque homasque
  rw [mergeSection_map (z := default) (m := mergeWireGuardConfig) (by rfl)
    (by intros; rfl)] at hwireGuardFresh
  rw [mergeSection_map (z := default) (m := mergeMASQUEConfig) (by rfl)
    (by intros; rfl)] at hmasqueFresh
  refine ⟨h.configs.length,
    ⟨(h.alloc (deepCopy e a)).1.configs.set h.configs.length
      ⟨m.version, wireGuard, masque, metadata⟩, wireGuards, atomicNoizes, masques, noizes,
        metadatas⟩, ?_,
    ⟨prefix_set hext.configs (Nat.le_refl _) _, hwireGuards, hatomicNoizes, hmasques, hnoizes,
      hmetadatas⟩, Nat.le_refl _, ?_⟩
  · rw [Heap.mergeConfigs, ha, Option.bind_eq_bind, Option.bind_some]
    dsimp only
    rw [hplace, hm, Option.bind_eq_bind, Option.bind_some, getElem?_of_prefix hext.configs ho,
      Option.bind_eq_bind, Option.bind_some, hmetadata, Option.bind_eq_bind, Option.bind_some]
    dsimp only
    rw [hwireGuard, Option.bind_eq_bind, Option.bind_some]
    dsimp only
    rw [hmasque]
    rfl
  · rw [Heap.readConfig, List.getElem?_set_self (List.getElem?_eq_some_iff.mp hm).1,
      Option.bind_some]
    exact readObject_eq hfresh.version hwireGuardFresh.read hmasqueFresh.read hmetadataFresh.1

end Heap

/-- Configurations that the copy preserves are laid over each other associatively and idempotently,
and every call leaves the heap as it was and puts the result beside it. -/
theorem merge_overlay (e : StandardEncoding) :
    (∀ a b c, Preserved e.toDirectEncoding a → Preserved e.toDirectEncoding b →
      Preserved e.toDirectEncoding c →
      mergeConfigs e.toDirectEncoding (mergeConfigs e.toDirectEncoding a b) c =
          mergeConfigs e.toDirectEncoding a (mergeConfigs e.toDirectEncoding b c) ∧
        mergeConfigs e.toDirectEncoding (mergeConfigs e.toDirectEncoding a b) b =
          mergeConfigs e.toDirectEncoding a b) ∧
    ∀ (h : Heap) (base override : Nat) (a b : UnifiedNoizeConfig),
      h.readConfig base = some a → h.readConfig override = some b →
      ∃ merged h', h.mergeConfigs e.toDirectEncoding base override = some (merged, h') ∧
        h'.readConfig merged = some (mergeConfigs e.toDirectEncoding a b) ∧ h.Extends h' ∧
        h'.readConfig base = some a ∧ h'.readConfig override = some b := by
  constructor
  · intro a b c ha hb hc
    obtain ⟨hab, habkept⟩ := mergeConfigs_of_preserved ha hb
    obtain ⟨hbc, hbckept⟩ := mergeConfigs_of_preserved hb hc
    rw [hab, hbc, (mergeConfigs_of_preserved habkept hc).1,
      (mergeConfigs_of_preserved ha hbckept).1, (mergeConfigs_of_preserved habkept hb).1]
    exact ⟨mergeInto_assoc a b c, mergeInto_mergeInto_self a b⟩
  · intro h base override a b ha hb
    obtain ⟨merged, h', hrun, hext, -, hmerged⟩ := Heap.mergeConfigs_spec e.toDirectEncoding ha hb
    exact ⟨merged, h', hrun, hmerged, hext, hext.readConfig ha, hext.readConfig hb⟩

/-- Three configurations.  The first two share their WireGuard section, the second has metadata, and
the third has a MASQUE section. -/
def sharedHeap : Heap where
  configs := [⟨str "1.0", some 0, none, none⟩, ⟨str "2.0", some 0, none, some 0⟩,
    ⟨str "3.0", none, some 0, none⟩]
  wireGuards := [⟨true, str "light", some 0⟩]
  atomicNoizes := [fewJunk]
  masques := [⟨true, [], some 0⟩]
  noizes := [{ (default : NoizeConfig) with jc := 4 }]
  metadatas := [⟨str "mine", [], [], []⟩]

/-- The second is laid over the first, whose version stays; the third over both, in any order; and
the second once more, which changes nothing. -/
theorem merge_overlay_shared :
    ∃ a b c, sharedHeap.readConfig 0 = some a ∧ sharedHeap.readConfig 1 = some b ∧
      sharedHeap.readConfig 2 = some c ∧
      let lay := mergeConfigs StandardEncoding.exact.toDirectEncoding
      lay (lay a b) c = lay a (lay b c) ∧ lay (lay a b) b = lay a b ∧
      ∃ merged h', sharedHeap.mergeConfigs StandardEncoding.exact.toDirectEncoding 0 1 =
          some (merged, h') ∧ sharedHeap.Extends h' ∧
        h'.readConfig merged = some ⟨str "1.0", some ⟨true, str "light", some fewJunk⟩, none,
          some ⟨str "mine", [], [], []⟩⟩ := by
  obtain ⟨hlaws, hheap⟩ := merge_overlay .exact
  have hkept (version wireGuard metadata) : Preserved StandardEncoding.exact.toDirectEncoding
      ⟨version, wireGuard, none, metadata⟩ := preserved_iff_clean.mpr ⟨fun _ _ ↦ rfl, nofun⟩
  have hmasque : Preserved StandardEncoding.exact.toDirectEncoding ⟨str "3.0", none,
      some ⟨true, [], some { (default : NoizeConfig) with jc := 4 }⟩, none⟩ :=
    preserved_iff_clean.mpr ⟨fun _ _ ↦ rfl, List.forall_mem_singleton.mpr (by decide)⟩
  have ha : sharedHeap.readConfig 0 =
    some ⟨str "1.0", some ⟨true, str "light", some fewJunk⟩, none, none⟩ := rfl
  have hb : sharedHeap.readConfig 1 = some ⟨str "2.0", some ⟨true, str "light", some fewJunk⟩, none,
    some ⟨str "mine", [], [], []⟩⟩ := rfl
  obtain ⟨hassoc, hidem⟩ := hlaws _ _ _ (hkept _ _ _) (hkept _ _ _) hmasque
  obtain ⟨merged, h', hrun, hmerged, hext, -, -⟩ := hheap sharedHeap 0 1 _ _ ha hb
  rw [mergeConfigs, hkept] at hmerged
  exact ⟨_, _, _, ha, hb, rfl, hassoc, hidem, merged, h', hrun, hext, hmerged⟩

end Vwarp.Config.Noize
