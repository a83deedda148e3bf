import Vwarp.Config.Noize.Presets
import Vwarp.Go.Json.Occurrence

/-!
# Fields that occur and fields that do not

A document is laid over a base as the structure that it is decoded into, in which a field that was
left out and one that was set to zero are the same.  So a number, a string or a list that the
document sets to zero keeps the value of the base, and a flag that the document leaves out is
cleared if its section occurs.  The version is never taken over.  `mergeConfigs_follows_iff` says
which documents come out as they are meant.

A structure that is decoded and merged leaf by leaf is a `Record`, and a `Place` is where it stands
in the tree of sections.
-/

namespace Vwarp.Config.Noize

open Vwarp.Go Vwarp.Go.Json Vwarp.Lib Vwarp.Wireguard Vwarp.Masque.Noize

/-! ## Leaves -/

def Leaf.zero : Leaf → Leaf
  | .string _ => .string []
  | .bool _ => .bool false
  | .int _ => .int 0
  | .strings _ => .strings []
  | .float32 _ => .float32 0

/-- The test for a value that is not taken over. -/
def Leaf.isZero : Leaf → Bool
  | .string s => s.isEmpty
  | .bool b => !b
  | .int n => n = 0
  | .strings ss => ss.isEmpty
  | .float32 x => x.toNat % 2 ^ 31 = 0

/-- The field is a `bool`. -/
def Leaf.isFlag : Leaf → Bool
  | .bool _ => true
  | _ => false

/-- A value is laid over another of its type. -/
def mergeLeaf : Leaf → Leaf → Leaf
  | .string a, .string b => .string (stringRule.merge a b)
  | .bool a, .bool b => .bool (boolRule.merge a b)
  | .int a, .int b => .int (intRule.merge a b)
  | .strings a, .strings b => .strings (stringsRule.merge a b)
  | .float32 a, .float32 b => .float32 (float32Rule.merge a b)
  | _, b => b

theorem lastNonzero_eq_right {α : Type} {zero : α} {isZero : α → Bool} {h : isZero zero = true}
    {a b : α} : (Overlay.lastNonzero zero isZero h).merge a b = b ↔ isZero b = false ∨ a = b := by
  show (if isZero b = true then a else b) = b ↔ _
  cases isZero b with
  | true => simp
  | false => simp

/-- A value that occurs is what comes out, unless it is a zero that is not taken over. -/
theorem mergeLeaf_eq_self {a b : Leaf} (h : a.kind = b.kind) :
    mergeLeaf a b = b ↔ Leaf.isFlag b = true ∨ Leaf.isZero b = false ∨ a = b := by
  have hflag {p q : Prop} (hpq : p ↔ q) : p ↔ false = true ∨ q :=
    hpq.trans (or_iff_right nofun).symm
  cases a <;> cases b <;> cases h
  case bool.bool => exact iff_of_true rfl (.inl rfl)
  all_goals
    simp only [mergeLeaf, Leaf.string.injEq, Leaf.int.injEq, Leaf.strings.injEq, Leaf.float32.injEq]
    exact hflag lastNonzero_eq_right

theorem mergeLeaf_zero (a : Leaf) :
    mergeLeaf a (Leaf.zero a) = if Leaf.isFlag a then .bool false else a := by
  cases a <;> rfl

/-! ## Records -/

variable (e : DirectEncoding)

/-- A structure that is decoded and merged leaf by leaf.  Its sections come after its leaves. -/
structure Record (τ : Type) where
  slots : List (Slot e.Number τ)
  zero : τ
  merge : τ → τ → τ
  leaves : τ → List Leaf
  sections : Nat
  writes : WritesFrom leaves 0
    ((leaves zero).map (fun leaf ↦ some leaf.kind) ++ List.replicate sections none) slots
  zero_leaves (c : τ) : (leaves c).map Leaf.zero = leaves zero := by intros; rfl
  merge_leaves (a b : τ) : leaves (merge a b) = List.zipWith mergeLeaf (leaves a) (leaves b) := by
    intros; rfl

/-- `AtomicNoizeConfig`. -/
def atomicNoizeRecord : Record e PreflightBind.AtomicNoizeConfig where
  slots := atomicNoizeSlots e
  zero := default
  merge := mergeAtomicNoizeConfig
  leaves c := [.string c.i1, .string c.i2, .string c.i3, .string c.i4, .string c.i5, .int c.s1,
    .int c.s2, .int c.jc, .int c.jmin, .int c.jmax, .int c.jcAfterI1, .int c.jcBeforeHS,
    .int c.jcAfterHS, .int c.junkInterval, .bool c.allowZeroSize, .int c.handshakeDelay]
  sections := 0
  writes := by
    refine ⟨writes_string ?_, writes_string ?_, writes_string ?_, writes_string ?_,
      writes_string ?_, writes_int ?_, writes_int ?_, writes_int ?_, writes_int ?_, writes_int ?_,
      writes_int ?_, writes_int ?_, writes_int ?_, writes_int ?_, writes_bool ?_,
      writes_int ?_, trivial⟩
    all_goals exact fun _ _ ↦ rfl

/-- `NoizeConfig`. -/
def noizeRecord : Record e NoizeConfig where
  slots := noizeSlots e
  zero := default
  merge := mergeNoizeConfig
  leaves c := [.string c.i1, .string c.i2, .string c.i3, .string c.i4, .string c.i5,
    .int c.fragmentSize, .bool c.fragmentInitial, .int c.fragmentDelay, .int c.paddingMin,
    .int c.paddingMax, .bool c.randomPadding, .int c.jc, .int c.jmin, .int c.jmax,
    .int c.jcBeforeHS, .int c.jcAfterI1, .int c.jcDuringHS, .int c.jcAfterHS, .int c.junkInterval,
    .bool c.junkRandom, .string c.mimicProtocol, .bool c.customWrapper, .int c.handshakeDelay,
    .int c.packetDelay, .bool c.randomDelay, .int c.delayMin, .int c.delayMax,
    .bool c.sniFragmentation, .int c.sniFragment, .strings c.fakeALPN, .bool c.reversedOrder,
    .bool c.duplicatePackets, .bool c.allowZeroSize, .bool c.useTimestamp, .bool c.useNonce,
    .bool c.randomizeInitial, .float32 c.fakeLoss]
  sections := 0
  writes := by
    refine ⟨writes_string ?_, writes_string ?_, writes_string ?_, writes_string ?_,
      writes_string ?_, writes_int ?_, writes_bool ?_, writes_int ?_, writes_int ?_, writes_int ?_,
      writes_bool ?_, writes_int ?_, writes_int ?_, writes_int ?_, writes_int ?_, writes_int ?_,
      writes_int ?_, writes_int ?_, writes_int ?_, writes_bool ?_, writes_string ?_, writes_bool ?_,
      writes_int ?_, writes_int ?_, writes_bool ?_, writes_int ?_, writes_int ?_, writes_bool ?_,
      writes_int ?_, writes_strings ?_, writes_bool ?_, writes_bool ?_, writes_bool ?_,
      writes_bool ?_, writes_bool ?_, writes_bool ?_, writes_float32 ?_, trivial⟩
    all_goals exact fun _ _ ↦ rfl

/-- `ConfigMetadata`. -/
def metadataRecord : Record e ConfigMetadata where
  slots := configMetadataSlots e
  zero := default
  merge := mergeMetadata
  leaves c := [.string c.name, .string c.description, .string c.author, .string c.createdAt]
  sections := 0
  writes := by
    refine ⟨writes_string ?_, writes_string ?_, writes_string ?_, writes_string ?_, trivial⟩
    all_goals exact fun _ _ ↦ rfl

/-- `WireGuardNoize`. -/
def wireGuardRecord : Record e WireGuardNoize where
  slots := wireGuardNoizeSlots e
  zero := default
  merge := mergeWireGuardConfig
  leaves w := [.bool w.enabled, .string w.preset]
  sections := 1
  writes := by
    refine ⟨writes_bool ?_, writes_string ?_, writes_pointer ?_, trivial⟩
    all_goals exact fun _ _ ↦ rfl

/-- `MASQUENoize`. -/
def masqueRecord : Record e MASQUENoize where
  slots := masqueNoizeSlots e
  zero := default
  merge := mergeMASQUEConfig
  leaves m := [.bool m.enabled, .string m.preset]
  sections := 1
  writes := by
    refine ⟨writes_bool ?_, writes_string ?_, writes_pointer ?_, trivial⟩
    all_goals exact fun _ _ ↦ rfl

namespace Record

variable {e} {τ : Type} (r : Record e τ)

/-- The last value that occurs for a leaf in the entries of a section. -/
def occurrence (entries : Option (List (Bytes × Document e.Number))) (i : Nat) : Option Leaf :=
  entries.bind fun entries ↦ ((r.leaves r.zero)[i]?).bind fun leaf ↦
    lastLeaf e.toEncoding (r.slots.map (·.name)) leaf.kind i entries

variable {r} {entries : Option (List (Bytes × Document e.Number))} {i : Nat} {leaf : Leaf}

theorem getElem?_zero {c : τ} (h : (r.leaves c)[i]? = some leaf) :
    (r.leaves r.zero)[i]? = some (Leaf.zero leaf) := by
  rw [← r.zero_leaves c, List.getElem?_map, h]
  rfl

theorem kind_occurrence {c : τ} (h : (r.leaves c)[i]? = some leaf) {v : Leaf}
    (hv : r.occurrence entries i = some v) : v.kind = leaf.kind ∧ entries.isSome = true := by
  obtain ⟨es, rfl, hlast⟩ := Option.bind_eq_some_iff.mp hv
  rw [getElem?_zero h, Option.bind_some] at hlast
  refine ⟨(kind_of_lastLeaf hlast).trans ?_, rfl⟩
  cases leaf <;> rfl

/-- A section is laid over another leaf by leaf: with what occurs, or with zero. -/
theorem getElem?_mergeSection {a v : Option τ} (hreads : ReadsAs r.slots r.zero entries v)
    (h : (r.leaves (a.getD r.zero))[i]? = some leaf) :
    (r.leaves ((mergeSection r.merge r.zero a v).getD r.zero))[i]? =
      some (if entries.isSome = true then
        mergeLeaf leaf ((r.occurrence entries i).getD (Leaf.zero leaf))
        else leaf) := by
  cases entries with
  | none =>
    cases v with
    | none => exact h
    | some _ => cases hreads
  | some es =>
    cases v with
    | none => cases hreads
    | some b =>
      have hrun : unmarshalEntries r.slots es r.zero = some b := Option.some.inj hreads
      have hzero := getElem?_zero h
      have hkind : ((r.leaves r.zero).map (fun leaf ↦ some leaf.kind) ++
          List.replicate r.sections none)[i]? = some (some (Leaf.zero leaf).kind) := by
        rw [List.getElem?_append_left, List.getElem?_map, hzero]
        · rfl
        · rw [List.length_map]
          exact (List.getElem?_eq_some_iff.mp hzero).1
      have hread := unmarshalEntries_leaf r.writes hkind (List.getElem?_eq_some_iff.mp hzero).1 hrun
      have hoccurrence : r.occurrence (some es) i =
          lastLeaf e.toEncoding (r.slots.map (·.name)) (Leaf.zero leaf).kind i es := by
        rw [occurrence, Option.bind_some, hzero, Option.bind_some]
      rw [← hoccurrence, hzero] at hread
      rw [mergeSection, Option.getD_some, r.merge_leaves, List.getElem?_zipWith, h, hread,
        Option.isSome_some, if_pos rfl]
      cases r.occurrence (some es) i <;> rfl

end Record

/-! ## Places in the tree of sections -/

/-- A section of a configuration, with the entries that a document has for it. -/
structure Place where
  Part : Type
  record : Record e Part
  get : UnifiedNoizeConfig → Option Part
  entries : List (Bytes × Document e.Number) → Option (List (Bytes × Document e.Number))
  get_mergeInto (c o : UnifiedNoizeConfig) :
    get (mergeInto c o) = mergeSection record.merge record.zero (get c) (get o)
  reads {es : List (Bytes × Document e.Number)} {o : UnifiedNoizeConfig} :
    unmarshalEntries (unifiedNoizeSlots e) es default = some o →
      ReadsAs record.slots record.zero (entries es) (get o)

namespace Place

variable {e}

/-- A section of the configuration itself. -/
def outer {τ : Type} (r : Record e τ) (i : Nat) {name : Bytes} {get : UnifiedNoizeConfig → Option τ}
    {set : Option τ → UnifiedNoizeConfig → UnifiedNoizeConfig}
    (hslot : (unifiedNoizeSlots e)[i]? = some (.pointer name r.slots r.zero get set))
    (hget : ∀ v c, get (set v c) = v)
    (hother : ∀ j slot, (unifiedNoizeSlots e)[j]? = some slot → j ≠ i → Keeps get slot)
    (hdefault : get default = none)
    (hmerge : ∀ c o, get (mergeInto c o) = mergeSection r.merge r.zero (get c) (get o)) :
    Place e where
  Part := τ
  record := r
  get := get
  entries es := sectionEntries ((unifiedNoizeSlots e).map (·.name)) i es none
  get_mergeInto := hmerge
  reads hrun := by
    refine unmarshalEntries_section hslot hget hother hrun ?_
    rw [hdefault]
    rfl

def inner (p : Place e) {τ : Type} (r : Record e τ) (i : Nat) {name : Bytes}
    {get : p.Part → Option τ} {set : Option τ → p.Part → p.Part}
    (hslot : p.record.slots[i]? = some (.pointer name r.slots r.zero get set))
    (hget : ∀ v c, get (set v c) = v)
    (hother : ∀ j slot, p.record.slots[j]? = some slot → j ≠ i → Keeps get slot)
    (hzero : get p.record.zero = none)
    (hmerge : ∀ a b, get (p.record.merge a b) = mergeSection r.merge r.zero (get a) (get b)) :
    Place e where
  Part := τ
  record := r
  get c := (p.get c).bind get
  entries es := (p.entries es).bind (sectionEntries (p.record.slots.map (·.name)) i · none)
  get_mergeInto c o := by
    rw [p.get_mergeInto]
    cases p.get o with
    | none => rfl
    | some b =>
      rw [mergeSection, Option.bind_some, Option.bind_some, hmerge]
      cases p.get c with
      | none => rw [Option.getD_none, hzero, Option.bind_none]
      | some a => rfl
  reads {es o} hrun := by
    have hreads := p.reads hrun
    generalize p.entries es = entries, p.get o = part at hreads
    cases entries <;> cases part <;> first | cases hreads | skip
    · rfl
    · refine unmarshalEntries_section hslot hget hother (Option.some.inj hreads) ?_
      rw [hzero]
      rfl

/-- The leaves of a section, which are zero if it is missing. -/
def leaves (p : Place e) (c : UnifiedNoizeConfig) : List Leaf :=
  p.record.leaves ((p.get c).getD p.record.zero)

end Place

/-- `WireGuard`. -/
def wireGuardPlace : Place e :=
  .outer (wireGuardRecord e) 1 rfl (fun _ _ ↦ rfl)
    (fun
      | 0, _, rfl, _ => keeps_string fun _ _ ↦ rfl
      | 1, _, _, hne => absurd rfl hne
      | 2, _, rfl, _ => keeps_pointer fun _ _ ↦ rfl
      | 3, _, rfl, _ => keeps_pointer fun _ _ ↦ rfl)
    rfl fun _ _ ↦ rfl

/-- `WireGuard.AtomicNoize`. -/
def atomicNoizePlace : Place e :=
  (wireGuardPlace e).inner (atomicNoizeRecord e) 2 rfl (fun _ _ ↦ rfl)
    (fun
      | 0, _, rfl, _ => keeps_bool fun _ _ ↦ rfl
      | 1, _, rfl, _ => keeps_string fun _ _ ↦ rfl
      | 2, _, _, hne => absurd rfl hne)
    rfl fun _ _ ↦ rfl

/-- `MASQUE`. -/
def masquePlace : Place e :=
  .outer (masqueRecord e) 2 rfl (fun _ _ ↦ rfl)
    (fun
      | 0, _, rfl, _ => keeps_string fun _ _ ↦ rfl
      | 1, _, rfl, _ => keeps_pointer fun _ _ ↦ rfl
      | 2, _, _, hne => absurd rfl hne
      | 3, _, rfl, _ => keeps_pointer fun _ _ ↦ rfl)
    rfl fun _ _ ↦ rfl

/-- `MASQUE.Config`. -/
def configPlace : Place e :=
  (masquePlace e).inner (noizeRecord e) 2 rfl (fun _ _ ↦ rfl)
    (fun
      | 0, _, rfl, _ => keeps_bool fun _ _ ↦ rfl
      | 1, _, rfl, _ => keeps_string fun _ _ ↦ rfl
      | 2, _, _, hne => absurd rfl hne)
    rfl fun _ _ ↦ rfl

/-- `Metadata`. -/
def metadataPlace : Place e :=
  .outer (metadataRecord e) 3 rfl (fun _ _ ↦ rfl)
    (fun
      | 0, _, rfl, _ => keeps_string fun _ _ ↦ rfl
      | 1, _, rfl, _ => keeps_pointer fun _ _ ↦ rfl
      | 2, _, rfl, _ => keeps_pointer fun _ _ ↦ rfl
      | 3, _, _, hne => absurd rfl hne)
    rfl fun _ _ ↦ rfl

def places : List (Place e) :=
  [wireGuardPlace e, atomicNoizePlace e, masquePlace e, configPlace e, metadataPlace e]

/-! ## What comes out -/

variable {e}

/-- The entries of a document, of which only an object has any. -/
def topEntries : Document e.Number → List (Bytes × Document e.Number)
  | .object entries => entries
  | _ => []

/-- The value that occurs in a document for a field of a section. -/
def Place.occurrence (p : Place e) (d : Document e.Number) (i : Nat) : Option Leaf :=
  p.record.occurrence (p.entries (topEntries d)) i

/-- The value that occurs in a document for `Version`. -/
def versionOccurrence (d : Document e.Number) : Option Leaf :=
  lastLeaf e.toEncoding ((unifiedNoizeSlots e).map (·.name)) .string 0 (topEntries d)

/-- A field that does not occur in the document has the value of the base, and one that occurs has
the value that occurs. -/
structure Follows (d : Document e.Number) (base merged : UnifiedNoizeConfig) : Prop where
  version : Leaf.string merged.version = (versionOccurrence d).getD (.string base.version)
  fields : ∀ p ∈ places e, ∀ i leaf, (p.leaves base)[i]? = some leaf →
    (p.leaves merged)[i]? = some ((p.occurrence d i).getD leaf)

/-- What is needed of one field.  A value that occurs must not be a zero that is not taken over;
without one, a flag of a section that occurs is cleared, and another field is as it is in the
copy. -/
def LeafFits (occurs : Bool) (base copy : Leaf) : Option Leaf → Prop
  | some v => Leaf.isFlag v = true ∨ Leaf.isZero v = false ∨ copy = v
  | none => if occurs && Leaf.isFlag base then base = .bool false else copy = base

instance {occurs : Bool} {base copy : Leaf} :
    (v : Option Leaf) → Decidable (LeafFits occurs base copy v)
  | some v => inferInstanceAs (Decidable (Leaf.isFlag v = true ∨ Leaf.isZero v = false ∨ copy = v))
  | none => inferInstanceAs
      (Decidable (if occurs && Leaf.isFlag base then base = .bool false else copy = base))

/-- What is needed of a document and of the base, if the copy of the base has `copy leaf` where the
base has `leaf`. -/
structure Fits (d : Document e.Number) (base : UnifiedNoizeConfig) (copy : Leaf → Leaf) : Prop where
  version : copy (.string base.version) = (versionOccurrence d).getD (.string base.version)
  fields : ∀ p ∈ places e, ∀ i leaf, (p.leaves base)[i]? = some leaf →
    LeafFits (p.entries (topEntries d)).isSome leaf (copy leaf) (p.occurrence d i)

/-- A field after it was written to JSON and read again. -/
def Leaf.coerced (e : Encoding) : Leaf → Leaf
  | .string s => .string (e.coerce s)
  | .strings ss => .strings (ss.map e.coerce)
  | leaf => leaf

/-- `FakeLoss` is neither infinite nor a NaN. -/
def UnifiedNoizeConfig.FiniteLoss (c : UnifiedNoizeConfig) : Prop :=
  ∀ m config, c.masque = some m → m.config = some config → Finite32 config.fakeLoss

theorem isFlag_congr {a b : Leaf} (h : a.kind = b.kind) : Leaf.isFlag a = Leaf.isFlag b := by
  cases a <;> cases b <;> first | rfl | cases h

theorem mergeLeaf_follows_iff {occurs : Bool} {base copy : Leaf} (hkind : base.kind = copy.kind)
    {v : Option Leaf} (hv : ∀ w, v = some w → w.kind = copy.kind ∧ occurs = true) :
    (if occurs = true then mergeLeaf copy (v.getD (Leaf.zero copy)) else copy) = v.getD base ↔
      LeafFits occurs base copy v := by
  cases v with
  | some w =>
    obtain ⟨hw, rfl⟩ := hv w rfl
    rw [if_pos rfl, Option.getD_some, Option.getD_some]
    exact mergeLeaf_eq_self hw.symm
  | none =>
    rw [Option.getD_none, Option.getD_none, LeafFits, isFlag_congr hkind]
    cases occurs with
    | false => rfl
    | true =>
      rw [if_pos rfl, mergeLeaf_zero, Bool.true_and]
      split
      · exact eq_comm
      · rfl

variable {c o : UnifiedNoizeConfig} {d : Document e.Number} {malformed : Document e.Number → Bytes}

theorem Place.getElem?_leaves (p : Place e) {i : Nat} {leaf : Leaf}
    (h : (p.leaves c)[i]? = some leaf) (c' : UnifiedNoizeConfig) :
    ∃ leaf', (p.leaves c')[i]? = some leaf' ∧ leaf.kind = leaf'.kind := by
  have hzero := Record.getElem?_zero h
  rw [← p.record.zero_leaves ((p.get c').getD p.record.zero), List.getElem?_map] at hzero
  obtain ⟨leaf', hleaf', heq⟩ := Option.map_eq_some_iff.mp hzero
  refine ⟨leaf', hleaf', ?_⟩
  cases leaf <;> cases leaf' <;> first | rfl | cases heq

/-- What `FromJSON` accepts is read from the entries of the document. -/
theorem unmarshalEntries_of_fromJSON (h : fromJSON e malformed d = .ok o) :
    unmarshalEntries (unifiedNoizeSlots e) (topEntries d) default = some o := by
  unfold fromJSON at h
  split at h
  · cases h
  · rename_i config hconfig
    cases h
    cases d with
    | null => exact hconfig
    | leaf _ | array => cases hconfig
    | object entries => exact hconfig

theorem follows_iff_fits {base : UnifiedNoizeConfig} (h : fromJSON e malformed d = .ok o)
    (copy : Leaf → Leaf)
    (hversion : Leaf.string (deepCopy e base).version = copy (.string base.version))
    (hleaves : ∀ p ∈ places e, p.leaves (deepCopy e base) = (p.leaves base).map copy) :
    Follows d base (mergeConfigs e base o) ↔ Fits d base copy := by
  have hrun := unmarshalEntries_of_fromJSON h
  have hfield {p : Place e} (hp : p ∈ places e) {i : Nat} {leaf : Leaf}
      (hleaf : (p.leaves base)[i]? = some leaf) :
      (p.leaves (mergeConfigs e base o))[i]? = some ((p.occurrence d i).getD leaf) ↔
        LeafFits (p.entries (topEntries d)).isSome leaf (copy leaf) (p.occurrence d i) := by
    obtain ⟨leaf', hleaf', hkind⟩ := p.getElem?_leaves hleaf (deepCopy e base)
    obtain rfl : leaf' = copy leaf := by
      rw [hleaves p hp, List.getElem?_map, hleaf] at hleaf'
      exact (Option.some.inj hleaf').symm
    rw [Place.leaves, mergeConfigs, p.get_mergeInto,
      Record.getElem?_mergeSection (p.reads hrun) hleaf', Option.some_inj]
    exact mergeLeaf_follows_iff hkind fun v hv ↦ Record.kind_occurrence hleaf' hv
  constructor
  · intro hfollows
    refine ⟨hversion.symm.trans hfollows.version, fun p hp i leaf hleaf ↦ ?_⟩
    exact (hfield hp hleaf).mp (hfollows.fields p hp i leaf hleaf)
  · intro hfits
    refine ⟨hversion.trans hfits.version, fun p hp i leaf hleaf ↦ ?_⟩
    exact (hfield hp hleaf).mpr (hfits.fields p hp i leaf hleaf)

theorem Place.leaves_map {p : Place e} {c' : UnifiedNoizeConfig} {f : p.Part → p.Part}
    {g : Leaf → Leaf} (hget : p.get c' = (p.get c).map f)
    (hleaves : ∀ a, p.record.leaves (f a) = (p.record.leaves a).map g)
    (hzero : p.record.leaves p.record.zero = (p.record.leaves p.record.zero).map g) :
    p.leaves c' = (p.leaves c).map g := by
  rw [Place.leaves, Place.leaves, hget]
  cases p.get c with
  | none => exact hzero
  | some a => exact hleaves a

theorem leaves_coercedConfig (c : UnifiedNoizeConfig) :
    ∀ p ∈ places e, p.leaves (coercedConfig e c) =
      (p.leaves c).map (Leaf.coerced e.toEncoding) := by
  have hnil : e.coerce [] = [] := e.coerce_utf8 ⟨[], rfl⟩
  have hzero (p : Place e) : p.record.leaves p.record.zero =
      (p.record.leaves p.record.zero).map (Leaf.coerced e.toEncoding) := by
    rw [← p.record.zero_leaves p.record.zero, List.map_map]
    refine List.map_congr_left fun leaf _ ↦ ?_
    cases leaf with
    | string s => exact congrArg Leaf.string hnil.symm
    | _ => rfl
  simp only [places, List.forall_mem_cons]
  refine ⟨Place.leaves_map rfl (fun _ ↦ rfl) (hzero _),
    Place.leaves_map (f := coercedAtomicNoize e) ?_ (fun _ ↦ rfl) (hzero _),
    Place.leaves_map rfl (fun _ ↦ rfl) (hzero _),
    Place.leaves_map (f := coercedNoize e) ?_ (fun _ ↦ rfl) (hzero _),
    Place.leaves_map rfl (fun _ ↦ rfl) (hzero _), nofun⟩
  · change (c.wireGuard.map _).bind _ = (c.wireGuard.bind _).map _
    cases c.wireGuard <;> rfl
  · change (c.masque.map _).bind _ = (c.masque.bind _).map _
    cases c.masque <;> rfl

theorem leaves_default (c : UnifiedNoizeConfig) :
    ∀ p ∈ places e, p.leaves default = (p.leaves c).map Leaf.zero := by
  intro p hp
  rw [Place.leaves, Place.leaves, p.record.zero_leaves]
  have hnone : ∀ p ∈ places e, p.get default = none := by
    simp only [places, List.forall_mem_cons]
    exact ⟨rfl, rfl, rfl, rfl, rfl, nofun⟩
  rw [hnone p hp, Option.getD_none]

/-- A document that is accepted is followed if and only if nothing in it is lost with its zero
values and nothing of the base is lost in the copy, which replaces what is not UTF-8, and is empty
if JSON has no number for `FakeLoss`; it has one for every finite number. -/
theorem mergeConfigs_follows_iff (e : DirectEncoding) (malformed : Document e.Number → Bytes)
    (base : UnifiedNoizeConfig) (d : Document e.Number) {o : UnifiedNoizeConfig}
    (h : fromJSON e malformed d = .ok o) :
    (Follows d base (mergeConfigs e base o) ↔
      base.Writable e ∧ Fits d base (Leaf.coerced e.toEncoding) ∨
        ¬ base.Writable e ∧ Fits d base Leaf.zero) ∧
    ((∀ x, (e.ofFloat32 x).isSome ↔ Finite32 x) → (base.Writable e ↔ base.FiniteLoss)) := by
  constructor
  · by_cases hwritable : base.Writable e
    · have hcopy := deepCopy_of_writable hwritable
      rw [follows_iff_fits h (Leaf.coerced e.toEncoding) (by rw [hcopy]; rfl)
        (by rw [hcopy]; exact leaves_coercedConfig base)]
      simp [hwritable]
    · have hcopy := deepCopy_of_not_writable hwritable
      rw [follows_iff_fits h Leaf.zero (by rw [hcopy]; rfl)
        (by rw [hcopy]; exact leaves_default base)]
      simp [hwritable]
  · intro hstandard
    simp only [UnifiedNoizeConfig.Writable, UnifiedNoizeConfig.FiniteLoss, hstandard]

/-- The document `{"wireguard":{"enabled":true,"atomicnoize":{"Jc":3}}}`. -/
def raisedJc : Document StandardEncoding.exact.Number :=
  .object [(str "wireguard", .object [(str "enabled", .leaf (.bool true)),
    (str "atomicnoize", .object [(str "Jc", .leaf (.number (.inl 3)))])])]

/-- The document `{"version":"2.0","wireguard":{"atomicnoize":{"Jc":0}}}`. -/
def clearedJc : Document StandardEncoding.exact.Number :=
  .object [(str "version", .leaf (.string (str "2.0"))),
    (str "wireguard",
      .object [(str "atomicnoize", .object [(str "Jc", .leaf (.number (.inl 0)))])])]

theorem deepCopy_light :
    deepCopy StandardEncoding.exact.toDirectEncoding (createLightPreset []) =
      createLightPreset [] := by
  have hpreset : IsPreset .exact (createLightPreset []) :=
    isPreset_builtin [] (str "light", createLightPreset [])
      (List.mem_cons_of_mem _ List.mem_cons_self)
  rw [deepCopy_of_writable hpreset.doubled.writable]
  rfl

/-- Junk can be raised over the preset "light". -/
theorem mergeConfigs_follows_raised :
    ∃ o, fromJSON StandardEncoding.exact.toDirectEncoding plainHost.malformed raisedJc = .ok o ∧
      Follows raisedJc (createLightPreset [])
        (mergeConfigs StandardEncoding.exact.toDirectEncoding (createLightPreset []) o) := by
  have hread : fromJSON StandardEncoding.exact.toDirectEncoding plainHost.malformed raisedJc =
      .ok ⟨[], some ⟨true, [], some { (default : PreflightBind.AtomicNoizeConfig) with jc := 3 }⟩,
        none, none⟩ :=
    rfl
  have hleaves : ∀ p ∈ places StandardEncoding.exact.toDirectEncoding,
      ∀ i, (hi : i < (p.leaves (createLightPreset [])).length) →
        LeafFits (p.entries (topEntries raisedJc)).isSome
          ((p.leaves (createLightPreset [])).get ⟨i, hi⟩)
          (Leaf.coerced .exact ((p.leaves (createLightPreset [])).get ⟨i, hi⟩))
          (p.occurrence raisedJc i) := by
    decide +kernel
  have hfinite : (createLightPreset []).FiniteLoss := by
    rintro m config ⟨⟩ ⟨⟩
    decide
  obtain ⟨hiff, hwritable⟩ :=
    mergeConfigs_follows_iff StandardEncoding.exact.toDirectEncoding _
      (createLightPreset []) _ hread
  have hkept := (hwritable StandardEncoding.exact.isSome_ofFloat32).mpr hfinite
  refine ⟨_, hread, hiff.mpr (.inl ⟨hkept, rfl, ?_⟩)⟩
  intro p hp i leaf hleaf
  obtain ⟨hi, rfl⟩ := List.getElem?_eq_some_iff.mp hleaf
  exact hleaves p hp i hi

/-- Junk cannot be turned off over the preset "light": the zero is not taken over.  The version is
not taken over either, and the section is disabled because the document says nothing. -/
theorem mergeConfigs_follows_cleared :
    ∃ o, fromJSON StandardEncoding.exact.toDirectEncoding plainHost.malformed clearedJc = .ok o ∧
      ¬ Follows clearedJc (createLightPreset [])
        (mergeConfigs StandardEncoding.exact.toDirectEncoding (createLightPreset []) o) := by
  refine ⟨⟨str "2.0", some ⟨false, [], some default⟩, none, none⟩, rfl, fun hfollows ↦ ?_⟩
  have hjc :=
    hfollows.fields (atomicNoizePlace _) (List.mem_cons_of_mem _ List.mem_cons_self) 7 (.int 2) rfl
  rw [mergeConfigs, deepCopy_light] at hjc
  exact absurd hjc (by decide +kernel)

end Vwarp.Config.Noize
