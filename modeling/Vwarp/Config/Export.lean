import Vwarp.Config.Unified
import Vwarp.Masque.Noize.File

/-!
# Exported presets

`SaveToFile` writes a `noize.UnifiedNoizeConfig`, and `--config` reads the file as a
`config.UnifiedConfig`, which is another structure: the blocks of parameters are raw messages
in it, and `Validate` asks for what the first structure does not have.

What is written is read back section by section (`load_document`), with the parameters of every
block (`getNoizeConfig_loadedOf`).  What stands between a file and its use is the path, which is cut
at a separator that it may not have, and `Validate`: `usable_iff`.

The operating system is given by its answers, and so are the texts of errors from outside.
-/

namespace Vwarp.Config

open Vwarp.Go Vwarp.Go.Json Vwarp.Wireguard Vwarp.Masque.Noize

variable (e : DirectEncoding)

/-! ## The blocks of parameters -/

/-- The fields of `AtomicNoizeConfig`, which have no tags. -/
def atomicNoizeColumns : List (Column e.Number PreflightBind.AtomicNoizeConfig) := [
  .string e.toEncoding (str "I1") (·.i1) fun v c ↦ { c with i1 := v },
  .string e.toEncoding (str "I2") (·.i2) fun v c ↦ { c with i2 := v },
  .string e.toEncoding (str "I3") (·.i3) fun v c ↦ { c with i3 := v },
  .string e.toEncoding (str "I4") (·.i4) fun v c ↦ { c with i4 := v },
  .string e.toEncoding (str "I5") (·.i5) fun v c ↦ { c with i5 := v },
  .int e.toEncoding (str "S1") (·.s1) fun v c ↦ { c with s1 := v },
  .int e.toEncoding (str "S2") (·.s2) fun v c ↦ { c with s2 := v },
  .int e.toEncoding (str "Jc") (·.jc) fun v c ↦ { c with jc := v },
  .int e.toEncoding (str "Jmin") (·.jmin) fun v c ↦ { c with jmin := v },
  .int e.toEncoding (str "Jmax") (·.jmax) fun v c ↦ { c with jmax := v },
  .int e.toEncoding (str "JcAfterI1") (·.jcAfterI1) fun v c ↦ { c with jcAfterI1 := v },
  .int e.toEncoding (str "JcBeforeHS") (·.jcBeforeHS) fun v c ↦ { c with jcBeforeHS := v },
  .int e.toEncoding (str "JcAfterHS") (·.jcAfterHS) fun v c ↦ { c with jcAfterHS := v },
  .int e.toEncoding (str "JunkInterval") (·.junkInterval) fun v c ↦ { c with junkInterval := v },
  .bool (str "AllowZeroSize") (·.allowZeroSize) fun v c ↦ { c with allowZeroSize := v },
  .int e.toEncoding (str "HandshakeDelay") (·.handshakeDelay)
    fun v c ↦ { c with handshakeDelay := v }]

/-- The configuration with its strings as `encoding/json` keeps them. -/
def coercedAtomicNoize (c : PreflightBind.AtomicNoizeConfig) : PreflightBind.AtomicNoizeConfig :=
  { c with
    i1 := e.coerce c.i1, i2 := e.coerce c.i2, i3 := e.coerce c.i3, i4 := e.coerce c.i4
    i5 := e.coerce c.i5 }

/-- The same of a `NoizeConfig`. -/
def coercedNoize (c : NoizeConfig) : NoizeConfig :=
  { c with
    i1 := e.coerce c.i1, i2 := e.coerce c.i2, i3 := e.coerce c.i3, i4 := e.coerce c.i4
    i5 := e.coerce c.i5, mimicProtocol := e.coerce c.mimicProtocol
    fakeALPN := c.fakeALPN.map e.coerce }

variable {e}

variable {object : Object e.Number}

theorem unmarshal_atomicNoize {c : PreflightBind.AtomicNoizeConfig}
    (h : marshal (atomicNoizeColumns e) c = some object) :
    unmarshal ((atomicNoizeColumns e).map (·.toField)) object default =
      some (coercedAtomicNoize e c) := by
  have hnodup : (((atomicNoizeColumns e).map (·.toField)).map (·.name)).Nodup := by
    simp only [atomicNoizeColumns, List.map_cons, List.map_nil, Column.string, Column.int,
      Column.bool, Field.string, Field.int, Field.bool]
    decide +kernel
  rw [unmarshal_marshal hnodup (fun _ hmem ↦ List.mem_map_of_mem hmem) h]
  simp only [atomicNoizeColumns, List.foldlM_cons, List.foldlM_nil, Column.restore_string,
    Column.restore_int, Column.restore_bool, Option.bind_eq_bind, Option.bind_some]
  rfl

/-- The names of the fields of `NoizeConfig` are different. -/
theorem nodup_noizeFields : ((noizeFields e.toEncoding).map (·.name)).Nodup := by
  simp only [noizeFields, noizeColumns, List.map_cons, List.map_nil, Column.omitempty,
    Column.string, Column.int, Column.bool, Column.strings, Column.float32, Field.string, Field.int,
    Field.bool, Field.strings, Field.float32]
  decide +kernel

/-- A block is an error if its `FakeLoss` is. -/
theorem isSome_marshal_noize {c : NoizeConfig} :
    (marshal (noizeColumns e.toEncoding) c).isSome ↔ (e.ofFloat32 c.fakeLoss).isSome := by
  rw [marshal_isSome]
  simp [noizeColumns]

theorem unmarshal_noize {c : NoizeConfig}
    (h : marshal (noizeColumns e.toEncoding) c = some object) :
    unmarshal (noizeFields e.toEncoding) object default = some (coercedNoize e c) := by
  have hloss := isSome_marshal_noize.mp (Option.isSome_iff_exists.mpr ⟨object, h⟩)
  rw [unmarshal_marshal nodup_noizeFields (fun _ hmem ↦ List.mem_map_of_mem hmem) h]
  -- a field that was left out is still empty when its turn comes
  iterate 5 refine foldlM_restore (Column.restore_string_omitempty _ _ _ rfl) ?_
  refine foldlM_restore (Column.restore_int_omitempty _ _ _ rfl) ?_
  refine foldlM_restore (Column.restore_bool_omitempty _ _ rfl) ?_
  iterate 3 refine foldlM_restore (Column.restore_int _ _ _) ?_
  refine foldlM_restore (Column.restore_bool _ _) ?_
  iterate 8 refine foldlM_restore (Column.restore_int _ _ _) ?_
  refine foldlM_restore (Column.restore_bool _ _) ?_
  refine foldlM_restore (Column.restore_string _ _ _) ?_
  refine foldlM_restore (Column.restore_bool _ _) ?_
  iterate 2 refine foldlM_restore (Column.restore_int _ _ _) ?_
  refine foldlM_restore (Column.restore_bool _ _) ?_
  iterate 2 refine foldlM_restore (Column.restore_int _ _ _) ?_
  refine foldlM_restore (Column.restore_bool _ _) ?_
  refine foldlM_restore (Column.restore_int _ _ _) ?_
  refine foldlM_restore (Column.restore_strings _ _ _) ?_
  iterate 6 refine foldlM_restore (Column.restore_bool _ _) ?_
  exact foldlM_restore (Column.restore_float32 _ _ _ hloss) rfl

/-! ## Saving -/

/-- `ConfigMetadata`. -/
structure ConfigMetadata where
  name : Bytes
  description : Bytes
  author : Bytes
  createdAt : Bytes

/-- `noize.UnifiedNoizeConfig`, with the fields that are only carried along. -/
structure FullNoizeConfig extends UnifiedNoizeConfig where
  version : Bytes
  wireGuardPreset : Bytes
  masquePreset : Bytes
  metadata : Option ConfigMetadata

variable (e)

/-- A string with `omitempty`. -/
def stringEntry (name s : Bytes) : List (Bytes × Document e.Number) :=
  if s = [] then [] else [(name, .leaf (.string (e.coerce s)))]

/-- A pointer with `omitempty`; `none` is an error. -/
def pointerEntry {ν τ : Type} (name : Bytes) (write : τ → Option (Document ν)) :
    Option τ → Option (List (Bytes × Document ν))
  | none => some []
  | some v => (write v).map fun tree ↦ [(name, tree)]

variable {τ : Type} {name : Bytes}

variable {ν σ : Type} {write : τ → Option (Document ν)} {entries : List (Bytes × Document ν)}
  {slots : List (Slot e.Number σ)} {data tree : Document e.Number}

/-- The entry for a pointer that is not `nil`. -/
theorem pointerEntry_some {v : τ} (h : pointerEntry name write (some v) = some entries) :
    ∃ tree, write v = some tree ∧ entries = [(name, tree)] := by
  obtain ⟨tree, htree, rfl⟩ := Option.map_eq_some_iff.mp h
  exact ⟨tree, htree, rfl⟩

/-- What is written for a `WireGuardNoize`. -/
def wireGuardTree (preset : Bytes) (w : WireGuardNoize) : Option (Document e.Number) :=
  (pointerEntry (str "atomicnoize") (fun c ↦ (marshal (atomicNoizeColumns e) c).map .flat)
    w.atomicNoize).map fun block ↦
      .object ((str "enabled", .leaf (.bool w.enabled)) ::
        (stringEntry e (str "preset") preset ++ block))

/-- What is written for a `MASQUENoize`. -/
def masqueTree (preset : Bytes) (m : MASQUENoize) : Option (Document e.Number) :=
  (pointerEntry (str "config") (fun c ↦ (marshal (noizeColumns e.toEncoding) c).map .flat)
    m.config).map fun block ↦
      .object ((str "enabled", .leaf (.bool m.enabled)) ::
        (stringEntry e (str "preset") preset ++ block))

/-- What is written for a `ConfigMetadata`. -/
def metadataTree (m : ConfigMetadata) : Document e.Number :=
  .object (stringEntry e (str "name") m.name ++ stringEntry e (str "description") m.description ++
    stringEntry e (str "author") m.author ++ stringEntry e (str "created_at") m.createdAt)

/-- `ToJSON`. -/
def toJSON (c : FullNoizeConfig) : Option (Document e.Number) :=
  (pointerEntry (str "wireguard") (wireGuardTree e c.wireGuardPreset) c.wireGuard).bind
    fun wireGuard ↦
  (pointerEntry (str "masque") (masqueTree e c.masquePreset) c.masque).bind fun masque ↦
  (pointerEntry (str "metadata") (fun m ↦ some (metadataTree e m)) c.metadata).map fun metadata ↦
    .object (stringEntry e (str "version") c.version ++ wireGuard ++ masque ++ metadata)

/-- `strings.LastIndexAny(s, "/\\")`. -/
def lastSeparator : Bytes → Int
  | [] => -1
  | c :: s =>
    let rest := lastSeparator s
    if rest ≠ -1 then rest + 1 else if c = ch '/' ∨ c = ch '\\' then 0 else -1

/-- The slice expression `s[:hi]`, which panics if `hi` is out of range. -/
def sliceTo (s : Bytes) (hi : Int) : Option Bytes :=
  if 0 ≤ hi ∧ hi ≤ s.length then some (s.take hi.toNat) else none

/-- The directory that `SaveToFile` creates; `none` is a panic. -/
def exportDir (filepath : Bytes) : Option Bytes :=
  if filepath.getLast? = some (ch '/') ∨ filepath.getLast? = some (ch '\\') then some filepath
  else sliceTo filepath (lastSeparator filepath)

/-- What comes from outside: the errors of the operating system, and the texts of those of
`encoding/json`. -/
structure Host (ν : Type) where
  mkdirAll : Bytes → Option Bytes
  writeFile : Bytes → Option Bytes
  noFile : Bytes
  unsupported : Bytes
  malformed : Document ν → Bytes

abbrev Disk (ν : Type) := Bytes → Option (Document ν)

variable (host : Host e.Number)

/-- `SaveToFile`: a panic, an error, or the files afterwards. -/
def saveToFile (c : FullNoizeConfig) (filepath : Bytes) (disk : Disk e.Number) :
    Option (Except Bytes (Disk e.Number)) :=
  (exportDir filepath).map fun dir ↦
    match host.mkdirAll dir with
    | some err => .error (str "failed to create directory " ++ dir ++ str ": " ++ err)
    | none =>
      match toJSON e c with
      | none => .error (str "failed to marshal config: " ++ host.unsupported)
      | some data =>
        match host.writeFile filepath with
        | some err => .error (str "failed to write config file " ++ filepath ++ str ": " ++ err)
        | none => .ok (Function.update disk filepath (some data))

/-! ## Loading -/

/-- A raw message that is read into a pointer to a structure. -/
def parseRaw {σ : Type} (fields : List (Field e.Number σ)) (zero : σ) (raw : Document e.Number) :
    Except Bytes (Option σ) :=
  match unmarshalFlat fields zero raw with
  | some v => .ok v
  | none => .error (host.malformed raw)

/-- A field of type `string` that is not used here. -/
def unusedString {ν σ : Type} (name : Bytes) : Slot ν σ := .ofField (.string name fun _ c ↦ c)

/-- A field of type `bool` that is not used here. -/
def unusedBool {ν σ : Type} (name : Bytes) : Slot ν σ := .ofField (.bool name fun _ c ↦ c)

/-- The fields of `WireGuardConfig`. -/
def wireGuardSlots : List (Slot e.Number WireGuardConfig) := [
  .ofField (.bool (str "enabled") fun v c ↦ { c with enabled := v }),
  .ofField (.string (str "config") fun v c ↦ { c with config := v }),
  unusedString (str "reserved"),
  .ofField {
    name := str "fwmark"
    set
      | .number text, c =>
        (e.toInt text).bind fun n ↦ if 0 ≤ n ∧ n.toInt < 2 ^ 32 then some c else none
      | _, _ => none },
  .raw (str "atomicnoize") fun raw c ↦
    { c with atomicNoize :=
        raw.map (parseRaw e host ((atomicNoizeColumns e).map (·.toField)) default) }]

/-- The fields of `MASQUEConfig`. -/
def masqueSlots : List (Slot e.Number MASQUEConfig) := [
  .ofField (.bool (str "enabled") fun v c ↦ { c with enabled := v }),
  unusedBool (str "preferred"),
  .raw (str "config") fun raw c ↦
    { c with config := raw.map (parseRaw e host (noizeFields e.toEncoding) default) }]

/-- A pointer to a structure that is not used here. -/
def unusedPointer {ν σ : Type} (name : Bytes) (slots : List (Slot ν Unit)) : Slot ν σ :=
  .pointer name slots () (fun _ ↦ none) fun _ c ↦ c

/-- The fields of `ConfigMetadata`. -/
def metadataSlots : List (Slot e.Number Unit) := [
  unusedString (str "name"), unusedString (str "description"), unusedString (str "author"),
  unusedString (str "created_at")]

/-- The fields of `UnifiedConfig`. -/
def unifiedSlots : List (Slot e.Number UnifiedConfig) := [
  unusedString (str "version"),
  unusedString (str "bind"),
  .ofField (.string (str "endpoint") fun v c ↦ { c with endpoint := v }),
  unusedString (str "key"),
  unusedString (str "dns"),
  unusedString (str "test_url"),
  unusedString (str "proxy"),
  .pointer (str "wireguard") (wireGuardSlots e host) ⟨false, [], none⟩ (·.wireGuard)
    fun v c ↦ { c with wireGuard := v },
  .pointer (str "masque") (masqueSlots e host) ⟨false, none⟩ (·.masque)
    fun v c ↦ { c with masque := v },
  unusedPointer (str "psiphon") [unusedBool (str "enabled"), unusedString (str "country")],
  unusedPointer (str "metadata") (metadataSlots e)]

/-- `json.Unmarshal` of a document into a `UnifiedConfig`. -/
def unmarshalConfig : Document e.Number → Option UnifiedConfig
  | .null => some ⟨[], none, none⟩
  | .leaf _ => none
  | .array => none
  | .object entries => unmarshalEntries (unifiedSlots e host) entries ⟨[], none, none⟩

/-- `LoadFromFile`. -/
def loadFromFile (filepath : Bytes) (disk : Disk e.Number) : Except Bytes UnifiedConfig :=
  match disk filepath with
  | none => .error (str "failed to read config file " ++ filepath ++ str ": " ++ host.noFile)
  | some data =>
    match unmarshalConfig e host data with
    | none =>
      .error (str "failed to parse config file " ++ filepath ++ str ": " ++ host.malformed data)
    | some config => .ok config

/-! ## What is loaded after saving -/

def loadedOf (c : FullNoizeConfig) : UnifiedConfig where
  endpoint := []
  wireGuard := c.wireGuard.map fun w ↦
    ⟨w.enabled, [], w.atomicNoize.map fun config ↦ .ok (some (coercedAtomicNoize e config))⟩
  masque := c.masque.map fun m ↦
    ⟨m.enabled, m.config.map fun config ↦ .ok (some (coercedNoize e config))⟩

variable {e}

theorem unmarshalEntries_unused
    (h : findSlot slots name = some (unusedString name) ∨ findSlot slots name = none) (s : Bytes)
    (c : σ) : unmarshalEntries slots (stringEntry e name s) c = some c := by
  unfold stringEntry
  split
  · rfl
  · rcases h with h | h
    all_goals
      rw [unmarshalEntries, h]
      rfl

/-- A pointer leaves the structure as it is if it is `nil`, and goes into its slot otherwise. -/
theorem unmarshalEntries_pointerEntry {slots : List (Slot ν σ)} {slot : Slot ν σ} {p : Option τ}
    {c d : σ} (h : pointerEntry name write p = some entries)
    (hslot : findSlot slots name = some slot) (hnone : p = none → c = d)
    (hsome : ∀ v tree, p = some v → write v = some tree → slot.set tree c = some d) :
    unmarshalEntries slots entries c = some d := by
  cases p with
  | none =>
    cases h
    exact congrArg some (hnone rfl)
  | some v =>
    obtain ⟨tree, htree, rfl⟩ := pointerEntry_some h
    rw [unmarshalEntries, hslot]
    exact Option.bind_eq_some_iff.mpr ⟨d, hsome v tree rfl htree, rfl⟩

theorem parseRaw_flat {fields : List (Field e.Number τ)} {zero v : τ}
    (h : unmarshal fields object zero = some v) :
    parseRaw e host fields zero (.flat object) = .ok (some v) := by
  rw [parseRaw, unmarshalFlat_flat, h]
  rfl

/-- A section is read: its preset, and its block into the slot for it. -/
theorem unmarshalEntries_block {slot : Slot e.Number σ}
    {columns : List (Column e.Number τ)} {p : Option τ} {block : List (Bytes × Document e.Number)}
    {preset : Bytes} {b c d : σ}
    (h : pointerEntry name (fun v ↦ (marshal columns v).map .flat) p = some block)
    (hpreset : unmarshalEntries slots (stringEntry e (str "preset") preset) b = some c)
    (hslot : findSlot slots name = some slot)
    (hnone : p = none → c = d)
    (hsome : ∀ v object, p = some v → marshal columns v = some object →
      slot.set (.flat object) c = some d) :
    unmarshalEntries slots (stringEntry e (str "preset") preset ++ block) b = some d := by
  rw [unmarshalEntries_append, hpreset, Option.bind_some]
  refine unmarshalEntries_pointerEntry h hslot hnone fun v raw hv hraw ↦ ?_
  obtain ⟨object, hobject, rfl⟩ := Option.map_eq_some_iff.mp hraw
  exact hsome v object hv hobject

theorem unmarshal_wireGuardTree {preset : Bytes} {w : WireGuardNoize}
    (h : wireGuardTree e preset w = some tree) :
    ∃ entries, tree = .object entries ∧
      unmarshalEntries (wireGuardSlots e host) entries ⟨false, [], none⟩ =
        some ⟨w.enabled, [], w.atomicNoize.map fun config ↦
          .ok (some (coercedAtomicNoize e config))⟩ := by
  obtain ⟨block, hblock, rfl⟩ := Option.map_eq_some_iff.mp h
  refine ⟨_, rfl, unmarshalEntries_block hblock (unmarshalEntries_unused (.inr rfl) _ _) rfl
    (fun hnil ↦ by rw [hnil]; rfl) ?_⟩
  intro config object hconfig hobject
  rw [hconfig, Option.map_some, ← parseRaw_flat host (unmarshal_atomicNoize hobject)]
  rfl

theorem unmarshal_masqueTree {preset : Bytes} {m : MASQUENoize}
    (h : masqueTree e preset m = some tree) :
    ∃ entries, tree = .object entries ∧
      unmarshalEntries (masqueSlots e host) entries ⟨false, none⟩ =
        some ⟨m.enabled, m.config.map fun config ↦ .ok (some (coercedNoize e config))⟩ := by
  obtain ⟨block, hblock, rfl⟩ := Option.map_eq_some_iff.mp h
  refine ⟨_, rfl, unmarshalEntries_block hblock (unmarshalEntries_unused (.inr rfl) _ _) rfl
    (fun hnil ↦ by rw [hnil]; rfl) ?_⟩
  intro config object hconfig hobject
  rw [hconfig, Option.map_some, ← parseRaw_flat host (unmarshal_noize hobject)]
  rfl

theorem unmarshal_metadataTree (m : ConfigMetadata) :
    ∃ entries, metadataTree e m = .object entries ∧
      unmarshalEntries (metadataSlots e) entries () = some () := by
  refine ⟨_, rfl, ?_⟩
  have hname : findSlot (metadataSlots e) (str "name") = some (unusedString (str "name")) := rfl
  have hdescription : findSlot (metadataSlots e) (str "description") =
    some (unusedString (str "description")) := rfl
  have hauthor : findSlot (metadataSlots e) (str "author") = some (unusedString (str "author")) :=
    rfl
  have hcreatedAt : findSlot (metadataSlots e) (str "created_at") =
    some (unusedString (str "created_at")) := rfl
  rw [unmarshalEntries_append, unmarshalEntries_append, unmarshalEntries_append,
    unmarshalEntries_unused (.inl hname), Option.bind_some,
    unmarshalEntries_unused (.inl hdescription), Option.bind_some,
    unmarshalEntries_unused (.inl hauthor), Option.bind_some,
    unmarshalEntries_unused (.inl hcreatedAt)]

variable {c : FullNoizeConfig}

/-- What was written is loaded, section by section. -/
theorem load_document (h : toJSON e c = some data) :
    unmarshalConfig e host data = some (loadedOf e c) := by
  obtain ⟨wireGuard, hw, h⟩ := Option.bind_eq_some_iff.mp h
  obtain ⟨masque, hm, h⟩ := Option.bind_eq_some_iff.mp h
  obtain ⟨metadata, hmeta, rfl⟩ := Option.map_eq_some_iff.mp h
  have hwireGuard : unmarshalEntries (unifiedSlots e host) wireGuard ⟨[], none, none⟩ =
      some ⟨[], (loadedOf e c).wireGuard, none⟩ := by
    refine unmarshalEntries_pointerEntry hw rfl (fun hnil ↦ by rw [loadedOf, hnil]; rfl) ?_
    intro w tree hsection htree
    obtain ⟨entries, rfl, hentries⟩ := unmarshal_wireGuardTree host htree
    rw [loadedOf, hsection]
    exact congrArg (Option.map _) hentries
  have hmasque : unmarshalEntries (unifiedSlots e host) masque
      ⟨[], (loadedOf e c).wireGuard, none⟩ = some (loadedOf e c) := by
    refine unmarshalEntries_pointerEntry hm rfl (fun hnil ↦ by rw [loadedOf, hnil]; rfl) ?_
    intro m tree hsection htree
    obtain ⟨entries, rfl, hentries⟩ := unmarshal_masqueTree host htree
    rw [loadedOf, hsection]
    exact congrArg (Option.map _) hentries
  have hmetadata : unmarshalEntries (unifiedSlots e host) metadata (loadedOf e c) =
      some (loadedOf e c) := by
    refine unmarshalEntries_pointerEntry hmeta rfl (fun _ ↦ rfl) ?_
    intro m tree _ htree
    obtain ⟨entries, hobject, hentries⟩ := unmarshal_metadataTree (e := e) m
    rw [← Option.some.inj htree, hobject]
    exact congrArg (Option.map _) hentries
  have hversion : findSlot (unifiedSlots e host) (str "version") =
    some (unusedString (str "version")) := rfl
  rw [unmarshalConfig, unmarshalEntries_append, unmarshalEntries_append, unmarshalEntries_append,
    unmarshalEntries_unused (.inl hversion), Option.bind_some, hwireGuard,
    Option.bind_some, hmasque, Option.bind_some, hmetadata]

def UnifiedNoizeConfig.enabledSections (c : UnifiedNoizeConfig) : UnifiedNoizeConfig where
  wireGuard := c.wireGuard.filter (·.enabled)
  masque := c.masque.filter (·.enabled)

/-- The sections that are enabled have their blocks of parameters. -/
structure UnifiedNoizeConfig.HasBlocks (c : UnifiedNoizeConfig) : Prop where
  wireGuard : ∀ w, c.wireGuard = some w → w.enabled = true → w.atomicNoize.isSome
  masque : ∀ m, c.masque = some m → m.enabled = true → m.config.isSome

/-- `Validate` accepts a file that was exported if it has a section, but not an enabled one for
WireGuard: it has neither the path nor the endpoint that `Validate` then asks for. -/
theorem validate_loadedOf (c : FullNoizeConfig) :
    (loadedOf e c).validate = none ↔
      (c.wireGuard.isSome ∨ c.masque.isSome) ∧ ∀ w, c.wireGuard = some w → w.enabled = false := by
  cases hw : c.wireGuard with
  | none =>
    cases hm : c.masque with
    | none | some m => simp [UnifiedConfig.validate, loadedOf, hw, hm]
  | some w => simp [UnifiedConfig.validate, loadedOf, hw]

/-- `GetNoizeConfig` returns the sections that are enabled, with their parameters. -/
theorem getNoizeConfig_loadedOf (hblocks : c.HasBlocks) :
    (loadedOf e c).getNoizeConfig = .ok
      ⟨c.enabledSections.wireGuard.map
        fun w ↦ ⟨w.enabled, w.atomicNoize.map (coercedAtomicNoize e)⟩,
        c.enabledSections.masque.map fun m ↦ ⟨m.enabled, m.config.map (coercedNoize e)⟩⟩ := by
  have hwireGuard : (loadedOf e c).getWireGuard = .ok (c.enabledSections.wireGuard.map
      fun w ↦ ⟨w.enabled, w.atomicNoize.map (coercedAtomicNoize e)⟩) := by
    rcases hw : c.wireGuard with _ | ⟨_ | _, atomicNoize⟩
    on_goal 3 => obtain ⟨config, rfl⟩ := Option.isSome_iff_exists.mp (hblocks.wireGuard _ hw rfl)
    all_goals simp [UnifiedConfig.getWireGuard, loadedOf, UnifiedNoizeConfig.enabledSections, hw]
  have hmasque : (loadedOf e c).getMASQUE = .ok (c.enabledSections.masque.map
      fun m ↦ ⟨m.enabled, m.config.map (coercedNoize e)⟩) := by
    rcases hm : c.masque with _ | ⟨_ | _, config⟩
    on_goal 3 => obtain ⟨config, rfl⟩ := Option.isSome_iff_exists.mp (hblocks.masque _ hm rfl)
    all_goals simp [UnifiedConfig.getMASQUE, loadedOf, UnifiedNoizeConfig.enabledSections, hm]
  rw [UnifiedConfig.getNoizeConfig, hwireGuard, hmasque]
  rfl

/-- A block comes back as it was if `encoding/json` keeps its strings. -/
theorem coercedNoize_eq_self {c : NoizeConfig} :
    coercedNoize e c = c ↔ ∀ s ∈ c.texts, e.coerce s = s := by
  constructor
  · intro h
    have htexts : c.texts.map e.coerce = c.texts.map id :=
      calc c.texts.map e.coerce
        _ = (coercedNoize e c).texts := by simp [NoizeConfig.texts, coercedNoize]
        _ = c.texts := congrArg NoizeConfig.texts h
        _ = c.texts.map id := (List.map_id _).symm
    exact List.map_inj_left.mp htexts
  · intro h
    rw [NoizeConfig.texts, List.forall_mem_append] at h
    simp only [List.forall_mem_cons] at h
    obtain ⟨⟨h1, h2, h3, h4, h5, hmimic, -⟩, halpn⟩ := h
    rw [coercedNoize, h1, h2, h3, h4, h5, hmimic,
      (List.map_congr_left halpn).trans (List.map_id' _)]

/-! ## When an export can be used -/

/-- The sections can be written, if no `FakeLoss` is an error. -/
theorem isSome_toJSON (c : FullNoizeConfig) :
    (toJSON e c).isSome ↔ ∀ m config, c.masque = some m → m.config = some config →
      (e.ofFloat32 config.fakeLoss).isSome := by
  have hatomic (config : PreflightBind.AtomicNoizeConfig) :
      (marshal (atomicNoizeColumns e) config).isSome := by
    rw [marshal_isSome]
    simp [atomicNoizeColumns]
  have hpointer {τ : Type} (name : Bytes) (write : τ → Option (Document e.Number)) (p : Option τ) :
      (pointerEntry name write p).isSome ↔ ∀ v, p = some v → (write v).isSome := by
    cases p with
    | none | some v => simp [pointerEntry]
  have hwireGuard : (pointerEntry (str "wireguard") (wireGuardTree e c.wireGuardPreset)
      c.wireGuard).isSome := by
    simp only [wireGuardTree, hpointer, Option.isSome_map]
    exact fun _ _ config _ ↦ hatomic config
  have hmetadata : (pointerEntry (str "metadata") (fun m ↦ some (metadataTree e m))
      c.metadata).isSome := (hpointer _ _ _).mpr fun _ _ ↦ rfl
  obtain ⟨wireGuard, hw⟩ := Option.isSome_iff_exists.mp hwireGuard
  obtain ⟨metadata, hmeta⟩ := Option.isSome_iff_exists.mp hmetadata
  have hmasque : (toJSON e c).isSome ↔
      (pointerEntry (str "masque") (masqueTree e c.masquePreset) c.masque).isSome := by
    rw [toJSON, hw, hmeta]
    cases pointerEntry (str "masque") (masqueTree e c.masquePreset) c.masque with
    | none => rfl
    | some masque => exact Iff.rfl
  simp only [hmasque, masqueTree, hpointer, Option.isSome_map, isSome_marshal_noize]
  exact ⟨fun h m config hm ↦ h m hm config, fun h m hm config ↦ h m config hm⟩

def IsSeparator (c : UInt8) : Prop := c = ch '/' ∨ c = ch '\\'

instance (c : UInt8) : Decidable (IsSeparator c) := inferInstanceAs (Decidable (_ ∨ _))

theorem lastSeparator_spec (s : Bytes) :
    (lastSeparator s = -1 ∧ ∀ c ∈ s, ¬IsSeparator c) ∨
      0 ≤ lastSeparator s ∧ lastSeparator s < s.length ∧ ∃ c ∈ s, IsSeparator c := by
  induction s with
  | nil => exact .inl ⟨rfl, nofun⟩
  | cons c s ih =>
    rw [lastSeparator, List.length_cons, List.forall_mem_cons]
    rcases ih with ⟨hrest, hnone⟩ | ⟨hnonneg, hlt, d, hd, hsep⟩
    · rw [hrest, if_neg (by simp)]
      split_ifs with hc
      · exact .inr ⟨le_rfl, by omega, c, List.mem_cons_self, hc⟩
      · exact .inl ⟨rfl, hc, hnone⟩
    · rw [if_pos (by omega)]
      exact .inr ⟨by omega, by omega, d, List.mem_cons_of_mem _ hd, hsep⟩

variable {filepath : Bytes}

theorem isSome_exportDir : (exportDir filepath).isSome ↔ ∃ c ∈ filepath, IsSeparator c := by
  unfold exportDir
  split_ifs with hlast
  · refine iff_of_true rfl ?_
    exact hlast.elim (fun h ↦ ⟨_, List.mem_of_getLast? h, .inl rfl⟩)
      fun h ↦ ⟨_, List.mem_of_getLast? h, .inr rfl⟩
  · unfold sliceTo
    rcases lastSeparator_spec filepath with ⟨hnone, hall⟩ | ⟨hnonneg, hlt, hsome⟩
    · rw [hnone, if_neg (by omega)]
      exact iff_of_false nofun fun ⟨c, hc, hsep⟩ ↦ hall c hc hsep
    · rw [if_pos ⟨hnonneg, hlt.le⟩]
      exact iff_of_true rfl hsome

variable (e)

/-- The operating system does what `SaveToFile` asks for, and `encoding/json` can write the
configuration. -/
structure CanSave (c : FullNoizeConfig) (filepath : Bytes) : Prop where
  mkdirAll : ∀ dir, exportDir filepath = some dir → host.mkdirAll dir = none
  writeFile : host.writeFile filepath = none
  finite : ∀ m config, c.masque = some m → m.config = some config →
    (e.ofFloat32 config.fakeLoss).isSome

/-- `SaveToFile` does not panic, and when it succeeds then the file is accepted by `--config`
and has the sections that are enabled, with the same parameters. -/
def ExportUsable (c : FullNoizeConfig) (filepath : Bytes) : Prop :=
  ∀ disk : Disk e.Number, ∃ saved, saveToFile e host c filepath disk = some saved ∧
    ∀ disk', saved = .ok disk' →
      ∃ uc, loadFromFile e host filepath disk' = .ok uc ∧ uc.validate = none ∧
        uc.getNoizeConfig = .ok c.enabledSections

/-- The configuration has a section, but not an enabled one for WireGuard, and the strings of
its MASQUE block are kept. -/
structure Importable (c : UnifiedNoizeConfig) : Prop where
  some_section : c.wireGuard.isSome ∨ c.masque.isSome
  wireGuard_disabled : ∀ w, c.wireGuard = some w → w.enabled = false
  texts : ∀ config, c.masque = some ⟨true, some config⟩ → ∀ s ∈ config.texts, e.coerce s = s

variable {e host}

theorem importable_iff (hblocks : c.HasBlocks) :
    ((loadedOf e c).validate = none ∧ (loadedOf e c).getNoizeConfig = .ok c.enabledSections) ↔
      Importable e c.toUnifiedNoizeConfig := by
  rw [validate_loadedOf, getNoizeConfig_loadedOf hblocks]
  constructor
  · rintro ⟨⟨hsome, hoff⟩, hget⟩
    refine ⟨hsome, hoff, ?_⟩
    intro config hm
    have hmasque := congrArg UnifiedNoizeConfig.masque (Except.ok.inj hget)
    simp only [UnifiedNoizeConfig.enabledSections, hm, Option.filter_some, if_true, Option.map_some,
      Option.some.injEq, MASQUENoize.mk.injEq, true_and] at hmasque
    exact coercedNoize_eq_self.mp hmasque
  · rintro ⟨hsome, hoff, htexts⟩
    refine ⟨⟨hsome, hoff⟩, ?_⟩
    have hwireGuard : c.enabledSections.wireGuard = none := by
      rw [UnifiedNoizeConfig.enabledSections, Option.filter_eq_none_iff]
      intro w hw
      rw [hoff w hw]
      nofun
    have hmasque : c.enabledSections.masque.map
        (fun m ↦ ⟨m.enabled, m.config.map (coercedNoize e)⟩) = c.enabledSections.masque := by
      cases hm : c.enabledSections.masque with
      | none => rfl
      | some m =>
        obtain ⟨hm, henabled⟩ := Option.filter_eq_some_iff.mp hm
        obtain ⟨config, hconfig⟩ := Option.isSome_iff_exists.mp (hblocks.masque m hm henabled)
        obtain ⟨_, _⟩ := m
        cases henabled
        cases hconfig
        rw [Option.map_some, Option.map_some, coercedNoize_eq_self.mpr (htexts config hm)]
    rw [hmasque, hwireGuard, Option.map_none, ← hwireGuard]

theorem saveToFile_of_canSave {dir : Bytes}
    (hdir : exportDir filepath = some dir) (h : CanSave e host c filepath) (disk : Disk e.Number) :
    ∃ data, toJSON e c = some data ∧
      saveToFile e host c filepath disk =
        some (.ok (Function.update disk filepath (some data))) := by
  obtain ⟨data, hdata⟩ := Option.isSome_iff_exists.mp ((isSome_toJSON c).mpr h.finite)
  refine ⟨data, hdata, ?_⟩
  simp only [saveToFile, hdir, h.mkdirAll dir hdir, hdata, h.writeFile, Option.map_some]

theorem saveToFile_eq_ok {disk disk' : Disk e.Number}
    (h : saveToFile e host c filepath disk = some (.ok disk')) :
    CanSave e host c filepath ∧
      ∃ data, toJSON e c = some data ∧ disk' = Function.update disk filepath (some data) := by
  obtain ⟨dir, hdir, h⟩ := Option.map_eq_some_iff.mp h
  split at h
  · cases h
  · rename_i hmkdir
    split at h
    · cases h
    · rename_i data hdata
      split at h
      · cases h
      · rename_i hwrite
        cases h
        refine ⟨⟨?_, hwrite, (isSome_toJSON c).mp (hdata ▸ rfl)⟩, data, hdata, rfl⟩
        intro dir' hdir'
        cases hdir.symm.trans hdir'
        exact hmkdir

theorem loadFromFile_update {disk : Disk e.Number} (hdata : toJSON e c = some data) :
    loadFromFile e host filepath (Function.update disk filepath (some data)) =
      .ok (loadedOf e c) := by
  rw [loadFromFile, Function.update_self]
  dsimp only
  rw [load_document host hdata]

/-- An export can be used exactly if its path has a separator, and what is saved is importable. -/
theorem usable_iff {c : FullNoizeConfig} (hblocks : c.HasBlocks) (filepath : Bytes) :
    ExportUsable e host c filepath ↔
      (∃ b ∈ filepath, IsSeparator b) ∧
        (CanSave e host c filepath → Importable e c.toUnifiedNoizeConfig) := by
  constructor
  · intro h
    obtain ⟨saved, hsaved, hloads⟩ := h fun _ ↦ none
    obtain ⟨dir, hdir, -⟩ := Option.map_eq_some_iff.mp hsaved
    refine ⟨isSome_exportDir.mp (hdir ▸ rfl), ?_⟩
    intro hcan
    obtain ⟨data, hdata, hsave⟩ := saveToFile_of_canSave hdir hcan fun _ ↦ none
    obtain ⟨uc, hload, hvalid, hget⟩ := hloads _ (Option.some.inj (hsaved.symm.trans hsave))
    rw [loadFromFile_update hdata] at hload
    cases hload
    exact (importable_iff hblocks).mp ⟨hvalid, hget⟩
  · rintro ⟨hsep, himportable⟩ disk
    obtain ⟨dir, hdir⟩ := Option.isSome_iff_exists.mp (isSome_exportDir.mpr hsep)
    have hsome : (saveToFile e host c filepath disk).isSome := by
      rw [saveToFile, hdir]
      rfl
    obtain ⟨saved, hsaved⟩ := Option.isSome_iff_exists.mp hsome
    refine ⟨saved, hsaved, ?_⟩
    rintro disk' rfl
    obtain ⟨hcan, data, hdata, rfl⟩ := saveToFile_eq_ok hsaved
    obtain ⟨hvalid, hget⟩ := (importable_iff hblocks).mpr (himportable hcan)
    exact ⟨_, loadFromFile_update hdata, hvalid, hget⟩

/-- An operating system that does what it is asked for. -/
def obliging : Host DirectEncoding.exact.Number where
  mkdirAll _ := none
  writeFile _ := none
  noFile := str "no such file or directory"
  unsupported := str "json: unsupported value: NaN"
  malformed _ := str "json: cannot unmarshal"

def masquePreset : FullNoizeConfig where
  wireGuard := none
  masque := some ⟨true, some defaultConfig⟩
  version := str "1.0"
  wireGuardPreset := []
  masquePreset := str "medium"
  metadata := some ⟨[], str "Exported medium preset for customization", [], []⟩

/-- A configuration for both, as all presets are. -/
def sharedExport : FullNoizeConfig where
  wireGuard := some ⟨true, some fewJunk⟩
  masque := some ⟨true, some defaultConfig⟩
  version := str "1.0"
  wireGuardPreset := []
  masquePreset := []
  metadata := some ⟨[], str "few junk packets", [], []⟩

/-- MASQUE alone, in a directory, can be used. -/
theorem masquePreset_usable : ExportUsable .exact obliging masquePreset (str "./config.json") := by
  have hblocks : masquePreset.HasBlocks := ⟨nofun, fun m hm _ ↦ by cases hm; rfl⟩
  refine (usable_iff hblocks _).mpr ⟨⟨ch '/', by decide, .inl rfl⟩, fun _ ↦ ?_⟩
  exact ⟨.inr rfl, nofun, fun _ _ _ _ ↦ rfl⟩

/-- The path of the example in the error message has no directory, and with one the file is
rejected. -/
theorem export_unusable :
    saveToFile .exact obliging sharedExport (str "config.json") (fun _ ↦ none) = none ∧
    ∃ disk uc, saveToFile .exact obliging sharedExport (str "./config.json") (fun _ ↦ none) =
        some (.ok disk) ∧
      loadFromFile .exact obliging (str "./config.json") disk = .ok uc ∧
      uc.validate = some (str "wireguard requires either 'config' file path or 'endpoint'") := by
  refine ⟨by rfl, ?_⟩
  have hcan : CanSave .exact obliging sharedExport (str "./config.json") :=
    ⟨fun _ _ ↦ rfl, rfl, fun _ _ _ _ ↦ rfl⟩
  have hdir : exportDir (str "./config.json") = some (str ".") := by decide
  obtain ⟨data, hdata, hsave⟩ := saveToFile_of_canSave hdir hcan fun _ ↦ none
  exact ⟨_, _, hsave, loadFromFile_update hdata, rfl⟩

end Vwarp.Config
