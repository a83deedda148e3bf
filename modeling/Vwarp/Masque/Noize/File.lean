import Vwarp.Go.Json.Document
import Vwarp.Go.NetText
import Vwarp.Masque.Noize.Packet

/-!
# Configuration files of the noise layer

`SaveConfigToFile` writes the keys of a `NoizeConfig` one by one, and `LoadConfigFromFile`
takes the durations out of the object by hand and leaves the rest to `json.Unmarshal`, which
goes by the names in the tags of the structure.  A file is given by the object in it.
-/

namespace Vwarp.Masque.Noize

open Vwarp.Go Vwarp.Go.Json

variable (e : Encoding) (t : DurationText)

/-! ## Saving -/

/-- The entries that are always written, but for the durations. -/
def plainEntries (c : NoizeConfig) (fakeLoss : e.Number) : Object e.Number := [
  (str "I1", .string (e.coerce c.i1)),
  (str "I2", .string (e.coerce c.i2)),
  (str "I3", .string (e.coerce c.i3)),
  (str "I4", .string (e.coerce c.i4)),
  (str "I5", .string (e.coerce c.i5)),
  (str "FragmentSize", .number (e.ofInt c.fragmentSize)),
  (str "FragmentInitial", .bool c.fragmentInitial),
  (str "PaddingMin", .number (e.ofInt c.paddingMin)),
  (str "PaddingMax", .number (e.ofInt c.paddingMax)),
  (str "RandomPadding", .bool c.randomPadding),
  (str "Jc", .number (e.ofInt c.jc)),
  (str "Jmin", .number (e.ofInt c.jmin)),
  (str "Jmax", .number (e.ofInt c.jmax)),
  (str "JcBeforeHS", .number (e.ofInt c.jcBeforeHS)),
  (str "JcAfterI1", .number (e.ofInt c.jcAfterI1)),
  (str "JcDuringHS", .number (e.ofInt c.jcDuringHS)),
  (str "JcAfterHS", .number (e.ofInt c.jcAfterHS)),
  (str "JunkRandom", .bool c.junkRandom),
  (str "MimicProtocol", .string (e.coerce c.mimicProtocol)),
  (str "CustomWrapper", .bool c.customWrapper),
  (str "RandomDelay", .bool c.randomDelay),
  (str "ReversedOrder", .bool c.reversedOrder),
  (str "DuplicatePackets", .bool c.duplicatePackets),
  (str "AllowZeroSize", .bool c.allowZeroSize),
  (str "UseTimestamp", .bool c.useTimestamp),
  (str "UseNonce", .bool c.useNonce),
  (str "RandomizeInitial", .bool c.randomizeInitial),
  (str "FakeLoss", .number fakeLoss),
  (str "SNIFragmentation", .bool c.sniFragmentation),
  (str "SNIFragment", .number (e.ofInt c.sniFragment))]

def durationEntries (c : NoizeConfig) : Object e.Number := [
  (str "JunkInterval", .string (e.coerce (t.string c.junkInterval))),
  (str "HandshakeDelay", .string (e.coerce (t.string c.handshakeDelay))),
  (str "PacketDelay", .string (e.coerce (t.string c.packetDelay))),
  (str "DelayMin", .string (e.coerce (t.string c.delayMin))),
  (str "DelayMax", .string (e.coerce (t.string c.delayMax))),
  (str "FragmentDelay", .string (e.coerce (t.string c.fragmentDelay)))]

def sliceEntries (c : NoizeConfig) : Object e.Number :=
  if c.fakeALPN ≠ [] then [(str "FakeALPN", .strings (c.fakeALPN.map e.coerce))] else []

/-- `SaveConfigToFile`: the object that is written.  It is an error if `FakeLoss` is not
finite. -/
def saveConfigToFile (c : NoizeConfig) : Option (Object e.Number) :=
  (e.ofFloat32 c.fakeLoss).map fun fakeLoss ↦
    plainEntries e c fakeLoss ++ durationEntries e t c ++ sliceEntries e c

/-! ## Loading -/

/-- The fields of `NoizeConfig` under the names of `encoding/json`: the tag, or the name of the
field.  A slice that is `nil` is written as `null`, which is read as `nil` again; here it is the
empty slice. -/
def noizeColumns : List (Column e.Number NoizeConfig) := [
  (Column.string e (str "i1") (·.i1) fun v c ↦ { c with i1 := v }).omitempty (·.i1.isEmpty),
  (Column.string e (str "i2") (·.i2) fun v c ↦ { c with i2 := v }).omitempty (·.i2.isEmpty),
  (Column.string e (str "i3") (·.i3) fun v c ↦ { c with i3 := v }).omitempty (·.i3.isEmpty),
  (Column.string e (str "i4") (·.i4) fun v c ↦ { c with i4 := v }).omitempty (·.i4.isEmpty),
  (Column.string e (str "i5") (·.i5) fun v c ↦ { c with i5 := v }).omitempty (·.i5.isEmpty),
  (Column.int e (str "fragment_size") (·.fragmentSize)
    fun v c ↦ { c with fragmentSize := v }).omitempty (·.fragmentSize = 0),
  (Column.bool (str "fragment_initial") (·.fragmentInitial)
    fun v c ↦ { c with fragmentInitial := v }).omitempty (!·.fragmentInitial),
  .int e (str "FragmentDelay") (·.fragmentDelay) fun v c ↦ { c with fragmentDelay := v },
  .int e (str "PaddingMin") (·.paddingMin) fun v c ↦ { c with paddingMin := v },
  .int e (str "PaddingMax") (·.paddingMax) fun v c ↦ { c with paddingMax := v },
  .bool (str "RandomPadding") (·.randomPadding) fun v c ↦ { c with randomPadding := v },
  .int e (str "Jc") (·.jc) fun v c ↦ { c with jc := v },
  .int e (str "Jmin") (·.jmin) fun v c ↦ { c with jmin := v },
  .int e (str "Jmax") (·.jmax) fun v c ↦ { c with jmax := v },
  .int e (str "JcBeforeHS") (·.jcBeforeHS) fun v c ↦ { c with jcBeforeHS := v },
  .int e (str "JcAfterI1") (·.jcAfterI1) fun v c ↦ { c with jcAfterI1 := v },
  .int e (str "JcDuringHS") (·.jcDuringHS) fun v c ↦ { c with jcDuringHS := v },
  .int e (str "JcAfterHS") (·.jcAfterHS) fun v c ↦ { c with jcAfterHS := v },
  .int e (str "JunkInterval") (·.junkInterval) fun v c ↦ { c with junkInterval := v },
  .bool (str "JunkRandom") (·.junkRandom) fun v c ↦ { c with junkRandom := v },
  .string e (str "MimicProtocol") (·.mimicProtocol) fun v c ↦ { c with mimicProtocol := v },
  .bool (str "CustomWrapper") (·.customWrapper) fun v c ↦ { c with customWrapper := v },
  .int e (str "HandshakeDelay") (·.handshakeDelay) fun v c ↦ { c with handshakeDelay := v },
  .int e (str "PacketDelay") (·.packetDelay) fun v c ↦ { c with packetDelay := v },
  .bool (str "RandomDelay") (·.randomDelay) fun v c ↦ { c with randomDelay := v },
  .int e (str "DelayMin") (·.delayMin) fun v c ↦ { c with delayMin := v },
  .int e (str "DelayMax") (·.delayMax) fun v c ↦ { c with delayMax := v },
  .bool (str "SNIFragmentation") (·.sniFragmentation) fun v c ↦ { c with sniFragmentation := v },
  .int e (str "SNIFragment") (·.sniFragment) fun v c ↦ { c with sniFragment := v },
  .strings e (str "FakeALPN") (·.fakeALPN) fun v c ↦ { c with fakeALPN := v },
  .bool (str "ReversedOrder") (·.reversedOrder) fun v c ↦ { c with reversedOrder := v },
  .bool (str "DuplicatePackets") (·.duplicatePackets) fun v c ↦ { c with duplicatePackets := v },
  .bool (str "AllowZeroSize") (·.allowZeroSize) fun v c ↦ { c with allowZeroSize := v },
  .bool (str "UseTimestamp") (·.useTimestamp) fun v c ↦ { c with useTimestamp := v },
  .bool (str "UseNonce") (·.useNonce) fun v c ↦ { c with useNonce := v },
  .bool (str "RandomizeInitial") (·.randomizeInitial) fun v c ↦ { c with randomizeInitial := v },
  .float32 e (str "FakeLoss") (·.fakeLoss) fun v c ↦ { c with fakeLoss := v }]

/-- The same as `json.Unmarshal` uses them. -/
def noizeFields : List (Field e.Number NoizeConfig) := (noizeColumns e).map (·.toField)

/-- `durationFields`, with the field that each is for. -/
def durationFields : List (Bytes × (Int64 → NoizeConfig → NoizeConfig)) := [
  (str "JunkInterval", fun d c ↦ { c with junkInterval := d }),
  (str "HandshakeDelay", fun d c ↦ { c with handshakeDelay := d }),
  (str "PacketDelay", fun d c ↦ { c with packetDelay := d }),
  (str "DelayMin", fun d c ↦ { c with delayMin := d }),
  (str "DelayMax", fun d c ↦ { c with delayMax := d }),
  (str "FragmentDelay", fun d c ↦ { c with fragmentDelay := d })]

/-- The loop of `LoadConfigFromFile` over the durations. -/
def loadDurations {ν : Type} :
    List (Bytes × (Int64 → NoizeConfig → NoizeConfig)) → Object ν → NoizeConfig →
      Object ν × NoizeConfig
  | [], rawConfig, config => (rawConfig, config)
  | (field, set) :: fields, rawConfig, config =>
    match rawConfig.lookup field with
    | none => loadDurations fields rawConfig config
    | some (.string s) =>
      loadDurations fields (Object.delete rawConfig field)
        (((t.parse s).map (set · config)).getD config)
    | some _ => loadDurations fields (Object.delete rawConfig field) config

/-- `LoadConfigFromFile`; `none` is an error. -/
def loadConfigFromFile (rawConfig : Object e.Number) : Option NoizeConfig :=
  let rest := loadDurations t durationFields rawConfig default
  unmarshal (noizeFields e) (Object.reread e rest.1) rest.2

/-! ## What is loaded after saving -/

variable {e t}

theorem loadDurations_strings {ν : Type}
    {fields : List (Bytes × (Int64 → NoizeConfig → NoizeConfig))} {ds : List Int64}
    {before after : Object ν} (hlen : ds.length = fields.length)
    (hnodup : (fields.map Prod.fst).Nodup) (hbefore : ∀ f ∈ fields, ∀ entry ∈ before, entry.1 ≠ f.1)
    (hafter : ∀ f ∈ fields, ∀ entry ∈ after, entry.1 ≠ f.1) (config : NoizeConfig) :
    loadDurations t fields
        (before ++ (fields.zip ds).map (fun fd ↦ (fd.1.1, .string (t.string fd.2))) ++ after)
        config =
      (before ++ after, (fields.zip ds).foldl (fun c fd ↦ fd.1.2 fd.2 c) config) := by
  induction fields generalizing ds config with
  | nil => simp [loadDurations]
  | cons f fields ih =>
    obtain ⟨field, set⟩ := f
    cases ds with
    | nil => cases hlen
    | cons d ds =>
      rw [List.map_cons, List.nodup_cons] at hnodup
      have hrest : ∀ entry ∈ (fields.zip ds).map
          (fun fd ↦ (fd.1.1, Value.string (ν := ν) (t.string fd.2))) ++ after,
          entry.1 ≠ field := by
        intro entry hentry
        rcases List.mem_append.mp hentry with hentry | hentry
        · obtain ⟨⟨f, d⟩, hfd, rfl⟩ := List.mem_map.mp hentry
          rintro rfl
          exact hnodup.1 (List.mem_map.mpr ⟨f, (List.of_mem_zip hfd).1, rfl⟩)
        · exact hafter _ List.mem_cons_self entry hentry
      have hfield := hbefore _ List.mem_cons_self
      rw [List.zip_cons_cons, List.map_cons, List.append_assoc, List.cons_append, loadDurations,
        Object.lookup_entry hfield]
      dsimp only
      rw [Object.delete_entry hfield hrest, t.parse_string, ← List.append_assoc,
        ih (Nat.succ.inj hlen) hnodup.2 (fun f hf ↦ hbefore f (List.mem_cons_of_mem _ hf))
          (fun f hf ↦ hafter f (List.mem_cons_of_mem _ hf))]
      rfl

theorem plainEntries_ne_duration (c : NoizeConfig) (fakeLoss : e.Number) :
    ∀ f ∈ durationFields, ∀ entry ∈ plainEntries e c fakeLoss, entry.1 ≠ f.1 := by
  have hall : (durationFields.all fun f ↦ (plainEntries e c fakeLoss).all fun entry ↦
      decide (entry.1 ≠ f.1)) = true := by
    rfl
  intro f hf entry hentry
  exact of_decide_eq_true (List.all_eq_true.mp (List.all_eq_true.mp hall f hf) entry hentry)

theorem sliceEntries_ne_duration (c : NoizeConfig) :
    ∀ f ∈ durationFields, ∀ entry ∈ sliceEntries e c, entry.1 ≠ f.1 := by
  have hkey : ∀ key ∈ durationFields.map Prod.fst, str "FakeALPN" ≠ key := by decide
  intro f hf entry hentry
  unfold sliceEntries at hentry
  split at hentry
  · rw [List.mem_singleton.mp hentry]
    exact hkey f.1 (List.mem_map_of_mem hf)
  · exact absurd hentry List.not_mem_nil

theorem loadDurations_saved (c : NoizeConfig) (fakeLoss : e.Number) :
    loadDurations t durationFields
        (plainEntries e c fakeLoss ++ durationEntries e t c ++ sliceEntries e c) default =
      (plainEntries e c fakeLoss ++ sliceEntries e c,
        { (default : NoizeConfig) with
          junkInterval := c.junkInterval, handshakeDelay := c.handshakeDelay
          packetDelay := c.packetDelay, delayMin := c.delayMin, delayMax := c.delayMax
          fragmentDelay := c.fragmentDelay }) := by
  have hentries : durationEntries e t c = (durationFields.zip [c.junkInterval, c.handshakeDelay,
      c.packetDelay, c.delayMin, c.delayMax, c.fragmentDelay]).map
      fun fd ↦ (fd.1.1, .string (t.string fd.2)) := by
    simp only [durationEntries, e.coerce_utf8 (t.utf8_string _)]
    rfl
  rw [hentries, loadDurations_strings rfl (by decide) (plainEntries_ne_duration c fakeLoss)
    (sliceEntries_ne_duration c)]
  rfl

/-- The `int` fields that come back through `json.Unmarshal`. -/
def NoizeConfig.ints (c : NoizeConfig) : List Int64 :=
  [c.paddingMin, c.paddingMax, c.jc, c.jmin, c.jmax, c.jcBeforeHS, c.jcAfterI1, c.jcDuringHS,
    c.jcAfterHS, c.sniFragment]

def NoizeConfig.texts (c : NoizeConfig) : List Bytes :=
  [c.i1, c.i2, c.i3, c.i4, c.i5, c.mimicProtocol] ++ c.fakeALPN

/-- What `json.Unmarshal` makes of the entries that are always written.  No field has the name
of `FragmentSize` or of `FragmentInitial`. -/
theorem unmarshal_plainEntries (c config : NoizeConfig) (fakeLoss : e.Number) :
    unmarshal (noizeFields e) (Object.reread e (plainEntries e c fakeLoss)) config =
      ((e.detour c.paddingMin).map fun v ↦ { config with
        i1 := e.coerce c.i1, i2 := e.coerce c.i2, i3 := e.coerce c.i3, i4 := e.coerce c.i4
        i5 := e.coerce c.i5, paddingMin := v }).bind fun config ↦
      ((e.detour c.paddingMax).map fun v ↦ { config with paddingMax := v }).bind fun config ↦
      ((e.detour c.jc).map fun v ↦ { config with
        randomPadding := c.randomPadding, jc := v }).bind fun config ↦
      ((e.detour c.jmin).map fun v ↦ { config with jmin := v }).bind fun config ↦
      ((e.detour c.jmax).map fun v ↦ { config with jmax := v }).bind fun config ↦
      ((e.detour c.jcBeforeHS).map fun v ↦ { config with jcBeforeHS := v }).bind fun config ↦
      ((e.detour c.jcAfterI1).map fun v ↦ { config with jcAfterI1 := v }).bind fun config ↦
      ((e.detour c.jcDuringHS).map fun v ↦ { config with jcDuringHS := v }).bind fun config ↦
      ((e.detour c.jcAfterHS).map fun v ↦ { config with jcAfterHS := v }).bind fun config ↦
      ((e.toFloat32 (e.reread fakeLoss)).map fun v ↦ { config with
        junkRandom := c.junkRandom, mimicProtocol := e.coerce c.mimicProtocol
        customWrapper := c.customWrapper, randomDelay := c.randomDelay
        reversedOrder := c.reversedOrder, duplicatePackets := c.duplicatePackets
        allowZeroSize := c.allowZeroSize, useTimestamp := c.useTimestamp, useNonce := c.useNonce
        randomizeInitial := c.randomizeInitial, fakeLoss := v }).bind fun config ↦
      ((e.detour c.sniFragment).map fun v ↦ { config with
        sniFragmentation := c.sniFragmentation, sniFragment := v }).bind some := by
  rfl

theorem unmarshal_sliceEntries {c config : NoizeConfig} (hutf8 : ∀ s ∈ c.fakeALPN, Utf8 s)
    (hconfig : config.fakeALPN = []) :
    unmarshal (noizeFields e) (Object.reread e (sliceEntries e c)) config =
      some { config with fakeALPN := c.fakeALPN } := by
  unfold sliceEntries
  split_ifs with hnil
  · have hcoerce : c.fakeALPN.map e.coerce = c.fakeALPN :=
      (List.map_congr_left fun s hs ↦ e.coerce_utf8 (hutf8 s hs)).trans (List.map_id _)
    rw [hcoerce]
    rfl
  · rw [not_not.mp hnil, ← hconfig]
    rfl

theorem bind_number {α β σ : Type} {o : Option α} {f : α → σ} {g : σ → Option σ}
    {k : σ → Option β} {h : α → Option β} (hrest : ∀ v, (g (f v)).bind k = h v) :
    ((o.map f).bind g).bind k = o.bind h := by
  cases o with
  | none => rfl
  | some v => exact hrest v

/-- The configuration with other numbers in the fields of `ints`. -/
def NoizeConfig.withInts (c : NoizeConfig) : List Int64 → NoizeConfig
  | [paddingMin, paddingMax, jc, jmin, jmax, jcBeforeHS, jcAfterI1, jcDuringHS, jcAfterHS,
      sniFragment] =>
    { c with
      paddingMin, paddingMax, jc, jmin, jmax, jcBeforeHS, jcAfterI1, jcDuringHS, jcAfterHS
      sniFragment }
  | _ => c

theorem NoizeConfig.ints_withInts (c : NoizeConfig) {ns : List Int64} (h : ns.length = 10) :
    (c.withInts ns).ints = ns := by
  match ns, h with
  | [_, _, _, _, _, _, _, _, _, _], _ => rfl

theorem map_mapM_cons {α β γ : Type} {f : α → Option β} {a : α} {l : List α} {g : List β → γ} :
    ((a :: l).mapM f).map g = (f a).bind fun b ↦ (l.mapM f).map fun bs ↦ g (b :: bs) := by
  rw [List.mapM_cons]
  cases f a with
  | none => rfl
  | some b => cases l.mapM f <;> rfl

theorem mapM_eq_some_iff {α β : Type} {f : α → Option β} {l : List α} {l' : List β} :
    l.mapM f = some l' ↔ l.map f = l'.map some := by
  induction l generalizing l' with
  | nil => cases l' <;> simp
  | cons a l ih => cases l' <;> simp [List.mapM_cons, Option.bind_eq_some_iff, ih]

/-- What is loaded from a file that was saved: the two fields whose keys no field has are zero,
and every `int` took the detour through a `float64`. -/
theorem load_saved {c : NoizeConfig} {file : Object e.Number} (hutf8 : ∀ s ∈ c.texts, Utf8 s)
    (hsave : saveConfigToFile e t c = some file) :
    loadConfigFromFile e t file = (c.ints.mapM e.detour).map
      { c with fragmentSize := 0, fragmentInitial := false }.withInts := by
  obtain ⟨fakeLoss, hloss, rfl⟩ := Option.map_eq_some_iff.mp hsave
  have htext : ∀ s ∈ [c.i1, c.i2, c.i3, c.i4, c.i5, c.mimicProtocol], e.coerce s = s :=
    fun s hs ↦ e.coerce_utf8 (hutf8 s (List.mem_append_left _ hs))
  simp only [List.forall_mem_cons] at htext
  obtain ⟨h1, h2, h3, h4, h5, hmimic, -⟩ := htext
  have halpn : ∀ s ∈ c.fakeALPN, Utf8 s := fun s hs ↦ hutf8 s (List.mem_append_right _ hs)
  unfold loadConfigFromFile
  rw [loadDurations_saved]
  dsimp only
  rw [Object.reread, List.map_append, ← Object.reread, ← Object.reread, unmarshal_append,
    unmarshal_plainEntries, h1, h2, h3, h4, h5, hmimic, e.reread_float32 hloss]
  simp only [NoizeConfig.ints, map_mapM_cons]
  -- one number after the other, up to the one after `FakeLoss`
  iterate 9 refine bind_number fun _ ↦ ?_
  rw [Option.map_some, Option.bind_some]
  exact bind_number fun _ ↦ unmarshal_sliceEntries halpn rfl

/-- A configuration comes back from its file exactly if it does not fragment and its numbers come
back from a `float64`, as all up to `2 ^ 53` do. -/
theorem load_saved_iff {c : NoizeConfig} {file : Object e.Number} (hutf8 : ∀ s ∈ c.texts, Utf8 s)
    (hsave : saveConfigToFile e t c = some file) :
    loadConfigFromFile e t file = some c ↔
      c.fragmentSize = 0 ∧ c.fragmentInitial = false ∧
        ∀ n ∈ c.ints, throughFloat64 n.toInt = n.toInt := by
  simp only [← e.detour_eq_some_iff]
  rw [load_saved hutf8 hsave, ← List.map_inj_left, ← mapM_eq_some_iff]
  constructor
  · intro h
    obtain ⟨ns, hns, hc⟩ := Option.map_eq_some_iff.mp h
    have hlen : c.ints.length = ns.length := by
      simpa using congrArg List.length (mapM_eq_some_iff.mp hns)
    -- the numbers that came back are those that are now in the fields
    obtain rfl : c.ints = ns := hc ▸ NoizeConfig.ints_withInts _ hlen.symm
    exact ⟨(congrArg NoizeConfig.fragmentSize hc).symm,
      (congrArg NoizeConfig.fragmentInitial hc).symm, hns⟩
  · rintro ⟨hsize, hinitial, hints⟩
    rw [hints, ← hsize, ← hinitial]
    rfl

/-- The default configuration without fragments. -/
def unfragmented : NoizeConfig :=
  { defaultConfig with fragmentSize := 0, fragmentInitial := false }

theorem ascii_of_all {s : Bytes} (h : (s.all fun c ↦ c.toNat < 128) = true) :
    ∀ c ∈ s, c.toNat < 128 :=
  fun c hc ↦ of_decide_eq_true (List.all_eq_true.mp h c hc)

theorem utf8_texts : ∀ s ∈ defaultConfig.texts, Utf8 s := by
  have hascii : (defaultConfig.texts.all (·.all fun c ↦ c.toNat < 128)) = true := by decide
  exact fun s hs ↦ utf8_of_ascii (ascii_of_all (List.all_eq_true.mp hascii s hs))

/-! ### Durations of one unit -/

theorem ascii_formatInt (n : Int64) : ∀ c ∈ formatInt n, c.toNat < 128 := fun _ hc ↦
  (UInt8.lt_iff_toNat_lt.mp (graphic_of_mem_formatInt hc).2).trans (by decide)

/-- The number and the unit of a text that ends with one of two letters. -/
def splitUnit (s : Bytes) : Option Int × Bytes :=
  (atoi (s.take (s.length - 2)), s.drop (s.length - 2))

theorem splitUnit_append (n : Int64) {unit : Bytes} (h : unit.length = 2) :
    splitUnit (formatInt n ++ unit) = (some n.toInt, unit) := by
  have hlen : (formatInt n ++ unit).length - 2 = (formatInt n).length := by
    rw [List.length_append, h, Nat.add_sub_cancel]
  rw [splitUnit, hlen, List.take_left, List.drop_left, atoi_formatInt]

/-- Whole milliseconds, or else nanoseconds.  For zero, and for whole milliseconds below a second,
this is what `Duration.String` writes. -/
def oneUnit : DurationText where
  string d :=
    if d = 0 then str "0s"
    else if d.toInt % 1000000 = 0 then formatInt (.ofInt (d.toInt / 1000000)) ++ str "ms"
    else formatInt d ++ str "ns"
  parse s :=
    if s = str "0s" then some 0
    else (splitUnit s).1.bind fun n ↦
      readInt (if (splitUnit s).2 = str "ms" then n * 1000000 else n)
  parse_string d := by
    have hne (n : Int64) {unit : Bytes} (h : unit.length = 2) : formatInt n ++ unit ≠ str "0s" := by
      intro heq
      have hpos := List.length_pos_iff.mpr (formatInt_ne_nil n)
      have hlen := congrArg List.length heq
      rw [List.length_append, h, show (str "0s").length = 2 from rfl] at hlen
      omega
    have hle := d.le_toInt
    have hlt := d.toInt_lt
    split
    · rename_i hzero
      rw [if_pos rfl, hzero]
    · split
      · have hquot : (Int64.ofInt (d.toInt / 1000000)).toInt = d.toInt / 1000000 :=
          Int64.toInt_ofInt_of_le (by omega) (by omega)
        rw [if_neg (hne _ rfl), splitUnit_append _ rfl, Option.bind_some, if_pos rfl, hquot,
          readInt_eq_some_iff]
        omega
      · rw [if_neg (hne _ rfl), splitUnit_append _ rfl, Option.bind_some,
          if_neg (show str "ns" ≠ str "ms" by decide), readInt_toInt]
  utf8_string d := by
    refine utf8_of_ascii ?_
    split
    · exact ascii_of_all (by decide)
    · split
      all_goals exact List.forall_mem_append.mpr ⟨ascii_formatInt _, ascii_of_all (by decide)⟩

/-- Without fragments, the default configuration comes back. -/
theorem load_saved_unfragmented :
    (saveConfigToFile .exact oneUnit unfragmented).bind (loadConfigFromFile .exact oneUnit) =
      some unfragmented := by
  have hsave : saveConfigToFile .exact oneUnit unfragmented = some _ := rfl
  rw [hsave, Option.bind_some]
  refine (load_saved_iff (c := unfragmented) utf8_texts hsave).mpr ⟨rfl, rfl, ?_⟩
  have hsmall : (unfragmented.ints.all fun n ↦ n.toInt.natAbs ≤ 2 ^ 53) = true := by decide
  exact fun n hn ↦ throughFloat64_of_le (of_decide_eq_true (List.all_eq_true.mp hsmall n hn))

/-- The default configuration loses its fragments. -/
theorem default_loses_fragments :
    (saveConfigToFile .exact oneUnit defaultConfig).bind (loadConfigFromFile .exact oneUnit) =
        some unfragmented ∧
      unfragmented ≠ defaultConfig := by
  have hsave : saveConfigToFile .exact oneUnit defaultConfig = some _ := rfl
  refine ⟨?_, fun h ↦ nomatch congrArg NoizeConfig.fragmentInitial h⟩
  rw [hsave, Option.bind_some, load_saved utf8_texts hsave]
  rfl

end Vwarp.Masque.Noize
