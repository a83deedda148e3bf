import Vwarp.Go.Json
import Mathlib.Data.List.Nodup

/-!
# `encoding/json` on structures and on nested objects

`json.Marshal` goes through the fields of a structure, and a field with `omitempty` is left out
if it is empty.  A structure is given by its columns, each of which is a field with what is
written for it, so that writing and reading go by the same list.  What is read back is, column
by column, what was written: `unmarshal_marshal`.

A document has objects in objects.  A structure that it is read into has a slot for each field,
and the slot of a pointer to a structure goes down into the object.
-/

namespace Vwarp.Go.Json

/-- An encoding that reads a number as it was written, if nothing comes between. -/
structure DirectEncoding extends Encoding where
  toInt_ofInt (n : Int64) : toInt (ofInt n) = some n
  toFloat32_ofFloat32 {x : BitVec 32} {text : Number} :
    ofFloat32 x = some text → toFloat32 text = some x

def DirectEncoding.exact : DirectEncoding where
  toEncoding := .exact
  toInt_ofInt := readInt_toInt
  toFloat32_ofFloat32 h := by
    cases h
    rfl

/-- A `float32` is neither infinite nor a NaN. -/
def Finite32 (x : BitVec 32) : Prop := x.toNat % 2 ^ 31 < 0x7f800000

instance (x : BitVec 32) : Decidable (Finite32 x) := inferInstanceAs (Decidable (_ < _))

/-- An encoding that writes a `float32` exactly if it is finite. -/
structure StandardEncoding extends DirectEncoding where
  isSome_ofFloat32 (x : BitVec 32) : (ofFloat32 x).isSome ↔ Finite32 x

def StandardEncoding.exact : StandardEncoding where
  Number := Int ⊕ BitVec 32
  ofInt n := .inl n.toInt
  ofFloat32 x := if Finite32 x then some (.inr x) else none
  reread := Sum.map throughFloat64 id
  toInt text := text.getLeft?.bind readInt
  toFloat32 text := text.getRight?
  coerce := id
  coerce_utf8 := @Encoding.exact.coerce_utf8
  reread_int := @Encoding.exact.reread_int
  reread_float32 h := by
    split at h
    · cases h
      rfl
    · cases h
  toInt_ofInt := readInt_toInt
  toFloat32_ofFloat32 h := by
    split at h
    · cases h
      rfl
    · cases h
  isSome_ofFloat32 x := by
    split_ifs with hfinite
    · exact iff_of_true rfl hfinite
    · exact iff_of_false nofun hfinite

/-! ## Structures that are written and read -/

/-- A field, and what is written for it: an error, nothing, or a value. -/
structure Column (ν σ : Type) extends Field ν σ where
  write : σ → Option (Option (Value ν))

namespace Column

variable {ν σ : Type}

/-- A field of type `string`. -/
def string (e : Encoding) (name : Bytes) (get : σ → Bytes) (set : Bytes → σ → σ) :
    Column e.Number σ where
  toField := .string name set
  write c := some (some (.string (e.coerce (get c))))

/-- A field of type `bool`. -/
def bool (name : Bytes) (get : σ → Bool) (set : Bool → σ → σ) : Column ν σ where
  toField := .bool name set
  write c := some (some (.bool (get c)))

/-- A field of type `[]string`. -/
def strings (e : Encoding) (name : Bytes) (get : σ → List Bytes) (set : List Bytes → σ → σ) :
    Column e.Number σ where
  toField := .strings name set
  write c := some (some (.strings ((get c).map e.coerce)))

/-- A field of type `int` or `time.Duration`. -/
def int (e : Encoding) (name : Bytes) (get : σ → Int64) (set : Int64 → σ → σ) :
    Column e.Number σ where
  toField := .int e name set
  write c := some (some (.number (e.ofInt (get c))))

/-- A field of type `float32`. -/
def float32 (e : Encoding) (name : Bytes) (get : σ → BitVec 32) (set : BitVec 32 → σ → σ) :
    Column e.Number σ where
  toField := .float32 e name set
  write c := (e.ofFloat32 (get c)).map fun text ↦ some (.number text)

/-- The option `omitempty`. -/
def omitempty (isEmpty : σ → Bool) (column : Column ν σ) : Column ν σ where
  toField := column.toField
  write c := if isEmpty c then some none else column.write c

section Write

variable {c : σ} {name : Bytes}

@[simp] theorem isSome_write_string (e : Encoding) (get : σ → Bytes) (set : Bytes → σ → σ) :
    ((Column.string e name get set).write c).isSome = true := rfl

@[simp] theorem isSome_write_bool (get : σ → Bool) (set : Bool → σ → σ) :
    ((Column.bool (ν := ν) name get set).write c).isSome = true := rfl

@[simp] theorem isSome_write_strings (e : Encoding) (get : σ → List Bytes)
    (set : List Bytes → σ → σ) : ((Column.strings e name get set).write c).isSome = true := rfl

@[simp] theorem isSome_write_int (e : Encoding) (get : σ → Int64) (set : Int64 → σ → σ) :
    ((Column.int e name get set).write c).isSome = true := rfl

@[simp] theorem isSome_write_float32 (e : Encoding) (get : σ → BitVec 32)
    (set : BitVec 32 → σ → σ) :
    ((Column.float32 e name get set).write c).isSome = (e.ofFloat32 (get c)).isSome :=
  Option.isSome_map

@[simp] theorem isSome_write_omitempty (isEmpty : σ → Bool) (column : Column ν σ) :
    ((column.omitempty isEmpty).write c).isSome = (isEmpty c || (column.write c).isSome) := by
  cases h : isEmpty c with
  | true | false => simp [omitempty, h]

end Write

/-- What reading the entry of a column does that was written for `c`. -/
def restore (column : Column ν σ) (c d : σ) : Option σ :=
  match column.write c with
  | some (some value) => column.set value d
  | _ => some d

section Restore

variable {c d : σ} {name : Bytes}

@[simp] theorem restore_string (e : Encoding) (get : σ → Bytes) (set : Bytes → σ → σ) :
    (Column.string e name get set).restore c d = some (set (e.coerce (get c)) d) := rfl

@[simp] theorem restore_bool (get : σ → Bool) (set : Bool → σ → σ) :
    (Column.bool (ν := ν) name get set).restore c d = some (set (get c) d) := rfl

@[simp] theorem restore_strings (e : Encoding) (get : σ → List Bytes) (set : List Bytes → σ → σ) :
    (Column.strings e name get set).restore c d = some (set ((get c).map e.coerce) d) := rfl

@[simp] theorem restore_int (e : DirectEncoding) (get : σ → Int64) (set : Int64 → σ → σ) :
    (Column.int e.toEncoding name get set).restore c d = some (set (get c) d) := by
  show (e.toInt (e.ofInt (get c))).map (set · d) = _
  rw [e.toInt_ofInt]
  rfl

theorem restore_float32 (e : DirectEncoding) (get : σ → BitVec 32) (set : BitVec 32 → σ → σ)
    (h : (e.ofFloat32 (get c)).isSome) :
    (Column.float32 e.toEncoding name get set).restore c d = some (set (get c) d) := by
  obtain ⟨text, htext⟩ := Option.isSome_iff_exists.mp h
  simp only [restore, float32, Field.float32, htext, Option.map_some,
    e.toFloat32_ofFloat32 htext]

theorem restore_omitempty {isEmpty : σ → Bool} {column : Column ν σ}
    (h : isEmpty c = true → column.restore c d = some d) :
    (column.omitempty isEmpty).restore c d = column.restore c d := by
  by_cases hempty : isEmpty c = true
  · rw [h hempty]
    simp only [restore, omitempty, hempty, if_true]
  · simp only [restore, omitempty, hempty, if_false, Bool.false_eq_true]

theorem restore_string_omitempty (e : Encoding) (get : σ → Bytes) (set : Bytes → σ → σ)
    (h : set [] d = d) :
    ((Column.string e name get set).omitempty fun c ↦ (get c).isEmpty).restore c d =
      some (set (e.coerce (get c)) d) := by
  apply restore_omitempty
  intro hempty
  have hcoerce : e.coerce [] = [] := e.coerce_utf8 ⟨[], rfl⟩
  rw [restore_string, List.isEmpty_iff.mp hempty, hcoerce, h]

theorem restore_int_omitempty (e : DirectEncoding) (get : σ → Int64) (set : Int64 → σ → σ)
    (h : set 0 d = d) :
    ((Column.int e.toEncoding name get set).omitempty fun c ↦ get c = 0).restore c d =
      some (set (get c) d) := by
  rw [restore_omitempty, restore_int]
  intro hempty
  rw [restore_int, of_decide_eq_true hempty, h]

theorem restore_bool_omitempty (get : σ → Bool) (set : Bool → σ → σ) (h : set false d = d) :
    ((Column.bool (ν := ν) name get set).omitempty fun c ↦ !get c).restore c d =
      some (set (get c) d) := by
  apply restore_omitempty
  intro hempty
  rw [restore_bool, show get c = false by simpa using hempty, h]

end Restore

end Column

variable {ν σ : Type}

/-- `json.Marshal` of a structure; `none` is an error. -/
def marshal : List (Column ν σ) → σ → Option (Object ν)
  | [], _ => some []
  | column :: columns, c =>
    (column.write c).bind fun value ↦ (marshal columns c).map fun object ↦
      match value with
      | some value => (column.name, value) :: object
      | none => object

theorem marshal_isSome {columns : List (Column ν σ)} {c : σ} :
    (marshal columns c).isSome ↔ ∀ column ∈ columns, (column.write c).isSome := by
  induction columns with
  | nil => simp [marshal]
  | cons column columns ih =>
    rw [List.forall_mem_cons, ← ih, marshal]
    cases column.write c with
    | none => simp
    | some value => simp

theorem findField_of_mem {fields : List (Field ν σ)} (hnodup : (fields.map (·.name)).Nodup)
    {field : Field ν σ} (hmem : field ∈ fields) : findField fields field.name = some field := by
  have hsome : (fields.find? fun f ↦ f.name = field.name).isSome :=
    List.find?_isSome.mpr ⟨field, hmem, by simp⟩
  obtain ⟨f, hf⟩ := Option.isSome_iff_exists.mp hsome
  have hname : f.name = field.name := by simpa using List.find?_some hf
  rw [List.inj_on_of_nodup_map hnodup (List.mem_of_find?_eq_some hf) hmem hname] at hf
  rw [findField, hf]
  rfl

/-- What was written is read back column by column. -/
theorem unmarshal_marshal {fields : List (Field ν σ)} (hnodup : (fields.map (·.name)).Nodup)
    {columns : List (Column ν σ)} (hcolumns : ∀ column ∈ columns, column.toField ∈ fields)
    {c d : σ} {object : Object ν} (h : marshal columns c = some object) :
    unmarshal fields object d = columns.foldlM (fun d column ↦ column.restore c d) d := by
  induction columns generalizing object d with
  | nil =>
    cases h
    rfl
  | cons column columns ih =>
    rw [List.forall_mem_cons] at hcolumns
    obtain ⟨value, hvalue, h⟩ := Option.bind_eq_some_iff.mp h
    obtain ⟨rest, hrest, rfl⟩ := Option.map_eq_some_iff.mp h
    rw [List.foldlM_cons, Column.restore, hvalue]
    cases value with
    | none => exact ih hcolumns.2 hrest
    | some value =>
      dsimp only
      rw [unmarshal, findField_of_mem hnodup hcolumns.1]
      show (column.set value d).bind _ = (column.set value d).bind _
      congr 1
      funext d
      exact ih hcolumns.2 hrest

theorem foldlM_restore {column : Column ν σ} {columns : List (Column ν σ)} {c d d' : σ}
    {r : Option σ} (h : column.restore c d = some d')
    (hrest : columns.foldlM (fun d column ↦ column.restore c d) d' = r) :
    (column :: columns).foldlM (fun d column ↦ column.restore c d) d = r := by
  rw [List.foldlM_cons, h]
  exact hrest

/-! ## Nested objects -/

/-- A document.  An array of strings is a leaf, with `null` in it as the empty string; no field
takes another array, so that its elements are not kept. -/
inductive Document (ν : Type)
  | null
  | leaf (value : Value ν)
  | array
  | object (entries : List (Bytes × Document ν))

def Document.flat (object : Object ν) : Document ν :=
  .object (object.map fun entry ↦ (entry.1, .leaf entry.2))

/-- A field of a structure, and how a part of a document is put into it. -/
structure Slot (ν σ : Type) where
  name : Bytes
  set : Document ν → σ → Option σ

def findSlot (slots : List (Slot ν σ)) (key : Bytes) : Option (Slot ν σ) :=
  (slots.find? fun slot ↦ slot.name = key).or
    (slots.find? fun slot ↦ foldName slot.name = foldName key)

/-- `json.Unmarshal` of the entries of an object into a structure; `none` is an error. -/
def unmarshalEntries (slots : List (Slot ν σ)) : List (Bytes × Document ν) → σ → Option σ
  | [], c => some c
  | (key, tree) :: entries, c =>
    match findSlot slots key with
    | some slot => (slot.set tree c).bind (unmarshalEntries slots entries)
    | none => unmarshalEntries slots entries c

namespace Slot

/-- The slot of a field without structure, which `null` leaves as it is. -/
def ofField (field : Field ν σ) : Slot ν σ where
  name := field.name
  set
    | .null, c => some c
    | .leaf value, c => field.set value c
    | .array, _ => none
    | .object _, _ => none

/-- The slot of a slice, which `null` sets to `nil`. -/
def ofSlice (field : Field ν σ) : Slot ν σ where
  name := field.name
  set
    | .null, c => field.set (.strings []) c
    | .leaf value, c => field.set value c
    | .array, _ => none
    | .object _, _ => none

/-- The slot of a pointer to a structure. -/
def pointer {τ : Type} (name : Bytes) (slots : List (Slot ν τ)) (zero : τ) (get : σ → Option τ)
    (set : Option τ → σ → σ) : Slot ν σ where
  name := name
  set
    | .null, c => some (set none c)
    | .leaf _, _ => none
    | .array, _ => none
    | .object entries, c =>
      (unmarshalEntries slots entries ((get c).getD zero)).map fun v ↦ set (some v) c

/-- The slot of a `*json.RawMessage`. -/
def raw (name : Bytes) (set : Option (Document ν) → σ → σ) : Slot ν σ where
  name := name
  set
    | .null, c => some (set none c)
    | tree, c => some (set (some tree) c)

end Slot

theorem unmarshalEntries_append (slots : List (Slot ν σ)) (es₁ es₂ : List (Bytes × Document ν))
    (c : σ) :
    unmarshalEntries slots (es₁ ++ es₂) c =
      (unmarshalEntries slots es₁ c).bind (unmarshalEntries slots es₂) := by
  induction es₁ generalizing c with
  | nil => rfl
  | cons entry es₁ ih =>
    rw [List.cons_append, unmarshalEntries, unmarshalEntries]
    cases findSlot slots entry.1 with
    | none => exact ih c
    | some slot =>
      dsimp only
      cases slot.set entry.2 c with
      | none => rfl
      | some c => exact ih c

theorem findSlot_map {slotOf : Field ν σ → Slot ν σ}
    (hname : ∀ field, (slotOf field).name = field.name) (fields : List (Field ν σ)) (key : Bytes) :
    findSlot (fields.map slotOf) key = (findField fields key).map slotOf := by
  rw [findSlot, findField, List.find?_map, List.find?_map, ← Option.map_or]
  simp only [Function.comp_def, hname]

theorem unmarshalEntries_flat {slotOf : Field ν σ → Slot ν σ}
    (hname : ∀ field, (slotOf field).name = field.name)
    (hset : ∀ field value c, (slotOf field).set (.leaf value) c = field.set value c)
    (fields : List (Field ν σ)) (object : Object ν) (c : σ) :
    unmarshalEntries (fields.map slotOf) (object.map fun entry ↦ (entry.1, .leaf entry.2)) c =
      unmarshal fields object c := by
  induction object generalizing c with
  | nil => rfl
  | cons entry object ih =>
    rw [List.map_cons, unmarshalEntries, unmarshal, findSlot_map hname]
    cases findField fields entry.1 with
    | none => exact ih c
    | some field =>
      dsimp only [Option.map_some]
      rw [hset]
      congr 1
      funext c
      exact ih c

/-- `json.Unmarshal` of a document into a pointer to a structure without structures in it. -/
def unmarshalFlat (fields : List (Field ν σ)) (zero : σ) : Document ν → Option (Option σ)
  | .null => some none
  | .leaf _ => none
  | .array => none
  | .object entries => (unmarshalEntries (fields.map .ofField) entries zero).map some

theorem unmarshalFlat_flat (fields : List (Field ν σ)) (zero : σ) (object : Object ν) :
    unmarshalFlat fields zero (.flat object) = (unmarshal fields object zero).map some := by
  rw [Document.flat, unmarshalFlat, unmarshalEntries_flat (fun _ ↦ rfl) (fun _ _ _ ↦ rfl)]

end Vwarp.Go.Json
