import Vwarp.Go.Float64
import Vwarp.Go.Strings
import Mathlib.Data.List.Basic

/-!
# `encoding/json` on flat objects

A JSON object as a list of keys with values, and how `json.Unmarshal` puts one into a
structure: each key is looked up among the names of the fields, first exactly and then without
case, a value of the wrong kind is an error, and a key without a field is skipped.

What the library does with numbers and with strings is given by an `Encoding`, which carries
the documented laws that are used.  An `int` that is read without a type is read as a `float64`.
The same goes for the text of a `time.Duration`.
-/

namespace Vwarp.Go.Json

/-- The bytes are the UTF-8 encoding of some characters. -/
def Utf8 (s : Bytes) : Prop := ∃ cs : List Char, s = cs.flatMap String.utf8EncodeChar

/-- Read an integer as an `int`; it is an error for one that does not fit. -/
def readInt (n : Int) : Option Int64 := if -2 ^ 63 ≤ n ∧ n < 2 ^ 63 then some (.ofInt n) else none

theorem readInt_toInt (n : Int64) : readInt n.toInt = some n := by
  rw [readInt, if_pos ⟨n.le_toInt, n.toInt_lt⟩, Int64.ofInt_toInt]

theorem readInt_eq_some_iff {m : Int} {n : Int64} : readInt m = some n ↔ m = n.toInt := by
  constructor
  · intro h
    unfold readInt at h
    split at h
    · rename_i hfits
      rw [← Option.some.inj h, Int64.toInt_ofInt_of_le hfits.1 hfits.2]
    · cases h
  · rintro rfl
    exact readInt_toInt n

/-- `encoding/json` on numbers and strings. -/
structure Encoding where
  /-- The texts of JSON numbers. -/
  Number : Type
  /-- Write an `int`. -/
  ofInt : Int64 → Number
  /-- Write a `float32`, given by its bits; it is an error for one that is not finite. -/
  ofFloat32 : BitVec 32 → Option Number
  /-- Read a number without a type, as a `float64`, and write it again. -/
  reread : Number → Number
  /-- Read an `int`. -/
  toInt : Number → Option Int64
  /-- Read a `float32`. -/
  toFloat32 : Number → Option (BitVec 32)
  /-- Write a string and read it again. -/
  coerce : Bytes → Bytes
  coerce_utf8 {s : Bytes} : Utf8 s → coerce s = s
  reread_int (n : Int64) : toInt (reread (ofInt n)) = readInt (throughFloat64 n.toInt)
  reread_float32 {x : BitVec 32} {text : Number} :
    ofFloat32 x = some text → toFloat32 (reread text) = some x

/-- An `int` that is written, read without a type, written again and read. -/
def Encoding.detour (e : Encoding) (n : Int64) : Option Int64 := e.toInt (e.reread (e.ofInt n))

theorem Encoding.detour_eq_some_iff (e : Encoding) {n : Int64} :
    e.detour n = some n ↔ throughFloat64 n.toInt = n.toInt := by
  rw [detour, e.reread_int, readInt_eq_some_iff]

/-- `Duration.String` and `time.ParseDuration`. -/
structure DurationText where
  string : Int64 → Bytes
  parse : Bytes → Option Int64
  parse_string (d : Int64) : parse (string d) = some d
  utf8_string (d : Int64) : Utf8 (string d)

theorem utf8_of_ascii {s : Bytes} (h : ∀ c ∈ s, c.toNat < 128) : Utf8 s := by
  have hchar : ∀ n < 128, String.utf8EncodeChar (Char.ofNat n) = [UInt8.ofNat n] := by decide
  refine ⟨s.map fun c ↦ Char.ofNat c.toNat, ?_⟩
  rw [List.flatMap_map]
  induction s with
  | nil => rfl
  | cons c s ih =>
    obtain ⟨hc, hs⟩ := List.forall_mem_cons.mp h
    rw [List.flatMap_cons, ← ih hs, hchar _ hc, UInt8.ofNat_toNat]
    rfl

/-! ### The laws can be met -/

/-- An encoding that keeps every `float32` and every string. -/
def Encoding.exact : Encoding where
  Number := Int ⊕ BitVec 32
  ofInt n := .inl n.toInt
  ofFloat32 x := some (.inr x)
  reread := Sum.map throughFloat64 id
  toInt text := text.getLeft?.bind readInt
  toFloat32 text := text.getRight?
  coerce := id
  coerce_utf8 _ := rfl
  reread_int _ := rfl
  reread_float32 h := by
    cases h
    rfl

/-- A value in an object. -/
inductive Value (ν : Type)
  | string (s : Bytes)
  | bool (b : Bool)
  | number (text : ν)
  | strings (ss : List Bytes)

abbrev Object (ν : Type) := List (Bytes × Value ν)

namespace Object

variable {ν : Type}

def delete (object : Object ν) (key : Bytes) : Object ν := object.filter fun entry ↦ entry.1 ≠ key

/-- The object after its numbers were read without a type and written again. -/
def reread (e : Encoding) (object : Object e.Number) : Object e.Number :=
  object.map fun entry ↦
    (entry.1, match entry.2 with
      | .number text => .number (e.reread text)
      | value => value)

theorem lookup_entry {before after : Object ν} {key : Bytes} {value : Value ν}
    (hbefore : ∀ entry ∈ before, entry.1 ≠ key) :
    List.lookup key (before ++ (key, value) :: after) = some value := by
  refine List.lookup_eq_some_iff.mpr ⟨before, after, rfl, ?_⟩
  intro entry hentry
  simpa using (hbefore entry hentry).symm

theorem delete_entry {before after : Object ν} {key : Bytes} {value : Value ν}
    (hbefore : ∀ entry ∈ before, entry.1 ≠ key) (hafter : ∀ entry ∈ after, entry.1 ≠ key) :
    delete (before ++ (key, value) :: after) key = before ++ after := by
  unfold delete
  rw [List.filter_append, List.filter_cons_of_neg (by simp)]
  congr 1
  · exact List.filter_eq_self.mpr fun entry hentry ↦ by simpa using hbefore entry hentry
  · exact List.filter_eq_self.mpr fun entry hentry ↦ by simpa using hafter entry hentry

end Object

/-! ## Structures -/

/-- A field of a structure: its name and how a value is put into it. -/
structure Field (ν σ : Type) where
  name : Bytes
  set : Value ν → σ → Option σ

namespace Field

variable {ν σ : Type}

/-- A field of type `string`. -/
def string (name : Bytes) (set : Bytes → σ → σ) : Field ν σ where
  name := name
  set
    | .string s, c => some (set s c)
    | _, _ => none

/-- A field of type `bool`. -/
def bool (name : Bytes) (set : Bool → σ → σ) : Field ν σ where
  name := name
  set
    | .bool b, c => some (set b c)
    | _, _ => none

/-- A field of type `[]string`. -/
def strings (name : Bytes) (set : List Bytes → σ → σ) : Field ν σ where
  name := name
  set
    | .strings ss, c => some (set ss c)
    | _, _ => none

/-- A field of type `int` or `time.Duration`. -/
def int (e : Encoding) (name : Bytes) (set : Int64 → σ → σ) : Field e.Number σ where
  name := name
  set
    | .number text, c => (e.toInt text).map (set · c)
    | _, _ => none

/-- A field of type `float32`. -/
def float32 (e : Encoding) (name : Bytes) (set : BitVec 32 → σ → σ) : Field e.Number σ where
  name := name
  set
    | .number text, c => (e.toFloat32 text).map (set · c)
    | _, _ => none

end Field

variable {ν σ : Type}

/-- A name without the case of its letters, for names in ASCII.  The two letters outside ASCII that
differ from an ASCII letter only in case are the long s and the Kelvin sign. -/
def foldName : Bytes → Bytes
  | 0xc5 :: 0xbf :: name => 0x73 :: foldName name
  | 0xe2 :: 0x84 :: 0xaa :: name => 0x6b :: foldName name
  | c :: name => (if 0x41 ≤ c ∧ c ≤ 0x5a then c + 0x20 else c) :: foldName name
  | [] => []

/-- The field that a key is for: the one with this name, or else one whose name differs only
in case. -/
def findField (fields : List (Field ν σ)) (key : Bytes) : Option (Field ν σ) :=
  (fields.find? fun field ↦ field.name = key).or
    (fields.find? fun field ↦ foldName field.name = foldName key)

/-- `json.Unmarshal` of an object into a structure; `none` is an error. -/
def unmarshal (fields : List (Field ν σ)) : Object ν → σ → Option σ
  | [], c => some c
  | (key, value) :: object, c =>
    match findField fields key with
    | some field => (field.set value c).bind (unmarshal fields object)
    | none => unmarshal fields object c

theorem unmarshal_append (fields : List (Field ν σ)) (o₁ o₂ : Object ν) (c : σ) :
    unmarshal fields (o₁ ++ o₂) c = (unmarshal fields o₁ c).bind (unmarshal fields o₂) := by
  induction o₁ generalizing c with
  | nil => rfl
  | cons entry o₁ ih =>
    rw [List.cons_append, unmarshal, unmarshal]
    cases findField fields entry.1 with
    | none => exact ih c
    | some field =>
      dsimp only
      cases field.set entry.2 c with
      | none => rfl
      | some c => exact ih c

end Vwarp.Go.Json
