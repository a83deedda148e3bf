import Vwarp.Go.Json.Document

/-!
# What occurs in a document

`json.Unmarshal` leaves a field alone whose key does not occur.  A structure is seen as the list of
its leaves, which are the fields without structure, and of its sections, which are pointers to
structures.  What is read is then, leaf by leaf, the last value that occurs, and section by section
what the entries of its objects are read as: `unmarshalEntries_leaf`, `unmarshalEntries_section`.
-/

namespace Vwarp.Go.Json

/-- A value without structure. -/
inductive Leaf
  | string (s : Bytes)
  | bool (b : Bool)
  | int (n : Int64)
  | strings (ss : List Bytes)
  | float32 (x : BitVec 32)
deriving DecidableEq

/-- The type of a field without structure. -/
inductive Kind
  | string
  | bool
  | int
  | strings
  | float32
deriving DecidableEq

def Leaf.kind : Leaf → Kind
  | .string _ => .string
  | .bool _ => .bool
  | .int _ => .int
  | .strings _ => .strings
  | .float32 _ => .float32

/-- The value that a part of a document gives to a field, if it does; `null` gives one to slices
only. -/
def Kind.read (e : Encoding) : Kind → Document e.Number → Option Leaf
  | .string, .leaf (.string s) => some (.string s)
  | .bool, .leaf (.bool b) => some (.bool b)
  | .int, .leaf (.number text) => (e.toInt text).map .int
  | .float32, .leaf (.number text) => (e.toFloat32 text).map .float32
  | .strings, .leaf (.strings ss) => some (.strings ss)
  | .strings, .null => some (.strings [])
  | _, _ => none

/-- The place of the field that a key is for, among the names of the fields. -/
def resolve (names : List Bytes) (key : Bytes) : Option Nat :=
  (names.findIdx? (· = key)).or (names.findIdx? fun name ↦ foldName name = foldName key)

/-- The last value that occurs for the field at a place. -/
def lastLeaf (e : Encoding) (names : List Bytes) (kind : Kind) (i : Nat) :
    List (Bytes × Document e.Number) → Option Leaf
  | [] => none
  | (key, tree) :: entries =>
    (lastLeaf e names kind i entries).or
      (if resolve names key = some i then kind.read e tree else none)

/-- The entries of a section after one more part of a document.  The objects of a key that occurs
twice are read one after the other, and `null` takes the section away. -/
def Document.after {ν : Type} (before : Option (List (Bytes × Document ν))) :
    Document ν → Option (List (Bytes × Document ν))
  | .object entries => some (before.getD [] ++ entries)
  | _ => none

/-- The entries of the section at a place, after those before. -/
def sectionEntries {ν : Type} (names : List Bytes) (i : Nat) :
    List (Bytes × Document ν) → Option (List (Bytes × Document ν)) →
      Option (List (Bytes × Document ν))
  | [], before => before
  | (key, tree) :: entries, before =>
    sectionEntries names i entries
      (if resolve names key = some i then Document.after before tree else before)

/-! ## Slots by their places -/

section Places

variable {α ν σ : Type}

theorem find?_eq_findIdx? (p : α → Bool) (l : List α) :
    l.find? p = (l.findIdx? p).bind (l[·]?) := by
  induction l with
  | nil => rfl
  | cons a l ih =>
    rw [List.find?_cons, List.findIdx?_cons]
    cases p a with
    | true => rfl
    | false =>
      rw [ih, if_neg Bool.false_ne_true, Option.bind_map]
      rfl

theorem lt_of_findIdx? {p : α → Bool} {l : List α} {i : Nat} (h : l.findIdx? p = some i) :
    i < l.length :=
  (List.findIdx?_eq_some_iff_getElem.mp h).1

theorem resolve_lt {names : List Bytes} {key : Bytes} {i : Nat} (h : resolve names key = some i) :
    i < names.length := by
  rw [resolve, Option.or_eq_some_iff] at h
  obtain h | ⟨-, h⟩ := h
  all_goals exact lt_of_findIdx? h

theorem findSlot_eq_resolve (slots : List (Slot ν σ)) (key : Bytes) :
    findSlot slots key = (resolve (slots.map (·.name)) key).bind (slots[·]?) := by
  rw [findSlot, resolve, find?_eq_findIdx?, find?_eq_findIdx?, List.findIdx?_map, List.findIdx?_map]
  cases hexact : slots.findIdx? ((decide <| · = key) ∘ (·.name)) with
  | none =>
    rw [Function.comp_def] at hexact
    rw [hexact]
    rfl
  | some i =>
    rw [Function.comp_def] at hexact
    rw [hexact, Option.bind_some, Option.some_or, Option.bind_some,
      List.getElem?_eq_getElem (lt_of_findIdx? hexact), Option.some_or]

theorem unmarshalEntries_cons (slots : List (Slot ν σ)) (key : Bytes) (tree : Document ν)
    (entries : List (Bytes × Document ν)) (c : σ) :
    unmarshalEntries slots ((key, tree) :: entries) c =
      match resolve (slots.map (·.name)) key with
      | none => unmarshalEntries slots entries c
      | some j =>
        (slots[j]?).bind fun slot ↦ (slot.set tree c).bind (unmarshalEntries slots entries) := by
  rw [unmarshalEntries, findSlot_eq_resolve]
  cases hresolve : resolve (slots.map (·.name)) key with
  | none => rfl
  | some j =>
    have hlt := resolve_lt hresolve
    rw [List.length_map] at hlt
    dsimp only
    rw [Option.bind_some, List.getElem?_eq_getElem hlt]
    rfl

end Places

/-! ## Leaves -/

section Leaves

variable {e : Encoding} {σ : Type}

/-- The slot sets the leaf at a place if it is one of a leaf, and leaves the leaves alone if it is
one of a section. -/
def Writes (leaves : σ → List Leaf) (i : Nat) (kind : Option Kind) (slot : Slot e.Number σ) :
    Prop :=
  ∀ tree c c', slot.set tree c = some c' →
    leaves c' = (kind.bind fun kind ↦ kind.read e tree).elim (leaves c) ((leaves c).set i)

def WritesFrom (leaves : σ → List Leaf) : Nat → List (Option Kind) → List (Slot e.Number σ) → Prop
  | _, [], [] => True
  | i, kind :: kinds, slot :: slots =>
    Writes leaves i kind slot ∧ WritesFrom leaves (i + 1) kinds slots
  | _, _, _ => False

variable {leaves : σ → List Leaf} {i : Nat} {name : Bytes}

variable {kind : Kind} {kinds : List (Option Kind)} {entries : List (Bytes × Document e.Number)}

/-- A slot that `null` leaves alone. -/
theorem writes_ofField {field : Field e.Number σ} (hnull : kind ≠ .strings)
    (h : ∀ value c c', field.set value c = some c' →
      ∃ leaf, kind.read e (.leaf value) = some leaf ∧ leaves c' = (leaves c).set i leaf) :
    Writes leaves i (some kind) (.ofField field) := by
  intro tree c c' hset
  cases tree with
  | null =>
    cases hset
    cases kind with
    | strings => exact absurd rfl hnull
    | _ => rfl
  | leaf value =>
    obtain ⟨leaf, hread, hleaves⟩ := h value c c' hset
    rw [Option.bind_some, hread]
    exact hleaves
  | array => cases hset
  | object _ => cases hset

theorem writes_string {set : Bytes → σ → σ}
    (h : ∀ v c, leaves (set v c) = (leaves c).set i (.string v)) :
    Writes leaves i (some .string) (.ofField (.string name set) : Slot e.Number σ) := by
  refine writes_ofField nofun fun value c c' hset ↦ ?_
  cases value with
  | string s =>
    cases hset
    exact ⟨.string s, rfl, h s c⟩
  | _ => cases hset

theorem writes_bool {set : Bool → σ → σ}
    (h : ∀ v c, leaves (set v c) = (leaves c).set i (.bool v)) :
    Writes leaves i (some .bool) (.ofField (.bool name set) : Slot e.Number σ) := by
  refine writes_ofField nofun fun value c c' hset ↦ ?_
  cases value with
  | bool b =>
    cases hset
    exact ⟨.bool b, rfl, h b c⟩
  | _ => cases hset

theorem writes_int {set : Int64 → σ → σ} (h : ∀ v c, leaves (set v c) = (leaves c).set i (.int v)) :
    Writes leaves i (some .int) (.ofField (.int e name set)) := by
  refine writes_ofField nofun fun value c c' hset ↦ ?_
  cases value with
  | number text =>
    obtain ⟨n, hn, rfl⟩ := Option.map_eq_some_iff.mp hset
    exact ⟨.int n, congrArg (Option.map Leaf.int) hn, h n c⟩
  | _ => cases hset

theorem writes_float32 {set : BitVec 32 → σ → σ}
    (h : ∀ v c, leaves (set v c) = (leaves c).set i (.float32 v)) :
    Writes leaves i (some .float32) (.ofField (.float32 e name set)) := by
  refine writes_ofField nofun fun value c c' hset ↦ ?_
  cases value with
  | number text =>
    obtain ⟨x, hx, rfl⟩ := Option.map_eq_some_iff.mp hset
    exact ⟨.float32 x, congrArg (Option.map Leaf.float32) hx, h x c⟩
  | _ => cases hset

/-- A slot that `null` empties. -/
theorem writes_strings {set : List Bytes → σ → σ}
    (h : ∀ v c, leaves (set v c) = (leaves c).set i (.strings v)) :
    Writes leaves i (some .strings) (.ofSlice (.strings name set) : Slot e.Number σ) := by
  intro tree c c' hset
  cases tree with
  | null =>
    cases hset
    exact h [] c
  | leaf value =>
    cases value with
    | strings ss =>
      cases hset
      exact h ss c
    | _ => cases hset
  | array => cases hset
  | object _ => cases hset

theorem writes_pointer {τ : Type} {slots : List (Slot e.Number τ)} {zero : τ} {get : σ → Option τ}
    {set : Option τ → σ → σ} (h : ∀ v c, leaves (set v c) = leaves c) :
    Writes leaves i none (.pointer name slots zero get set) := by
  intro tree c c' hset
  cases tree with
  | null =>
    cases hset
    exact h none c
  | leaf _ => cases hset
  | array => cases hset
  | object entries =>
    obtain ⟨v, -, rfl⟩ := Option.map_eq_some_iff.mp hset
    exact h (some v) c

theorem WritesFrom.getElem? {slots : List (Slot e.Number σ)} {k j : Nat}
    {slot : Slot e.Number σ} (h : WritesFrom leaves k kinds slots) (hslot : slots[j]? = some slot) :
    ∃ kind, kinds[j]? = some kind ∧ Writes leaves (k + j) kind slot := by
  induction slots generalizing k kinds j with
  | nil => cases hslot
  | cons first slots ih =>
    cases kinds with
    | nil => exact h.elim
    | cons kind kinds =>
      cases j with
      | zero =>
        cases hslot
        exact ⟨kind, rfl, h.1⟩
      | succ j =>
        obtain ⟨kind', hkind', hwrites⟩ := ih h.2 hslot
        refine ⟨kind', hkind', ?_⟩
        rwa [Nat.add_assoc, Nat.add_comm 1 j] at hwrites

/-- A leaf is read as the last value that occurs, and is left alone if there is none. -/
theorem unmarshalEntries_leaf {slots : List (Slot e.Number σ)} (h : WritesFrom leaves 0 kinds slots)
    (hkind : kinds[i]? = some (some kind)) {c c' : σ} (hi : i < (leaves c).length)
    (hrun : unmarshalEntries slots entries c = some c') :
    (leaves c')[i]? = (lastLeaf e (slots.map (·.name)) kind i entries).or (leaves c)[i]? := by
  induction entries generalizing c with
  | nil =>
    cases hrun
    rfl
  | cons entry entries ih =>
    obtain ⟨key, tree⟩ := entry
    rw [unmarshalEntries_cons] at hrun
    rw [lastLeaf, Option.or_assoc]
    cases hresolve : resolve (slots.map (·.name)) key with
    | none =>
      rw [hresolve] at hrun
      rw [if_neg nofun, Option.none_or]
      exact ih hi hrun
    | some j =>
      rw [hresolve] at hrun
      obtain ⟨slot, hslot, hrun⟩ := Option.bind_eq_some_iff.mp hrun
      obtain ⟨d, hset, hrun⟩ := Option.bind_eq_some_iff.mp hrun
      obtain ⟨kind', hkind', hwrites⟩ := h.getElem? hslot
      have hleaves := hwrites tree c d hset
      rw [Nat.zero_add] at hleaves
      have hlength : (leaves d).length = (leaves c).length := by
        rw [hleaves]
        cases kind'.bind fun kind ↦ kind.read e tree with
        | none => rfl
        | some leaf => exact List.length_set
      rw [ih (hlength ▸ hi) hrun, hleaves]
      congr 1
      by_cases hji : j = i
      · subst hji
        cases hkind'.symm.trans hkind
        rw [if_pos rfl, Option.bind_some]
        cases kind.read e tree with
        | none => rfl
        | some leaf => exact List.getElem?_set_self hi
      · rw [if_neg fun hsome ↦ hji (Option.some.inj hsome), Option.none_or]
        cases kind'.bind fun kind ↦ kind.read e tree with
        | none => rfl
        | some leaf => exact List.getElem?_set_ne hji

theorem kind_of_read {tree : Document e.Number} {leaf : Leaf} (h : kind.read e tree = some leaf) :
    leaf.kind = kind := by
  unfold Kind.read at h
  split at h
  all_goals
    first | cases h; rfl | (obtain ⟨_, -, rfl⟩ := Option.map_eq_some_iff.mp h; rfl) | cases h

theorem kind_of_lastLeaf {names : List Bytes}
    {leaf : Leaf} (h : lastLeaf e names kind i entries = some leaf) : leaf.kind = kind := by
  induction entries with
  | nil => cases h
  | cons entry entries ih =>
    rw [lastLeaf, Option.or_eq_some_iff] at h
    obtain h | ⟨-, h⟩ := h
    · exact ih h
    · exact kind_of_read (Option.ite_none_right_eq_some.mp h).2

end Leaves

/-! ## Sections -/

section Sections

variable {ν σ τ : Type} {slots : List (Slot ν σ)} {i : Nat} {name : Bytes} {inner : List (Slot ν τ)}
  {zero : τ} {get : σ → Option τ} {set : Option τ → σ → σ}

/-- A section is what its entries are read as, if it occurs. -/
def ReadsAs (inner : List (Slot ν τ)) (zero : τ) (entries : Option (List (Bytes × Document ν)))
    (v : Option τ) : Prop :=
  entries.map (unmarshalEntries inner · zero) = v.map some

theorem ReadsAs.unmarshalEntries_getD {before : Option (List (Bytes × Document ν))} {v : Option τ}
    (h : ReadsAs inner zero before v) :
    unmarshalEntries inner (before.getD []) zero = some (v.getD zero) := by
  cases before with
  | none =>
    cases v with
    | none => rfl
    | some _ => cases h
  | some entries =>
    cases v with
    | none => cases h
    | some v => exact Option.some.inj h

/-- The slot leaves a part of a structure alone. -/
def Keeps {α : Type} (part : σ → α) (slot : Slot ν σ) : Prop :=
  ∀ tree c c', slot.set tree c = some c' → part c' = part c

section Keeps

variable {α : Type} {part : σ → α}

theorem keeps_string {put : Bytes → σ → σ} (h : ∀ v c, part (put v c) = part c) :
    Keeps part (.ofField (.string name put) : Slot ν σ) := by
  intro tree c c' hset
  match tree with
  | .null =>
    cases hset
    rfl
  | .leaf (.string s) =>
    cases hset
    exact h s c

theorem keeps_bool {put : Bool → σ → σ} (h : ∀ v c, part (put v c) = part c) :
    Keeps part (.ofField (.bool name put) : Slot ν σ) := by
  intro tree c c' hset
  match tree with
  | .null =>
    cases hset
    rfl
  | .leaf (.bool b) =>
    cases hset
    exact h b c

theorem keeps_pointer (h : ∀ v c, part (set v c) = part c) :
    Keeps part (.pointer name inner zero get set) := by
  intro tree c c' hset
  match tree with
  | .null =>
    cases hset
    exact h none c
  | .object entries =>
    obtain ⟨v, -, rfl⟩ := Option.map_eq_some_iff.mp hset
    exact h (some v) c

end Keeps

/-- The objects that occur for a section are read one after the other. -/
theorem unmarshalEntries_section (hslot : slots[i]? = some (.pointer name inner zero get set))
    (hget : ∀ v c, get (set v c) = v)
    (hother : ∀ j slot, slots[j]? = some slot → j ≠ i → Keeps get slot)
    {entries : List (Bytes × Document ν)} {c c' : σ}
    (hrun : unmarshalEntries slots entries c = some c')
    {before : Option (List (Bytes × Document ν))} (hbefore : ReadsAs inner zero before (get c)) :
    ReadsAs inner zero (sectionEntries (slots.map (·.name)) i entries before) (get c') := by
  induction entries generalizing c before with
  | nil =>
    cases hrun
    exact hbefore
  | cons entry entries ih =>
    obtain ⟨key, tree⟩ := entry
    rw [unmarshalEntries_cons] at hrun
    rw [sectionEntries]
    cases hresolve : resolve (slots.map (·.name)) key with
    | none =>
      rw [hresolve] at hrun
      rw [if_neg nofun]
      exact ih hrun hbefore
    | some j =>
      rw [hresolve] at hrun
      obtain ⟨slot, hslot', hbind⟩ := Option.bind_eq_some_iff.mp hrun
      obtain ⟨d, hset, hrest⟩ := Option.bind_eq_some_iff.mp hbind
      by_cases hji : j = i
      · subst hji
        cases hslot.symm.trans hslot'
        rw [if_pos rfl]
        refine ih hrest ?_
        cases tree with
        | null =>
          cases hset
          rw [hget]
          rfl
        | leaf _ => cases hset
        | array => cases hset
        | object more =>
          obtain ⟨v, hv, rfl⟩ := Option.map_eq_some_iff.mp hset
          rw [hget, ReadsAs, Document.after, Option.map_some, unmarshalEntries_append,
            hbefore.unmarshalEntries_getD, Option.bind_some, hv]
          rfl
      · rw [if_neg fun hsome ↦ hji (Option.some.inj hsome)]
        refine ih hrest ?_
        rw [hother j slot hslot' hji tree c d hset]
        exact hbefore

end Sections

end Vwarp.Go.Json
