import Mathlib.Algebra.Ring.Nat
import Mathlib.Data.List.Basic

/-!
# Go strings

A Go string is an arbitrary sequence of bytes, so it is modelled as a list of
bytes and not as a Lean `String`, which could not hold an ill-formed one.  `str`
turns an ASCII literal into such a list.

The functions follow the documentation of the packages `strings` and `bytes`;
only what the modelled code calls is here.
-/

namespace Vwarp.Go

abbrev Bytes := List UInt8

instance : LawfulBEq Bytes := inferInstance

def str (s : String) : Bytes := s.toList.map fun c ↦ c.toNat.toUInt8

/-- `strings.Contains`. -/
def contains : Bytes → Bytes → Bool
  | [], sub => sub.isEmpty
  | c :: cs, sub => sub.isPrefixOf (c :: cs) || contains cs sub

/-- `strings.Split` at a one-byte separator: always at least one part. -/
def split (sep : UInt8) : Bytes → List Bytes
  | [] => [[]]
  | c :: cs =>
    if c = sep then [] :: split sep cs
    else match split sep cs with
      | [] => [[c]]
      | p :: ps => (c :: p) :: ps

/-- `unicode.IsSpace`, as a test on the front of a UTF-8 string: the length of the
white-space rune `s` starts with, `0` when it does not start with one. -/
def spaceLen : Bytes → Nat
  | 0x20 :: _ | 0x09 :: _ | 0x0a :: _ | 0x0b :: _ | 0x0c :: _ | 0x0d :: _ => 1
  | 0xc2 :: 0x85 :: _ | 0xc2 :: 0xa0 :: _ => 2
  | 0xe1 :: 0x9a :: 0x80 :: _ => 3
  | 0xe2 :: 0x80 :: b :: _ => if b ≤ 0x8a ∧ 0x80 ≤ b ∨ b = 0xa8 ∨ b = 0xa9 ∨ b = 0xaf then 3 else 0
  | 0xe2 :: 0x81 :: 0x9f :: _ => 3
  | 0xe3 :: 0x80 :: 0x80 :: _ => 3
  | _ => 0

/-- Drop leading white space; `fuel` bounds the number of runes. -/
def trimLeftFuel : Nat → Bytes → Bytes
  | 0, s => s
  | fuel + 1, s => if spaceLen s = 0 then s else trimLeftFuel fuel (s.drop (spaceLen s))

/-- The length of the white-space rune `s` ends with, given `s` reversed. -/
def spaceLenRev : Bytes → Nat
  | c :: b :: a :: _ =>
    if spaceLen [c] = 1 then 1
    else if spaceLen [b, c] = 2 then 2
    else if spaceLen [a, b, c] = 3 then 3 else 0
  | c :: b :: _ => if spaceLen [c] = 1 then 1 else if spaceLen [b, c] = 2 then 2 else 0
  | c :: _ => if spaceLen [c] = 1 then 1 else 0
  | [] => 0

/-- Drop leading white space of a reversed string. -/
def trimRevFuel : Nat → Bytes → Bytes
  | 0, s => s
  | fuel + 1, s => if spaceLenRev s = 0 then s else trimRevFuel fuel (s.drop (spaceLenRev s))

/-- `strings.TrimSpace`. -/
def trimSpace (s : Bytes) : Bytes :=
  let l := trimLeftFuel s.length s
  (trimRevFuel l.length l.reverse).reverse

/-- `strings.ToLower`, up to non-ASCII letters that have a non-ASCII lower case:
those are left alone, since the texts compared with the result are ASCII.  The
two non-ASCII letters with an ASCII lower case are the Kelvin sign and the dotted
capital I. -/
def toLower : Bytes → Bytes
  | 0xe2 :: 0x84 :: 0xaa :: s => 0x6b :: toLower s
  | 0xc4 :: 0xb0 :: s => 0x69 :: toLower s
  | c :: s => (if 0x41 ≤ c ∧ c ≤ 0x5a then c + 0x20 else c) :: toLower s
  | [] => []

/-! ## What splitting and trimming keep -/

variable {s : Bytes} {c : UInt8}

theorem contains_singleton : contains s [c] = true ↔ c ∈ s := by
  induction s with
  | nil => simp [contains]
  | cons b s ih =>
    rw [contains, Bool.or_eq_true, ih, List.mem_cons]
    simp [List.isPrefixOf]

variable {sep : UInt8}

theorem split_of_not_mem (h : sep ∉ s) : split sep s = [s] := by
  induction s with
  | nil => rfl
  | cons c s ih =>
    have hc : c ≠ sep := (List.ne_of_not_mem_cons h).symm
    rw [split, if_neg hc, ih (List.not_mem_of_not_mem_cons h)]

theorem split_append (h : sep ∉ s) (rest : Bytes) :
    split sep (s ++ sep :: rest) = s :: split sep rest := by
  induction s with
  | nil => rw [List.nil_append, split, if_pos rfl]
  | cons c s ih =>
    have hc : c ≠ sep := (List.ne_of_not_mem_cons h).symm
    rw [List.cons_append, split, if_neg hc, ih (List.not_mem_of_not_mem_cons h)]

theorem not_mem_of_mem_split {part : Bytes} (h : part ∈ split sep s) : sep ∉ part := by
  induction s generalizing part with
  | nil => simp [split] at h; simp [h]
  | cons c s ih =>
    rw [split] at h
    split_ifs at h with hne
    · rcases List.mem_cons.mp h with rfl | h
      · exact List.not_mem_nil
      · exact ih h
    · split at h
      · rw [List.mem_singleton.mp h, List.mem_singleton]
        exact fun heq ↦ hne heq.symm
      · rename_i p ps hsplit
        rw [hsplit] at ih
        rcases List.mem_cons.mp h with rfl | h
        · rw [List.mem_cons, not_or]
          exact ⟨fun heq ↦ hne heq.symm, ih List.mem_cons_self⟩
        · exact ih (List.mem_cons_of_mem p h)

theorem trimLeftFuel_suffix (fuel : Nat) (s : Bytes) : trimLeftFuel fuel s <:+ s := by
  induction fuel generalizing s with
  | zero => exact List.suffix_refl s
  | succ fuel ih =>
    rw [trimLeftFuel]
    split
    · exact List.suffix_refl s
    · exact (ih _).trans (List.drop_suffix _ s)

theorem trimRevFuel_suffix (fuel : Nat) (s : Bytes) : trimRevFuel fuel s <:+ s := by
  induction fuel generalizing s with
  | zero => exact List.suffix_refl s
  | succ fuel ih =>
    rw [trimRevFuel]
    split
    · exact List.suffix_refl s
    · exact (ih _).trans (List.drop_suffix _ s)

theorem mem_of_mem_trimSpace (h : c ∈ trimSpace s) : c ∈ s := by
  have hrev := (trimRevFuel_suffix _ _).subset (List.mem_reverse.mp h)
  exact (trimLeftFuel_suffix _ s).subset (List.mem_reverse.mp hrev)

theorem spaceLen_of_graphic (h : 0x20 < c ∧ c < 0x7f) (s : Bytes) : spaceLen (c :: s) = 0 := by
  unfold spaceLen
  split
  all_goals first | rfl | cases ‹c :: s = _›
  all_goals exact absurd h (by decide)

theorem spaceLen_of_ascii {a b : UInt8} (h : c < 0x7f) :
    spaceLen [b, c] ≠ 2 ∧ spaceLen [a, b, c] ≠ 3 := by
  constructor
  · unfold spaceLen
    split
    all_goals first | decide | cases ‹[b, c] = _›
    all_goals exact absurd h (by decide)
  · unfold spaceLen
    split
    all_goals first | decide | cases ‹[a, b, c] = _›
    case h_10 =>
      rw [if_neg]
      · decide
      · rintro (⟨-, hle⟩ | rfl | rfl | rfl)
        · exact absurd (UInt8.lt_of_le_of_lt hle h) (by decide)
        all_goals exact absurd h (by decide)
    all_goals exact absurd h (by decide)

theorem spaceLenRev_of_graphic (h : 0x20 < c ∧ c < 0x7f) (s : Bytes) :
    spaceLenRev (c :: s) = 0 := by
  have hone := spaceLen_of_graphic h []
  have htwo (b : UInt8) := (spaceLen_of_ascii (a := 0) (b := b) h.2).1
  have hthree (a b : UInt8) := (spaceLen_of_ascii (a := a) (b := b) h.2).2
  match s with
  | [] => simp [spaceLenRev, hone]
  | [b] => simp [spaceLenRev, hone, htwo]
  | b :: a :: s => simp [spaceLenRev, hone, htwo, hthree]

theorem trimSpace_of_graphic (h : ∀ c ∈ s, 0x20 < c ∧ c < 0x7f) : trimSpace s = s := by
  have hleft : trimLeftFuel s.length s = s := by
    cases s with
    | nil => rfl
    | cons c s => exact if_pos (spaceLen_of_graphic (h c List.mem_cons_self) s)
  have hrev (t : Bytes) (ht : ∀ c ∈ t, 0x20 < c ∧ c < 0x7f) (fuel : Nat) :
      trimRevFuel fuel t = t := by
    cases fuel with
    | zero => rfl
    | succ fuel =>
      cases t with
      | nil => rfl
      | cons c t => exact if_pos (spaceLenRev_of_graphic (ht c List.mem_cons_self) t)
  rw [trimSpace, hleft]
  rw [hrev s.reverse (fun c hc ↦ h c (List.mem_reverse.mp hc)), List.reverse_reverse]

theorem trimSpace_space (s : Bytes) : trimSpace (0x20 :: s) = trimSpace s := rfl

end Vwarp.Go
