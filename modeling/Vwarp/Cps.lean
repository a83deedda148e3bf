import Vwarp.Go.Runtime
import Vwarp.Go.Strconv

/-!
# Custom protocol signatures

A signature packet is written as text with tags such as `<b 0d0a><t><r 16>`.  The packages
for WireGuard and for MASQUE each have a parser for it; what they share is the regular
expression that finds the tags and the decoding of hexadecimal digits.
-/

namespace Vwarp.Cps

open Vwarp.Go

/-- A tag: its letter, and what stands between the letter and the closing bracket. -/
abbrev Tag := UInt8 × Bytes

/-- The loop of `findTags`; `fuel` bounds the number of bytes. -/
def findTagsFuel (letters : Bytes) : Nat → Bytes → List Tag
  | 0, _ => []
  | fuel + 1, s =>
    match s with
    | c :: letter :: rest =>
      if c = ch '<' ∧ letter ∈ letters ∧ ch '>' ∈ rest then
        (letter, rest.takeWhile (· ≠ ch '>')) ::
          findTagsFuel letters fuel (rest.dropWhile (· ≠ ch '>')).tail
      else findTagsFuel letters fuel (letter :: rest)
    | _ => []

/-- The matches of `<([letters])\s*([^>]*)>`, from left to right.  The second group is
trimmed wherever it is used, so the white space before it is not taken off here. -/
def findTags (letters s : Bytes) : List Tag := findTagsFuel letters s.length s

def hexDigit? (c : UInt8) : Option Nat :=
  if ch '0' ≤ c ∧ c ≤ ch '9' then some (c.toNat - 48)
  else if ch 'a' ≤ c ∧ c ≤ ch 'f' then some (c.toNat - 87)
  else if ch 'A' ≤ c ∧ c ≤ ch 'F' then some (c.toNat - 55)
  else none

/-- `hex.DecodeString`. -/
def hexDecodeString : Bytes → Option Bytes
  | [] => some []
  | [_] => none
  | a :: b :: rest => do
      let high ← hexDigit? a
      let low ← hexDigit? b
      let bytes ← hexDecodeString rest
      some (UInt8.ofNat (16 * high + low) :: bytes)

/-- `strings.TrimPrefix`. -/
def trimPrefix (s p : Bytes) : Bytes := if p.isPrefixOf s then s.drop p.length else s

/-- `strings.ReplaceAll(s, " ", "")`. -/
def removeSpaces (s : Bytes) : Bytes := s.filter (· ≠ ch ' ')

theorem ite_cap (length : Int) : (if 1000 < length then 1000 else length) = min length 1000 := by
  split
  · omega
  · omega

theorem zero_lt_cap (length : Int) : 0 < min length 1000 ↔ 0 < length := by omega

/-! ## Finding tags -/

variable {letters : Bytes}

theorem findTagsFuel_congr {m n : Nat} {s : Bytes} (hm : s.length ≤ m) (hn : s.length ≤ n) :
    findTagsFuel letters m s = findTagsFuel letters n s := by
  induction m generalizing n s with
  | zero =>
    cases List.length_eq_zero_iff.mp (Nat.le_zero.mp hm)
    cases n <;> rfl
  | succ m ih =>
    match n, s, hm, hn with
    | 0, [], _, _ => rfl
    | n + 1, [], _, _ => rfl
    | n + 1, [_], _, _ => rfl
    | n + 1, c :: letter :: rest, hm, hn =>
      have htail : (rest.dropWhile (· ≠ ch '>')).tail.length ≤ rest.length :=
        ((List.tail_sublist _).trans (List.dropWhile_sublist _)).length_le
      simp only [List.length_cons] at hm hn
      have hafter := @ih n _ (htail.trans (by omega)) (htail.trans (by omega))
      have hnext := @ih n (letter :: rest) (by simp only [List.length_cons]; omega)
        (by simp only [List.length_cons]; omega)
      rw [findTagsFuel, findTagsFuel, hafter, hnext]

theorem findTags_cons_of_ne {c : UInt8} (hc : c ≠ ch '<') (s : Bytes) :
    findTags letters (c :: s) = findTags letters s := by
  cases s with
  | nil => rfl
  | cons letter rest =>
    rw [findTags, List.length_cons, findTagsFuel, if_neg fun h ↦ hc h.1, findTags]

theorem findTags_append {text : Bytes} (h : ch '<' ∉ text) (s : Bytes) :
    findTags letters (text ++ s) = findTags letters s := by
  induction text with
  | nil => rfl
  | cons c text ih =>
    rw [List.mem_cons, not_or] at h
    rw [List.cons_append, findTags_cons_of_ne (Ne.symm h.1), ih h.2]

theorem findTags_tag {letter : UInt8} (hletter : letter ∈ letters) {data : Bytes}
    (hdata : ch '>' ∉ data) (s : Bytes) :
    findTags letters (ch '<' :: letter :: (data ++ ch '>' :: s)) =
      (letter, data) :: findTags letters s := by
  have hne : ∀ c ∈ data, decide (c ≠ ch '>') = true := by
    intro c hc
    exact decide_eq_true fun h ↦ hdata (h ▸ hc)
  have htake : (data ++ ch '>' :: s).takeWhile (· ≠ ch '>') = data := by
    rw [List.takeWhile_append_of_pos hne, List.takeWhile_cons_of_neg (by simp), List.append_nil]
  have hdrop : (data ++ ch '>' :: s).dropWhile (· ≠ ch '>') = ch '>' :: s := by
    rw [List.dropWhile_append_of_pos hne, List.dropWhile_cons_of_neg (by simp)]
  have hmem : ch '>' ∈ data ++ ch '>' :: s := List.mem_append_right _ List.mem_cons_self
  rw [findTags, List.length_cons, findTagsFuel, if_pos ⟨rfl, hletter, hmem⟩, htake, hdrop,
    List.tail_cons, findTags, findTagsFuel_congr (n := s.length) _ (Nat.le_refl _)]
  simp
  omega

/-- Letters that no tag has can be left out of the expression. -/
theorem findTags_of_subset {letters' s : Bytes} (hsubset : letters ⊆ letters')
    (h : ∀ tag ∈ findTags letters' s, tag.1 ∈ letters) :
    findTags letters s = findTags letters' s := by
  unfold findTags at h ⊢
  generalize s.length = fuel at h ⊢
  induction fuel generalizing s with
  | zero => rfl
  | succ fuel ih =>
    match s, h with
    | [], _ => rfl
    | [_], _ => rfl
    | c :: letter :: rest, h =>
      rw [findTagsFuel] at h
      rw [findTagsFuel, findTagsFuel]
      by_cases htag : c = ch '<' ∧ letter ∈ letters' ∧ ch '>' ∈ rest
      · rw [if_pos htag] at h
        have hletter : letter ∈ letters := h _ List.mem_cons_self
        rw [if_pos htag, if_pos ⟨htag.1, hletter, htag.2.2⟩,
          ih fun tag ht ↦ h tag (List.mem_cons_of_mem _ ht)]
      · rw [if_neg htag] at h
        rw [if_neg htag, if_neg fun h ↦ htag ⟨h.1, hsubset h.2.1, h.2.2⟩, ih h]

theorem letter_mem_of_mem_findTags {s : Bytes} {tag : Tag} (h : tag ∈ findTags letters s) :
    tag.1 ∈ letters := by
  unfold findTags at h
  generalize s.length = fuel at h
  induction fuel generalizing s with
  | zero => cases h
  | succ fuel ih =>
    match s, h with
    | c :: letter :: rest, h =>
      rw [findTagsFuel] at h
      split_ifs at h with htag
      · rcases List.mem_cons.mp h with rfl | h
        · exact htag.2.1
        · exact ih h
      · exact ih h

/-- The example of the default configuration. -/
example : findTags (str "btcr") (str "<b 0d0a0d0a><t><r 16>") =
    [(ch 'b', str " 0d0a0d0a"), (ch 't', []), (ch 'r', str " 16")] := by decide

end Vwarp.Cps
