import Vwarp.Masque.Noize.Safety
import Vwarp.Wireguard.PreflightBind.Packet

/-!
# One format, two parsers

The guide says that MASQUE and AtomicNoize have one format for signature packets.  Each has a parser
of its own.  Both find the same tags in a text without `<n>` and `<x>`, and they differ in two of
them: MASQUE takes both spellings of the prefix of a `<b>` tag off, one after the other, and it
takes a length that is no number for some number, where AtomicNoize reports an error.

`parseCPSPacket_agree_iff` says for which texts the two agree.  A text with a tag that only MASQUE
takes is one of them only if some other tag is wrong for both.
-/

namespace Vwarp.Cps

open Vwarp.Go Vwarp.Lib Vwarp.Masque Vwarp.Wireguard

def Malformed (tag : Tag) : Prop :=
  tag.1 = ch 'b' ∧ trimSpace tag.2 ≠ [] ∧
    hexDecodeString
      (removeSpaces (trimPrefix (trimPrefix (trimSpace tag.2) (str "0x")) (str "0X"))) =
      none

/-- A tag that AtomicNoize does not take: digits after both prefixes, or a length that is not an
`int`. -/
def Rejected (tag : Tag) : Prop :=
  tag.1 = ch 'b' ∧ (str "0x0X").isPrefixOf (trimSpace tag.2) = true ∨
    tag.1 = ch 'r' ∧ trimSpace tag.2 ≠ [] ∧ atoi (trimSpace tag.2) = none

instance (tag : Tag) : Decidable (Malformed tag) := inferInstanceAs (Decidable (_ ∧ _ ∧ _))

instance (tag : Tag) : Decidable (Rejected tag) := inferInstanceAs (Decidable (_ ∧ _ ∨ _ ∧ _ ∧ _))

/-! ## Prefixes and lengths -/

theorem hexDecodeString_twice {tagData : Bytes} (h : (str "0x0X").isPrefixOf tagData = true) :
    hexDecodeString (removeSpaces (tagData.drop 2)) = none := by
  obtain ⟨digits, rfl⟩ := List.isPrefixOf_iff_prefix.mp h
  rfl

/-- Without both prefixes, it does not matter how one is taken off. -/
theorem trimPrefix_once {tagData : Bytes} (h : (str "0x0X").isPrefixOf tagData = false) :
    trimPrefix (trimPrefix tagData (str "0x")) (str "0X") =
      if (str "0x").isPrefixOf tagData ∨ (str "0X").isPrefixOf tagData then tagData.drop 2
      else tagData := by
  by_cases hlower : (str "0x").isPrefixOf tagData = true
  · obtain ⟨digits, rfl⟩ := List.isPrefixOf_iff_prefix.mp hlower
    have hfirst : trimPrefix (str "0x" ++ digits) (str "0x") = digits := rfl
    have hsecond : trimPrefix digits (str "0X") = digits := if_neg (Bool.eq_false_iff.mp h)
    rw [hfirst, hsecond, if_pos (.inl hlower)]
    rfl
  · have hfirst : trimPrefix tagData (str "0x") = tagData := if_neg hlower
    rw [hfirst, trimPrefix]
    simp only [hlower, Bool.false_eq_true, false_or]
    rfl

/-! ## Tags -/

section Tags

variable {tag : Tag} (hletter : tag.1 ∈ str "btcr")

include hletter

theorem letter_cases : tag.1 = ch 'b' ∨ tag.1 = ch 't' ∨ tag.1 = ch 'c' ∨ tag.1 = ch 'r' := by
  simpa [str, ch] using hletter

/-- MASQUE fails at a malformed tag and at no other. -/
theorem noize_parseTag_ensures (result : Bytes) :
    (Noize.parseTag result tag).Ensures False fun bytes ↦ bytes = none ↔ Malformed tag := by
  obtain ⟨letter, data⟩ := tag
  -- a clock value is always appended
  have hnow (f : Nat → Bytes) (hne : letter ≠ ch 'b') :
      (unixNow >>= fun now ↦ pure (some (result ++ f now))).Ensures False
        fun bytes ↦ bytes = none ↔ Malformed (letter, data) := by
    simp only [Draw.ensures_bind, unixNow, ensures_anyBelow (show 0 < 2 ^ 63 by decide),
      Draw.ensures_pure]
    intro now _
    exact iff_of_false (Option.some_ne_none _) fun h ↦ hne h.1
  rcases letter_cases hletter with rfl | rfl | rfl | rfl
  · rw [Noize.parseTag_b]
    split_ifs with hempty
    · exact iff_of_false (Option.some_ne_none _) fun h ↦ h.2.1 hempty
    · rw [Draw.ensures_pure, Option.map_eq_none_iff]
      exact ⟨fun h ↦ ⟨rfl, hempty, h⟩, fun h ↦ h.2.2⟩
  · rw [Noize.parseTag_t]
    exact hnow _ (by decide)
  · rw [Noize.parseTag_c]
    exact hnow _ (by decide)
  · have hwell (bytes : Bytes) : some bytes = none ↔ Malformed (ch 'r', data) :=
      iff_of_false (Option.some_ne_none _) fun h ↦ absurd h.1 (show ch 'r' ≠ ch 'b' by decide)
    rw [Noize.parseTag_r]
    split
    · exact hwell _
    · split
      · simp only [Draw.ensures_bind, ensures_randRead, Draw.ensures_pure]
        exact fun bytes _ ↦ hwell _
      · exact hwell _

/-- AtomicNoize fails at a malformed tag, and at one that it rejects. -/
theorem preflight_parseTag_eq_none (h : Malformed tag ∨ Rejected tag) :
    PreflightBind.parseTag tag = pure none := by
  obtain ⟨letter, data⟩ := tag
  have hclock (hb : letter ≠ ch 'b') (hr : letter ≠ ch 'r') :
      ¬(Malformed (letter, data) ∨ Rejected (letter, data)) := by
    rintro (h | h | h)
    · exact hb h.1
    · exact hb h.1
    · exact hr h.1
  rcases letter_cases hletter with rfl | rfl | rfl | rfl
  · have htwice : (str "0x0X").isPrefixOf (trimSpace data) = true → trimSpace data ≠ [] := by
      intro hprefix hempty
      rw [hempty] at hprefix
      cases hprefix
    rw [PreflightBind.parseTag_b]
    cases htwo : (str "0x0X").isPrefixOf (trimSpace data) with
    | true =>
      have hlower : (str "0x").isPrefixOf (trimSpace data) = true := by
        obtain ⟨digits, hdigits⟩ := List.isPrefixOf_iff_prefix.mp htwo
        rw [← hdigits]
        rfl
      rw [if_neg (htwice htwo), if_pos (.inl hlower), hexDecodeString_twice htwo]
    | false =>
      rcases h with h | h | h
      · rw [if_neg h.2.1, ← trimPrefix_once htwo, h.2.2]
      · rw [htwo] at h
        exact absurd h.2 Bool.false_ne_true
      · exact absurd h.1 (show ch 'b' ≠ ch 'r' by decide)
  · exact absurd h (hclock (by decide) (by decide))
  · exact absurd h (hclock (by decide) (by decide))
  · rcases h with h | h | h
    · exact absurd h.1 (show ch 'r' ≠ ch 'b' by decide)
    · exact absurd h.1 (show ch 'r' ≠ ch 'b' by decide)
    · rw [PreflightBind.parseTag_r, if_neg h.2.1, h.2.2]

/-- At every other tag both do the same. -/
theorem noize_parseTag_eq (result : Bytes) (h : ¬Rejected tag) :
    Noize.parseTag result tag =
      PreflightBind.parseTag tag >>= fun bytes ↦ pure (bytes.map (result ++ ·)) := by
  obtain ⟨letter, data⟩ := tag
  have hnil : some result = (some []).map (result ++ ·) := by
    rw [Option.map_some, List.append_nil]
  rcases letter_cases hletter with rfl | rfl | rfl | rfl
  · have htwo : (str "0x0X").isPrefixOf (trimSpace data) = false :=
      Bool.eq_false_iff.mpr fun htwo ↦ h (.inl ⟨rfl, htwo⟩)
    rw [Noize.parseTag_b, PreflightBind.parseTag_b]
    split
    · rw [pure_bind, ← hnil]
    · rw [pure_bind, trimPrefix_once htwo]
  · rw [Noize.parseTag_t, PreflightBind.parseTag_t, bind_assoc]
    rfl
  · rw [Noize.parseTag_c, PreflightBind.parseTag_c, bind_assoc]
    rfl
  · rw [Noize.parseTag_r, PreflightBind.parseTag_r]
    by_cases hempty : trimSpace data = []
    · rw [if_pos hempty, if_pos hempty, pure_bind, ← hnil]
    · rw [if_neg hempty, if_neg hempty]
      cases hatoi : atoi (trimSpace data) with
      | none => exact absurd (.inr ⟨rfl, hempty, hatoi⟩) h
      | some length =>
        rw [Noize.atoiValue_of_atoi hatoi]
        dsimp only
        split
        · rw [bind_assoc]
          rfl
        · rw [pure_bind, ← hnil]

end Tags

/-! ## Lists of tags -/

section Lists

variable {tags : List Tag} (hletters : ∀ tag ∈ tags, tag.1 ∈ str "btcr")

include hletters

/-- MASQUE fails if and only if there is a malformed tag. -/
theorem noize_parseTags_ensures (result : Bytes) :
    (Noize.parseTags result tags).Ensures False
      fun bytes ↦ bytes = none ↔ ∃ tag ∈ tags, Malformed tag := by
  induction tags generalizing result with
  | nil =>
    refine iff_of_false nofun ?_
    rintro ⟨tag, htag, -⟩
    cases htag
  | cons tag tags ih =>
    rw [Noize.parseTags, Draw.ensures_bind]
    refine (noize_parseTag_ensures (hletters tag List.mem_cons_self) result).mono ?_
    intro bytes hbytes
    simp only [List.exists_mem_cons_iff]
    cases bytes with
    | none => exact iff_of_true rfl (.inl (hbytes.mp rfl))
    | some bytes =>
      have hwell : ¬Malformed tag := fun h ↦ nomatch hbytes.mpr h
      simp only [hwell, false_or]
      exact ih (fun tag htag ↦ hletters tag (List.mem_cons_of_mem _ htag)) bytes

/-- AtomicNoize fails if there is a tag that it does not take. -/
theorem preflight_parseTags_ensures (result : Bytes)
    (h : ∃ tag ∈ tags, Malformed tag ∨ Rejected tag) :
    (PreflightBind.parseTags result tags).Ensures False fun bytes ↦ bytes = none := by
  induction tags generalizing result with
  | nil =>
    obtain ⟨tag, htag, -⟩ := h
    cases htag
  | cons tag tags ih =>
    rw [PreflightBind.parseTags]
    by_cases hbad : Malformed tag ∨ Rejected tag
    · rw [preflight_parseTag_eq_none (hletters tag List.mem_cons_self) hbad]
      rfl
    · rw [List.exists_mem_cons_iff] at h
      obtain ⟨n, hn⟩ := PreflightBind.parseTag_length (F := False) tag
      rw [Draw.ensures_bind]
      refine hn.mono fun bytes _ ↦ ?_
      cases bytes with
      | none => rfl
      | some bytes =>
        exact ih (fun tag htag ↦ hletters tag (List.mem_cons_of_mem _ htag)) _
          (h.resolve_left hbad)

theorem noize_parseTags_eq (result : Bytes) (h : ∀ tag ∈ tags, ¬Rejected tag) :
    Noize.parseTags result tags = PreflightBind.parseTags result tags := by
  induction tags generalizing result with
  | nil => rfl
  | cons tag tags ih =>
    rw [Noize.parseTags, PreflightBind.parseTags, noize_parseTag_eq
      (hletters tag List.mem_cons_self) result (h tag List.mem_cons_self), bind_assoc]
    congr 1
    funext bytes
    rw [pure_bind]
    cases bytes with
    | none => rfl
    | some bytes =>
      exact ih (fun tag htag ↦ hletters tag (List.mem_cons_of_mem _ htag)) _
        fun tag htag ↦ h tag (List.mem_cons_of_mem _ htag)

end Lists

/-! ## Texts -/

/-- Both parsers fail, or both return the same bytes, whatever the clock and the random source
give.  Up to the first tag that only one of them takes, they ask for the same. -/
def Agree (cps : Bytes) : Prop :=
  ∀ draws, (Noize.parseCPSPacket cps).run draws = (PreflightBind.parseCPSPacket cps).run draws

/-- The parsers agree on a text without `<n>` and `<x>` tags if and only if one of its tags is
malformed or AtomicNoize rejects none of them. -/
theorem parseCPSPacket_agree_iff {cps : Bytes}
    (hcps : ∀ tag ∈ findTags (str "btcrnx") cps, tag.1 ≠ ch 'n' ∧ tag.1 ≠ ch 'x') :
    Agree cps ↔ (∃ tag ∈ findTags (str "btcr") cps, Malformed tag) ∨
      ∀ tag ∈ findTags (str "btcr") cps, ¬Rejected tag := by
  have hmem (tag : Tag) (htag : tag ∈ findTags (str "btcrnx") cps) : tag.1 ∈ str "btcr" := by
    have hletter := letter_mem_of_mem_findTags htag
    rw [show str "btcrnx" = str "btcr" ++ [ch 'n', ch 'x'] by decide, List.mem_append] at hletter
    refine hletter.resolve_right fun hother ↦ ?_
    rcases List.mem_cons.mp hother with hn | hother
    · exact (hcps tag htag).1 hn
    · exact (hcps tag htag).2 (List.mem_singleton.mp hother)
  have htags : findTags (str "btcr") cps = findTags (str "btcrnx") cps :=
    findTags_of_subset (by decide) hmem
  have hletters : ∀ tag ∈ findTags (str "btcr") cps, tag.1 ∈ str "btcr" :=
    fun tag htag ↦ letter_mem_of_mem_findTags htag
  have hnoize := noize_parseTags_ensures hletters []
  unfold Agree Noize.parseCPSPacket PreflightBind.parseCPSPacket
  rw [← htags]
  constructor
  · intro h
    by_contra hneither
    rw [not_or] at hneither
    simp only [not_forall, not_not] at hneither
    obtain ⟨hwell, tag, htag, hrejected⟩ := hneither
    have hpreflight := preflight_parseTags_ensures hletters [] ⟨tag, htag, .inr hrejected⟩
    obtain ⟨bytes, hrun⟩ := Option.ne_none_iff_exists'.mp (hpreflight.run_ne_none [])
    have hnone := hpreflight.of_run hrun
    exact hwell ((hnoize.of_run ((h []).trans hrun)).mp hnone)
  · rintro (hbad | hnone) draws
    · obtain ⟨tag, htag, hmalformed⟩ := hbad
      have hpreflight := preflight_parseTags_ensures hletters [] ⟨tag, htag, .inl hmalformed⟩
      obtain ⟨bytes, hrun⟩ := Option.ne_none_iff_exists'.mp (hnoize.run_ne_none draws)
      obtain ⟨bytes', hrun'⟩ := Option.ne_none_iff_exists'.mp (hpreflight.run_ne_none draws)
      rw [hrun, hrun', (hnoize.of_run hrun).mpr ⟨tag, htag, hmalformed⟩, hpreflight.of_run hrun']
    · rw [noize_parseTags_eq hletters [] hnone]

/-- A text as in the guide. -/
theorem parseCPSPacket_agree_guide : Agree (str "<b 0xc70000000108ce1b><r 4>") := by
  have htags : findTags (str "btcrnx") (str "<b 0xc70000000108ce1b><r 4>") =
      [(ch 'b', str " 0xc70000000108ce1b"), (ch 'r', str " 4")] := by decide
  have htags' : findTags (str "btcr") (str "<b 0xc70000000108ce1b><r 4>") =
      [(ch 'b', str " 0xc70000000108ce1b"), (ch 'r', str " 4")] := by decide
  refine (parseCPSPacket_agree_iff ?_).mpr (.inr ?_)
  · rw [htags]
    decide
  · rw [htags']
    decide

/-- A length that is no number, and digits after both prefixes: MASQUE returns a packet and
AtomicNoize an error. -/
theorem parseCPSPacket_disagree :
    (Noize.parseCPSPacket (str "<b 0d0a><r many>")).run [] = some (some [0x0d, 0x0a]) ∧
      (PreflightBind.parseCPSPacket (str "<b 0d0a><r many>")).run [] = some none ∧
      (Noize.parseCPSPacket (str "<b 0x0X0d0a>")).run [] = some (some [0x0d, 0x0a]) ∧
      (PreflightBind.parseCPSPacket (str "<b 0x0X0d0a>")).run [] = some none := by
  decide

end Vwarp.Cps
