import Vwarp.Go.NetText
import Vwarp.Masque.Noize.Safety

/-!
# What a signature text means

A signature is a list of tags, each of which makes the next bytes of the packet from those before
it.  `SignatureTag.apply` says what a tag does, and `render` writes tags down with text between them
that has no opening bracket.

`parseCPSPacket_render`: what the parser makes of such a text is the fold of its tags over the empty
packet, unless one of them has an odd number of digits.  An opening bracket is met only where a tag
begins, so that the expression finds the tags one after the other, whatever stands between them.
-/

namespace Vwarp.Masque.Noize

open Vwarp.Go Vwarp.Lib Vwarp.Cps

abbrev HexText := {digits : Bytes // ∀ c ∈ digits, (Cps.hexDigit? c).isSome}

abbrev Between := {text : Bytes // ch '<' ∉ text}

inductive SignatureTag
  | /-- Bytes in hexadecimal, after `0x` or not. -/
    b (digits : HexText) (zeroX : Bool)
  | t
  | c
  | r (k : Int64)
  | n
  | x (k : Int64)

/-- The bytes of a string of hexadecimal digits. -/
def hexBytes : Bytes → Bytes
  | high :: low :: rest =>
    UInt8.ofNat (16 * (Cps.hexDigit? high).getD 0 + (Cps.hexDigit? low).getD 0) :: hexBytes rest
  | _ => []

namespace SignatureTag

def render : SignatureTag → Bytes
  | b digits zeroX => str "<b " ++ (if zeroX then str "0x" else []) ++ digits.1 ++ str ">"
  | t => str "<t>"
  | c => str "<c>"
  | r k => str "<r " ++ formatInt k ++ str ">"
  | n => str "<n>"
  | x k => str "<x " ++ formatInt k ++ str ">"

def odd : SignatureTag → Bool
  | b digits _ => digits.1.length % 2 = 1
  | _ => false

def apply (result : Bytes) : SignatureTag → Draw Bytes
  | b digits _ => pure (result ++ hexBytes digits.1)
  | t => do
      let now ← unixNow
      pure (result ++ toBE 4 (now % 2 ^ 32))
  | c => do
      let now ← unixNow
      pure (result ++ toBE 4 (now % 0xffffffff))
  | r k =>
    if 0 < k.toInt then do
      let bytes ← randRead (min k.toInt 1000).toNat
      pure (result ++ bytes)
    else pure result
  | n => do
      let nonce ← unixNow
      pure (result ++ toBE 8 nonce)
  | x k => pure (result.map (· ^^^ UInt8.ofNat (k.toInt % 256).toNat))

/-- What the regular expression finds of the tag. -/
def token : SignatureTag → Tag
  | b digits zeroX => (ch 'b', 0x20 :: ((if zeroX then str "0x" else []) ++ digits.1))
  | t => (ch 't', [])
  | c => (ch 'c', [])
  | r k => (ch 'r', 0x20 :: formatInt k)
  | n => (ch 'n', [])
  | x k => (ch 'x', 0x20 :: formatInt k)

end SignatureTag

/-- The tags, with a text before each of them and one after the last. -/
def render (items : List (Between × SignatureTag)) (last : Between) : Bytes :=
  items.flatMap (fun item ↦ item.1.1 ++ item.2.render) ++ last.1

/-! ## Numbers and digits -/

variable {c : UInt8} {tags : List SignatureTag}

theorem graphic_of_hexDigit? (h : (Cps.hexDigit? c).isSome) : 0x20 < c ∧ c < 0x7f := by
  unfold Cps.hexDigit? at h
  split at h
  · rename_i hc
    exact ⟨UInt8.lt_of_lt_of_le (by decide) hc.1, UInt8.lt_of_le_of_lt hc.2 (by decide)⟩
  · split at h
    · rename_i hc
      exact ⟨UInt8.lt_of_lt_of_le (by decide) hc.1, UInt8.lt_of_le_of_lt hc.2 (by decide)⟩
    · split_ifs at h with hc
      · exact ⟨UInt8.lt_of_lt_of_le (by decide) hc.1, UInt8.lt_of_le_of_lt hc.2 (by decide)⟩
      · cases h

theorem HexText.not_mem (digits : HexText) (hc : Cps.hexDigit? c = none) : c ∉ digits.1 := by
  intro hmem
  have h := digits.2 c hmem
  rw [hc] at h
  cases h

theorem hexDecodeString_eq : ∀ {digits : Bytes}, (∀ c ∈ digits, (Cps.hexDigit? c).isSome) →
    hexDecodeString digits = if digits.length % 2 = 1 then none else some (hexBytes digits)
  | [], _ => rfl
  | [_], _ => rfl
  | high :: low :: rest, h => by
      obtain ⟨a, ha⟩ := Option.isSome_iff_exists.mp (h high List.mem_cons_self)
      obtain ⟨b, hb⟩ := Option.isSome_iff_exists.mp (h low (by simp))
      have ih := @hexDecodeString_eq rest fun c hc ↦ h c (by simp [hc])
      have hparity : (high :: low :: rest).length % 2 = rest.length % 2 := by
        simp only [List.length_cons]
        omega
      rw [hparity, hexDecodeString, ha, hb, ih, hexBytes, ha, hb]
      split <;> rfl

/-! ## The tags of a text -/

theorem findTags_render (tag : SignatureTag) (s : Bytes) :
    findTags (str "btcrnx") (tag.render ++ s) = tag.token :: findTags (str "btcrnx") s := by
  have hnumber (k : Int64) : ch '>' ∉ (0x20 :: formatInt k : Bytes) := by
    intro hmem
    rcases List.mem_cons.mp hmem with h | h
    · revert h
      decide
    · rcases mem_formatInt h with h | h
      all_goals
        revert h
        decide
  have hletter : ∀ letter ∈ str "btcrnx", ∀ {data : Bytes}, ch '>' ∉ data →
      findTags (str "btcrnx") (ch '<' :: letter :: (data ++ ch '>' :: s)) =
        (letter, data) :: findTags (str "btcrnx") s :=
    fun letter hmem data hdata ↦ findTags_tag hmem hdata s
  cases tag with
  | b digits zeroX =>
    have hdigits := digits.not_mem (c := ch '>') (by decide)
    have hdata : ch '>' ∉ (0x20 :: ((if zeroX then str "0x" else []) ++ digits.1) : Bytes) := by
      rw [List.mem_cons, List.mem_append, not_or, not_or]
      refine ⟨by decide, ?_, hdigits⟩
      cases zeroX
      · exact List.not_mem_nil
      · decide
    rw [SignatureTag.token, ← hletter (ch 'b') (by decide) hdata]
    simp [SignatureTag.render, str, ch]
  | t => exact hletter (ch 't') (by decide) List.not_mem_nil
  | c => exact hletter (ch 'c') (by decide) List.not_mem_nil
  | r k =>
    rw [SignatureTag.token, ← hletter (ch 'r') (by decide) (hnumber k)]
    simp [SignatureTag.render, str, ch]
  | n => exact hletter (ch 'n') (by decide) List.not_mem_nil
  | x k =>
    rw [SignatureTag.token, ← hletter (ch 'x') (by decide) (hnumber k)]
    simp [SignatureTag.render, str, ch]

theorem findTags_items (items : List (Between × SignatureTag)) (last : Between) :
    findTags (str "btcrnx") (render items last) = items.map fun item ↦ item.2.token := by
  induction items with
  | nil =>
    have h : findTags (str "btcrnx") (last.1 ++ []) = [] := findTags_append last.2 []
    rw [List.append_nil] at h
    exact h
  | cons item items ih =>
    have hcons :
        render (item :: items) last = item.1.1 ++ (item.2.render ++ render items last) := by
      simp [render]
    rw [hcons, findTags_append item.1.2, findTags_render, ih, List.map_cons]

/-! ## The packet -/

/-- What is decoded of a `<b>` tag are its digits. -/
theorem digits_of_token (digits : HexText) (zeroX : Bool) :
    removeSpaces (trimPrefix (trimPrefix ((if zeroX then str "0x" else []) ++ digits.1) (str "0x"))
      (str "0X")) = digits.1 := by
  have hspace : removeSpaces digits.1 = digits.1 := by
    refine List.filter_eq_self.mpr fun c hc ↦ decide_eq_true ?_
    rintro rfl
    exact digits.not_mem (by decide) hc
  -- neither prefix is made of digits
  have hkeep {p : Bytes} {c : UInt8} (hc : c ∈ p) (hdigit : Cps.hexDigit? c = none) :
      trimPrefix digits.1 p = digits.1 := by
    refine if_neg fun hprefix ↦ digits.not_mem hdigit ?_
    exact (List.isPrefixOf_iff_prefix.mp hprefix).subset hc
  have hlower := hkeep (p := str "0x") (c := ch 'x') (by decide) (by decide)
  have hupper := hkeep (p := str "0X") (c := ch 'X') (by decide) (by decide)
  cases zeroX with
  | true =>
    have hfirst : trimPrefix (str "0x" ++ digits.1) (str "0x") = digits.1 := rfl
    rw [if_pos rfl, hfirst, hupper, hspace]
  | false => rw [if_neg Bool.false_ne_true, List.nil_append, hlower, hupper, hspace]

theorem parseTag_token (result : Bytes) (tag : SignatureTag) :
    parseTag result tag.token =
      if tag.odd then pure none else Draw.view some (tag.apply result) := by
  have hnumber (k : Int64) : trimSpace (0x20 :: formatInt k) = formatInt k := by
    rw [trimSpace_space, trimSpace_of_graphic fun c ↦ graphic_of_mem_formatInt]
  cases tag with
  | b digits zeroX =>
    have htrim : trimSpace (0x20 :: ((if zeroX then str "0x" else []) ++ digits.1)) =
        (if zeroX then str "0x" else []) ++ digits.1 := by
      rw [trimSpace_space, trimSpace_of_graphic]
      intro c hc
      rcases List.mem_append.mp hc with hc | hc
      · cases zeroX with
        | true => exact (by decide +kernel : ∀ c ∈ str "0x", 0x20 < c ∧ c < 0x7f) c hc
        | false => cases hc
      · exact graphic_of_hexDigit? (digits.2 c hc)
    rw [SignatureTag.token, parseTag_b, htrim, digits_of_token, hexDecodeString_eq digits.2]
    by_cases hempty : (if zeroX then str "0x" else []) ++ digits.1 = []
    · have hdigits := (List.append_eq_nil_iff.mp hempty).2
      rw [if_pos hempty]
      simp [SignatureTag.odd, SignatureTag.apply, hdigits, hexBytes, Draw.view]
    · rw [if_neg hempty]
      by_cases hodd : digits.1.length % 2 = 1
      · rw [if_pos hodd, if_pos (show (SignatureTag.b digits zeroX).odd = true from
          decide_eq_true hodd)]
        rfl
      · rw [if_neg hodd, if_neg (by simpa [SignatureTag.odd] using hodd)]
        rfl
  | t => rfl
  | c => rfl
  | r k =>
    have heven : (SignatureTag.r k).odd = false := rfl
    rw [SignatureTag.token, parseTag_r, hnumber, if_neg (formatInt_ne_nil k),
      atoiValue_of_atoi (atoi_formatInt k), heven, if_neg Bool.false_ne_true, SignatureTag.apply]
    split
    · rw [Draw.view_bind]
      rfl
    · rfl
  | n => rfl
  | x k =>
    rw [SignatureTag.token, parseTag_x, hnumber, if_neg (formatInt_ne_nil k),
      atoiValue_of_atoi (atoi_formatInt k)]
    rfl

theorem safe_apply (result : Bytes) (tag : SignatureTag) : (tag.apply result).Safe := by
  have hclock : unixNow.Safe := (ensures_anyBelow (by decide)).mpr fun _ _ ↦ trivial
  cases tag with
  | b digits zeroX | x k => exact Draw.safe_pure _
  | t | c | n => exact hclock.bind fun _ ↦ Draw.safe_pure _
  | r k =>
    rw [SignatureTag.apply]
    split
    · exact Draw.Safe.bind (ensures_randRead.mpr fun _ _ ↦ trivial) fun _ ↦ Draw.safe_pure _
    · exact Draw.safe_pure _

theorem safe_foldlM_apply (tags : List SignatureTag) (result : Bytes) :
    (tags.foldlM SignatureTag.apply result).Safe := by
  induction tags generalizing result with
  | nil => exact Draw.safe_pure _
  | cons tag tags ih => exact (safe_apply result tag).bind fun bytes ↦ ih bytes

theorem parseTags_token (h : ∀ tag ∈ tags, tag.odd = false) (result : Bytes) :
    parseTags result (tags.map SignatureTag.token) =
      Draw.view some (tags.foldlM SignatureTag.apply result) := by
  induction tags generalizing result with
  | nil => rfl
  | cons tag tags ih =>
    rw [List.map_cons, parseTags, parseTag_token, h tag List.mem_cons_self,
      if_neg Bool.false_ne_true, List.foldlM_cons, Draw.view_bind, Draw.view, bind_assoc]
    congr 1
    funext bytes
    rw [pure_bind]
    exact ih (fun tag htag ↦ h tag (List.mem_cons_of_mem _ htag)) bytes

theorem parseTags_odd (h : ∃ tag ∈ tags, tag.odd = true) (result : Bytes) :
    (parseTags result (tags.map SignatureTag.token)).Ensures False fun bytes ↦ bytes = none := by
  induction tags generalizing result with
  | nil =>
    obtain ⟨tag, htag, -⟩ := h
    cases htag
  | cons tag tags ih =>
    rw [List.map_cons, parseTags, parseTag_token]
    by_cases hodd : tag.odd = true
    · rw [if_pos hodd]
      rfl
    · rw [List.exists_mem_cons_iff] at h
      rw [if_neg hodd, Draw.view, bind_assoc, Draw.ensures_bind]
      exact (safe_apply result tag).mono fun bytes _ ↦ ih (h.resolve_left hodd) bytes

/-- What is made of a text, whatever the clock and the random source give: nothing if a tag has an
odd number of digits, and the fold of its tags over the empty packet if not. -/
theorem parseCPSPacket_render (items : List (Between × SignatureTag)) (last : Between)
    (draws : List (Option Nat)) :
    ∃ packet, ((items.map Prod.snd).foldlM SignatureTag.apply []).run draws = some packet ∧
      (parseCPSPacket (render items last)).run draws =
        some (if items.any (fun item ↦ item.2.odd) then none else some packet) := by
  have htokens : findTags (str "btcrnx") (render items last) =
      (items.map Prod.snd).map SignatureTag.token := by
    rw [findTags_items, List.map_map]
    rfl
  obtain ⟨packet, hpacket⟩ := Option.ne_none_iff_exists'.mp
    ((safe_foldlM_apply (items.map Prod.snd) []).run_ne_none draws)
  refine ⟨packet, hpacket, ?_⟩
  rw [parseCPSPacket, htokens]
  by_cases hodd : items.any (fun item ↦ item.2.odd) = true
  · obtain ⟨item, hitem, hodd'⟩ := List.any_eq_true.mp hodd
    have h := parseTags_odd ⟨item.2, List.mem_map_of_mem hitem, hodd'⟩ []
    obtain ⟨bytes, hrun⟩ := Option.ne_none_iff_exists'.mp (h.run_ne_none draws)
    rw [if_pos hodd, hrun, h.of_run hrun]
  · have heven : ∀ tag ∈ items.map Prod.snd, tag.odd = false := by
      intro tag htag
      obtain ⟨item, hitem, rfl⟩ := List.mem_map.mp htag
      exact Bool.eq_false_iff.mpr fun h ↦ hodd (List.any_eq_true.mpr ⟨item, hitem, h⟩)
    rw [if_neg hodd, parseTags_token heven, Draw.run_view, hpacket, Option.map_some]

/-- The signature of the default configuration, with an exclusive or behind it. -/
example : render [(⟨[], by decide⟩, .b ⟨str "0d0a0d0a", by decide +kernel⟩ false),
    (⟨[], by decide⟩, .t), (⟨[], by decide⟩, .r 16), (⟨str " > ", by decide⟩, .x (-1))]
      ⟨[], by decide⟩ =
      str "<b 0d0a0d0a><t><r 16> > <x -1>" := by decide

end Vwarp.Masque.Noize
