import Vwarp.Go.NetText
import Vwarp.Go.Prefix

/-!
# The text of a prefix

`Prefix.String` prints the address as `Addr.String` does, a slash and the number of bits, and
`ParsePrefix` reads that text back (`parsePrefix_string`).  An IPv4-mapped address is the one that
`Addr.String` prints otherwise than `IP.String`: it keeps `::ffff:` in front of the dotted form.

The text is short and has neither line breaks nor carriage returns in it, so that it can be one
field of a line.
-/

namespace Vwarp.Go

open Vwarp.Lib

/-- `Addr.String`. -/
def Addr.string : Addr → Bytes
  | .invalid => str "invalid IP"
  | .v4 a => dotted (Addr.v4 a).asSlice
  | .v6 a zone =>
    (if (Addr.v6 a zone).is4In6 then str "::ffff:" ++ dotted (toBE 4 a.toNat)
      else string6 (Addr.v6 a zone).asSlice) ++
    (if zone = [] then [] else ch '%' :: zone)

/-- `Prefix.String`. -/
def Prefix.string (p : Prefix) : Bytes :=
  if p.isValid then p.addr.string ++ ch '/' :: itoa p.bits.toNat else str "invalid Prefix"

/-! ## Addresses -/

theorem exists_toBE_four (n : Nat) : ∃ a b c d, toBE 4 n = [a, b, c, d] := ⟨_, _, _, _, rfl⟩

theorem hexDigit?_of_digit? {c : UInt8} {d : Nat} (h : digit? c = some d) :
    hexDigit? c = some d := by
  unfold digit? at h
  obtain ⟨hrange, hvalue⟩ := Option.ite_none_right_eq_some.mp h
  rw [hexDigit?, if_pos hrange, hvalue]

theorem length_itoa_le {n k : Nat} (hk : 0 < k) (h : n < 10 ^ k) : (itoa n).length ≤ k := by
  rw [itoa, List.length_map]
  exact (Nat.length_toDigits_le_iff (by decide) hk).mpr h

theorem parseIPv6Loop_dotted (a b c d : UInt8) (fuel : Nat) (ip : Bytes) (hip : ip.length ≤ 12)
    (e : Nat) :
    parseIPv6Loop (fuel + 1) ip (some e) (dotted [a, b, c, d]) =
      some (ip ++ [a, b, c, d], some e, []) := by
  have hdotted : dotted [a, b, c, d] = itoa a.toNat ++ ch '.' :: dotted [b, c, d] := by
    simp [dotted, List.intercalate, str, ch]
  have htake : (dotted [a, b, c, d]).takeWhile (fun c ↦ (hexDigit? c).isSome) = itoa a.toNat := by
    rw [hdotted, List.takeWhile_append_of_pos]
    · rw [List.takeWhile_cons_of_neg (by decide), List.append_nil]
    · intro x hx
      obtain ⟨v, hv⟩ := Option.isSome_iff_exists.mp (digit?_of_mem_itoa hx)
      rw [hexDigit?_of_digit? hv]
      rfl
  have hlen : (itoa a.toNat).length ≤ 3 :=
    length_itoa_le (by decide) (Nat.lt_trans a.toNat_lt (by decide))
  have hdrop : (dotted [a, b, c, d]).drop (itoa a.toNat).length = ch '.' :: dotted [b, c, d] := by
    rw [hdotted, List.drop_left]
  rw [parseIPv6Loop, htake, hdrop, if_neg (not_or.mpr ⟨itoa_ne_nil _, by omega⟩)]
  dsimp only
  rw [if_pos rfl, if_neg (fun h ↦ by cases h.1), if_neg (by omega), parseIPv4Fields_dotted]
  rfl

theorem parseIPv6Bytes_mapped (a b c d : UInt8) :
    parseIPv6Bytes (str "::ffff:" ++ dotted [a, b, c, d]) = some (netIPv4 a b c d) := by
  have htext : str "::ffff:" ++ dotted [a, b, c, d] =
      0x3a :: 0x3a :: (hexGroup 0xffff ++ ch ':' :: dotted [a, b, c, d]) := by
    rw [show hexGroup 0xffff = str "ffff" by decide]
    rfl
  have hhead : ∃ x xs, dotted [a, b, c, d] = x :: xs ∧ x ≠ ch ':' := by
    cases hdotted : dotted [a, b, c, d] with
    | nil => simp [dotted, List.intercalate, str] at hdotted
    | cons x xs =>
      refine ⟨x, xs, rfl, ?_⟩
      rintro rfl
      have hmem : ch ':' ∈ dotted [a, b, c, d] := by rw [hdotted]; exact List.mem_cons_self
      rcases mem_dotted hmem with heq | hdigit
      · cases heq
      · cases hdigit
  obtain ⟨x, xs, hdotted, hx⟩ := hhead
  have hloop := parseIPv6Loop_dotted a b c d 6 [0xff, 0xff] (by decide) 0
  rw [hdotted] at hloop
  rw [htext, parseIPv6Bytes, hdotted]
  dsimp only
  rw [if_neg (by simp), parseIPv6Loop_colon (by decide), if_pos hx]
  show (parseIPv6Loop 7 [0xff, 0xff] (some 0) (x :: xs)).bind _ = _
  rw [hloop]
  rfl

variable {x : UInt8}

theorem mem_mapped {a b c d : UInt8} (h : x ∈ str "::ffff:" ++ dotted [a, b, c, d]) :
    x = ch '.' ∨ x = ch ':' ∨ (hexDigit? x).isSome := by
  rcases List.mem_append.mp h with hfront | hback
  · have hall : (str "::ffff:").all (fun x ↦ x == ch ':' || (hexDigit? x).isSome) = true := by
      decide
    exact .inr ((Bool.or_eq_true ..).mp (List.all_eq_true.mp hall x hfront) |>.imp beq_iff_eq.mp id)
  · rcases mem_dotted hback with heq | hdigit
    · exact .inl heq
    · obtain ⟨v, hv⟩ := Option.isSome_iff_exists.mp hdigit
      exact .inr (.inr (by rw [hexDigit?_of_digit? hv]; rfl))

variable {addr : Addr}

/-- `Addr.String` of an address without a zone is read back. -/
theorem parseAddr_string (hvalid : addr.isValid = true) (hzone : addr.zone = []) :
    parseAddr addr.string = some addr := by
  cases addr with
  | invalid => cases hvalid
  | v4 n =>
    obtain ⟨a, b, c, d, hbytes⟩ := exists_toBE_four n.toNat
    have hread : ofBE (toBE 4 n.toNat) = n.toNat := ofBE_toBE_of_lt n.isLt
    rw [Addr.string, Addr.asSlice, hbytes, parseAddr_dotted, ← hbytes, hread, BitVec.ofNat_toNat,
      BitVec.setWidth_eq]
  | v6 n zone =>
    cases (show zone = [] from hzone)
    rw [Addr.string, if_pos rfl, List.append_nil]
    split_ifs with hmapped
    · obtain ⟨a, b, c, d, hbytes⟩ := exists_toBE_four n.toNat
      have hread : ofBE (netIPv4 a b c d) = n.toNat := by
        have hlow := ofBE_toBE 4 n.toNat
        have hfront : ofBE v4InV6Prefix = 0xffff := by decide
        have hhigh : n.toNat / 2 ^ 32 = 0xffff := of_decide_eq_true hmapped
        rw [hbytes] at hlow
        rw [netIPv4, ofBE_append, hfront, hlow]
        simp only [List.length_cons, List.length_nil]
        omega
      have hzone : ch '%' ∉ str "::ffff:" ++ dotted [a, b, c, d] := by
        intro hmem
        rcases mem_mapped hmem with heq | heq | hdigit
        · cases heq
        · cases heq
        · cases hdigit
      rw [hbytes, parseAddr_of_colon rfl hzone (parseIPv6Bytes_mapped a b c d), hread,
        BitVec.ofNat_toNat, BitVec.setWidth_eq]
    · have hread : ofBE (toBE 16 n.toNat) = n.toNat := ofBE_toBE_of_lt n.isLt
      rw [Addr.asSlice, parseAddr_string6 (length_toBE 16 _), hread, BitVec.ofNat_toNat,
        BitVec.setWidth_eq]

theorem mem_string (hvalid : addr.isValid = true) (hzone : addr.zone = [])
    (h : x ∈ addr.string) : x = ch '.' ∨ x = ch ':' ∨ (hexDigit? x).isSome := by
  cases addr with
  | invalid => cases hvalid
  | v4 n =>
    obtain ⟨a, b, c, d, hbytes⟩ := exists_toBE_four n.toNat
    rw [Addr.string, Addr.asSlice, hbytes] at h
    exact mem_mapped (List.mem_append_right _ h)
  | v6 n zone =>
    cases (show zone = [] from hzone)
    rw [Addr.string, if_pos rfl, List.append_nil] at h
    split at h
    · obtain ⟨a, b, c, d, hbytes⟩ := exists_toBE_four n.toNat
      rw [hbytes] at h
      exact mem_mapped h
    · exact .inr (mem_string6 h)

theorem length_dotted_le (a b c d : UInt8) : (dotted [a, b, c, d]).length ≤ 15 := by
  have hlen (x : UInt8) : (itoa x.toNat).length ≤ 3 :=
    length_itoa_le (by decide) (Nat.lt_trans x.toNat_lt (by decide))
  have ha := hlen a
  have hb := hlen b
  have hc := hlen c
  have hd := hlen d
  have hdotted : dotted [a, b, c, d] = itoa a.toNat ++ ch '.' :: (itoa b.toNat ++ ch '.' ::
      (itoa c.toNat ++ ch '.' :: itoa d.toNat)) := by
    simp [dotted, List.intercalate, str, ch]
  rw [hdotted]
  simp only [List.length_append, List.length_cons]
  omega

theorem length_joinGroups_le {gs : List Nat} (h : ∀ g ∈ gs, g < 65536) :
    (joinGroups gs).length ≤ 5 * gs.length := by
  induction gs with
  | nil => exact Nat.zero_le _
  | cons g gs ih =>
    have hg := length_hexGroup_le (h g List.mem_cons_self)
    have hgs := ih fun x hx ↦ h x (List.mem_cons_of_mem g hx)
    cases gs with
    | nil =>
      rw [joinGroups_singleton, List.length_singleton]
      omega
    | cons g' gs =>
      rw [joinGroups_cons g (List.cons_ne_nil _ _), List.length_append, List.length_cons,
        List.length_cons]
      omega

theorem length_string6_le {ip : Bytes} (hlen : ip.length = 16) : (string6 ip).length ≤ 42 := by
  have hgroups : (groups ip).length = 8 := by rw [length_groups, hlen]
  have hlt : ∀ g ∈ groups ip, g < 65536 := fun g hg ↦ lt_of_mem_groups hg
  rw [string6]
  dsimp only
  split
  · have hjoin := length_joinGroups_le hlt
    rw [hgroups] at hjoin
    exact Nat.le_trans hjoin (by decide)
  · rename_i i l _
    have hpre := length_joinGroups_le fun g hg ↦ hlt g (List.mem_of_mem_take (i := i) hg)
    have hpost := length_joinGroups_le fun g hg ↦ hlt g (List.mem_of_mem_drop (i := i + l) hg)
    rw [List.length_take] at hpre
    rw [List.length_drop] at hpost
    show (joinGroups _ ++ str "::" ++ joinGroups _).length ≤ 42
    rw [List.length_append, List.length_append, show (str "::").length = 2 from rfl]
    omega

theorem length_string_le (hvalid : addr.isValid = true) (hzone : addr.zone = []) :
    addr.string.length ≤ 42 := by
  cases addr with
  | invalid => cases hvalid
  | v4 n =>
    obtain ⟨a, b, c, d, hbytes⟩ := exists_toBE_four n.toNat
    rw [Addr.string, Addr.asSlice, hbytes]
    exact Nat.le_trans (length_dotted_le a b c d) (by decide)
  | v6 n zone =>
    cases (show zone = [] from hzone)
    rw [Addr.string, if_pos rfl, List.append_nil]
    split
    · obtain ⟨a, b, c, d, hbytes⟩ := exists_toBE_four n.toNat
      have hdotted := length_dotted_le a b c d
      rw [hbytes, List.length_append, show (str "::ffff:").length = 7 from rfl]
      omega
    · exact length_string6_le (length_toBE 16 _)

/-! ## Prefixes -/

variable {p : Prefix}

theorem Prefix.parts_of_valid (h : p.isValid = true) :
    p.addr.isValid = true ∧ 0 ≤ p.bits ∧ p.bits ≤ p.addr.bitLen := by
  have hpos : 0 ≤ p.bits := of_decide_eq_true h
  exact p.bits_range.resolve_left (by omega)

theorem Prefix.bits_le (h : p.isValid = true) : p.bits ≤ 128 := by
  obtain ⟨-, -, hle⟩ := p.parts_of_valid h
  cases haddr : p.addr with
  | invalid | v4 n | v6 n zone =>
    rw [haddr, Addr.bitLen] at hle
    omega

theorem itoa_bits_lead {n : Nat} (h : n ≤ 128) :
    ¬ (1 < (itoa n).length ∧ ¬ (ch '1' ≤ (itoa n).headD 0 ∧ (itoa n).headD 0 ≤ ch '9')) := by
  have hall : ∀ m < 129, ¬ (1 < (itoa m).length ∧
      ¬ (ch '1' ≤ (itoa m).headD 0 ∧ (itoa m).headD 0 ≤ ch '9')) := by
    decide
  exact hall n (Nat.lt_succ_of_le h)

/-- `ParsePrefix` reads what `Prefix.String` prints. -/
theorem parsePrefix_string (h : p.isValid = true) : parsePrefix p.string = some p := by
  obtain ⟨hvalid, hpos, hle⟩ := p.parts_of_valid h
  have h128 := p.bits_le h
  obtain ⟨addr, bits, hzone, hrange⟩ := p
  dsimp only at hvalid hpos hle h128
  obtain ⟨n, rfl⟩ := Int.eq_ofNat_of_zero_le hpos
  have hslash : ch '/' ∉ itoa n := not_mem_itoa (by decide)
  have hatoi : atoi (itoa n) = some (n : Int) := atoi_itoa (by omega)
  have hbits : (if addr.is6 then 128 else 32) = (addr.bitLen : Int) := by
    cases addr with
    | invalid => cases hvalid
    | v4 a | v6 a zone => rfl
  have hinside : ¬ ((n : Int) < 0 ∨ (addr.bitLen : Int) < n) := by omega
  rw [Prefix.string, if_pos h, parsePrefix]
  dsimp only
  rw [Int.toNat_natCast, lastIndexByte_concat hslash]
  dsimp only
  have hdrop : (addr.string ++ ch '/' :: itoa n).drop (addr.string.length + 1) = itoa n := by
    have hlen : addr.string.length + 1 = (addr.string ++ [ch '/']).length := by
      rw [List.length_append, List.length_singleton]
    rw [List.append_cons, hlen, List.drop_left]
  have hsame : prefixFrom addr n = ⟨addr, n, hzone, hrange⟩ := by
    have haddr : addr.withoutZone = addr := by
      cases addr with
      | invalid => rfl
      | v4 a => rfl
      | v6 a zone =>
        cases (show zone = [] from hzone)
        rfl
    simp only [prefixFrom, Prefix.mk.injEq]
    exact ⟨haddr, if_pos ⟨hvalid, hpos, hle⟩⟩
  rw [List.take_left, parseAddr_string hvalid hzone, Option.bind_some, hdrop,
    if_neg (not_not.mpr hzone), if_neg (itoa_bits_lead (by omega)), hatoi, Option.bind_some, hbits,
    if_neg hinside, hsame]

theorem Prefix.mem_string (h : p.isValid = true) (hx : x ∈ p.string) :
    x = ch '/' ∨ x = ch '.' ∨ x = ch ':' ∨ (hexDigit? x).isSome := by
  rw [Prefix.string, if_pos h] at hx
  rcases List.mem_append.mp hx with hfront | hback
  · exact .inr (Vwarp.Go.mem_string (p.parts_of_valid h).1 p.zone_nil hfront)
  · rcases List.mem_cons.mp hback with heq | hdigit
    · exact .inl heq
    · obtain ⟨v, hv⟩ := Option.isSome_iff_exists.mp (digit?_of_mem_itoa hdigit)
      exact .inr (.inr (.inr (by rw [hexDigit?_of_digit? hv]; rfl)))

theorem Prefix.length_string_le (h : p.isValid = true) : p.string.length ≤ 46 := by
  have haddr := Vwarp.Go.length_string_le (p.parts_of_valid h).1 p.zone_nil
  have hle := p.bits_le h
  have hpos := (p.parts_of_valid h).2.1
  have hbits : (itoa p.bits.toNat).length ≤ 3 := length_itoa_le (by decide) (by omega)
  rw [Prefix.string, if_pos h, List.length_append, List.length_cons]
  omega

end Vwarp.Go
