import Vwarp.Go.Net
import Mathlib.Data.List.TakeWhile
import Mathlib.Tactic.IntervalCases

/-!
# Reading back what was printed

`ParseIP` reads what `IP.String` prints, in the 16-byte form: `parseIP_ipString`.  The dotted form
is read field by field.  For the form with colons the argument follows the loop of `parseIPv6`: a
list of groups is read one group at a time, and the run of zeros that was left out is put back at
the place of the ellipsis.

`SplitHostPort` takes apart what `JoinHostPort` put together, and the decimal port is read back.
-/

namespace Vwarp.Go

open Vwarp.Lib

/-! ## Decimal numbers -/

/-- A numeral is a digit, or a numeral with one digit more. -/
theorem toDigits_induction {b : Nat} (hb : 1 < b) {motive : Nat → Bytes → Prop}
    (digit : ∀ d < b, motive d [ch d.digitChar])
    (concat : ∀ q s d, 0 < q → d < b → motive q s → motive (q * b + d) (s ++ [ch d.digitChar]))
    (n : Nat) : motive n ((Nat.toDigits b n).map ch) := by
  induction n using Nat.strongRecOn with
  | ind n ih =>
    rcases Nat.lt_or_ge n b with hlt | hge
    · rw [Nat.toDigits_of_lt_base hlt]
      exact digit n hlt
    · have hnext := concat (n / b) _ (n % b) (Nat.div_pos hge (by omega)) (Nat.mod_lt n (by omega))
        (ih (n / b) (Nat.div_lt_self (by omega) hb))
      rw [Nat.div_add_mod'] at hnext
      rw [Nat.toDigits_of_base_le hb hge, List.map_append]
      exact hnext

/-- What reads the digits of a base reads those of its numerals. -/
theorem isSome_of_mem_toDigits {b : Nat} (hb : 1 < b) {read : UInt8 → Option Nat}
    (hread : ∀ {d}, d < b → read (ch d.digitChar) = some d) (n : Nat) :
    ∀ c ∈ (Nat.toDigits b n).map ch, (read c).isSome := by
  have hdigit (d : Nat) (hd : d < b) : ∀ c ∈ [ch d.digitChar], (read c).isSome :=
    List.forall_mem_singleton.mpr (hread hd ▸ rfl)
  exact toDigits_induction (motive := fun _ s ↦ ∀ c ∈ s, (read c).isSome) hb hdigit
    (fun _ _ d _ hd ih ↦ List.forall_mem_append.mpr ⟨ih, hdigit d hd⟩) n

variable {bitSize d fuel l m n : Nat}

theorem digit?_digitChar (h : d < 10) : digit? (ch d.digitChar) = some d := by
  interval_cases d <;> rfl

theorem itoa_ne_nil (n : Nat) : itoa n ≠ [] := by
  rw [itoa, ne_eq, List.map_eq_nil_iff]
  exact Nat.toDigits_ne_nil

variable {c : UInt8}

theorem digit?_of_mem_itoa (h : c ∈ itoa n) : (digit? c).isSome :=
  isSome_of_mem_toDigits (by decide) digit?_digitChar n c h

theorem not_mem_itoa (h : digit? c = none) : c ∉ itoa n := by
  intro hmem
  cases h ▸ digit?_of_mem_itoa hmem

theorem decimalFrom_append (n : Nat) (s t : Bytes) :
    decimalFrom n (s ++ t) = (decimalFrom n s).bind fun m ↦ decimalFrom m t := by
  induction s generalizing n with
  | nil => rfl
  | cons c s ih =>
    rw [List.cons_append, decimalFrom, decimalFrom]
    cases digit? c with
    | none => rfl
    | some d => exact ih (n * 10 + d)

variable {s : Bytes}

theorem digits_of_decimalFrom (h : decimalFrom m s = some n) (hc : c ∈ s) : (digit? c).isSome := by
  induction s generalizing m with
  | nil => cases hc
  | cons d s ih =>
    obtain ⟨v, hv, hrest⟩ := Option.bind_eq_some_iff.mp h
    rcases List.mem_cons.mp hc with rfl | hc
    · rw [hv]
      rfl
    · exact ih hrest hc

/-- What `ParseUint` reads has digits only. -/
theorem not_mem_of_parseUint (h : (parseUint s bitSize).isSome) (hc : digit? c = none) : c ∉ s := by
  intro hmem
  obtain ⟨n, hn⟩ := Option.isSome_iff_exists.mp h
  obtain ⟨m, hm, -⟩ := Option.bind_eq_some_iff.mp hn
  cases hc ▸ digits_of_decimalFrom (Option.ite_none_left_eq_some.mp hm).2 hmem

theorem decimalFrom_itoa (n : Nat) : decimalFrom 0 (itoa n) = some n := by
  refine toDigits_induction (motive := fun n s ↦ decimalFrom 0 s = some n) (by decide) ?_ ?_ n
  · intro d hd
    rw [decimalFrom, digit?_digitChar hd, Option.bind_some, decimalFrom, Nat.zero_mul, Nat.zero_add]
  · intro q s d _ hd ih
    rw [decimalFrom_append, ih, Option.bind_some, decimalFrom, digit?_digitChar hd]
    rfl

/-- `ParseUint` reads what `Itoa` prints. -/
theorem parseUint_itoa (h : n < 2 ^ bitSize) : parseUint (itoa n) bitSize = some n := by
  rw [parseUint, decimal, if_neg (itoa_ne_nil n), decimalFrom_itoa, Option.bind_some, if_pos h]

/-- A number that fits an `int` is read back by `Atoi`. -/
theorem atoi_itoa (h : n < 2 ^ 63) : atoi (itoa n) = some (n : Int) := by
  have hne := itoa_ne_nil n
  have hminus : ch '-' ∉ itoa n := not_mem_itoa (by decide)
  have hplus : ch '+' ∉ itoa n := not_mem_itoa (by decide)
  have hread := decimalFrom_itoa n
  generalize itoa n = s at hne hminus hplus hread
  cases s with
  | nil => exact absurd rfl hne
  | cons c cs =>
    have hc : c ≠ ch '-' := fun heq ↦ hminus (heq ▸ List.mem_cons_self)
    have hc' : c ≠ ch '+' := fun heq ↦ hplus (heq ▸ List.mem_cons_self)
    rw [atoi]
    simp only [hc, hc', or_self, if_false, decimal, if_neg hne, hread, Option.bind_some, if_pos h]

/-! ## Signed numbers -/

theorem graphic_of_digit? (h : (digit? c).isSome) : 0x20 < c ∧ c < 0x7f := by
  unfold digit? at h
  split_ifs at h with hc
  · exact ⟨UInt8.lt_of_lt_of_le (by decide) hc.1, UInt8.lt_of_le_of_lt hc.2 (by decide)⟩
  · cases h

/-- The characters of an `int` in decimal. -/
theorem mem_formatInt {k : Int64} (h : c ∈ formatInt k) : c = ch '-' ∨ (digit? c).isSome := by
  unfold formatInt at h
  split at h
  · rcases List.mem_cons.mp h with rfl | h
    · exact .inl rfl
    · exact .inr (digit?_of_mem_itoa h)
  · exact .inr (digit?_of_mem_itoa h)

theorem graphic_of_mem_formatInt {k : Int64} (h : c ∈ formatInt k) : 0x20 < c ∧ c < 0x7f := by
  rcases mem_formatInt h with rfl | h
  · decide
  · exact graphic_of_digit? h

theorem formatInt_ne_nil (n : Int64) : formatInt n ≠ [] := by
  unfold formatInt
  split
  · exact List.cons_ne_nil _ _
  · exact itoa_ne_nil _

/-- `Atoi` reads what `%d` prints. -/
theorem atoi_formatInt (n : Int64) : atoi (formatInt n) = some n.toInt := by
  have hle := n.le_toInt
  have hlt := n.toInt_lt
  unfold formatInt
  split_ifs with hneg
  · have hneg : n.toInt < 0 := Int64.lt_iff_toInt_lt.mp hneg
    have habs : n.toInt.natAbs ≤ 2 ^ 63 := by omega
    simp only [atoi, decimal, true_or, if_true, if_neg (itoa_ne_nil _), decimalFrom_itoa,
      Option.bind_some, if_pos habs]
    exact congrArg some (by omega)
  · have hpos : 0 ≤ n.toInt := Int.not_lt.mp fun h ↦ hneg (Int64.lt_iff_toInt_lt.mpr h)
    rw [atoi_itoa (by omega), Int.natAbs_of_nonneg hpos]

/-! ## Dotted addresses -/

theorem parseIPv4Loop_itoa (h : n ≤ 255) (fields rest : Bytes) :
    parseIPv4Loop 0 0 fields (itoa n ++ rest) = parseIPv4Loop n (itoa n).length fields rest := by
  refine toDigits_induction (motive := fun n s ↦ n ≤ 255 → ∀ rest, parseIPv4Loop 0 0 fields
    (s ++ rest) = parseIPv4Loop n s.length fields rest) (by decide) ?_ ?_ n h rest
  · intro d hd _ rest
    rw [List.singleton_append, parseIPv4Loop, digit?_digitChar hd]
    dsimp only
    rw [if_neg (by omega), if_neg (by omega), Nat.zero_mul, Nat.zero_add]
    rfl
  · intro q s d hq hd ih hle rest
    rw [List.append_assoc, List.singleton_append, ih (by omega), parseIPv4Loop,
      digit?_digitChar hd]
    dsimp only
    rw [if_neg (by omega), if_neg (by omega), List.length_append]
    rfl

variable {rest : Bytes}

theorem parseIPv4Loop_field (b : UInt8) {fields : Bytes} (hfields : fields.length < 3)
    (hrest : rest ≠ []) :
    parseIPv4Loop 0 0 fields (itoa b.toNat ++ ch '.' :: rest) =
      parseIPv4Loop 0 0 (fields ++ [b]) rest := by
  have hlen : (itoa b.toNat).length ≠ 0 := by
    rw [ne_eq, List.length_eq_zero_iff]
    exact itoa_ne_nil _
  have hdot : digit? (ch '.') = none := by decide
  have hb : b.toNat.toUInt8 = b := UInt8.ofNat_toNat
  rw [parseIPv4Loop_itoa (Nat.le_of_lt_succ b.toNat_lt), parseIPv4Loop, hdot]
  dsimp only
  rw [if_neg fun hne ↦ hne rfl, if_neg fun hor ↦ hor.elim hlen hrest, if_neg (Nat.ne_of_lt hfields),
    hb]

theorem parseIPv4Fields_dotted (a b c d : UInt8) :
    parseIPv4Fields (dotted [a, b, c, d]) = some [a, b, c, d] := by
  have hd : d.toNat.toUInt8 = d := UInt8.ofNat_toNat
  have hdotted : dotted [a, b, c, d] = itoa a.toNat ++ ch '.' :: (itoa b.toNat ++ ch '.' ::
      (itoa c.toNat ++ ch '.' :: (itoa d.toNat ++ []))) := by
    simp [dotted, List.intercalate, str, ch]
  rw [hdotted, parseIPv4Fields, parseIPv4Loop_field a (by simp) (by simp [itoa_ne_nil]),
    parseIPv4Loop_field b (by simp) (by simp [itoa_ne_nil]),
    parseIPv4Loop_field c (by simp) (by simp [itoa_ne_nil]),
    parseIPv4Loop_itoa (Nat.le_of_lt_succ d.toNat_lt), parseIPv4Loop, if_neg (by simp), hd]
  rfl

/-! ## Groups of hexadecimal digits -/

def groupBytes (gs : List Nat) : Bytes :=
  gs.flatMap fun g ↦ [(g / 256).toUInt8, (g % 256).toUInt8]

@[simp] theorem groupBytes_nil : groupBytes [] = [] := rfl

@[simp] theorem groupBytes_cons (g : Nat) (gs : List Nat) :
    groupBytes (g :: gs) = [(g / 256).toUInt8, (g % 256).toUInt8] ++ groupBytes gs := rfl

theorem groupBytes_append (gs hs : List Nat) :
    groupBytes (gs ++ hs) = groupBytes gs ++ groupBytes hs :=
  List.flatMap_append

theorem length_groupBytes (gs : List Nat) : (groupBytes gs).length = 2 * gs.length := by
  induction gs with
  | nil => rfl
  | cons g gs ih =>
    rw [groupBytes_cons, List.length_append, ih, List.length_cons, List.length_cons,
      List.length_cons]
    simp only [List.length_nil]
    omega

theorem groupBytes_replicate (n : Nat) :
    groupBytes (List.replicate n 0) = List.replicate (2 * n) 0 := by
  induction n with
  | zero => rfl
  | succ n ih =>
    rw [List.replicate_succ, groupBytes_cons, ih, Nat.mul_succ, Nat.add_comm,
      ← List.replicate_append_replicate]
    rfl

theorem groupBytes_groups : ∀ {ip : Bytes}, ip.length % 2 = 0 → groupBytes (groups ip) = ip
  | [], _ => rfl
  | [_], h => nomatch h
  | a :: b :: rest, h => by
      have hrest : rest.length % 2 = 0 := by
        simp only [List.length_cons] at h
        omega
      have ha := a.toNat_lt
      have hb := b.toNat_lt
      have hhigh : ((a.toNat * 256 + b.toNat) / 256).toUInt8 = a := by
        rw [show (a.toNat * 256 + b.toNat) / 256 = a.toNat by omega]
        exact UInt8.ofNat_toNat
      have hlow : ((a.toNat * 256 + b.toNat) % 256).toUInt8 = b := by
        rw [show (a.toNat * 256 + b.toNat) % 256 = b.toNat by omega]
        exact UInt8.ofNat_toNat
      rw [groups, groupBytes_cons, hhigh, hlow, groupBytes_groups hrest]
      rfl

theorem length_groups : ∀ ip : Bytes, (groups ip).length = ip.length / 2
  | [] => rfl
  | [_] => by simp [groups]
  | _ :: _ :: rest => by
      rw [groups, List.length_cons, length_groups rest, List.length_cons, List.length_cons]
      omega

theorem lt_of_mem_groups : ∀ {ip : Bytes} {g : Nat}, g ∈ groups ip → g < 65536
  | [], _, h => nomatch h
  | [_], _, h => nomatch h
  | a :: b :: rest, g, h => by
      rcases List.mem_cons.mp h with rfl | h
      · have ha := a.toNat_lt
        have hb := b.toNat_lt
        omega
      · exact lt_of_mem_groups h

variable {g : Nat}

theorem hexDigit?_digitChar (h : d < 16) : hexDigit? (ch d.digitChar) = some d := by
  interval_cases d <;> rfl

theorem hexGroup_ne_nil (g : Nat) : hexGroup g ≠ [] := by
  rw [hexGroup, ne_eq, List.map_eq_nil_iff]
  exact Nat.toDigits_ne_nil

theorem length_hexGroup_le (h : g < 65536) : (hexGroup g).length ≤ 4 := by
  rw [hexGroup, List.length_map]
  exact (Nat.length_toDigits_le_iff (by decide) (by decide)).mpr h

theorem hexDigit?_of_mem_hexGroup (h : c ∈ hexGroup g) : (hexDigit? c).isSome :=
  isSome_of_mem_toDigits (by decide) hexDigit?_digitChar g c h

theorem foldl_hexGroup (g : Nat) :
    (hexGroup g).foldl (fun acc c ↦ acc * 16 + (hexDigit? c).getD 0) 0 = g := by
  refine toDigits_induction (motive := fun g s ↦
    s.foldl (fun acc c ↦ acc * 16 + (hexDigit? c).getD 0) 0 = g) (by decide) ?_ ?_ g
  · intro d hd
    rw [List.foldl_cons, List.foldl_nil, hexDigit?_digitChar hd, Option.getD_some, Nat.zero_mul,
      Nat.zero_add]
  · intro q s d _ hd ih
    rw [List.foldl_append, ih, List.foldl_cons, List.foldl_nil, hexDigit?_digitChar hd,
      Option.getD_some]

theorem takeWhile_hexGroup (g : Nat) (rest : Bytes) (hrest : ∀ c ∈ rest.head?, hexDigit? c = none) :
    (hexGroup g ++ rest).takeWhile (fun c ↦ (hexDigit? c).isSome) = hexGroup g := by
  rw [List.takeWhile_append_of_pos fun c hc ↦ hexDigit?_of_mem_hexGroup hc]
  cases rest with
  | nil => exact List.append_nil _
  | cons c rest =>
    rw [List.takeWhile_cons, hrest c rfl]
    exact List.append_nil _

/-! ## Addresses with colons -/

def joinGroups (gs : List Nat) : Bytes := (str ":").intercalate (gs.map hexGroup)

theorem joinGroups_singleton (g : Nat) : joinGroups [g] = hexGroup g := by
  simp [joinGroups, List.intercalate]

variable {gs : List Nat}

theorem joinGroups_cons (g : Nat) (h : gs ≠ []) :
    joinGroups (g :: gs) = hexGroup g ++ ch ':' :: joinGroups gs := by
  cases gs with
  | nil => exact absurd rfl h
  | cons g' gs => simp [joinGroups, List.intercalate, str, ch]

theorem joinGroups_head (h : gs ≠ []) :
    ∃ c rest, joinGroups gs = c :: rest ∧ (hexDigit? c).isSome ∧ c ≠ ch ':' := by
  have hcolon {c : UInt8} (hc : (hexDigit? c).isSome) : c ≠ ch ':' := by
    rintro rfl
    cases hc
  cases gs with
  | nil => exact absurd rfl h
  | cons g gs =>
    obtain ⟨c, cs, hg⟩ := List.exists_cons_of_ne_nil (hexGroup_ne_nil g)
    have hc : (hexDigit? c).isSome := hexDigit?_of_mem_hexGroup (hg ▸ List.mem_cons_self)
    cases gs with
    | nil => exact ⟨c, cs, by rw [joinGroups_singleton, hg], hc, hcolon hc⟩
    | cons g' gs =>
      exact ⟨c, _, by rw [joinGroups_cons g (List.cons_ne_nil _ _), hg]; rfl, hc, hcolon hc⟩

theorem joinGroups_eq_nil : joinGroups gs = [] ↔ gs = [] := by
  constructor
  · intro hnil
    by_contra hne
    obtain ⟨c, rest, hjoin, -⟩ := joinGroups_head hne
    cases hnil.symm.trans hjoin
  · rintro rfl
    rfl

theorem colon_not_hex : hexDigit? (ch ':') = none := by decide

theorem parseIPv6Loop_last (hg : g < 65536) (fuel : Nat) (ip : Bytes) (e : Option Nat) :
    parseIPv6Loop (fuel + 1) ip e (hexGroup g) = some (ip ++ groupBytes [g], e, []) := by
  have htake := takeWhile_hexGroup g [] nofun
  rw [List.append_nil] at htake
  have hlen := length_hexGroup_le hg
  rw [parseIPv6Loop]
  simp only [htake, foldl_hexGroup, hexGroup_ne_nil, false_or, if_neg (Nat.not_lt.mpr hlen),
    List.drop_length]
  rfl

/-- A group that is followed by a colon: one group is read, and what comes after the colon
decides. -/
theorem parseIPv6Loop_colon (hg : g < 65536) (fuel : Nat) (ip : Bytes) (e : Option Nat)
    (c : UInt8) (rest : Bytes) :
    parseIPv6Loop (fuel + 1) ip e (hexGroup g ++ ch ':' :: c :: rest) =
      if c ≠ ch ':' then parseIPv6Loop fuel (ip ++ groupBytes [g]) e (c :: rest)
      else if e.isSome then none
      else if rest = [] then some (ip ++ groupBytes [g], some (ip ++ groupBytes [g]).length, [])
      else parseIPv6Loop fuel (ip ++ groupBytes [g]) (some (ip ++ groupBytes [g]).length) rest := by
  have htake := takeWhile_hexGroup g (ch ':' :: c :: rest) (by
    rintro _ ⟨⟩
    exact colon_not_hex)
  have hlen := length_hexGroup_le hg
  have hdot : ch ':' ≠ ch '.' := by decide
  rw [parseIPv6Loop]
  simp only [htake, foldl_hexGroup, hexGroup_ne_nil, false_or, if_neg (Nat.not_lt.mpr hlen),
    List.drop_left, if_neg hdot, ne_eq, not_true_eq_false, if_false]
  rfl

theorem parseIPv6Loop_join (hne : gs ≠ []) (hgs : ∀ g ∈ gs, g < 65536)
    (hfuel : gs.length ≤ fuel) (ip : Bytes) (e : Option Nat) :
    parseIPv6Loop fuel ip e (joinGroups gs) = some (ip ++ groupBytes gs, e, []) := by
  induction gs generalizing fuel ip with
  | nil => exact absurd rfl hne
  | cons g gs ih =>
    obtain ⟨fuel, rfl⟩ : ∃ k, fuel = k + 1 := ⟨fuel - 1, by
      rw [List.length_cons] at hfuel
      omega⟩
    have hg := hgs g List.mem_cons_self
    cases gs with
    | nil =>
      rw [joinGroups_singleton]
      exact parseIPv6Loop_last hg fuel ip e
    | cons g' gs =>
      have hne' := List.cons_ne_nil g' gs
      obtain ⟨c, rest, hjoin, -, hcolon⟩ := joinGroups_head hne'
      rw [joinGroups_cons g hne', hjoin, parseIPv6Loop_colon hg, if_pos hcolon, ← hjoin,
        ih hne' (fun g hg ↦ hgs g (List.mem_cons_of_mem _ hg)) (Nat.le_of_succ_le_succ hfuel),
        List.append_assoc]
      rfl

theorem parseIPv6Loop_ellipsis (hne : gs ≠ []) (hgs : ∀ g ∈ gs, g < 65536)
    (fuel : Nat) (ip rest : Bytes) :
    parseIPv6Loop (gs.length + fuel) ip none (joinGroups gs ++ ch ':' :: ch ':' :: rest) =
      if rest = [] then some (ip ++ groupBytes gs, some (ip ++ groupBytes gs).length, [])
      else parseIPv6Loop fuel (ip ++ groupBytes gs) (some (ip ++ groupBytes gs).length) rest := by
  induction gs generalizing ip with
  | nil => exact absurd rfl hne
  | cons g gs ih =>
    have hg := hgs g List.mem_cons_self
    have hfuel : (g :: gs).length + fuel = (gs.length + fuel) + 1 := by
      rw [List.length_cons]
      omega
    rw [hfuel]
    cases gs with
    | nil =>
      rw [joinGroups_singleton, parseIPv6Loop_colon hg, if_neg fun h ↦ h rfl, if_neg nofun]
      rw [List.length_nil, Nat.zero_add]
    | cons g' gs =>
      have hne' := List.cons_ne_nil g' gs
      obtain ⟨c, t, hjoin, -, hcolon⟩ := joinGroups_head hne'
      have hrest := ih hne' (fun g hg ↦ hgs g (List.mem_cons_of_mem _ hg)) (ip ++ groupBytes [g])
      rw [hjoin] at hrest
      rw [joinGroups_cons g hne', hjoin, List.append_assoc, List.cons_append,
        List.cons_append, parseIPv6Loop_colon hg, if_pos hcolon, ← List.cons_append, hrest,
        List.append_assoc]
      rfl

def IsZeroRun (gs : List Nat) (run : Nat × Nat) : Prop :=
  2 ≤ run.2 ∧ ∃ pre post, gs = pre ++ List.replicate run.2 0 ++ post ∧ pre.length = run.1

theorem isZeroRun_takeWhile {i : Nat} (hi : i < gs.length)
    (h : 2 ≤ ((gs.drop i).takeWhile (· = 0)).length) :
    IsZeroRun gs (i, ((gs.drop i).takeWhile (· = 0)).length) := by
  refine ⟨h, gs.take i, (gs.drop i).dropWhile (· = 0), ?_, ?_⟩
  · have hzeros : (gs.drop i).takeWhile (· = 0) =
        List.replicate ((gs.drop i).takeWhile (· = 0)).length 0 := by
      apply List.eq_replicate_length.mpr
      intro g hg
      have hzero := List.mem_takeWhile_imp hg
      exact of_decide_eq_true hzero
    rw [← hzeros, List.append_assoc, List.takeWhile_append_dropWhile, List.take_append_drop]
  · exact List.length_take_of_le (Nat.le_of_lt hi)

/-- What `zeroRun` finds is a run of zeros. -/
theorem isZeroRun_of_zeroRun {run : Nat × Nat} (h : zeroRun gs = some run) : IsZeroRun gs run := by
  revert run
  show ∀ run ∈ zeroRun gs, IsZeroRun gs run
  unfold zeroRun
  refine List.foldlRecOn (motive := fun best ↦ ∀ run ∈ best, IsZeroRun gs run) _ _ nofun ?_
  intro best hbest i hi
  dsimp only
  split_ifs with hl
  · rintro _ ⟨⟩
    exact isZeroRun_takeWhile (List.mem_range.mp hi) hl.1
  · exact hbest

theorem expandEllipsis_groupBytes {pre post : List Nat} (hl : 0 < l)
    (hlen : pre.length + l + post.length = 8) :
    expandEllipsis (groupBytes pre ++ groupBytes post) (some (groupBytes pre).length) [] =
      some (groupBytes (pre ++ List.replicate l 0 ++ post)) := by
  have hbytes : (groupBytes pre ++ groupBytes post).length = 16 - 2 * l := by
    rw [List.length_append, length_groupBytes, length_groupBytes]
    omega
  have hzeros : 16 - (16 - 2 * l) = 2 * l := by omega
  rw [expandEllipsis, if_neg fun h ↦ h rfl, hbytes, if_pos (by omega), List.take_left,
    List.drop_left, hzeros, groupBytes_append, groupBytes_append, groupBytes_replicate]

theorem parseIPv6Bytes_of_head (hc : (hexDigit? c).isSome) :
    parseIPv6Bytes (c :: rest) =
      (parseIPv6Loop 8 [] none (c :: rest)).bind fun (ip, e, left) ↦ expandEllipsis ip e left := by
  unfold parseIPv6Bytes
  split
  · rename_i heq
    cases heq
    cases hc
  · rfl

theorem parseIPv6Bytes_eq_none (hhex : hexDigit? c = none) (hcolon : c ≠ ch ':') (s : Bytes) :
    parseIPv6Bytes (c :: s) = none := by
  unfold parseIPv6Bytes
  split
  · rename_i heq
    exact absurd (List.cons.inj heq).1 hcolon
  · rw [parseIPv6Loop, List.takeWhile_cons_of_neg (by simp [hhex])]
    rfl

theorem parseAddr_open (s : Bytes) : parseAddr (ch '[' :: s) = none := by
  refine Option.eq_none_iff_forall_ne_some.mpr fun addr h ↦ ?_
  rcases parseAddr_inv h with ⟨ip, -, hip, -⟩ | ⟨front, ip, zone, -, hfront, hip, -⟩
  · exact not_mem_of_parseIPv4Loop hip (by decide) (by decide) List.mem_cons_self
  · cases front with
    | nil => cases hip
    | cons c front =>
      obtain rfl := (List.cons_prefix_cons.mp hfront).1
      cases hip.symm.trans (parseIPv6Bytes_eq_none (by decide) (by decide) front)

variable {addr : Addr}

/-- The first separator in the text of an address: a dot for IPv4, a colon for IPv6. -/
theorem find?_of_parseAddr (h : parseAddr s = some addr) :
    s.find? (fun c ↦ c = ch '.' ∨ c = ch ':' ∨ c = ch '%') =
      some (if addr.is4 then ch '.' else ch ':') := by
  rcases parseAddr_inv h with ⟨_, hfind, -, rfl⟩ | ⟨_, _, _, hfind, -, -, rfl⟩
  all_goals exact hfind

/-- No text is both an address and an address with a port. -/
theorem parseAddrPort_of_parseAddr (h : parseAddr s = some addr) : parseAddrPort s = none := by
  by_contra hne
  obtain ⟨ap, hap⟩ := Option.ne_none_iff_exists'.mp hne
  unfold parseAddrPort at hap
  split at hap
  · cases hap
  · rename_i i hi
    obtain ⟨-, hap⟩ := Option.ite_none_left_eq_some.mp hap
    obtain ⟨-, hap⟩ := Option.ite_none_left_eq_some.mp hap
    obtain ⟨port, -, hap⟩ := Option.bind_eq_some_iff.mp hap
    obtain ⟨addr', haddr', hap⟩ := Option.bind_eq_some_iff.mp hap
    by_cases hopen : (s.take i).head? = some (ch '[')
    · -- no address starts with a bracket
      cases s with
      | nil => simp at hopen
      | cons b s =>
        cases i with
        | zero => simp at hopen
        | succ i =>
          obtain rfl : b = ch '[' := Option.some.inj hopen
          cases h.symm.trans (parseAddr_open s)
    · -- the part before the port is an IPv4 address, so its first separator is a dot
      rw [if_neg hopen] at haddr'
      rw [if_neg fun hc ↦ hopen hc.1] at hap
      have hno := (Option.ite_none_left_eq_some.mp hap).1
      have hcolon : ch ':' ∈ s := by
        by_contra hmem
        cases hi.symm.trans (lastIndexByte_eq_none hmem)
      have his4 : addr'.is4 = true := by
        rcases parseAddr_cases haddr' with ⟨his4, -⟩ | ⟨-, his6, -⟩
        · exact his4
        · exact absurd ⟨hopen, his6⟩ hno
      have hs := find?_of_parseAddr h
      rw [← List.take_append_drop i s, List.find?_append, find?_of_parseAddr haddr', his4,
        if_neg fun h4 ↦ (is4_iff_of_parseAddr h).mp h4 hcolon] at hs
      exact absurd (Option.some.inj hs) (by decide)

/-- Groups with an ellipsis between them are read with the zeros put back. -/
theorem parseIPv6Bytes_elided {pre post : List Nat} (hpre : ∀ g ∈ pre, g < 65536)
    (hpost : ∀ g ∈ post, g < 65536) (hl : 0 < l) (hlen : pre.length + l + post.length = 8) :
    parseIPv6Bytes (joinGroups pre ++ ch ':' :: ch ':' :: joinGroups post) =
      some (groupBytes (pre ++ List.replicate l 0 ++ post)) := by
  have hexpand := expandEllipsis_groupBytes hl hlen
  by_cases hfront : pre = []
  · subst hfront
    show parseIPv6Bytes (0x3a :: 0x3a :: joinGroups post) = _
    rw [parseIPv6Bytes]
    by_cases hend : post = []
    · subst hend
      rw [if_pos (joinGroups_eq_nil.mpr rfl), List.nil_append, List.append_nil,
        groupBytes_replicate]
      simp only [List.length_nil, Nat.zero_add, Nat.add_zero] at hlen
      rw [hlen]
    · rw [if_neg (joinGroups_eq_nil.not.mpr hend), parseIPv6Loop_join hend hpost (by omega)]
      exact hexpand
  · obtain ⟨c, rest, hjoin, hc, -⟩ := joinGroups_head hfront
    have hfuel : pre.length + (8 - pre.length) = 8 := by omega
    have hloop := parseIPv6Loop_ellipsis hfront hpre (8 - pre.length) [] (joinGroups post)
    rw [hfuel, List.nil_append] at hloop
    rw [hjoin, List.cons_append, parseIPv6Bytes_of_head hc, ← List.cons_append, ← hjoin, hloop]
    by_cases hend : post = []
    · subst hend
      rw [groupBytes_nil, List.append_nil] at hexpand
      rw [if_pos (joinGroups_eq_nil.mpr rfl)]
      exact hexpand
    · rw [if_neg (joinGroups_eq_nil.not.mpr hend), parseIPv6Loop_join hend hpost (by omega)]
      exact hexpand

variable {ip : Bytes}

/-- The form with colons of sixteen bytes is read back. -/
theorem parseIPv6Bytes_string6 (hlen : ip.length = 16) : parseIPv6Bytes (string6 ip) = some ip := by
  have hgroups : (groups ip).length = 8 := by rw [length_groups, hlen]
  have hbytes : groupBytes (groups ip) = ip := groupBytes_groups (by rw [hlen])
  have hlt : ∀ g ∈ groups ip, g < 65536 := fun g hg ↦ lt_of_mem_groups hg
  rw [string6]
  dsimp only
  cases hrun : zeroRun (groups ip) with
  | none =>
    have hne : groups ip ≠ [] := List.ne_nil_of_length_pos (by omega)
    obtain ⟨c, rest, hjoin, hc, -⟩ := joinGroups_head hne
    show parseIPv6Bytes (joinGroups (groups ip)) = some ip
    rw [hjoin, parseIPv6Bytes_of_head hc, ← hjoin,
      parseIPv6Loop_join hne hlt (Nat.le_of_eq hgroups), Option.bind_some, List.nil_append, hbytes]
    show expandEllipsis ip none [] = some ip
    rw [expandEllipsis, if_neg fun h ↦ h rfl, if_neg (by omega)]
  | some run =>
    obtain ⟨i, l⟩ := run
    obtain ⟨hl, pre, post, hgs, hpre⟩ := isZeroRun_of_zeroRun hrun
    dsimp only at hl hgs hpre
    rw [hgs] at hgroups hlt hbytes
    rw [List.length_append, List.length_append, List.length_replicate] at hgroups
    have htake : (groups ip).take i = pre := by rw [hgs, List.append_assoc, List.take_left' hpre]
    have hdrop : (groups ip).drop (i + l) = post := by
      rw [hgs]
      refine List.drop_left' ?_
      rw [List.length_append, List.length_replicate, hpre]
    show parseIPv6Bytes (joinGroups ((groups ip).take i) ++ str "::" ++
      joinGroups ((groups ip).drop (i + l))) = some ip
    rw [htake, hdrop, List.append_assoc, ← hbytes]
    refine parseIPv6Bytes_elided (fun g hg ↦ hlt g ?_) (fun g hg ↦ hlt g ?_) (by omega) hgroups
    · exact List.mem_append_left _ (List.mem_append_left _ hg)
    · exact List.mem_append_right _ hg

/-! ## Addresses -/

theorem mem_string6 (h : c ∈ string6 ip) : c = ch ':' ∨ (hexDigit? c).isSome := by
  have hjoin : ∀ {gs : List Nat}, c ∈ joinGroups gs → c = ch ':' ∨ (hexDigit? c).isSome := by
    intro gs hmem
    induction gs with
    | nil => cases hmem
    | cons g gs ih =>
      by_cases hgs : gs = []
      · subst hgs
        rw [joinGroups_singleton] at hmem
        exact .inr (hexDigit?_of_mem_hexGroup hmem)
      · rw [joinGroups_cons g hgs, List.mem_append, List.mem_cons] at hmem
        rcases hmem with hmem | rfl | hmem
        · exact .inr (hexDigit?_of_mem_hexGroup hmem)
        · exact .inl rfl
        · exact ih hmem
  rw [string6] at h
  dsimp only at h
  split at h
  · exact hjoin h
  · rw [List.mem_append, List.mem_append] at h
    rcases h with (h | h) | h
    · exact hjoin h
    · left
      simpa [str, ch] using h
    · exact hjoin h

theorem colon_mem_joinGroups (h : 2 ≤ gs.length) : ch ':' ∈ joinGroups gs := by
  match gs, h with
  | g :: g' :: gs, _ =>
    rw [joinGroups_cons g (List.cons_ne_nil _ _)]
    exact List.mem_append_right _ List.mem_cons_self

theorem colon_mem_string6 (hlen : ip.length = 16) : ch ':' ∈ string6 ip := by
  have hgroups : (groups ip).length = 8 := by rw [length_groups, hlen]
  rw [string6]
  dsimp only
  split
  · exact colon_mem_joinGroups (by omega)
  · exact List.mem_append_left _ (List.mem_append_right _ List.mem_cons_self)

theorem find?_separator (hmem : c ∈ s) (hc : c = ch '.' ∨ c = ch ':' ∨ c = ch '%')
    (hothers : ∀ d ∈ s, d = ch '.' ∨ d = ch ':' ∨ d = ch '%' → d = c) :
    s.find? (fun c ↦ c = ch '.' ∨ c = ch ':' ∨ c = ch '%') = some c := by
  have hsome : (s.find? fun c ↦ c = ch '.' ∨ c = ch ':' ∨ c = ch '%').isSome :=
    List.find?_isSome.mpr ⟨c, hmem, decide_eq_true hc⟩
  obtain ⟨d, hd⟩ := Option.isSome_iff_exists.mp hsome
  have hsep := List.find?_some hd
  rw [hd, hothers d (List.mem_of_find?_eq_some hd) (of_decide_eq_true hsep)]

theorem mem_dotted {a b d x : UInt8} (h : x ∈ dotted [a, b, c, d]) :
    x = ch '.' ∨ (digit? x).isSome := by
  have hx : x = ch '.' ∨ x ∈ itoa a.toNat ∨ x ∈ itoa b.toNat ∨ x ∈ itoa c.toNat ∨
      x ∈ itoa d.toNat := by
    simp [dotted, List.intercalate, str, ch] at h ⊢
    tauto
  rcases hx with hx | hx | hx | hx | hx
  · exact .inl hx
  all_goals exact .inr (digit?_of_mem_itoa hx)

theorem parseAddr_dotted (a b c d : UInt8) :
    parseAddr (dotted [a, b, c, d]) = some (.v4 (BitVec.ofNat 32 (ofBE [a, b, c, d]))) := by
  have hdot : ch '.' ∈ dotted [a, b, c, d] := by simp [dotted, List.intercalate, str, ch]
  have hfirst := find?_separator hdot (.inl rfl) (by
    rintro x hx (rfl | rfl | rfl)
    · rfl
    · exact (mem_dotted hx).elim id fun hdigit ↦ by cases hdigit
    · exact (mem_dotted hx).elim id fun hdigit ↦ by cases hdigit)
  rw [parseAddr, hfirst]
  dsimp only
  rw [if_pos rfl, parseIPv4, parseIPv4Fields_dotted]
  rfl

theorem parseAddr_of_colon
    (hfirst : s.find? (fun c ↦ c = ch '.' ∨ c = ch ':' ∨ c = ch '%') = some (ch ':'))
    (hzone : ch '%' ∉ s) (h : parseIPv6Bytes s = some ip) :
    parseAddr s = some (.v6 (BitVec.ofNat 128 (ofBE ip)) []) := by
  have hindex : indexByte (ch '%') s = none := by
    rw [indexByte, List.findIdx?_eq_none_iff]
    intro x hx
    apply decide_eq_false
    rintro rfl
    exact hzone hx
  rw [parseAddr, hfirst]
  dsimp only
  rw [if_neg (by decide), if_pos rfl, parseIPv6, hindex]
  dsimp only
  rw [h]
  rfl

theorem parseAddr_string6 (hlen : ip.length = 16) :
    parseAddr (string6 ip) = some (.v6 (BitVec.ofNat 128 (ofBE ip)) []) := by
  refine parseAddr_of_colon (find?_separator (colon_mem_string6 hlen) (.inr (.inl rfl)) ?_) ?_
    (parseIPv6Bytes_string6 hlen)
  · rintro x hx (rfl | rfl | rfl)
    · exact (mem_string6 hx).elim id fun hdigit ↦ nomatch hdigit
    · rfl
    · exact (mem_string6 hx).elim id fun hdigit ↦ nomatch hdigit
  · intro hx
    rcases mem_string6 hx with heq | hdigit
    · cases heq
    · cases hdigit

/-- `To4` gives four bytes. -/
theorem exists_of_to4 {ip4 : Bytes} (h : to4 ip = some ip4) :
    ∃ a b c d, ip4 = [a, b, c, d] ∧ (ip = [a, b, c, d] ∨ ip = netIPv4 a b c d) := by
  unfold to4 at h
  split at h
  · rename_i hlen
    cases h
    match ip, hlen with
    | [a, b, c, d], _ => exact ⟨a, b, c, d, rfl, .inl rfl⟩
  · obtain ⟨⟨hlen, hmapped⟩, h⟩ := Option.ite_none_right_eq_some.mp h
    cases h
    have hrest : (ip.drop 12).length = 4 := by
      rw [List.length_drop, hlen]
    match hip : ip.drop 12, hrest with
    | [a, b, c, d], _ =>
      refine ⟨a, b, c, d, rfl, .inr ?_⟩
      rw [netIPv4, ← hmapped, ← hip, List.take_append_drop]

theorem length_of_to4_eq_none (hlen : ip.length = 4 ∨ ip.length = 16) (h : to4 ip = none) :
    ip.length = 16 := by
  refine hlen.resolve_left fun h4 ↦ ?_
  rw [to4, if_pos h4] at h
  cases h

theorem to16_of_forms {a b d : UInt8} (h : ip = [a, b, c, d] ∨ ip = netIPv4 a b c d) :
    to16 ip = some (netIPv4 a b c d) := by
  rcases h with rfl | rfl
  · rfl
  · rfl

theorem ofBE_append (as bs : Bytes) : ofBE (as ++ bs) = ofBE as * 256 ^ bs.length + ofBE bs := by
  induction as with
  | nil => rw [List.nil_append, ofBE, Nat.zero_mul, Nat.zero_add]
  | cons a as ih =>
    rw [List.cons_append, ofBE, ofBE, ih, List.length_append, Nat.pow_add]
    ring

theorem as16_v4 (a b c d : UInt8) :
    (Addr.v4 (BitVec.ofNat 32 (ofBE [a, b, c, d]))).as16 = netIPv4 a b c d := by
  have hlt : ofBE [a, b, c, d] < 2 ^ 32 := Nat.lt_of_lt_of_eq (ofBE_lt [a, b, c, d]) (by norm_num)
  have hmapped : ofBE (netIPv4 a b c d) = Addr.mappedBase + ofBE [a, b, c, d] := by
    have hfront : ofBE v4InV6Prefix = 0xffff := by decide
    rw [netIPv4, ofBE_append, hfront, Addr.mappedBase]
    simp only [List.length_cons, List.length_nil]
    norm_num
  have hnat : (Addr.v4 (BitVec.ofNat 32 (ofBE [a, b, c, d]))).toNat16 = ofBE (netIPv4 a b c d) := by
    rw [Addr.toNat16, BitVec.toNat_ofNat, Nat.mod_eq_of_lt hlt, hmapped]
  rw [Addr.as16, hnat]
  exact toBE_ofBE (netIPv4 a b c d)

theorem as16_v6 (hlen : ip.length = 16) : (Addr.v6 (BitVec.ofNat 128 (ofBE ip)) []).as16 = ip := by
  have hlt : ofBE ip < 2 ^ 128 := by
    refine Nat.lt_of_lt_of_eq (ofBE_lt ip) ?_
    rw [hlen]
    norm_num
  have hread := toBE_ofBE ip
  rw [hlen] at hread
  rw [Addr.as16, Addr.toNat16, BitVec.toNat_ofNat, Nat.mod_eq_of_lt hlt, hread]

/-- `ParseIP` reads what `IP.String` prints. -/
theorem parseIP_ipString (hlen : ip.length = 4 ∨ ip.length = 16) :
    parseIP (ipString ip) = to16 ip := by
  rw [ipString]
  cases hto4 : to4 ip with
  | some ip4 =>
    obtain ⟨a, b, c, d, rfl, hforms⟩ := exists_of_to4 hto4
    rw [to16_of_forms hforms, ← as16_v4, parseIP, parseAddr_dotted]
    rfl
  | none =>
    have h16 := length_of_to4_eq_none hlen hto4
    have hne : ip ≠ [] := List.ne_nil_of_length_pos (by omega)
    have hto16 : to16 ip = some ip := by rw [to16, if_neg (by omega), if_pos h16]
    dsimp only
    rw [if_neg hne, if_pos h16, hto16, parseIP, parseAddr_string6 h16]
    exact congrArg some (as16_v6 h16)

theorem not_mem_ipString (hlen : ip.length = 4 ∨ ip.length = 16) (hdot : c ≠ ch '.')
    (hcolon : c ≠ ch ':') (hdigit : digit? c = none) (hhex : hexDigit? c = none) :
    c ∉ ipString ip := by
  intro h
  rw [ipString] at h
  cases hto4 : to4 ip with
  | some ip4 =>
    obtain ⟨a, b, c', d, rfl, -⟩ := exists_of_to4 hto4
    rw [hto4] at h
    rcases mem_dotted h with heq | hsome
    · exact hdot heq
    · cases hdigit ▸ hsome
  | none =>
    have h16 := length_of_to4_eq_none hlen hto4
    rw [hto4] at h
    dsimp only at h
    rw [if_neg (List.ne_nil_of_length_pos (by omega)), if_pos h16] at h
    rcases mem_string6 h with heq | hsome
    · exact hcolon heq
    · cases hhex ▸ hsome

/-! ## Hosts and ports -/

theorem indexByte_concat (hs : c ∉ s) (t : Bytes) : indexByte c (s ++ c :: t) = some s.length := by
  rw [indexByte, List.findIdx?_append, List.findIdx?_eq_none_iff.mpr]
  · rw [List.findIdx?_cons]
    simp
  · intro x hx
    apply decide_eq_false
    rintro rfl
    exact hs hx

theorem lastIndexByte_concat {t : Bytes} (ht : c ∉ t) (s : Bytes) :
    lastIndexByte c (s ++ c :: t) = some s.length := by
  have hrev : (s ++ c :: t).reverse = t.reverse ++ c :: s.reverse := by
    rw [List.reverse_append, List.reverse_cons, List.append_assoc, List.singleton_append]
  have hlen : (s ++ c :: t).length - 1 - t.reverse.length = s.length := by
    rw [List.length_append, List.length_cons, List.length_reverse]
    omega
  rw [lastIndexByte, hrev, indexByte_concat (fun h ↦ ht (List.mem_reverse.mp h)), Option.map_some,
    hlen]

variable {host : Bytes}

/-- `SplitHostPort` takes apart what `JoinHostPort` put together. -/
theorem splitHostPort_joinHostPort {port : Bytes} (hhost : ch '[' ∉ host ∧ ch ']' ∉ host)
    (hport : ch ':' ∉ port ∧ ch '[' ∉ port ∧ ch ']' ∉ port) :
    splitHostPort (joinHostPort host port) = some (host, port) := by
  by_cases hcolon : ch ':' ∈ host
  · -- the host is in brackets
    have hlast := lastIndexByte_concat hport.1 (ch '[' :: host ++ [ch ']'])
    have hlen : (ch '[' :: host ++ [ch ']']).length = host.length + 1 + 1 := by simp
    have hdropped : ((ch '[' :: host ++ [ch ']']) ++ ch ':' :: port).drop (host.length + 1 + 1) =
        ch ':' :: port := List.drop_left' hlen
    have hindex : indexByte (ch ']') ((ch '[' :: host ++ [ch ']']) ++ ch ':' :: port) =
        some (host.length + 1) := by
      rw [List.append_assoc, List.singleton_append, indexByte_concat]
      · rfl
      · rw [List.mem_cons, not_or]
        exact ⟨by decide, hhost.2⟩
    rw [joinHostPort_of_mem hcolon, splitHostPort, hlast, hlen]
    dsimp only
    rw [if_pos (by rfl), hindex]
    dsimp only
    rw [if_neg fun h ↦ h rfl, if_neg, if_neg, ← List.drop_drop, hdropped]
    · simp
    · rw [hdropped]
      simpa using ⟨by decide, hport.2.2⟩
    · simpa using ⟨hhost.1, by decide, by decide, hport.2.1⟩
  · have hjoin := joinHostPort_of_not_mem hcolon port
    have hmem {c : UInt8} (hne : c ≠ ch ':') (hc : c ∉ host) (hc' : c ∉ port) :
        (host ++ ch ':' :: port).contains c = false := by
      simp only [List.contains_eq_mem, decide_eq_false_iff_not, List.mem_append,
        List.mem_cons, not_or]
      exact ⟨hc, hne, hc'⟩
    have hopen := hmem (c := ch '[') (by decide) hhost.1 hport.2.1
    have hclose := hmem (c := ch ']') (by decide) hhost.2 hport.2.2
    have hhead : (host ++ ch ':' :: port).head? ≠ some (ch '[') := by
      intro hhead
      have h := List.mem_of_mem_head? hhead
      rw [List.contains_eq_mem, decide_eq_false_iff_not] at hopen
      exact hopen h
    have htake : (host ++ ch ':' :: port).take host.length = host := List.take_left
    have hdrop : (host ++ ch ':' :: port).drop (host.length + 1) = port := by
      rw [← List.drop_drop, List.drop_left]
      rfl
    have hcolon' : host.contains (ch ':') = false := by simpa using hcolon
    rw [hjoin, splitHostPort, lastIndexByte_concat hport.1]
    dsimp only
    rw [if_neg hhead, htake, hdrop, hcolon', if_neg Bool.false_ne_true, hopen,
      if_neg Bool.false_ne_true, hclose, if_neg Bool.false_ne_true]

/-- The host of a joined text, with its brackets if it has a colon. -/
def bracketed (host : Bytes) : Bytes :=
  if ch ':' ∈ host then ch '[' :: host ++ [ch ']'] else host

theorem joinHostPort_eq (host port : Bytes) :
    joinHostPort host port = bracketed host ++ ch ':' :: port := by
  unfold bracketed
  split_ifs with hcolon
  · exact joinHostPort_of_mem hcolon port
  · exact joinHostPort_of_not_mem hcolon port

theorem exists_last (h : c ∈ s) : ∃ u v, s = u ++ c :: v ∧ c ∉ v := by
  obtain ⟨v, u, hrev, hv⟩ := List.eq_append_cons_of_mem (List.mem_reverse.mpr h)
  refine ⟨u.reverse, v.reverse, ?_, fun h ↦ hv (List.mem_reverse.mp h)⟩
  have hs := congrArg List.reverse hrev
  rwa [List.reverse_reverse, List.reverse_append, List.reverse_cons, List.append_assoc] at hs

theorem splitHostPort_bracketed (hclose : ch ']' ∉ host) :
    splitHostPort (bracketed host) = none := by
  unfold bracketed
  split_ifs with hcolon
  · -- the last colon is inside the brackets
    obtain ⟨u, v, hhost, hv⟩ := exists_last hcolon
    have htext : ch '[' :: host ++ [ch ']'] = (ch '[' :: u) ++ ch ':' :: (v ++ [ch ']']) := by
      rw [hhost]
      simp
    have hlast : lastIndexByte (ch ':') (ch '[' :: host ++ [ch ']']) = some (u.length + 1) := by
      rw [htext, lastIndexByte_concat]
      · simp
      · simpa [ch] using hv
    have hindex : indexByte (ch ']') (ch '[' :: host ++ [ch ']']) = some (host.length + 1) := by
      rw [indexByte_concat]
      · rfl
      · rw [List.mem_cons, not_or]
        exact ⟨by decide, hclose⟩
    have hlen : host.length = u.length + (v.length + 1) := by
      rw [hhost]
      simp
    have hhead : (ch '[' :: host ++ [ch ']']).head? = some (ch '[') := rfl
    rw [splitHostPort, hlast]
    dsimp only
    rw [if_pos hhead, hindex]
    dsimp only
    rw [if_pos (by omega)]
  · rw [splitHostPort, lastIndexByte_eq_none hcolon]

theorem splitHostPort_eq_none_of_colons (hcolons : 2 ≤ s.count (ch ':'))
    (hhead : s.head? ≠ some (ch '[')) : splitHostPort s = none := by
  have hmem : ch ':' ∈ s := List.count_pos_iff.mp (by omega)
  obtain ⟨u, v, hs, hback⟩ := exists_last hmem
  -- the other colon stands before the last one
  have hfront : ch ':' ∈ u := by
    rw [hs, List.count_append, List.count_cons_self, List.count_eq_zero.mpr hback] at hcolons
    exact List.count_pos_iff.mp (by omega)
  have hlast : lastIndexByte (ch ':') s = some u.length := by rw [hs, lastIndexByte_concat hback]
  have htake : s.take u.length = u := by rw [hs, List.take_left]
  rw [splitHostPort, hlast]
  dsimp only
  rw [if_neg hhead, htake, if_pos (by simpa using hfront)]

/-- With fewer than two colons there is no ellipsis, and the groups are too few for an address. -/
theorem parseIPv6Loop_of_count {ip' : Bytes} {e : Option Nat}
    (h : parseIPv6Loop fuel ip none s = some (ip', e, rest)) (hcount : s.count (ch ':') < 2)
    (hlen : ip.length + 2 * s.count (ch ':') < 12) :
    e = none ∧ ip'.length ≤ ip.length + 2 * s.count (ch ':') + 2 := by
  induction fuel generalizing ip s with
  | zero =>
    cases h
    exact ⟨rfl, by omega⟩
  | succ fuel ih =>
    unfold parseIPv6Loop at h
    dsimp only at h
    split at h
    · cases h
    · split at h
      · cases h
        refine ⟨rfl, ?_⟩
        rw [List.length_append]
        simp only [List.length_cons, List.length_nil]
        omega
      · rename_i c rest hdrop
        have hdropped : (c :: rest).count (ch ':') ≤ s.count (ch ':') :=
          hdrop ▸ (List.drop_sublist _ s).count_le _
        split at h
        · -- an IPv4 address needs the twelve bytes before it
          rw [if_pos ⟨rfl, by omega⟩] at h
          cases h
        · split at h
          · cases h
          · rename_i hcolon
            rw [Decidable.not_not.mp hcolon, List.count_cons_self] at hdropped
            split at h
            · cases h
            · rename_i c' rest'
              split at h
              · have hstep := ih h (by omega) (by simp; omega)
                refine ⟨hstep.1, hstep.2.trans ?_⟩
                simp
                omega
              · rename_i hcolon'
                rw [Decidable.not_not.mp hcolon', List.count_cons_self] at hdropped
                omega

theorem two_le_count_colon (h : parseAddr s = some addr) (hcolon : ch ':' ∈ s) :
    2 ≤ s.count (ch ':') := by
  have hbytes {s ip : Bytes} (h : parseIPv6Bytes s = some ip) : 2 ≤ s.count (ch ':') := by
    unfold parseIPv6Bytes at h
    split at h
    · rename_i rest
      have hellipsis : (0x3a :: 0x3a :: rest).count (ch ':') = rest.count (ch ':') + 1 + 1 := by
        rw [show (0x3a : UInt8) = ch ':' from rfl, List.count_cons_self, List.count_cons_self]
      omega
    · by_contra hfew
      obtain ⟨⟨ip', e, rest⟩, hloop, hexpand⟩ := Option.bind_eq_some_iff.mp h
      obtain ⟨rfl, hlen⟩ := parseIPv6Loop_of_count hloop (by omega)
        (by rw [List.length_nil]; omega)
      rw [List.length_nil] at hlen
      dsimp only [expandEllipsis] at hexpand
      rw [if_pos (show ip'.length < 16 by omega)] at hexpand
      split at hexpand
      all_goals cases hexpand
  rcases parseAddr_inv h with ⟨ip, -, hip, -⟩ | ⟨front, ip, zone, -, hfront, hip, -⟩
  · exact absurd hcolon (not_mem_of_parseIPv4Loop hip (by decide) (by decide))
  · exact (hbytes hip).trans (hfront.sublist.count_le _)

/-- Texts that are joined alike have one port, and one host if it has no brackets. -/
theorem joinHostPort_inj {host' port port' : Bytes} (hport : ch ':' ∉ port)
    (hport' : ch ':' ∉ port') (hhost : ch '[' ∉ host')
    (h : joinHostPort host port = joinHostPort host' port') : host = host' ∧ port = port' := by
  rw [joinHostPort_eq, joinHostPort_eq] at h
  have hlast := congrArg (lastIndexByte (ch ':')) h
  rw [lastIndexByte_concat hport, lastIndexByte_concat hport', Option.some.injEq] at hlast
  obtain ⟨hfront, hback⟩ := List.append_inj h hlast
  refine ⟨?_, (List.cons.inj hback).2⟩
  unfold bracketed at hfront
  by_cases hcolon : ch ':' ∈ host
  · by_cases hcolon' : ch ':' ∈ host'
    · rw [if_pos hcolon, if_pos hcolon'] at hfront
      exact List.append_cancel_right (List.cons.inj hfront).2
    · rw [if_pos hcolon, if_neg hcolon'] at hfront
      exact absurd (hfront ▸ List.mem_cons_self) hhost
  · by_cases hcolon' : ch ':' ∈ host'
    · rw [if_neg hcolon, if_pos hcolon'] at hfront
      rw [hfront] at hcolon
      exact absurd (List.mem_append_left _ (List.mem_cons_of_mem _ hcolon')) hcolon
    · rw [if_neg hcolon, if_neg hcolon'] at hfront
      exact hfront

theorem itoa_inj (h : itoa n = itoa m) : n = m := by
  have hn := decimalFrom_itoa n
  rw [h, decimalFrom_itoa m] at hn
  exact (Option.some.inj hn).symm

end Vwarp.Go
