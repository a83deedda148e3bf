import Vwarp.Go.Netip
import Vwarp.Go.Strconv

/-!
# The text forms of addresses

Parsing and printing as the packages `net` and `net/netip` do it: `ParseAddr`,
`ParseAddrPort`, `SplitHostPort`, `JoinHostPort` and `IP.String`.  A parse error is
`none`; no modelled function looks at its text.
-/

namespace Vwarp.Go

open Vwarp.Lib

/-- `strings.IndexByte`. -/
def indexByte (c : UInt8) (s : Bytes) : Option Nat := s.findIdx? (· = c)

/-- `strings.LastIndexByte`. -/
def lastIndexByte (c : UInt8) (s : Bytes) : Option Nat :=
  (indexByte c s.reverse).map (s.length - 1 - ·)

/-! ## Parsing addresses -/

/-- The loop of `parseIPv4Fields`: the value and the number of digits of the current
field, and the fields before it. -/
def parseIPv4Loop (val digLen : Nat) (fields : Bytes) : Bytes → Option Bytes
  | [] => if fields.length < 3 then none else some (fields ++ [val.toUInt8])
  | c :: cs =>
    match digit? c with
    | some d =>
      if digLen = 1 ∧ val = 0 then none
      else if 255 < val * 10 + d then none
      else parseIPv4Loop (val * 10 + d) (digLen + 1) fields cs
    | none =>
      if c ≠ ch '.' then none
      else if digLen = 0 ∨ cs = [] then none
      else if fields.length = 3 then none
      else parseIPv4Loop 0 0 (fields ++ [val.toUInt8]) cs

/-- `parseIPv4Fields`: the four bytes of a dotted address. -/
def parseIPv4Fields (s : Bytes) : Option Bytes := parseIPv4Loop 0 0 [] s

def hexDigit? (c : UInt8) : Option Nat :=
  if ch '0' ≤ c ∧ c ≤ ch '9' then some (c.toNat - (ch '0').toNat)
  else if ch 'a' ≤ c ∧ c ≤ ch 'f' then some (c.toNat - (ch 'a').toNat + 10)
  else if ch 'A' ≤ c ∧ c ≤ ch 'F' then some (c.toNat - (ch 'A').toNat + 10)
  else none

/-- The loop of `parseIPv6` with room for `fuel` more groups: the bytes so far, the
position of the ellipsis, and what is left of the string when the loop ends. -/
def parseIPv6Loop : Nat → Bytes → Option Nat → Bytes → Option (Bytes × Option Nat × Bytes)
  | 0, ip, ellipsis, s => some (ip, ellipsis, s)
  | fuel + 1, ip, ellipsis, s =>
    let digits := s.takeWhile fun c ↦ (hexDigit? c).isSome
    let s' := s.drop digits.length
    let acc := digits.foldl (fun acc c ↦ acc * 16 + (hexDigit? c).getD 0) 0
    let ip' := ip ++ [(acc / 256).toUInt8, (acc % 256).toUInt8]
    if digits = [] ∨ 4 < digits.length then none
    else match s' with
      | [] => some (ip', ellipsis, [])
      | c :: rest =>
        if c = ch '.' then
          if ellipsis = none ∧ ip.length ≠ 12 then none
          else if 16 < ip.length + 4 then none
          else (parseIPv4Fields s).map fun fields ↦ (ip ++ fields, ellipsis, [])
        else if c ≠ ch ':' then none
        else match rest with
          | [] => none
          | c' :: rest' =>
            if c' ≠ ch ':' then parseIPv6Loop fuel ip' ellipsis rest
            else if ellipsis.isSome then none
            else if rest' = [] then some (ip', some ip'.length, [])
            else parseIPv6Loop fuel ip' (some ip'.length) rest'

/-- The end of `parseIPv6`: the whole string must be used, and an ellipsis must stand
for at least one group of zeros. -/
def expandEllipsis (ip : Bytes) (ellipsis : Option Nat) (rest : Bytes) : Option Bytes :=
  if rest ≠ [] then none
  else match ellipsis with
    | none => if ip.length < 16 then none else some ip
    | some e =>
      if ip.length < 16 then
        some (ip.take e ++ List.replicate (16 - ip.length) 0 ++ ip.drop e)
      else none

/-- `parseIPv6` of a string without its zone. -/
def parseIPv6Bytes (s : Bytes) : Option Bytes :=
  match s with
  | 0x3a :: 0x3a :: rest =>
    if rest = [] then some (List.replicate 16 0)
    else (parseIPv6Loop 8 [] (some 0) rest).bind fun (ip, e, left) ↦ expandEllipsis ip e left
  | _ => (parseIPv6Loop 8 [] none s).bind fun (ip, e, left) ↦ expandEllipsis ip e left

/-- `parseIPv6`. -/
def parseIPv6 (s : Bytes) : Option Addr :=
  match indexByte (ch '%') s with
  | none => (parseIPv6Bytes s).map fun ip ↦ .v6 (BitVec.ofNat 128 (ofBE ip)) []
  | some i =>
    let zone := s.drop (i + 1)
    if zone = [] then none
    else (parseIPv6Bytes (s.take i)).map fun ip ↦ .v6 (BitVec.ofNat 128 (ofBE ip)) zone

/-- `parseIPv4`. -/
def parseIPv4 (s : Bytes) : Option Addr :=
  (parseIPv4Fields s).map fun ip ↦ .v4 (BitVec.ofNat 32 (ofBE ip))

/-- `netip.ParseAddr`: the first of `.`, `:` and `%` decides. -/
def parseAddr (s : Bytes) : Option Addr :=
  match s.find? fun c ↦ c = ch '.' ∨ c = ch ':' ∨ c = ch '%' with
  | none => none
  | some c => if c = ch '.' then parseIPv4 s else if c = ch ':' then parseIPv6 s else none

/-- `netip.ParseAddrPort`. -/
def parseAddrPort (s : Bytes) : Option AddrPort :=
  match lastIndexByte (ch ':') s with
  | none => none
  | some i =>
    let ip := s.take i
    let port := s.drop (i + 1)
    let v6 := ip.head? = some (ch '[')
    if ip = [] ∨ port = [] then none
    else if v6 ∧ (ip.length < 2 ∨ ip.getLast? ≠ some (ch ']')) then none
    else (parseUint port 16).bind fun port16 ↦
      (parseAddr (if v6 then ip.tail.dropLast else ip)).bind fun addr ↦
        if v6 ∧ addr.is4 then none
        else if ¬ v6 ∧ addr.is6 then none
        else some ⟨addr, UInt16.ofNat port16⟩

/-! ## `net` -/

/-- `net.SplitHostPort`. -/
def splitHostPort (hostport : Bytes) : Option (Bytes × Bytes) :=
  match lastIndexByte (ch ':') hostport with
  | none => none
  | some i =>
    let port := hostport.drop (i + 1)
    if hostport.head? = some (ch '[') then
      match indexByte (ch ']') hostport with
      | none => none
      | some e =>
        if e + 1 ≠ i then none
        else if (hostport.drop 1).contains (ch '[') then none
        else if (hostport.drop (e + 1)).contains (ch ']') then none
        else some ((hostport.take e).drop 1, port)
    else
      let host := hostport.take i
      if host.contains (ch ':') then none
      else if hostport.contains (ch '[') then none
      else if hostport.contains (ch ']') then none
      else some (host, port)

/-- `net.JoinHostPort`. -/
def joinHostPort (host port : Bytes) : Bytes :=
  if host.contains (ch ':') then str "[" ++ host ++ str "]:" ++ port else host ++ str ":" ++ port

/-- `IP.To4`. -/
def to4 (ip : Bytes) : Option Bytes :=
  if ip.length = 4 then some ip
  else if ip.length = 16 ∧ ip.take 12 = v4InV6Prefix then some (ip.drop 12)
  else none

/-- `IP.To16`. -/
def to16 (ip : Bytes) : Option Bytes :=
  if ip.length = 4 then some (v4InV6Prefix ++ ip)
  else if ip.length = 16 then some ip
  else none

def dotted (ip : Bytes) : Bytes :=
  (str ".").intercalate (ip.map fun b ↦ itoa b.toNat)

def groups : Bytes → List Nat
  | a :: b :: rest => (a.toNat * 256 + b.toNat) :: groups rest
  | _ => []

/-- The longest run of at least two zero groups, the first of them if there are several:
where it starts and its length. -/
def zeroRun (gs : List Nat) : Option (Nat × Nat) :=
  (List.range gs.length).foldl (fun best i ↦
    let l := ((gs.drop i).takeWhile (· = 0)).length
    if 2 ≤ l ∧ (best.map Prod.snd).getD 0 < l then some (i, l) else best) none

def hexGroup (g : Nat) : Bytes := (Nat.toDigits 16 g).map ch

/-- `Addr.appendTo6`: an IPv6 address with its longest run of zeros left out. -/
def string6 (ip : Bytes) : Bytes :=
  let gs := groups ip
  let join (gs : List Nat) := (str ":").intercalate (gs.map hexGroup)
  match zeroRun gs with
  | none => join gs
  | some (i, l) => join (gs.take i) ++ str "::" ++ join (gs.drop (i + l))

/-- `IP.String`. -/
def ipString (ip : Bytes) : Bytes :=
  match to4 ip with
  | some ip4 => dotted ip4
  | none =>
    if ip = [] then str "<nil>"
    else if ip.length = 16 then string6 ip
    else str "?" ++ ip.flatMap fun b ↦ [b.toNat / 16, b.toNat % 16].flatMap hexGroup

/-- `net.ParseIP`: always the 16-byte form. -/
def parseIP (s : Bytes) : Option Bytes :=
  (parseAddr s).bind fun addr ↦ if addr.zone = [] then some addr.as16 else none

/-- `net.UDPAddr` without a zone. -/
structure UDPAddr where
  ip : Bytes
  port : Nat
deriving DecidableEq, Repr

/-- `UDPAddr.String`. -/
def UDPAddr.string (a : UDPAddr) : Bytes :=
  joinHostPort (if a.ip = [] then [] else ipString a.ip) (itoa a.port)

/-! ## Reading back what was joined -/

variable {c : UInt8}

theorem lastIndexByte_append {d : UInt8} (hne : d ≠ c) (s : Bytes) :
    lastIndexByte c (s ++ [c, d]) = some s.length := by
  simp [lastIndexByte, indexByte, List.findIdx?_cons, hne]

variable {s : Bytes}

theorem lastIndexByte_eq_none (h : c ∉ s) : lastIndexByte c s = none := by
  simp only [lastIndexByte, indexByte, Option.map_eq_none_iff, List.findIdx?_eq_none_iff,
    List.mem_reverse, decide_eq_false_iff_not]
  exact fun x hx heq ↦ h (heq ▸ hx)

theorem not_mem_of_parseIPv4Loop {val digLen : Nat} {fields ip : Bytes}
    (h : parseIPv4Loop val digLen fields s = some ip) (hdigit : digit? c = none)
    (hdot : c ≠ ch '.') : c ∉ s := by
  induction s generalizing val digLen fields with
  | nil => exact List.not_mem_nil
  | cons b s ih =>
    have hb : c ≠ b ∧ ∃ val digLen fields, parseIPv4Loop val digLen fields s = some ip := by
      rw [parseIPv4Loop] at h
      cases hd : digit? b with
      | some d =>
        rw [hd] at h
        obtain ⟨-, h⟩ := Option.ite_none_left_eq_some.mp h
        refine ⟨fun heq ↦ ?_, _, _, _, (Option.ite_none_left_eq_some.mp h).2⟩
        rw [← heq, hdigit] at hd
        cases hd
      | none =>
        rw [hd] at h
        obtain ⟨heq, h⟩ := Option.ite_none_left_eq_some.mp h
        obtain ⟨-, h⟩ := Option.ite_none_left_eq_some.mp h
        exact ⟨fun hc ↦ heq fun hb ↦ hdot (hc.trans hb), _, _, _,
          (Option.ite_none_left_eq_some.mp h).2⟩
    obtain ⟨hne, _, _, _, hrest⟩ := hb
    rw [List.mem_cons, not_or]
    exact ⟨hne, ih hrest⟩

variable {addr : Addr}

/-- What `ParseAddr` reads: a dotted address, or the sixteen bytes of the text up to its zone. -/
theorem parseAddr_inv (h : parseAddr s = some addr) :
    let first := s.find? fun c ↦ c = ch '.' ∨ c = ch ':' ∨ c = ch '%'
    (∃ ip, first = some (ch '.') ∧ parseIPv4Fields s = some ip ∧
      addr = .v4 (BitVec.ofNat 32 (ofBE ip))) ∨
    ∃ front ip zone, first = some (ch ':') ∧ front <+: s ∧ parseIPv6Bytes front = some ip ∧
      addr = .v6 (BitVec.ofNat 128 (ofBE ip)) zone := by
  unfold parseAddr at h
  split at h
  · cases h
  · rename_i c hfind
    split at h
    · rename_i hdot
      obtain ⟨ip, hip, rfl⟩ := Option.map_eq_some_iff.mp h
      exact .inl ⟨ip, hdot ▸ hfind, hip, rfl⟩
    · obtain ⟨hcolon, h⟩ := Option.ite_none_right_eq_some.mp h
      unfold parseIPv6 at h
      split at h
      · obtain ⟨ip, hip, rfl⟩ := Option.map_eq_some_iff.mp h
        exact .inr ⟨s, ip, [], hcolon ▸ hfind, List.prefix_rfl, hip, rfl⟩
      · obtain ⟨-, h⟩ := Option.ite_none_left_eq_some.mp h
        obtain ⟨ip, hip, rfl⟩ := Option.map_eq_some_iff.mp h
        exact .inr ⟨_, ip, _, hcolon ▸ hfind, List.take_prefix _ s, hip, rfl⟩

/-- The two kinds of addresses, as texts: an IPv4 address has no colon and no bracket, and an
IPv6 address has a colon. -/
theorem parseAddr_cases (h : parseAddr s = some addr) :
    addr.is4 = true ∧ addr.is6 = false ∧ ch ':' ∉ s ∧ ch '[' ∉ s ∨
      addr.is4 = false ∧ addr.is6 = true ∧ ch ':' ∈ s := by
  rcases parseAddr_inv h with ⟨ip, -, hip, rfl⟩ | ⟨_, _, _, hfind, -, -, rfl⟩
  · exact .inl ⟨rfl, rfl, not_mem_of_parseIPv4Loop hip (by decide) (by decide),
      not_mem_of_parseIPv4Loop hip (by decide) (by decide)⟩
  · exact .inr ⟨rfl, rfl, List.mem_of_find?_eq_some hfind⟩

theorem is4_iff_of_parseAddr (h : parseAddr s = some addr) : addr.is4 = true ↔ ch ':' ∉ s := by
  rcases parseAddr_cases h with ⟨his4, -, hcolon, -⟩ | ⟨his4, -, hcolon⟩
  · exact iff_of_true his4 hcolon
  · exact iff_of_false (Bool.eq_false_iff.mp his4) (not_not.mpr hcolon)

theorem isValid_of_parseAddr (h : parseAddr s = some addr) : addr.isValid = true := by
  cases addr with
  | invalid => rcases parseAddr_cases h with ⟨h, -⟩ | ⟨-, h, -⟩ <;> cases h
  | v4 a | v6 a zone => rfl

theorem joinHostPort_of_mem {host : Bytes} (hcolon : ch ':' ∈ host) (port : Bytes) :
    joinHostPort host port = (ch '[' :: host ++ [ch ']']) ++ ch ':' :: port := by
  rw [joinHostPort, if_pos (by simpa using hcolon)]
  simp [str, ch]

theorem joinHostPort_of_not_mem {host : Bytes} (hcolon : ch ':' ∉ host) (port : Bytes) :
    joinHostPort host port = host ++ ch ':' :: port := by
  rw [joinHostPort, if_neg (by simpa using hcolon), List.append_assoc]
  rfl

theorem parseAddrPort_append (t : Bytes) :
    parseAddrPort (t ++ [ch ':', ch '0']) =
      if t = [] then none
      else if t.head? = some (ch '[') ∧ (t.length < 2 ∨ t.getLast? ≠ some (ch ']')) then none
      else (parseAddr (if t.head? = some (ch '[') then t.tail.dropLast else t)).bind fun addr ↦
        if t.head? = some (ch '[') ∧ addr.is4 then none
        else if ¬ t.head? = some (ch '[') ∧ addr.is6 then none
        else some ⟨addr, 0⟩ := by
  have hport : parseUint [ch '0'] 16 = some 0 := by decide
  have hdrop : (t ++ [ch ':', ch '0']).drop (t.length + 1) = [ch '0'] := by
    rw [List.drop_append]
    simp
  rw [parseAddrPort, lastIndexByte_append (by decide)]
  simp only [List.take_left', hdrop, hport, List.cons_ne_nil, or_false, Option.bind_some]
  rfl

theorem joinHostPort_zero (hcolon : ch ':' ∉ s) :
    joinHostPort s (str "0") = s ++ [ch ':', ch '0'] :=
  joinHostPort_of_not_mem hcolon _

theorem parseAddrPort_joinHostPort (h : parseAddr s = some addr) :
    parseAddrPort (joinHostPort s (str "0")) = some ⟨addr, 0⟩ := by
  have hne : s ≠ [] := by
    rintro rfl
    cases h
  rcases parseAddr_cases h with ⟨his4, his6, hcolon, hbracket⟩ | ⟨his4, his6, hcolon⟩
  · have hhead : ¬ s.head? = some (ch '[') := fun hhead ↦
      hbracket (List.mem_of_mem_head? hhead)
    rw [joinHostPort_zero hcolon, parseAddrPort_append, if_neg hne, if_neg fun hc ↦ hhead hc.1,
      if_neg hhead, h, Option.bind_some, if_neg fun hc ↦ hhead hc.1, if_neg (by simp [his6])]
  · have hjoin : joinHostPort s (str "0") = (ch '[' :: (s ++ [ch ']'])) ++ [ch ':', ch '0'] :=
      joinHostPort_of_mem hcolon _
    have hlast : (ch '[' :: (s ++ [ch ']'])).getLast? = some (ch ']') := by
      rw [← List.cons_append, List.getLast?_append]
      rfl
    have hlen : ¬ (ch '[' :: (s ++ [ch ']'])).length < 2 := by simp
    have hhead : (ch '[' :: (s ++ [ch ']'])).head? = some (ch '[') := rfl
    rw [hjoin, parseAddrPort_append, if_neg (List.cons_ne_nil _ _),
      if_neg fun hc ↦ hc.2.elim hlen fun hl ↦ hl hlast, if_pos hhead, List.tail_cons,
      List.dropLast_concat, h, Option.bind_some, if_neg (by simp [his4]),
      if_neg fun hc ↦ hc.1 rfl]

/-- A text without a colon that is no address is none with port zero either. -/
theorem parseAddrPort_joinHostPort_eq_none (hcolon : ch ':' ∉ s) (h : parseAddr s = none) :
    parseAddrPort (joinHostPort s (str "0")) = none := by
  rw [joinHostPort_zero hcolon, parseAddrPort_append]
  split
  · rfl
  · split
    · rfl
    · split_ifs with hhead
      · cases haddr : parseAddr s.tail.dropLast with
        | none => rfl
        | some addr =>
          rcases parseAddr_cases haddr with ⟨his4, -⟩ | ⟨-, -, hmem⟩
          · rw [Option.bind_some, if_pos ⟨hhead, his4⟩]
          · exact absurd (List.mem_of_mem_tail (List.dropLast_subset _ hmem)) hcolon
      · rw [h, Option.bind_none]

/-- A text with a dot and no colon is no address with port zero. -/
theorem parseAddr_joinHostPort_eq_none (hcolon : ch ':' ∉ s) (hdot : ch '.' ∈ s) :
    parseAddr (joinHostPort s (str "0")) = none := by
  -- the first of the three separators is in `s`, so it is not the colon
  have hsome : (s.find? fun c ↦ c = ch '.' ∨ c = ch ':' ∨ c = ch '%').isSome :=
    List.find?_isSome.mpr ⟨ch '.', hdot, by simp⟩
  obtain ⟨c, hc⟩ := Option.isSome_iff_exists.mp hsome
  have hne : c ≠ ch ':' := fun heq ↦ hcolon (heq ▸ List.mem_of_find?_eq_some hc)
  refine Option.eq_none_iff_forall_ne_some.mpr fun addr haddr ↦ ?_
  rw [joinHostPort_zero hcolon] at haddr
  rcases parseAddr_inv haddr with ⟨ip, -, hip, -⟩ | ⟨_, _, _, hfind, -⟩
  · have hno : ch ':' ∉ s ++ [ch ':', ch '0'] :=
      not_mem_of_parseIPv4Loop hip (by decide) (by decide)
    exact hno (List.mem_append_right s List.mem_cons_self)
  · rw [List.find?_append, hc] at hfind
    exact hne (Option.some.inj hfind)

end Vwarp.Go
