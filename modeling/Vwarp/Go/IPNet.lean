import Mathlib.Tactic.IntervalCases
import Vwarp.Go.Net

/-!
# `net.IPNet`

A network of package `net` is an address and a mask of the same length, 4 or 16 bytes, depending on
the notation it was read from.  `Contains` takes the 16-byte form of an IPv4 address for that
address, both of the network and of the argument, so that an IPv6 network that covers
`::ffff:0:0/96` contains none of these addresses.

The lemmas at the end say what masks do to the numbers that the bytes spell.
-/

namespace Vwarp.Go

open Vwarp.Lib

/-- The bytes of a mask of `l` bytes that starts with `n` ones. -/
def maskBytes : Nat → Nat → Bytes
  | 0, _ => []
  | l + 1, n =>
    if 8 ≤ n then 0xff :: maskBytes l (n - 8)
    else ~~~(0xff >>> UInt8.ofNat n) :: maskBytes l 0

/-- `CIDRMask`. -/
def cidrMask (ones bits : Nat) : Bytes :=
  if bits ≠ 32 ∧ bits ≠ 128 then []
  else if bits < ones then []
  else maskBytes (bits / 8) ones

/-- `IP.Mask`. -/
def ipMask (ip mask : Bytes) : Bytes :=
  let mask := if mask.length = 16 ∧ ip.length = 4 ∧ mask.take 12 = List.replicate 12 0xff
    then mask.drop 12 else mask
  let ip := if mask.length = 4 ∧ ip.length = 16 ∧ ip.take 12 = v4InV6Prefix then ip.drop 12 else ip
  if ip.length ≠ mask.length then [] else List.zipWith (· &&& ·) ip mask

/-- `IP.Equal`. -/
def ipEqual (ip x : Bytes) : Bool :=
  if ip.length = x.length then ip = x
  else if ip.length = 4 ∧ x.length = 16 then x.take 12 = v4InV6Prefix ∧ ip = x.drop 12
  else if ip.length = 16 ∧ x.length = 4 then ip.take 12 = v4InV6Prefix ∧ ip.drop 12 = x
  else false

/-- `net.IPNet`. -/
structure IPNet where
  ip : Bytes
  mask : Bytes
deriving DecidableEq, Repr

namespace IPNet

/-- `networkNumberAndMask`. -/
def networkNumberAndMask (n : IPNet) : Bytes × Bytes :=
  match to4 n.ip with
  | some ip =>
    if n.mask.length = 4 then (ip, n.mask)
    else if n.mask.length = 16 then (ip, n.mask.drop 12)
    else ([], [])
  | none =>
    if n.ip.length ≠ 16 then ([], [])
    else if n.mask.length = 16 then (n.ip, n.mask)
    else ([], [])

/-- `IPNet.Contains`. -/
def contains (n : IPNet) (ip : Bytes) : Bool :=
  let (nn, m) := n.networkNumberAndMask
  let ip := (to4 ip).getD ip
  ip.length = nn.length ∧ List.zipWith (· &&& ·) nn m = List.zipWith (· &&& ·) ip m

end IPNet

/-- `dtoi`: the number at the beginning of a text, what follows it, and whether it is one. -/
def dtoi (s : Bytes) : Nat × Bytes × Bool :=
  go 0 s
where
  /-- The loop, with the number so far. -/
  go (n : Nat) : Bytes → Nat × Bytes × Bool
    | [] => (n, [], s ≠ [])
    | c :: cs =>
      match digit? c with
      | none => (n, c :: cs, c :: cs ≠ s)
      | some d => if 0xffffff ≤ n * 10 + d then (0xffffff, c :: cs, false) else go (n * 10 + d) cs

/-- `net.ParseCIDR`: the address, in its 16-byte form, and the network. -/
def parseCIDR (s : Bytes) : Option (Bytes × IPNet) :=
  match indexByte (ch '/') s with
  | none => none
  | some i =>
    (parseAddr (s.take i)).bind fun addr ↦
      if addr.zone ≠ [] then none
      else
        let (n, rest, ok) := dtoi (s.drop (i + 1))
        if ok = false ∨ rest ≠ [] ∨ addr.bitLen < n then none
        else
          let m := cidrMask n addr.bitLen
          some (addr.as16, ⟨ipMask addr.as16 m, m⟩)

/-! ## Masks and numbers -/

@[simp] theorem length_maskBytes (l n : Nat) : (maskBytes l n).length = l := by
  induction l generalizing n with
  | zero => rfl
  | succ l ih =>
    rw [maskBytes]
    split <;> rw [List.length_cons, ih]

variable {n : Nat}

theorem cidrMask_eq {bits : Nat} (hbits : bits = 32 ∨ bits = 128) (hn : n ≤ bits) :
    cidrMask n bits = maskBytes (bits / 8) n := by
  rw [cidrMask, if_neg (by omega), if_neg (Nat.not_lt.mpr hn)]

theorem pow_bytes (l : Nat) : 256 ^ l = 2 ^ (8 * l) := by
  rw [Nat.pow_mul]

theorem byte_masks (b : UInt8) (hn : n < 8) : let low := b.toNat / 2 ^ (8 - n) * 2 ^ (8 - n)
    (b &&& ~~~(0xff >>> UInt8.ofNat n)).toNat = low ∧
      (b ||| ~~~(~~~(0xff >>> UInt8.ofNat n))).toNat = low + (2 ^ (8 - n) - 1) := by
  have h : ∀ n < 8, ∀ b < 256, let low := b / 2 ^ (8 - n) * 2 ^ (8 - n)
      (UInt8.ofNat b &&& ~~~(0xff >>> UInt8.ofNat n)).toNat = low ∧
        (UInt8.ofNat b ||| ~~~(~~~(0xff >>> UInt8.ofNat n))).toNat = low + (2 ^ (8 - n) - 1) := by
    decide +kernel
  have hb := h n hn b.toNat b.toNat_lt
  rwa [UInt8.ofNat_toNat] at hb

variable {a b h : Nat}

theorem div_two_pow_congr {j : Nat} (heq : a / 2 ^ h = b / 2 ^ h) (hj : h ≤ j) :
    a / 2 ^ j = b / 2 ^ j := by
  obtain ⟨i, rfl⟩ := Nat.exists_eq_add_of_le hj
  rw [Nat.pow_add, ← Nat.div_div_eq_div_mul, ← Nat.div_div_eq_div_mul, heq]

theorem mul_two_pow_add_div {q r : Nat} (hr : r < 2 ^ h) : (q * 2 ^ h + r) / 2 ^ h = q := by
  rw [Nat.add_comm, Nat.add_mul_div_right _ _ (Nat.two_pow_pos h), Nat.div_eq_of_lt hr,
    Nat.zero_add]

/-- Numbers that agree above `j` bits agree above fewer bits if and only if their rests do. -/
theorem mod_two_pow_div_eq_iff {j : Nat} (hh : h ≤ j) (hq : a / 2 ^ j = b / 2 ^ j) :
    a % 2 ^ j / 2 ^ h = b % 2 ^ j / 2 ^ h ↔ a / 2 ^ h = b / 2 ^ h := by
  have hsplit : ∀ x, x / 2 ^ h = 2 ^ (j - h) * (x / 2 ^ j) + x % 2 ^ j / 2 ^ h := by
    intro x
    have hpow : 2 ^ j = 2 ^ h * 2 ^ (j - h) := by rw [← Nat.pow_add, Nat.add_sub_cancel' hh]
    calc
      x / 2 ^ h = (2 ^ h * (2 ^ (j - h) * (x / 2 ^ j)) + x % 2 ^ j) / 2 ^ h := by
        rw [← Nat.mul_assoc, ← hpow, Nat.div_add_mod]
      _ = 2 ^ (j - h) * (x / 2 ^ j) + x % 2 ^ j / 2 ^ h := Nat.mul_add_div (Nat.two_pow_pos h) _ _
  rw [hsplit a, hsplit b, hq, Nat.add_left_cancel_iff]

theorem mod_byte_host {q r x : Nat} (hr : r ≤ 8) (hx : x < 2 ^ r) :
    q % 256 / 2 ^ r * 2 ^ r + x = (q / 2 ^ r * 2 ^ r + x) % 256 := by
  interval_cases r <;> omega

/-- An operation that keeps a byte where the mask is all ones, and puts the low bits of `low` where
it has zeros, puts `low` into the host bits of a number. -/
theorem zipWith_maskBytes {f : UInt8 → UInt8 → UInt8} {low : Nat → Nat} (hlt : ∀ h, low h < 2 ^ h)
    (hsplit : ∀ h r, low (h + r) = low r * 2 ^ h + low h) (hones : ∀ b, f b 0xff = b)
    (hbyte : ∀ b n, n < 8 → (f b (~~~(0xff >>> UInt8.ofNat n))).toNat =
      b.toNat / 2 ^ (8 - n) * 2 ^ (8 - n) + low (8 - n))
    (l k : Nat) (hn : n ≤ 8 * l) :
    List.zipWith f (toBE l k) (maskBytes l n) =
      toBE l (k / 2 ^ (8 * l - n) * 2 ^ (8 * l - n) + low (8 * l - n)) := by
  induction l generalizing n with
  | zero => rfl
  | succ l ih =>
    rw [toBE, maskBytes]
    split_ifs with hge
    · -- The host bits are in the bytes after this one.
      have hbits : 8 * (l + 1) - n = 8 * l - (n - 8) := by omega
      rw [List.zipWith_cons_cons, hones, ih (by omega), hbits, toBE, pow_bytes]
      congr 2
      exact div_two_pow_congr (mul_two_pow_add_div (hlt _)).symm (by omega)
    · have hbits : 8 * (l + 1) - n = 8 * l + (8 - n) := by omega
      generalize hq : k / 2 ^ (8 * l) = q
      have hvalue : k / 2 ^ (8 * l + (8 - n)) * 2 ^ (8 * l + (8 - n)) + low (8 * l + (8 - n)) =
          (q / 2 ^ (8 - n) * 2 ^ (8 - n) + low (8 - n)) * 2 ^ (8 * l) + low (8 * l) := by
        rw [Nat.pow_add, ← Nat.div_div_eq_div_mul, hq, hsplit]
        ring
      rw [List.zipWith_cons_cons, ih (Nat.zero_le _), hbits, toBE, pow_bytes, Nat.sub_zero,
        hq, hvalue, mul_two_pow_add_div (hlt _)]
      congr 1
      · rw [← UInt8.toNat_inj, hbyte _ _ (by omega), UInt8.toNat_ofNat', UInt8.toNat_ofNat']
        exact mod_byte_host (Nat.sub_le 8 n) (hlt _)
      · rw [← pow_bytes, toBE_add_mul, toBE_add_mul]

theorem zipWith_and_maskBytes (l k : Nat) (hn : n ≤ 8 * l) :
    List.zipWith (· &&& ·) (toBE l k) (maskBytes l n) =
      toBE l (k / 2 ^ (8 * l - n) * 2 ^ (8 * l - n)) := by
  refine zipWith_maskBytes (fun h ↦ Nat.two_pow_pos h) (fun _ _ ↦ ?_) (fun b ↦ ?_)
    (fun b n hn ↦ ?_) l k hn
  · rw [Nat.zero_mul]
  · exact UInt8.and_neg_one
  · exact (byte_masks b hn).1

theorem zipWith_and_eq_iff {l : Nat} (hn : n ≤ 8 * l) (ha : a < 256 ^ l) (hb : b < 256 ^ l) :
    List.zipWith (· &&& ·) (toBE l a) (maskBytes l n) =
      List.zipWith (· &&& ·) (toBE l b) (maskBytes l n) ↔
      a / 2 ^ (8 * l - n) = b / 2 ^ (8 * l - n) := by
  have hle := Nat.div_mul_le_self a (2 ^ (8 * l - n))
  have hle' := Nat.div_mul_le_self b (2 ^ (8 * l - n))
  rw [zipWith_and_maskBytes l a hn, zipWith_and_maskBytes l b hn, toBE_eq_iff,
    Nat.mod_eq_of_lt (Nat.lt_of_le_of_lt hle ha), Nat.mod_eq_of_lt (Nat.lt_of_le_of_lt hle' hb)]
  exact Nat.mul_left_inj (Nat.pos_iff_ne_zero.mp (Nat.two_pow_pos _))

theorem zipWith_or_maskBytes (l k : Nat) (hn : n ≤ 8 * l) :
    List.zipWith (fun a m ↦ a ||| ~~~m) (toBE l k) (maskBytes l n) =
      toBE l (k / 2 ^ (8 * l - n) * 2 ^ (8 * l - n) + (2 ^ (8 * l - n) - 1)) := by
  refine zipWith_maskBytes (fun h ↦ Nat.sub_lt (Nat.two_pow_pos h) Nat.one_pos)
    (fun h r ↦ ?_) (fun b ↦ ?_) (fun b n hn ↦ ?_) l k hn
  · have hh := Nat.two_pow_pos h
    have hr := Nat.two_pow_pos r
    rw [Nat.pow_add, Nat.sub_mul, Nat.one_mul, Nat.mul_comm (2 ^ r)]
    have hle : 2 ^ h ≤ 2 ^ h * 2 ^ r := Nat.le_mul_of_pos_right _ hr
    omega
  · exact UInt8.or_zero
  · exact (byte_masks b hn).2

theorem maskBytes_add (j l : Nat) (hn : 8 * j ≤ n) :
    maskBytes (j + l) n = List.replicate j 0xff ++ maskBytes l (n - 8 * j) := by
  induction j generalizing n with
  | zero => rw [Nat.zero_add, Nat.mul_zero, Nat.sub_zero]; rfl
  | succ j ih =>
    rw [Nat.add_right_comm, maskBytes, if_pos (by omega), ih (by omega), List.replicate_succ,
      List.cons_append, Nat.sub_sub]
    congr 3
    omega

theorem to4_toBE_four (k : Nat) : to4 (toBE 4 k) = some (toBE 4 k) := by
  rw [to4, length_toBE, if_pos rfl]

theorem toBE_sixteen (k : Nat) : toBE 16 k = toBE 12 (k / 2 ^ 32) ++ toBE 4 k := toBE_add 12 4 k

theorem drop_toBE_sixteen (k : Nat) : (toBE 16 k).drop 12 = toBE 4 k := by
  rw [toBE_sixteen, List.drop_left' (length_toBE _ _)]

theorem take_toBE_sixteen {k : Nat} (hk : k < 2 ^ 128) :
    (toBE 16 k).take 12 = v4InV6Prefix ↔ k / 2 ^ 32 = 0xffff := by
  have hprefix : v4InV6Prefix = toBE 12 0xffff := by decide
  rw [toBE_sixteen, List.take_left' (length_toBE _ _), hprefix, toBE_eq_iff,
    Nat.mod_eq_of_lt (by omega)]
  rfl

theorem to4_toBE_sixteen {k : Nat} (hk : k < 2 ^ 128) :
    to4 (toBE 16 k) = if k / 2 ^ 32 = 0xffff then some (toBE 4 k) else none := by
  rw [to4, length_toBE, if_neg (by decide), drop_toBE_sixteen]
  simp only [take_toBE_sixteen hk, true_and]

theorem ipMask_four (ha : a < 2 ^ 32) (hn : n ≤ 32) :
    ipMask (toBE 16 (Addr.mappedBase + a)) (maskBytes 4 n) =
      toBE 4 (a / 2 ^ (32 - n) * 2 ^ (32 - n)) := by
  have hbase : Addr.mappedBase = 0xffff * 2 ^ 32 := rfl
  have htake : (toBE 16 (Addr.mappedBase + a)).take 12 = v4InV6Prefix :=
    (take_toBE_sixteen (by omega)).mpr (by omega)
  have hdrop : (toBE 16 (Addr.mappedBase + a)).drop 12 = toBE 4 a := by
    rw [drop_toBE_sixteen, hbase]
    exact toBE_add_mul 4 a 0xffff
  simp only [ipMask, length_maskBytes, length_toBE, htake, hdrop, Nat.reduceEqDiff, false_and,
    if_false, and_self, if_true, ne_eq, not_true_eq_false]
  exact zipWith_and_maskBytes 4 a hn

theorem ipMask_sixteen (hn : n ≤ 128) :
    ipMask (toBE 16 a) (maskBytes 16 n) = toBE 16 (a / 2 ^ (128 - n) * 2 ^ (128 - n)) := by
  simp only [ipMask, length_maskBytes, length_toBE, Nat.reduceEqDiff, false_and, and_false,
    if_false, ne_eq, not_true_eq_false]
  exact zipWith_and_maskBytes 16 a hn

/-! ## Networks as numbers -/

/-- A network: the first number of its block and the number of its host bits, in 4 or 16 bytes. -/
structure Network where
  wide : Bool
  base : Nat
  hostBits : Nat
  hostBits_le : hostBits ≤ if wide then 128 else 32
  base_lt : base < 2 ^ (if wide then 128 else 32)
  aligned : base % 2 ^ hostBits = 0

namespace Network

def width (N : Network) : Nat := if N.wide then 16 else 4

def bytes (N : Network) (k : Nat) : Bytes := toBE N.width k

/-- The addresses are IPv4 addresses, in one form or the other. -/
def v4 (N : Network) : Bool := !N.wide || N.base / 2 ^ 32 = 0xffff

/-- The network in the form of package `net`. -/
def toIPNet (N : Network) : IPNet where
  ip := N.bytes N.base
  mask := maskBytes N.width (8 * N.width - N.hostBits)

theorem div_eq_iff (N : Network) (k : Nat) :
    k / 2 ^ N.hostBits = N.base / 2 ^ N.hostBits ↔ N.base ≤ k ∧ k < N.base + 2 ^ N.hostBits := by
  obtain ⟨q, hq⟩ := Nat.dvd_of_mod_eq_zero N.aligned
  have hpos := Nat.two_pow_pos N.hostBits
  rw [hq, Nat.mul_div_cancel_left _ hpos, Nat.div_eq_iff hpos, Nat.mul_comm]
  omega

variable {N : Network}

theorem hostBits_le_of_mapped (h : N.base / 2 ^ 32 = 0xffff) : N.hostBits ≤ 32 := by
  by_contra hgt
  obtain ⟨q, hq⟩ := Nat.dvd_of_mod_eq_zero N.aligned
  obtain ⟨i, hi⟩ := Nat.exists_eq_add_of_le (Nat.lt_of_not_le hgt)
  rw [hq, hi, Nat.pow_add, Nat.mul_assoc] at h
  omega

theorem width_narrow (hwide : N.wide = false) : N.width = 4 := by
  rw [width, hwide]
  rfl

theorem width_wide (hwide : N.wide = true) : N.width = 16 := by
  rw [width, hwide]
  rfl

theorem bounds_narrow (hwide : N.wide = false) : N.hostBits ≤ 32 ∧ N.base < 2 ^ 32 := by
  have h := And.intro N.hostBits_le N.base_lt
  rw [hwide] at h
  exact h

theorem bounds_wide (hwide : N.wide = true) : N.hostBits ≤ 128 ∧ N.base < 2 ^ 128 := by
  have h := And.intro N.hostBits_le N.base_lt
  rw [hwide] at h
  exact h

theorem v4_wide (hwide : N.wide = true) : N.v4 = true ↔ N.base / 2 ^ 32 = 0xffff := by
  rw [v4, hwide, Bool.not_true, Bool.false_or, decide_eq_true_eq]

theorem v4_eq_false : N.v4 = false ↔ N.wide = true ∧ N.base / 2 ^ 32 ≠ 0xffff := by
  simp [v4]

variable {k : Nat}

theorem to4_bytes (N : Network) (hk : k < 256 ^ N.width) :
    to4 (N.bytes k) = if N.wide = true → k / 2 ^ 32 = 0xffff then some (toBE 4 k) else none := by
  cases hwide : N.wide with
  | false => rw [bytes, width_narrow hwide, to4_toBE_four, if_pos nofun]
  | true =>
    rw [width_wide hwide] at hk
    rw [bytes, width_wide hwide, to4_toBE_sixteen hk]
    simp only [true_imp_iff]

theorem networkNumberAndMask_v4 (h : N.v4 = true) :
    N.hostBits ≤ 32 ∧
      N.toIPNet.networkNumberAndMask = (toBE 4 N.base, maskBytes 4 (8 * 4 - N.hostBits)) := by
  cases hwide : N.wide with
  | false =>
    refine ⟨(bounds_narrow hwide).1, ?_⟩
    rw [IPNet.networkNumberAndMask, toIPNet, bytes, width_narrow hwide, to4_toBE_four]
    dsimp only
    rw [length_maskBytes, if_pos rfl]
  | true =>
    have hmapped := (v4_wide hwide).mp h
    have hle := hostBits_le_of_mapped hmapped
    refine ⟨hle, ?_⟩
    rw [IPNet.networkNumberAndMask, toIPNet, bytes, width_wide hwide,
      to4_toBE_sixteen (bounds_wide hwide).2, if_pos hmapped]
    dsimp only
    rw [length_maskBytes, if_neg (by decide), if_pos rfl, maskBytes_add 12 4 (by omega),
      List.drop_left' List.length_replicate]
    congr 2
    omega

theorem networkNumberAndMask_v6 (h : N.v4 = false) :
    N.wide = true ∧
      N.toIPNet.networkNumberAndMask = (toBE 16 N.base, maskBytes 16 (8 * 16 - N.hostBits)) := by
  obtain ⟨hwide, hmapped⟩ := v4_eq_false.mp h
  refine ⟨hwide, ?_⟩
  rw [IPNet.networkNumberAndMask, toIPNet, bytes, width_wide hwide,
    to4_toBE_sixteen (bounds_wide hwide).2, if_neg hmapped]
  dsimp only
  rw [length_toBE, length_maskBytes, if_neg (by decide), if_pos rfl]

/-- What a network contains: of its block, the addresses that are IPv4 addresses if and only if its
first one is. -/
theorem contains_iff (N : Network) (hk : k < 256 ^ N.width) :
    N.toIPNet.contains (N.bytes k) = true ↔
      (N.base ≤ k ∧ k < N.base + 2 ^ N.hostBits) ∧ (N.v4 = true ∨ k / 2 ^ 32 ≠ 0xffff) := by
  rw [← N.div_eq_iff, IPNet.contains, N.to4_bytes hk]
  cases hv4 : N.v4 with
  | true =>
    obtain ⟨hle, heq⟩ := networkNumberAndMask_v4 hv4
    simp only [heq, decide_eq_true_eq, true_or, and_true, length_toBE]
    by_cases hto4 : N.wide = true → k / 2 ^ 32 = 0xffff
    · have hblock : N.base / 2 ^ 32 = k / 2 ^ 32 := by
        cases hwide : N.wide with
        | true => rw [hto4 hwide, (v4_wide hwide).mp hv4]
        | false =>
          rw [width_narrow hwide] at hk
          rw [Nat.div_eq_of_lt (bounds_narrow hwide).2, Nat.div_eq_of_lt (show k < 2 ^ 32 from hk)]
      rw [if_pos hto4, Option.getD_some, length_toBE, ← toBE_mod 4 N.base, ← toBE_mod 4 k,
        zipWith_and_eq_iff (Nat.sub_le _ _) (Nat.mod_lt _ (by decide)) (Nat.mod_lt _ (by decide)),
        Nat.sub_sub_self hle, pow_bytes, mod_two_pow_div_eq_iff hle hblock]
      exact (and_iff_right rfl).trans eq_comm
    · obtain ⟨hwide, hk4⟩ := Classical.not_imp.mp hto4
      rw [if_neg hto4, Option.getD_none, bytes, length_toBE, width_wide hwide]
      refine iff_of_false (fun h ↦ absurd h.1 (by decide)) fun h ↦ hk4 ?_
      rw [div_two_pow_congr h hle]
      exact (v4_wide hwide).mp hv4
  | false =>
    obtain ⟨hwide, heq⟩ := networkNumberAndMask_v6 hv4
    obtain ⟨hle, hbase⟩ := bounds_wide hwide
    rw [width_wide hwide] at hk
    simp only [heq, decide_eq_true_eq, Bool.false_eq_true, false_or, hwide, true_imp_iff,
      length_toBE]
    by_cases hk4 : k / 2 ^ 32 = 0xffff
    · rw [if_pos hk4, Option.getD_some, length_toBE]
      exact iff_of_false (fun h ↦ absurd h.1 (by decide)) fun h ↦ h.2 hk4
    · rw [if_neg hk4, Option.getD_none, bytes, width_wide hwide, length_toBE,
        zipWith_and_eq_iff (Nat.sub_le _ _) hbase hk, Nat.sub_sub_self hle]
      exact ⟨fun h ↦ ⟨h.2.symm, hk4⟩, fun h ↦ ⟨rfl, h.1.symm⟩⟩

theorem zipWith_or_mask (N : Network) :
    List.zipWith (fun a m ↦ a ||| ~~~m) N.toIPNet.ip N.toIPNet.mask =
      N.bytes (N.base + (2 ^ N.hostBits - 1)) := by
  have hle : N.hostBits ≤ 8 * N.width := by
    have hle := N.hostBits_le
    rw [width]
    split at hle <;> simp [*]
  rw [toIPNet, bytes, zipWith_or_maskBytes _ _ (Nat.sub_le _ _), Nat.sub_sub_self hle,
    Nat.div_mul_cancel (Nat.dvd_of_mod_eq_zero N.aligned), bytes]

theorem pow_width (N : Network) : 256 ^ N.width = 2 ^ (if N.wide then 128 else 32) := by
  rw [width]
  split <;> rfl

theorem block_le (N : Network) : N.base + 2 ^ N.hostBits ≤ 256 ^ N.width := by
  rw [pow_width]
  obtain ⟨q, hq⟩ := Nat.dvd_of_mod_eq_zero N.aligned
  obtain ⟨i, hi⟩ := Nat.exists_eq_add_of_le N.hostBits_le
  have hlt := N.base_lt
  rw [hq, hi, Nat.pow_add] at hlt
  have hq' : q < 2 ^ i := Nat.lt_of_mul_lt_mul_left hlt
  rw [hq, hi, Nat.pow_add, ← Nat.mul_succ]
  exact Nat.mul_le_mul_left _ hq'

/-- The addresses that the network contains are IPv4 addresses or not as a whole. -/
theorem isSome_to4_bytes (N : Network) (hk : k < 256 ^ N.width)
    (h : N.toIPNet.contains (N.bytes k) = true) : (to4 (N.bytes k)).isSome = N.v4 := by
  obtain ⟨hblock, hform⟩ := (N.contains_iff hk).mp h
  rw [N.to4_bytes hk]
  cases hv4 : N.v4 with
  | true =>
    have hmapped : N.wide = true → k / 2 ^ 32 = 0xffff := by
      intro hwide
      have hbase := (v4_wide hwide).mp hv4
      rw [div_two_pow_congr ((N.div_eq_iff k).mpr hblock) (hostBits_le_of_mapped hbase), hbase]
    rw [if_pos hmapped, Option.isSome_some]
  | false =>
    have hwide := (networkNumberAndMask_v6 hv4).1
    rw [hv4] at hform
    rw [if_neg fun hmapped ↦ hform.resolve_left nofun (hmapped hwide), Option.isSome_none]

theorem bytes_inj (N : Network) {a b : Nat} (ha : a < 256 ^ N.width) (hb : b < 256 ^ N.width) :
    N.bytes a = N.bytes b ↔ a = b := by
  rw [bytes, bytes, toBE_eq_iff, Nat.mod_eq_of_lt ha, Nat.mod_eq_of_lt hb]

end Network

/-- The network that the first `n` bits of an address make. -/
def Network.of (wide : Bool) (a n : Nat) (ha : a < 2 ^ (if wide then 128 else 32)) : Network where
  wide := wide
  base := a / 2 ^ ((if wide then 128 else 32) - n) * 2 ^ ((if wide then 128 else 32) - n)
  hostBits := (if wide then 128 else 32) - n
  hostBits_le := Nat.sub_le _ _
  base_lt := Nat.lt_of_le_of_lt (Nat.div_mul_le_self _ _) ha
  aligned := Nat.mul_mod_left _ _

theorem exists_network {addr : Addr} (hvalid : addr.isValid = true) (hn : n ≤ addr.bitLen) :
    ∃ N : Network, N.toIPNet =
      ⟨ipMask addr.as16 (cidrMask n addr.bitLen), cidrMask n addr.bitLen⟩ := by
  cases addr with
  | invalid => cases hvalid
  | v4 a =>
    have hmask : cidrMask n (Addr.v4 a).bitLen = maskBytes 4 n :=
      (cidrMask_eq (.inl rfl) hn : cidrMask n 32 = _)
    have hbits : 8 * 4 - (32 - n) = n := by
      change n ≤ 32 at hn
      omega
    refine ⟨.of false a.toNat n a.isLt, ?_⟩
    rw [hmask]
    exact congrArg₂ IPNet.mk (ipMask_four a.isLt hn).symm (congrArg (maskBytes 4) hbits)
  | v6 a zone =>
    have hmask : cidrMask n (Addr.v6 a zone).bitLen = maskBytes 16 n :=
      (cidrMask_eq (.inr rfl) hn : cidrMask n 128 = _)
    have hbits : 8 * 16 - (128 - n) = n := by
      change n ≤ 128 at hn
      omega
    refine ⟨.of true a.toNat n a.isLt, ?_⟩
    rw [hmask]
    exact congrArg₂ IPNet.mk (ipMask_sixteen hn).symm (congrArg (maskBytes 16) hbits)

theorem parseCIDR_network {s ip : Bytes} {net : IPNet} (h : parseCIDR s = some (ip, net)) :
    ∃ N : Network, N.toIPNet = net ∧ ipMask ip net.mask = net.ip := by
  unfold parseCIDR at h
  split at h
  · cases h
  · obtain ⟨addr, haddr, h⟩ := Option.bind_eq_some_iff.mp h
    dsimp only at h
    split at h
    · cases h
    · split at h
      · cases h
      · rename_i hn
        rw [not_or, not_or] at hn
        obtain ⟨N, hN⟩ := exists_network (isValid_of_parseAddr haddr) (Nat.le_of_not_lt hn.2.2)
        cases h
        exact ⟨N, hN, rfl⟩

end Vwarp.Go
