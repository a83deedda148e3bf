import Vwarp.Go.Net

/-!
# `netip.Prefix` and arithmetic on addresses

A `Prefix` carries what `PrefixFrom` establishes: its address has no zone, and its
length is `-1` unless the address is valid and long enough.  The address keeps its host
bits; `masked` clears them.

Addresses are counted in their 16-byte form, in which the IPv4 addresses are the block
`::ffff:0:0/96`.  `ofNat16` is the way back: the number as an IPv6 address, unmapped.
-/

namespace Vwarp.Go

open Vwarp.Lib

namespace Addr

/-- `Addr.Compare`: the shorter address first, then by value, then by zone. -/
def compare (ip ip2 : Addr) : Ordering :=
  (Ord.compare ip.bitLen ip2.bitLen).then <| (Ord.compare ip.toNat ip2.toNat).then <|
    Ord.compare ip.zone ip2.zone

def ofNat16 (n : Nat) : Addr := (v6 (BitVec.ofNat 128 n) []).unmap

/-- The address with its low `hostBits` bits cleared. -/
def mask (hostBits : Nat) : Addr → Addr
  | invalid => invalid
  | v4 a => v4 (BitVec.ofNat 32 (a.toNat / 2 ^ hostBits * 2 ^ hostBits))
  | v6 a zone => v6 (BitVec.ofNat 128 (a.toNat / 2 ^ hostBits * 2 ^ hostBits)) zone

@[simp] theorem bitLen_mask (hostBits : Nat) (ip : Addr) :
    (ip.mask hostBits).bitLen = ip.bitLen := by
  cases ip <;> rfl

@[simp] theorem isValid_mask (hostBits : Nat) (ip : Addr) :
    (ip.mask hostBits).isValid = ip.isValid := by
  cases ip <;> rfl

theorem toNat_mask (hostBits : Nat) (ip : Addr) :
    (ip.mask hostBits).toNat = ip.toNat / 2 ^ hostBits * 2 ^ hostBits := by
  cases ip with
  | invalid => simp [mask, Addr.toNat]
  | v4 a | v6 a zone => exact Nat.mod_eq_of_lt (Nat.lt_of_le_of_lt (Nat.div_mul_le_self _ _) a.isLt)

theorem toNat_mask_div (hostBits : Nat) (ip : Addr) :
    (ip.mask hostBits).toNat / 2 ^ hostBits = ip.toNat / 2 ^ hostBits := by
  rw [toNat_mask, Nat.mul_div_cancel _ (Nat.two_pow_pos _)]

theorem toNat_mask_mod (hostBits : Nat) (ip : Addr) :
    (ip.mask hostBits).toNat % 2 ^ hostBits = 0 := by
  rw [toNat_mask, Nat.mul_mod_left]

variable {n : Nat}

theorem ofNat16_mapped (h : n / 2 ^ 32 = 0xffff) : ofNat16 n = v4 (BitVec.ofNat 32 n) := by
  have hn : n < 2 ^ 128 := by omega
  have hmap : (v6 (BitVec.ofNat 128 n) []).is4In6 = true := by
    simp only [is4In6, BitVec.toNat_ofNat, Nat.mod_eq_of_lt hn, h, decide_true]
  rw [ofNat16, unmap, if_pos hmap]
  congr 1
  exact BitVec.setWidth_ofNat_of_le (by decide) n

theorem ofNat16_unmapped (hn : n < 2 ^ 128) (h : n / 2 ^ 32 ≠ 0xffff) :
    ofNat16 n = v6 (BitVec.ofNat 128 n) [] := by
  have hmap : ¬ (v6 (BitVec.ofNat 128 n) []).is4In6 = true := by
    simp only [is4In6, BitVec.toNat_ofNat, Nat.mod_eq_of_lt hn, h, decide_false]
    exact Bool.false_ne_true
  rw [ofNat16, unmap, if_neg hmap]

@[simp] theorem toNat16_ofNat16 (hn : n < 2 ^ 128) : (ofNat16 n).toNat16 = n := by
  by_cases h : n / 2 ^ 32 = 0xffff
  · rw [ofNat16_mapped h, toNat16, BitVec.toNat_ofNat, mappedBase]
    omega
  · rw [ofNat16_unmapped hn h, toNat16, BitVec.toNat_ofNat, Nat.mod_eq_of_lt hn]

theorem ofNat16_toNat16 {ip : Addr} (hvalid : ip.isValid = true) (hzone : ip.zone = [])
    (hmap : ip.is4In6 = false) : ofNat16 ip.toNat16 = ip := by
  cases ip with
  | invalid => exact absurd hvalid Bool.false_ne_true
  | v4 a =>
    have ha := a.isLt
    rw [toNat16, ofNat16_mapped (by rw [mappedBase]; omega), mappedBase]
    exact congrArg v4 (BitVec.eq_of_toNat_eq (by rw [BitVec.toNat_ofNat]; omega))
  | v6 a zone =>
    have hne : a.toNat / 2 ^ 32 ≠ 0xffff := of_decide_eq_false hmap
    rw [toNat16, ofNat16_unmapped a.isLt hne, BitVec.ofNat_toNat, BitVec.setWidth_eq, ← hzone]
    rfl

@[simp] theorem isValid_ofNat16 (n : Nat) : (ofNat16 n).isValid = true := by
  rw [ofNat16, unmap]
  split <;> rfl

@[simp] theorem zone_ofNat16 (n : Nat) : (ofNat16 n).zone = [] := by
  rw [ofNat16, unmap]
  split <;> rfl

@[simp] theorem unmap_ofNat16 (n : Nat) : (ofNat16 n).unmap = ofNat16 n := by
  unfold ofNat16
  by_cases hmap : (v6 (BitVec.ofNat 128 n) []).is4In6 = true
  · simp only [unmap, if_pos hmap]
  · simp only [unmap, if_neg hmap]

theorem toNat16_lt (ip : Addr) : ip.toNat16 < 2 ^ 128 := by
  cases ip with
  | invalid => exact Nat.two_pow_pos 128
  | v4 a =>
    have ha := a.isLt
    rw [toNat16, mappedBase]
    omega
  | v6 a zone => exact a.isLt

theorem toNat16_eq (ip : Addr) :
    ip.toNat16 = (if ip.bitLen = 32 then mappedBase else 0) + ip.toNat := by
  cases ip with
  | invalid | v4 a => rfl
  | v6 a zone => exact (Nat.zero_add a.toNat).symm

@[simp] theorem ofBE_as16 (ip : Addr) : ofBE ip.as16 = ip.toNat16 :=
  ofBE_toBE_of_lt ip.toNat16_lt

theorem bitLen_withoutZone (ip : Addr) : ip.withoutZone.bitLen = ip.bitLen := by
  cases ip <;> rfl

theorem toNat_withoutZone (ip : Addr) : ip.withoutZone.toNat = ip.toNat := by
  cases ip <;> rfl

theorem zone_withoutZone (ip : Addr) : ip.withoutZone.zone = [] := by
  cases ip <;> rfl

end Addr

/-- `netip.Prefix`. -/
structure Prefix where
  addr : Addr
  bits : Int
  zone_nil : addr.zone = []
  bits_range : bits = -1 ∨ addr.isValid ∧ 0 ≤ bits ∧ bits ≤ addr.bitLen
deriving DecidableEq

/-- The zero `Prefix`. -/
instance : Inhabited Prefix := ⟨⟨.invalid, -1, rfl, .inl rfl⟩⟩

/-- `netip.PrefixFrom`. -/
def prefixFrom (ip : Addr) (bits : Int) : Prefix where
  addr := ip.withoutZone
  bits := if ip.isValid ∧ 0 ≤ bits ∧ bits ≤ ip.bitLen then bits else -1
  zone_nil := ip.zone_withoutZone
  bits_range := by
    split_ifs with h
    · cases ip with
      | invalid => exact absurd h.1 Bool.false_ne_true
      | v4 a | v6 a zone => exact .inr h
    · exact .inl rfl

/-- `netip.ParsePrefix`: the length is written without a sign and without leading zeros. -/
def parsePrefix (s : Bytes) : Option Prefix :=
  match lastIndexByte (ch '/') s with
  | none => none
  | some i =>
    let bitsStr := s.drop (i + 1)
    (parseAddr (s.take i)).bind fun ip ↦
      if ip.zone ≠ [] then none
      else if 1 < bitsStr.length ∧ ¬ (ch '1' ≤ bitsStr.headD 0 ∧ bitsStr.headD 0 ≤ ch '9') then none
      else (atoi bitsStr).bind fun bits ↦
        if bits < 0 ∨ (if ip.is6 then 128 else 32) < bits then none else some (prefixFrom ip bits)

namespace Prefix

/-- `Prefix.IsValid`. -/
def isValid (p : Prefix) : Bool := 0 ≤ p.bits

def hostBits (p : Prefix) : Nat := (p.addr.bitLen - p.bits).toNat

/-- `Prefix.Contains`: an address without a zone, of the same family, that agrees with the
prefix on its bits. -/
def contains (p : Prefix) (ip : Addr) : Bool :=
  p.isValid ∧ ip.isValid ∧ ip.zone = [] ∧ ip.bitLen = p.addr.bitLen ∧
    ip.toNat / 2 ^ p.hostBits = p.addr.toNat / 2 ^ p.hostBits

/-- `Prefix.Masked`. -/
def masked (p : Prefix) : Prefix := prefixFrom (p.addr.mask p.hostBits) p.bits

def IsMasked (p : Prefix) : Prop := p.addr.toNat % 2 ^ p.hostBits = 0

variable {p : Prefix}

/-- What a valid prefix is: an IPv4 address with at most 32 host bits, or an IPv6 address
without a zone with at most 128. -/
theorem valid_cases (h : p.isValid) :
    (∃ a, p.addr = .v4 a ∧ p.hostBits ≤ 32 ∧ p.bits = 32 - p.hostBits) ∨
      ∃ a, p.addr = .v6 a [] ∧ p.hostBits ≤ 128 ∧ p.bits = 128 - p.hostBits := by
  have h0 : 0 ≤ p.bits := of_decide_eq_true h
  obtain ⟨hvalid, -, hlen⟩ := p.bits_range.resolve_left (by omega)
  have hhost : p.hostBits = (p.addr.bitLen - p.bits).toNat := rfl
  cases haddr : p.addr with
  | invalid => rw [haddr] at hvalid; exact absurd hvalid Bool.false_ne_true
  | v4 a =>
    rw [haddr, Addr.bitLen] at hhost hlen
    exact .inl ⟨a, rfl, by omega, by omega⟩
  | v6 a zone =>
    have hzone := p.zone_nil
    rw [haddr, Addr.zone] at hzone
    rw [haddr, Addr.bitLen] at hhost hlen
    exact .inr ⟨a, by rw [hzone], by omega, by omega⟩

/-- Containment, on numbers.  The block of an IPv4 prefix lies in the IPv4-mapped block; an
IPv6 prefix does not contain IPv4 addresses, even where its block meets that one. -/
theorem contains_ofNat16 (h : p.isValid) {n : Nat} (hn : n < 2 ^ 128) :
    p.contains (.ofNat16 n) ↔ n / 2 ^ p.hostBits = p.addr.toNat16 / 2 ^ p.hostBits ∧
      (p.addr.is4 ∨ n / 2 ^ 32 ≠ 0xffff) := by
  simp only [contains, h, Addr.isValid_ofNat16, Addr.zone_ofNat16, true_and, decide_eq_true_eq]
  rcases valid_cases h with ⟨a, haddr, hbits, -⟩ | ⟨a, haddr, -, -⟩
  · obtain ⟨k, hk⟩ : ∃ k, 32 = p.hostBits + k := ⟨32 - p.hostBits, by omega⟩
    have hpow : (2 : Nat) ^ 32 = 2 ^ p.hostBits * 2 ^ k := by rw [hk, Nat.pow_add]
    have hblock (x : Nat) :
        (Addr.mappedBase + x) / 2 ^ p.hostBits = 0xffff * 2 ^ k + x / 2 ^ p.hostBits := by
      have hbase : Addr.mappedBase + x = x + 0xffff * 2 ^ k * 2 ^ p.hostBits := by
        rw [Addr.mappedBase, Nat.mul_assoc, Nat.mul_comm (2 ^ k), ← hpow]
        omega
      rw [hbase, Nat.add_mul_div_right _ _ (Nat.two_pow_pos _), Nat.add_comm]
    by_cases hmap : n / 2 ^ 32 = 0xffff
    · have hsplit : n = Addr.mappedBase + n % 2 ^ 32 := by
        rw [Addr.mappedBase]
        omega
      rw [Addr.ofNat16_mapped hmap, haddr]
      simp only [Addr.bitLen, Addr.toNat, Addr.toNat16, Addr.is4, true_and, true_or, and_true]
      rw [hblock, BitVec.toNat_ofNat]
      nth_rewrite 2 [hsplit]
      rw [hblock, Nat.add_left_cancel_iff]
    · rw [Addr.ofNat16_unmapped hn hmap, haddr]
      simp only [Addr.bitLen, Addr.toNat16, Addr.is4, true_or, and_true]
      refine iff_of_false (fun h ↦ absurd h.1 (by decide)) fun heq ↦ hmap ?_
      have ha := a.isLt
      rw [hpow, ← Nat.div_div_eq_div_mul, heq, Nat.div_div_eq_div_mul, ← hpow, Addr.mappedBase]
      omega
  · by_cases hmap : n / 2 ^ 32 = 0xffff
    · rw [Addr.ofNat16_mapped hmap, haddr]
      exact iff_of_false (fun h ↦ absurd h.1 (by simp [Addr.bitLen])) fun h ↦
        h.2.elim (fun his4 ↦ Bool.noConfusion his4) fun hne ↦ hne hmap
    · rw [Addr.ofNat16_unmapped hn hmap, haddr]
      simp only [Addr.bitLen, Addr.toNat, Addr.toNat16, BitVec.toNat_ofNat, Nat.mod_eq_of_lt hn,
        true_and]
      exact (and_iff_left (.inr hmap)).symm

theorem isValid_of_parsePrefix {s : Bytes} (h : parsePrefix s = some p) : p.isValid = true := by
  unfold parsePrefix at h
  split at h
  · cases h
  · obtain ⟨ip, hip, h⟩ := Option.bind_eq_some_iff.mp h
    obtain ⟨-, h⟩ := Option.ite_none_left_eq_some.mp h
    obtain ⟨-, h⟩ := Option.ite_none_left_eq_some.mp h
    obtain ⟨bits, -, h⟩ := Option.bind_eq_some_iff.mp h
    obtain ⟨hrange, ⟨⟩⟩ := Option.ite_none_left_eq_some.mp h
    obtain ⟨hpos, hle⟩ := not_or.mp hrange
    have hvalid : ip.isValid = true ∧ 0 ≤ bits ∧ bits ≤ ip.bitLen := by
      cases ip with
      | invalid => rcases parseAddr_cases hip with ⟨h4, -⟩ | ⟨-, h6, -⟩ <;> contradiction
      | v4 a | v6 a zone => exact ⟨rfl, Int.not_lt.mp hpos, Int.not_lt.mp hle⟩
    show decide (0 ≤ if _ then bits else -1) = true
    rw [if_pos hvalid]
    exact decide_eq_true hvalid.2.1

theorem bits_masked (h : p.isValid = true) : p.masked.bits = p.bits := by
  have h0 : 0 ≤ p.bits := of_decide_eq_true h
  obtain ⟨hvalid, -, hlen⟩ := p.bits_range.resolve_left (by omega)
  exact if_pos ⟨by rwa [Addr.isValid_mask], h0, by rwa [Addr.bitLen_mask]⟩

theorem bitLen_addr_masked (p : Prefix) : p.masked.addr.bitLen = p.addr.bitLen := by
  rw [masked, prefixFrom, Addr.bitLen_withoutZone, Addr.bitLen_mask]

theorem hostBits_masked (h : p.isValid = true) : p.masked.hostBits = p.hostBits := by
  rw [hostBits, hostBits, bitLen_addr_masked, bits_masked h]

theorem isMasked_masked (h : p.isValid = true) : p.masked.IsMasked := by
  rw [IsMasked, hostBits_masked h, masked, prefixFrom, Addr.toNat_withoutZone]
  exact p.addr.toNat_mask_mod p.hostBits

theorem contains_masked (h : p.isValid = true) (ip : Addr) :
    p.masked.contains ip = p.contains ip := by
  have hnum : p.masked.addr.toNat / 2 ^ p.hostBits = p.addr.toNat / 2 ^ p.hostBits := by
    rw [masked, prefixFrom, Addr.toNat_withoutZone, Addr.toNat_mask_div]
  rw [contains, contains, decide_eq_decide, isValid, isValid, bits_masked h, bitLen_addr_masked,
    hostBits_masked h, hnum]

end Prefix

end Vwarp.Go
