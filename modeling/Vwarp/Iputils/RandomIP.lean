import Vwarp.Go.PrefixText
import Vwarp.IpScanner.Iterator.Scope

/-!
# A random address of a prefix

`RandomIPFromPrefix` adds a random number to the first address of a prefix, in the 16-byte form,
and unmaps the sum.  Unmapping is what brings an IPv4 address back.  For an IPv6 prefix there
should be nothing to unmap, and the function turns away prefixes whose first address is
IPv4-mapped; but a prefix that starts below the mapped block and covers it is let through.

The numbers of the prefix are a block.  `random_ip_in_prefix_iff` says when the block is returned
as it is, and `covers_mapped` that the first mapped address decides.
-/

namespace Vwarp.Iputils

open Vwarp.Go Vwarp.Lib Vwarp.IpScanner.Iterator

/-- The first address of a prefix; an invalid prefix has none. -/
def startingAddress (cidr : Prefix) : Addr := if cidr.isValid then cidr.masked.addr else .invalid

/-- `max`: the random number is below it. -/
def randMax (cidr : Prefix) : Nat := 2 ^ ((startingAddress cidr).bitLen - cidr.bits).toNat

/-- `RandomIPFromPrefix`, with the random number that `Rand` returns. -/
def randomIPFromPrefix (cidr : Prefix) (randInt : Nat) : Option (Except Bytes Addr) :=
  if (startingAddress cidr).is4In6 then some (.error (str "mapped v4 addresses not supported"))
  else if cidr.bits = -1 then some (.error (str "invalid cidr: " ++ cidr.string))
  else
    (fillBytes 16 (ofBE (startingAddress cidr).as16 + randInt)).map fun bytes ↦
      match addrFromSlice bytes with
      | none => .error (str "failed to generate random IP from CIDR: " ++ cidr.string)
      | some randomAddress => .ok randomAddress.unmap

/-- The first address of the IPv4-mapped block, `::ffff:0:0`. -/
def firstMapped : Addr := .v6 (BitVec.ofNat 128 Addr.mappedBase) []

/-- A prefix that is not rejected. -/
structure Accepted (p : Prefix) : Prop where
  valid : p.isValid = true
  unmapped : (startingAddress p).is4In6 = false

variable {p : Prefix}

/-! ## The block of a prefix -/

theorem div_eq_iff_block {n start size : Nat} (hsize : 0 < size) (hdvd : size ∣ start) :
    n / size = start / size ↔ start ≤ n ∧ n < start + size := by
  obtain ⟨q, rfl⟩ := hdvd
  rw [Nat.mul_div_cancel_left q hsize, Nat.div_eq_iff hsize]
  constructor
  · rintro ⟨hlo, hhi⟩
    rw [Nat.mul_comm] at hlo hhi
    exact ⟨hlo, by omega⟩
  · rintro ⟨hlo, hhi⟩
    rw [Nat.mul_comm q]
    exact ⟨hlo, by omega⟩

theorem not_is4_of_contains_v6 {b : BitVec 128} {zone : Bytes}
    (hip : p.contains (.v6 b zone) = true) : ¬ p.masked.addr.is4 = true := by
  intro his4
  obtain ⟨-, -, -, hlen, -⟩ := of_decide_eq_true hip
  obtain ⟨a, haddr⟩ := Addr.is4_iff.mp his4
  rw [← p.bitLen_addr_masked, haddr] at hlen
  exact absurd hlen (show 128 ≠ 32 by decide)

namespace Accepted

variable (h : Accepted p)
include h

theorem startingAddress_eq : startingAddress p = p.masked.addr := if_pos h.valid

theorem masked_valid : p.masked.isValid = true := by
  rw [Prefix.isValid, Prefix.bits_masked h.valid]
  exact h.valid

theorem randMax_eq : randMax p = 2 ^ p.hostBits := by
  rw [randMax, h.startingAddress_eq, Prefix.bitLen_addr_masked, Prefix.hostBits]

theorem mem_block {n : Nat} :
    n / 2 ^ p.hostBits = p.masked.addr.toNat16 / 2 ^ p.hostBits ↔
      p.masked.addr.toNat16 ≤ n ∧ n < p.masked.addr.toNat16 + 2 ^ p.hostBits := by
  have hdvd := (toNat16_of_isMasked h.masked_valid (Prefix.isMasked_masked h.valid)).2
  rw [Prefix.hostBits_masked h.valid] at hdvd
  exact div_eq_iff_block (Nat.two_pow_pos _) hdvd

theorem block_end : p.masked.addr.toNat16 + 2 ^ p.hostBits ≤ 2 ^ 128 := by
  have hend := block_end_le h.masked_valid (Prefix.isMasked_masked h.valid)
  rwa [Prefix.hostBits_masked h.valid] at hend

theorem randomIPFromPrefix_eq {r : Nat} (hr : r < randMax p) :
    randomIPFromPrefix p r = some (.ok (.ofNat16 (p.masked.addr.toNat16 + r))) := by
  have hbits : p.bits ≠ -1 := by
    have := of_decide_eq_true h.valid
    omega
  have hmap := h.unmapped
  have hfit : p.masked.addr.toNat16 + r < 256 ^ 16 := by
    have hend := h.block_end
    rw [h.randMax_eq] at hr
    have hpow : (256 : Nat) ^ 16 = 2 ^ 128 := by norm_num
    omega
  rw [randomIPFromPrefix, hmap, if_neg Bool.false_ne_true, if_neg hbits, h.startingAddress_eq,
    Addr.ofBE_as16, fillBytes, if_pos hfit, Option.map_some, addrFromSlice, length_toBE,
    if_neg (by decide), if_pos rfl, ofBE_toBE_of_lt hfit]
  rfl

theorem contains_number {n : Nat} (hlo : p.masked.addr.toNat16 ≤ n)
    (hhi : n < p.masked.addr.toNat16 + 2 ^ p.hostBits) :
    p.contains (.ofNat16 n) = true ↔ p.masked.addr.is4 = true ∨ n / 2 ^ 32 ≠ 0xffff := by
  have hn : n < 2 ^ 128 := Nat.lt_of_lt_of_le hhi h.block_end
  rw [← Prefix.contains_masked h.valid, Prefix.contains_ofNat16 h.masked_valid hn,
    Prefix.hostBits_masked h.valid, and_iff_right (h.mem_block.mpr ⟨hlo, hhi⟩)]

theorem number_of_contains {ip : Addr} (hip : p.contains ip = true) :
    p.masked.addr.toNat16 ≤ ip.toNat16 ∧ ip.toNat16 < p.masked.addr.toNat16 + 2 ^ p.hostBits := by
  rw [← Prefix.contains_masked h.valid] at hip
  obtain ⟨-, -, -, hlen, hdiv⟩ := of_decide_eq_true hip
  have hdvd := Nat.dvd_of_mod_eq_zero (Prefix.isMasked_masked h.valid)
  rw [div_eq_iff_block (Nat.two_pow_pos _) hdvd, Prefix.hostBits_masked h.valid] at hdiv
  rw [ip.toNat16_eq, p.masked.addr.toNat16_eq, hlen]
  omega

theorem covers_mapped {n : Nat} (hlo : p.masked.addr.toNat16 ≤ n)
    (hhi : n < p.masked.addr.toNat16 + 2 ^ p.hostBits) (hmap : n / 2 ^ 32 = 0xffff)
    (his4 : ¬ p.masked.addr.is4 = true) : p.contains firstMapped = true := by
  have hblock := h.mem_block.mpr ⟨hlo, hhi⟩
  have hunmapped := h.unmapped
  rw [h.startingAddress_eq] at hunmapped
  rcases Prefix.valid_cases h.masked_valid with ⟨a, haddr, -, -⟩ | ⟨a, haddr, -, -⟩
  · exact absurd (by rw [haddr]; rfl) his4
  · rw [haddr] at hblock hunmapped
    have hne : a.toNat / 2 ^ 32 ≠ 0xffff := of_decide_eq_false hunmapped
    have hfirst : Addr.mappedBase / 2 ^ p.hostBits = a.toNat / 2 ^ p.hostBits := by
      obtain hle | hlt := Nat.lt_or_ge 32 p.hostBits
      · -- the block is made of blocks of `2 ^ 32`, and the mapped one is among them
        obtain ⟨k, hk⟩ := Nat.exists_eq_add_of_le hle.le
        have hbase : Addr.mappedBase / 2 ^ 32 = 0xffff := by decide
        rw [hk, Nat.pow_add, ← Nat.div_div_eq_div_mul, ← Nat.div_div_eq_div_mul] at hblock ⊢
        rw [hmap] at hblock
        rw [hbase, hblock]
        rfl
      · -- the block is inside a block of `2 ^ 32`, which is the mapped one
        obtain ⟨k, hk⟩ := Nat.exists_eq_add_of_le hlt
        refine absurd ?_ hne
        have hdiv := congrArg (· / 2 ^ k) hblock
        simp only [Nat.div_div_eq_div_mul, ← Nat.pow_add, ← hk] at hdiv
        exact hdiv.symm.trans hmap
    rw [← Prefix.contains_masked h.valid]
    refine decide_eq_true ⟨h.masked_valid, rfl, rfl, by rw [haddr]; rfl, ?_⟩
    rw [Prefix.hostBits_masked h.valid, haddr]
    exact hfirst

theorem contains_of_not_covers (hmapped : p.contains firstMapped = false) {n : Nat}
    (hlo : p.masked.addr.toNat16 ≤ n) (hhi : n < p.masked.addr.toNat16 + 2 ^ p.hostBits) :
    p.contains (.ofNat16 n) = true := by
  rw [h.contains_number hlo hhi]
  by_contra hnot
  obtain ⟨his4, hmap⟩ := not_or.mp hnot
  have hcovers := h.covers_mapped hlo hhi (not_not.mp hmap) his4
  exact absurd hcovers (Bool.eq_false_iff.mp hmapped)

theorem contains_random (hmapped : p.contains firstMapped = false) {r : Nat} (hr : r < randMax p) :
    ∃ ip, randomIPFromPrefix p r = some (.ok ip) ∧ p.contains ip = true := by
  refine ⟨_, h.randomIPFromPrefix_eq hr, h.contains_of_not_covers hmapped (Nat.le_add_right _ _) ?_⟩
  rw [h.randMax_eq] at hr
  exact Nat.add_lt_add_left hr _

/-- Every address of the prefix comes from a random number. -/
theorem exists_random (hmapped : p.contains firstMapped = false) {ip : Addr}
    (hip : p.contains ip = true) : ∃ r < randMax p, randomIPFromPrefix p r = some (.ok ip) := by
  obtain ⟨hlo, hhi⟩ := h.number_of_contains hip
  obtain ⟨-, hvalid, hzone, -, -⟩ := of_decide_eq_true hip
  have hunmapped : ip.is4In6 = false := by
    by_contra hmap
    cases ip with
    | invalid | v4 b => exact hmap rfl
    | v6 b zone =>
      have hmap' : b.toNat / 2 ^ 32 = 0xffff :=
        of_decide_eq_true (Bool.eq_true_of_not_eq_false hmap)
      exact absurd (h.covers_mapped hlo hhi hmap' (not_is4_of_contains_v6 hip))
        (Bool.eq_false_iff.mp hmapped)
  have hr : ip.toNat16 - p.masked.addr.toNat16 < randMax p := by
    rw [h.randMax_eq]
    omega
  refine ⟨_, hr, ?_⟩
  rw [h.randomIPFromPrefix_eq hr, Nat.add_sub_cancel' hlo,
    Addr.ofNat16_toNat16 hvalid hzone hunmapped]

end Accepted

/-! ## What is returned -/

/-- **A random address of its prefix.**  For a prefix that is not rejected, every random number
gives an address of the prefix, and every address of the prefix comes from a random number,
exactly if the prefix does not contain `::ffff:0:0`: then it is an IPv4 prefix, or one whose block
is outside the IPv4-mapped one. -/
theorem random_ip_in_prefix_iff (h : Accepted p) :
    ((∀ r < randMax p, ∃ ip, randomIPFromPrefix p r = some (.ok ip) ∧ p.contains ip = true) ∧
      ∀ ip, p.contains ip = true → ∃ r < randMax p, randomIPFromPrefix p r = some (.ok ip)) ↔
      p.contains firstMapped = false := by
  constructor
  · rintro ⟨hin, -⟩
    rw [Bool.eq_false_iff]
    intro hmapped
    -- the number of `::ffff:0:0` is drawn, and its address is unmapped
    obtain ⟨hlo, hhi⟩ : p.masked.addr.toNat16 ≤ Addr.mappedBase ∧
        Addr.mappedBase < p.masked.addr.toNat16 + 2 ^ p.hostBits := h.number_of_contains hmapped
    have hr : Addr.mappedBase - p.masked.addr.toNat16 < randMax p := by
      rw [h.randMax_eq]
      exact Nat.sub_lt_left_of_lt_add hlo hhi
    obtain ⟨ip, hip, hcontains⟩ := hin _ hr
    rw [h.randomIPFromPrefix_eq hr, Nat.add_sub_cancel' hlo] at hip
    obtain rfl := Except.ok.inj (Option.some.inj hip)
    obtain his4 | hne := (h.contains_number hlo hhi).mp hcontains
    · exact not_is4_of_contains_v6 hmapped his4
    · exact hne (by decide)
  · intro hmapped
    exact ⟨fun r hr ↦ h.contains_random hmapped hr, fun ip hip ↦ h.exists_random hmapped hip⟩

/-- The /24 of a WARP endpoint. -/
theorem random_ip_slash24 :
    (∀ r < 2 ^ 8, ∃ ip, randomIPFromPrefix (prefixFrom (.v4 0xa29fc0ff) 24) r = some (.ok ip) ∧
        (prefixFrom (.v4 0xa29fc0ff) 24).contains ip = true) ∧
      ∀ ip, (prefixFrom (.v4 0xa29fc0ff) 24).contains ip = true →
        ∃ r < 2 ^ 8, randomIPFromPrefix (prefixFrom (.v4 0xa29fc0ff) 24) r = some (.ok ip) :=
  (random_ip_in_prefix_iff (p := prefixFrom (.v4 0xa29fc0ff) 24) ⟨rfl, rfl⟩).mpr rfl

/-- The prefix `::/0` is not rejected, and for the number of `::ffff:0:0` it returns 0.0.0.0, which
is not in it. -/
theorem random_ip_outside : let p := prefixFrom (.v6 0 []) 0
    Accepted p ∧ Addr.mappedBase < randMax p ∧
      randomIPFromPrefix p Addr.mappedBase = some (.ok (.v4 0)) ∧ p.contains (.v4 0) = false := by
  have h : Accepted (prefixFrom (.v6 0 []) 0) := ⟨rfl, rfl⟩
  have hr : Addr.mappedBase < randMax (prefixFrom (.v6 0 []) 0) := by decide +kernel
  have hzero : Addr.ofNat16 (0 + Addr.mappedBase) = .v4 0 := Addr.ofNat16_mapped (by decide)
  exact ⟨h, hr, (h.randomIPFromPrefix_eq hr).trans (congrArg (some ∘ Except.ok) hzero), rfl⟩

end Vwarp.Iputils
