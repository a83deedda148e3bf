import Vwarp.IpScanner.Iterator.Segments

/-!
# The walk over the /24s of an IPv4 range

`Generate` goes through a large IPv4 range in steps of 256 addresses, and the loop has no counter:
it ends when the next address is not in the prefix, or does not compare greater.  The address
after 255.255.255.255 is no IPv4 address any more, since the sum leaves the IPv4-mapped block.  It
compares greater than every IPv4 address, and the prefix does not contain it.

`subnets24` lists the /24s of a prefix, and `sampleSubnets` samples a list of subnets one after
the other.  The walk is the same program (`walkLoop_eq`), for any number of rounds that is greater
than the number of subnets, so it ends by itself.
-/

namespace Vwarp.IpScanner.Iterator

open Vwarp.Go Vwarp.Lib

def subnetRange (subnet : Prefix) : IpRange := { start := subnet.addr, size := ipRangeSize subnet }

/-- Sample subnets one after the other, up to an error of the random source. -/
def sampleSubnets (ipsPerSubnet : Nat) : List Prefix → List Addr → Draw (List Addr)
  | [], results => pure results
  | subnet :: subnets, results => do
      match ← generateIPsFromRange (subnetRange subnet) ipsPerSubnet with
      | none => pure results
      | some ips => sampleSubnets ipsPerSubnet subnets (results ++ ips)

/-- The `j`-th /24 from the address of a prefix on. -/
def subnet24 (p : Prefix) (j : Nat) : Prefix := prefixFrom (.ofNat16 (p.addr.toNat16 + 256 * j)) 24

def subnets24 (p : Prefix) : List Prefix :=
  (List.range (2 ^ (24 - p.bits).toNat)).map (subnet24 p)

/-! ## Prefixes that are walked -/

/-- An IPv4 prefix without host bits that is larger than a /24. -/
structure Walked (p : Prefix) : Prop where
  valid : p.isValid = true
  is4 : p.addr.is4 = true
  masked : p.IsMasked
  bits_le : p.bits ≤ 23

namespace Walked

variable {p : Prefix} (h : Walked p)
include h

theorem exists_addr :
    ∃ a : BitVec 32, p.addr = .v4 a ∧ p.hostBits ≤ 32 ∧ p.bits = 32 - p.hostBits := by
  obtain ⟨a, haddr⟩ := Addr.is4_iff.mp h.is4
  rcases Prefix.valid_cases h.valid with hv4 | ⟨b, hv6, -, -⟩
  · exact hv4
  · cases haddr.symm.trans hv6

theorem dvd_addr {a : BitVec 32} (haddr : p.addr = .v4 a) : 2 ^ p.hostBits ∣ a.toNat := by
  have hmask := h.masked
  unfold Prefix.IsMasked at hmask
  rw [haddr] at hmask
  exact Nat.dvd_of_mod_eq_zero hmask

theorem pow_hostBits : 2 ^ p.hostBits = 256 * 2 ^ (24 - p.bits).toNat := by
  obtain ⟨a, -, hbits, hlen⟩ := h.exists_addr
  have hle := h.bits_le
  have hhost : p.hostBits = 8 + (24 - p.bits).toNat := by omega
  rw [hhost, Nat.pow_add]

theorem block_mapped :
    Addr.mappedBase ≤ p.addr.toNat16 ∧ p.addr.toNat16 + 2 ^ p.hostBits ≤
      Addr.mappedBase + 2 ^ 32 := by
  obtain ⟨a, haddr, hbits, -⟩ := h.exists_addr
  obtain ⟨q, hq⟩ := h.dvd_addr haddr
  rw [haddr]
  obtain ⟨k, hk⟩ := Nat.exists_eq_add_of_le hbits
  have hpow : (2 : Nat) ^ 32 = 2 ^ p.hostBits * 2 ^ k := by rw [hk, Nat.pow_add]
  have hqk : q < 2 ^ k := Nat.lt_of_mul_lt_mul_left (hpow ▸ hq ▸ a.isLt)
  refine ⟨Nat.le_add_right _ _, ?_⟩
  calc
    Addr.mappedBase + a.toNat + 2 ^ p.hostBits = Addr.mappedBase + 2 ^ p.hostBits * (q + 1) := by
      rw [Nat.mul_succ, ← hq, Nat.add_assoc]
    _ ≤ Addr.mappedBase + 2 ^ 32 := by
      rw [hpow]
      exact Nat.add_le_add_left (Nat.mul_le_mul_left _ hqk) _

variable {j : Nat}

theorem mapped (hj : j < 2 ^ (24 - p.bits).toNat) :
    (p.addr.toNat16 + 256 * j) / 2 ^ 32 = 0xffff := by
  obtain ⟨hlo, hhi⟩ := h.block_mapped
  rw [h.pow_hostBits] at hhi
  rw [Addr.mappedBase] at hlo hhi
  omega

/-- Steps of 256 stay in the prefix exactly for its /24s. -/
theorem contains_step (hj : j ≤ 2 ^ (24 - p.bits).toNat) :
    p.contains (.ofNat16 (p.addr.toNat16 + 256 * j)) = true ↔ j < 2 ^ (24 - p.bits).toNat := by
  obtain ⟨hlo, hhi⟩ := h.block_mapped
  obtain ⟨-, q, hq⟩ := toNat16_of_isMasked h.valid h.masked
  have hfit : p.addr.toNat16 + 256 * j < 2 ^ 128 := by
    rw [h.pow_hostBits] at hhi
    rw [Addr.mappedBase] at hhi
    omega
  have hpos : 0 < 2 ^ p.hostBits := Nat.two_pow_pos _
  rw [Prefix.contains_ofNat16 h.valid hfit, and_iff_left (.inl h.is4), hq,
    Nat.mul_add_div hpos, Nat.mul_div_cancel_left q hpos, Nat.add_eq_left, h.pow_hostBits,
    Nat.mul_div_mul_left _ _ (by decide), Nat.div_eq_zero_iff]
  exact or_iff_right (Nat.two_pow_pos _).ne'

theorem addr_eq_ofNat16 (hj : j < 2 ^ (24 - p.bits).toNat) :
    (subnet24 p j).addr = .ofNat16 (p.addr.toNat16 + 256 * j) := by
  rw [subnet24, Addr.ofNat16_mapped (h.mapped hj)]
  rfl

theorem addr_subnet24 {a : BitVec 32} (haddr : p.addr = .v4 a) (hj : j < 2 ^ (24 - p.bits).toNat) :
    (subnet24 p j).addr = .v4 (BitVec.ofNat 32 (a.toNat + 256 * j)) := by
  rw [h.addr_eq_ofNat16 hj, Addr.ofNat16_mapped (h.mapped hj), haddr]
  refine congrArg Addr.v4 (BitVec.eq_of_toNat_eq ?_)
  simp only [Addr.toNat16, Addr.mappedBase, BitVec.toNat_ofNat]
  omega

theorem bits_subnet24 (hj : j < 2 ^ (24 - p.bits).toNat) : (subnet24 p j).bits = 24 := by
  rw [subnet24, Addr.ofNat16_mapped (h.mapped hj)]
  rfl

theorem subnetRange_eq (hj : j < 2 ^ (24 - p.bits).toNat) :
    subnetRange (subnet24 p j) = { start := .ofNat16 (p.addr.toNat16 + 256 * j), size := 256 } := by
  have his4 : (Addr.ofNat16 (p.addr.toNat16 + 256 * j)).is4 = true := by
    rw [Addr.ofNat16_mapped (h.mapped hj)]
    rfl
  rw [subnetRange, h.addr_eq_ofNat16 hj, subnet24, ipRangeSize_subnet24 his4]

end Walked

/-! ## The loop -/

/-- The walk from the `j`-th /24 on samples the subnets that are left, if there are more rounds
than subnets. -/
theorem walkLoop_eq {p : Prefix} (h : Walked p) (count : Nat) {m j fuel : Nat} (hm : m < fuel)
    (hj : j + m = 2 ^ (24 - p.bits).toNat) (results : List Addr) :
    walkLoop p count fuel (.ofNat16 (p.addr.toNat16 + 256 * j)) results =
      sampleSubnets count ((List.range' j m).map (subnet24 p)) results := by
  induction m generalizing j fuel results with
  | zero =>
    obtain ⟨fuel, rfl⟩ := Nat.exists_eq_add_one.mpr hm
    have hend : ¬ p.contains (.ofNat16 (p.addr.toNat16 + 256 * j)) = true :=
      mt (h.contains_step (by omega)).mp (by omega)
    rw [walkLoop, if_neg hend]
    rfl
  | succ m ih =>
    obtain ⟨fuel, rfl⟩ := Nat.exists_eq_add_one.mpr (Nat.zero_lt_of_lt hm)
    have hlt : j < 2 ^ (24 - p.bits).toNat := by omega
    have hmap := h.mapped hlt
    rw [walkLoop_succ h.is4 (by omega) ((h.contains_step hlt.le).mpr hlt), List.range'_succ,
      List.map_cons, sampleSubnets, h.subnetRange_eq hlt]
    refine congrArg (bind _) (funext fun res ↦ ?_)
    cases res with
    | none => rfl
    | some ips =>
      have hnext := @ih (j + 1) fuel (by omega) (by omega) (results ++ ips)
      rwa [Nat.mul_succ, ← Nat.add_assoc] at hnext

theorem walkLoop_eq_sampleSubnets {p : Prefix} (h : Walked p) (count : Nat) {fuel : Nat}
    (hfuel : 2 ^ (24 - p.bits).toNat < fuel) (results : List Addr) :
    walkLoop p count fuel p.addr results = sampleSubnets count (subnets24 p) results := by
  obtain ⟨a, haddr, -, -⟩ := h.exists_addr
  have hstart : Addr.ofNat16 (p.addr.toNat16 + 256 * 0) = p.addr := by
    rw [haddr]
    show Addr.ofNat16 (Addr.v4 a).toNat16 = _
    exact Addr.ofNat16_toNat16 rfl rfl rfl
  have hwalk := walkLoop_eq h count hfuel (Nat.zero_add _) results
  rw [hstart, ← List.range_eq_range'] at hwalk
  exact hwalk

/-! ## The subnets -/

theorem prefix_ext {p q : Prefix} (haddr : p.addr = q.addr) (hbits : p.bits = q.bits) : p = q := by
  cases p
  cases q
  obtain rfl := haddr
  obtain rfl := hbits
  rfl

theorem contains_iff_v4 {p : Prefix} (hp : p.isValid = true) {a : BitVec 32}
    (haddr : p.addr = .v4 a) {ip : Addr} : p.contains ip = true ↔
      ∃ b : BitVec 32, ip = .v4 b ∧ b.toNat / 2 ^ p.hostBits = a.toNat / 2 ^ p.hostBits := by
  simp only [Prefix.contains, hp, haddr, true_and, decide_eq_true_eq]
  cases ip with
  | invalid => simp [Addr.isValid]
  | v4 b => simp [Addr.isValid, Addr.zone, Addr.bitLen, Addr.toNat]
  | v6 b zone => simp [Addr.bitLen]

theorem subnet24_spec {p : Prefix} (h : Walked p) {j : Nat} (hj : j < 2 ^ (24 - p.bits).toNat) :
    (subnet24 p j).isValid = true ∧ (subnet24 p j).IsMasked ∧ (subnet24 p j).addr.is4 = true ∧
      ∀ ip, (subnet24 p j).contains ip = true → p.contains ip = true := by
  obtain ⟨a, haddr, hbits, -⟩ := h.exists_addr
  have hsub := h.addr_subnet24 haddr hj
  have hlen := h.bits_subnet24 hj
  have hvalid : (subnet24 p j).isValid = true := by
    rw [Prefix.isValid, hlen]
    rfl
  have hhost : (subnet24 p j).hostBits = 8 := by
    rw [Prefix.hostBits, hsub, hlen]
    rfl
  have hpow := h.pow_hostBits
  obtain ⟨q, hq⟩ := h.dvd_addr haddr
  have hval : (BitVec.ofNat 32 (a.toNat + 256 * j)).toNat = a.toNat + 256 * j := by
    obtain ⟨hlo, hhi⟩ := h.block_mapped
    rw [haddr, hpow] at hhi
    simp only [Addr.toNat16] at hhi
    rw [BitVec.toNat_ofNat]
    exact Nat.mod_eq_of_lt (by omega)
  refine ⟨hvalid, ?_, by rw [hsub]; rfl, ?_⟩
  · rw [Prefix.IsMasked, hsub, hhost, Addr.toNat, hval, hq, hpow, Nat.mul_assoc]
    omega
  · intro ip hip
    obtain ⟨b, rfl, hb⟩ := (contains_iff_v4 hvalid hsub).mp hip
    refine (contains_iff_v4 h.valid haddr).mpr ⟨b, rfl, ?_⟩
    rw [hhost, hval] at hb
    have hj' : (a.toNat + 256 * j) / 2 ^ p.hostBits = a.toNat / 2 ^ p.hostBits := by
      rw [hq, Nat.mul_add_div (Nat.two_pow_pos _), Nat.mul_div_cancel_left _ (Nat.two_pow_pos _),
        hpow, Nat.mul_div_mul_left _ _ (by decide), Nat.div_eq_of_lt hj, Nat.add_zero]
    rw [← hj', hpow, ← Nat.div_div_eq_div_mul, ← Nat.div_div_eq_div_mul]
    exact congrArg (· / 2 ^ (24 - p.bits).toNat) hb

/-- A /24 without host bits whose addresses are in the prefix is one of them. -/
theorem exists_subnet24 {p q : Prefix} (h : Walked p) (hvalid : q.isValid = true)
    (hmask : q.IsMasked) (his4 : q.addr.is4 = true) (hlen : q.bits = 24)
    (hsub : ∀ ip, q.contains ip = true → p.contains ip = true) :
    ∃ j < 2 ^ (24 - p.bits).toNat, subnet24 p j = q := by
  obtain ⟨a, haddr, -, -⟩ := h.exists_addr
  obtain ⟨c, hc⟩ := Addr.is4_iff.mp his4
  have hhost : q.hostBits = 8 := by
    rw [Prefix.hostBits, hc, hlen]
    rfl
  -- the first address of the subnet is in the prefix, and it is a multiple of 256 behind its start
  obtain ⟨b, hb, hblock⟩ := (contains_iff_v4 h.valid haddr).mp
    (hsub (.v4 c) ((contains_iff_v4 hvalid hc).mpr ⟨c, rfl, rfl⟩))
  obtain rfl : c = b := Addr.v4.inj hb
  have hpow := h.pow_hostBits
  unfold Prefix.IsMasked at hmask
  rw [hc, hhost, Addr.toNat] at hmask
  obtain ⟨t, ht⟩ := h.dvd_addr haddr
  rw [ht, Nat.mul_div_cancel_left _ (Nat.two_pow_pos _)] at hblock
  have hdiv := Nat.div_add_mod c.toNat (2 ^ p.hostBits)
  have hmod := Nat.mod_lt c.toNat (Nat.two_pow_pos p.hostBits)
  rw [hblock, ← ht] at hdiv
  have hj : (c.toNat - a.toNat) / 256 < 2 ^ (24 - p.bits).toNat := by omega
  refine ⟨(c.toNat - a.toNat) / 256, hj, prefix_ext ?_ ?_⟩
  · have ha : a.toNat % 256 = 0 := by
      rw [ht, hpow, Nat.mul_assoc]
      exact Nat.mul_mod_right 256 _
    rw [h.addr_subnet24 haddr hj, hc]
    refine congrArg Addr.v4 (BitVec.eq_of_toNat_eq ?_)
    have hlt := c.isLt
    rw [BitVec.toNat_ofNat]
    omega
  · rw [h.bits_subnet24 hj, hlen]

/-- `subnets24` are the /24s of the prefix. -/
theorem mem_subnets24 {p : Prefix} (h : Walked p) {q : Prefix} :
    q ∈ subnets24 p ↔ q.isValid = true ∧ q.IsMasked ∧ q.addr.is4 = true ∧ q.bits = 24 ∧
      ∀ ip, q.contains ip = true → p.contains ip = true := by
  rw [subnets24, List.mem_map]
  constructor
  · rintro ⟨j, hj, rfl⟩
    obtain ⟨hvalid, hmask, his4, hsub⟩ := subnet24_spec h (List.mem_range.mp hj)
    exact ⟨hvalid, hmask, his4, h.bits_subnet24 (List.mem_range.mp hj), hsub⟩
  · rintro ⟨hvalid, hmask, his4, hlen, hsub⟩
    obtain ⟨j, hj, hq⟩ := exists_subnet24 h hvalid hmask his4 hlen hsub
    exact ⟨j, List.mem_range.mpr hj, hq⟩

theorem pairwise_subnets24 {p : Prefix} (h : Walked p) :
    (subnets24 p).Pairwise fun s s' ↦ s.addr.toNat16 < s'.addr.toNat16 := by
  have hnum {j : Nat} (hj : j < 2 ^ (24 - p.bits).toNat) :
      (subnet24 p j).addr.toNat16 = p.addr.toNat16 + 256 * j := by
    have hmap := h.mapped hj
    rw [h.addr_eq_ofNat16 hj, Addr.toNat16_ofNat16 (by omega)]
  rw [subnets24, List.pairwise_map]
  refine List.pairwise_lt_range.imp_of_mem fun {i j} hi hj hij ↦ ?_
  rw [hnum (List.mem_range.mp hi), hnum (List.mem_range.mp hj)]
  omega

/-! ## What is sampled -/

theorem yields_sampleSubnets {count : Nat} (hcount : 0 < count) {subnets : List Prefix}
    (hsub : ∀ s ∈ subnets, s.isValid = true ∧ s.IsMasked) (results : List Addr) :
    (sampleSubnets count subnets results).Yields False fun out ↦ ∃ samples : List (List Addr),
      out = results ++ samples.flatten ∧ List.Forall₂
        (fun s ips ↦ Sample (subnetRange s) (min (ipRangeSize s) count) ips) subnets samples := by
  induction subnets generalizing results with
  | nil => exact ⟨[], (List.append_nil results).symm, .nil⟩
  | cons s subnets ih =>
    obtain ⟨hvalid, hmask⟩ := hsub s List.mem_cons_self
    rw [sampleSubnets, Draw.yields_bind]
    refine (yields_generateIPsFromRange (r := subnetRange s) (ipRangeSize_pos s) hcount
      (range_end_le hvalid hmask)).mono fun res hres ↦ ?_
    cases res with
    | none => exact hres.elim
    | some ips =>
      refine (ih (fun s' hs' ↦ hsub s' (List.mem_cons_of_mem s hs')) (results ++ ips)).mono ?_
      rintro out ⟨samples, rfl, hsamples⟩
      exact ⟨ips :: samples, List.append_assoc _ _ _, .cons hres.sample hsamples⟩

/-- **The walk over all /24s.**  For an IPv4 prefix without host bits of length at most 23, the
loop ends by itself after as many rounds as there are /24s, and is the program that samples them
one after the other.  There are `2 ^ (24 - b)` of them, in ascending order, and they are the /24s
of the prefix.  A random source that does not fail gives a sample of each. -/
theorem exhaustive_walk {p : Prefix} (h : Walked p) (count : Nat) (results : List Addr) :
    (∀ fuel, 2 ^ (24 - p.bits).toNat < fuel →
        walkLoop p count fuel p.addr results = sampleSubnets count (subnets24 p) results) ∧
      generateRange count results (newIPRange p) = sampleSubnets count (subnets24 p) results ∧
      (subnets24 p).length = 2 ^ (24 - p.bits).toNat ∧
      (subnets24 p).Pairwise (fun s s' ↦ s.addr.toNat16 < s'.addr.toNat16) ∧
      (∀ q, q ∈ subnets24 p ↔ q.isValid = true ∧ q.IsMasked ∧ q.addr.is4 = true ∧ q.bits = 24 ∧
        ∀ ip, q.contains ip = true → p.contains ip = true) ∧
      (0 < count → ∀ numbers, ∃ samples : List (List Addr),
        (generateRange count results (newIPRange p)).stream numbers =
          some (results ++ samples.flatten) ∧ List.Forall₂
          (fun s ips ↦ Sample (subnetRange s) (min (ipRangeSize s) count) ips)
          (subnets24 p) samples) := by
  have hwalk : generateRange count results (newIPRange p) =
      sampleSubnets count (subnets24 p) results := by
    have hlong : ¬ p.bits ≥ 24 := by
      have := h.bits_le
      omega
    rw [generateRange, newIPRange]
    dsimp only
    rw [if_pos h.is4, if_neg hlong, walkSubnets]
    refine walkLoop_eq_sampleSubnets h count ?_ results
    rw [room, h.pow_hostBits]
    omega
  refine ⟨fun fuel hfuel ↦ walkLoop_eq_sampleSubnets h count hfuel results, hwalk, ?_,
    pairwise_subnets24 h, fun q ↦ mem_subnets24 h, fun hcount numbers ↦ ?_⟩
  · rw [subnets24, List.length_map, List.length_range]
  · have hsub : ∀ s ∈ subnets24 p, s.isValid = true ∧ s.IsMasked := by
      intro s hs
      obtain ⟨hvalid, hmask, -⟩ := (mem_subnets24 h).mp hs
      exact ⟨hvalid, hmask⟩
    obtain ⟨out, hrun, samples, rfl, hsamples⟩ :=
      (yields_sampleSubnets hcount hsub results).stream numbers
    exact ⟨samples, hwalk ▸ hrun, hsamples⟩

/-- All IPv4 addresses are `2 ^ 24` subnets. -/
theorem exhaustive_walk_all :
    (subnets24 (prefixFrom (.v4 0) 0)).length = 2 ^ 24 ∧
      generateRange 1 [] (newIPRange (prefixFrom (.v4 0) 0)) =
        sampleSubnets 1 (subnets24 (prefixFrom (.v4 0) 0)) [] := by
  have h := @exhaustive_walk (prefixFrom (.v4 0) 0) ⟨rfl, rfl, rfl, by decide⟩ 1 []
  exact ⟨h.2.2.1, h.2.1⟩

end Vwarp.IpScanner.Iterator
