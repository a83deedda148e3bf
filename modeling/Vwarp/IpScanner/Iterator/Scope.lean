import Vwarp.IpScanner.Iterator.Generate

/-!
# Which addresses the generator can return

Let `S` be a set of addresses.  For each function of the generator this module computes
the exact condition under which it adds addresses of `S` only, whatever the random
source answers.  The condition is always that certain numbers are `Good`: those that fit
into 16 bytes have an address in `S`, unless it is passed over as a network or broadcast
address, and for those that do not fit, which panic, a fact `F` holds.  So `F := False`
forbids panics and `F := True` allows them.

A range is scanned from the address of its prefix, host bits included, so the numbers a
prefix `Reaches` are those of the prefix only if no host bit is set.  Besides, a random
/120 that starts at an IPv4-mapped address is unmapped before its size is computed, and
`PrefixFrom` gives a prefix without a length then, whose size is `2 ^ 33`.

`generate_in_ranges_iff` puts the conditions together.
-/

namespace Vwarp.IpScanner.Iterator

open Vwarp.Go Vwarp.Lib

/-- The address of the number is in `S` unless it is no valid endpoint; if the number does
not fit, `F` holds. -/
def Good (F : Prop) (S : Addr → Prop) (n : Nat) : Prop :=
  if n < 2 ^ 128 then validEndpoint (.ofNat16 n) → S (.ofNat16 n) else F

/-- All addresses are in `S`. -/
def AllIn (S : Addr → Prop) (ips : List Addr) : Prop := ∀ ip ∈ ips, S ip

/-- What has to hold after a range, if `C` has to hold once it is done without an error. -/
def ResultIn (S : Addr → Prop) (C : Prop) : Option (List Addr) → Prop
  | none => True
  | some ips => C ∧ AllIn S ips

variable {F : Prop} {S : Addr → Prop}

theorem allIn_append {ips ips' : List Addr} : AllIn S (ips ++ ips') ↔ AllIn S ips ∧ AllIn S ips' :=
  List.forall_mem_append

/-! ## One range -/

/-- What has to hold after the attempts at a segment, if `C` has to hold after it and
after any other segment. -/
def Picked (S : Addr → Prop) (C : Prop) : Option (Option Addr) → Prop
  | none => True
  | some none => C
  | some (some ip) => C ∧ S ip

variable {segmentSize : Nat}

/-- The attempts at a segment that is not empty.  If faults are allowed, the first address
of the segment has to exist. -/
theorem ensures_pickIP {start : Addr} {segStart : Nat} (hpos : 0 < segmentSize)
    (hfirst : F → start.toNat16 + segStart < 2 ^ 128) (C : Prop) (attempts : Nat) :
    (pickIP start segStart segmentSize attempts).Ensures F (Picked S C) ↔
      C ∧ (0 < attempts → ∀ o < segmentSize, Good F S (start.toNat16 + (segStart + o))) := by
  induction attempts with
  | zero => simp [pickIP, Picked]
  | succ attempts ih =>
    simp only [pickIP, Draw.ensures_bind, Draw.ensures_number hpos, Draw.ensures_ofOption,
      elim_addIP, Addr.isValid_ofNat16, Bool.true_and]
    constructor
    · rintro ⟨-, hdraw⟩
      have hgood : ∀ o < segmentSize, Good F S (start.toNat16 + (segStart + o)) := by
        intro o ho
        have hofs := hdraw o ho
        unfold Good
        split at hofs
        · rename_i hlt
          rw [if_pos hlt]
          intro hvalid
          rw [if_pos hvalid] at hofs
          exact hofs.2
        · rename_i hlt
          rwa [if_neg hlt]
      refine ⟨?_, fun _ ↦ hgood⟩
      have hzero := hdraw 0 hpos
      split at hzero
      · split at hzero
        · exact hzero.1
        · exact (ih.mp hzero).1
      · rename_i hlt
        exact absurd (hfirst hzero) hlt
    · rintro ⟨hC, hgood⟩
      refine ⟨trivial, ?_⟩
      intro o ho
      have hofs := hgood attempts.succ_pos o ho
      unfold Good at hofs
      split
      · rename_i hlt
        rw [if_pos hlt] at hofs
        split_ifs with hvalid
        · exact ⟨hC, hofs hvalid⟩
        · exact ih.mpr ⟨hC, fun _ ↦ hgood attempts.succ_pos⟩
      · rename_i hlt
        rwa [if_neg hlt] at hofs

variable {r : IpRange} {count : Nat}

theorem ensures_segmentLoop (C : Prop) (is : List Nat)
    (hfirst : F → ∀ i ∈ is, r.start.toNat16 + i * segmentSize < 2 ^ 128) (ips : List Addr) :
    (segmentLoop r count segmentSize is ips).Ensures F (ResultIn S C) ↔
      (C ∧ AllIn S ips) ∧
        ∀ i ∈ is, ∀ o, i * segmentSize ≤ o → o < segEnd r.size count segmentSize i →
        Good F S (r.start.toNat16 + o) := by
  induction is generalizing ips with
  | nil => simp [segmentLoop, ResultIn]
  | cons i is ih =>
    replace ih := ih fun hF j hj ↦ hfirst hF j (List.mem_cons_of_mem i hj)
    rw [segmentLoop, List.forall_mem_cons]
    split_ifs with hempty
    · have hi : ∀ o, i * segmentSize ≤ o → o < segEnd r.size count segmentSize i →
          Good F S (r.start.toNat16 + o) := by
        intro o hlo hhi
        omega
      rw [ih, and_iff_right hi]
    · rw [Draw.ensures_bind]
      refine (Draw.ensures_congr (Q := Picked S ((C ∧ AllIn S ips) ∧ ∀ i ∈ is, ∀ o,
        i * segmentSize ≤ o → o < segEnd r.size count segmentSize i →
          Good F S (r.start.toNat16 + o))) ?_).trans ?_
      · intro res
        match res with
        | none => exact Iff.rfl
        | some none => exact ih ips
        | some (some ip) =>
          have hip : AllIn S [ip] ↔ S ip := List.forall_mem_singleton
          rw [ih, allIn_append, hip, ← and_assoc]
          exact and_right_comm
      rw [ensures_pickIP (Nat.pos_of_ne_zero hempty) fun hF ↦ hfirst hF i List.mem_cons_self,
        and_assoc]
      refine and_congr_right fun _ ↦ and_comm.trans (and_congr_left fun _ ↦ ?_)
      constructor
      · intro hseg o hlo hhi
        have hofs := hseg (by decide) (o - i * segmentSize) (by omega)
        rwa [Nat.add_sub_cancel' hlo] at hofs
      · intro hseg _ o ho
        exact hseg _ (Nat.le_add_right _ _) (by omega)

variable {P : Nat → Prop}

theorem forall_segments {size : Nat} (hcount : 0 < count) (hle : count ≤ size) :
    (∀ i ∈ List.range count, ∀ o, i * (size / count) ≤ o → o < segEnd size count (size / count) i →
      P o) ↔ ∀ o < size, P o := by
  have hseg : 0 < size / count := Nat.div_pos hle hcount
  have htotal : count * (size / count) ≤ size := Nat.mul_div_le size count
  constructor
  · intro h o ho
    by_cases hlast : o < (count - 1) * (size / count)
    · have hi : o / (size / count) < count - 1 := (Nat.div_lt_iff_lt_mul hseg).mpr hlast
      refine h (o / (size / count)) (List.mem_range.mpr (by omega)) o (Nat.div_mul_le_self _ _) ?_
      rw [segEnd, if_neg (by omega)]
      exact Nat.lt_div_mul_add hseg
    · refine h (count - 1) (List.mem_range.mpr (by omega)) o (Nat.le_of_not_lt hlast) ?_
      rwa [segEnd, if_pos rfl]
  · intro h i hi o hlo hhi
    refine h o (Nat.lt_of_lt_of_le hhi ?_)
    rw [segEnd]
    split
    · exact le_refl size
    · calc
        i * (size / count) + size / count = (i + 1) * (size / count) := (Nat.succ_mul _ _).symm
        _ ≤ count * (size / count) := Nat.mul_le_mul_right _ (List.mem_range.mp hi)
        _ ≤ size := htotal

/-- A range: every offset into it can be drawn. -/
theorem ensures_generateIPsFromRange (hcount : 0 < count) (hF : F → count = 1) (C : Prop) :
    (generateIPsFromRange r count).Ensures F (ResultIn S C) ↔
      C ∧ ∀ o < r.size, Good F S (r.start.toNat16 + o) := by
  have hnil : AllIn S [] := fun ip hip ↦ absurd hip List.not_mem_nil
  unfold generateIPsFromRange
  dsimp only
  split_ifs with hzero
  · refine (and_iff_left hnil).trans (and_iff_left ?_).symm
    intro o ho
    omega
  · have hfirst : F → ∀ i ∈ List.range (min r.size count),
        r.start.toNat16 + i * (r.size / min r.size count) < 2 ^ 128 := by
      intro hf i hi
      have hone := hF hf
      obtain rfl : i = 0 := by
        have := List.mem_range.mp hi
        omega
      rw [Nat.zero_mul]
      exact r.start.toNat16_lt
    rw [ensures_segmentLoop C _ hfirst, and_iff_left hnil,
      forall_segments (Nat.pos_of_ne_zero hzero) (Nat.min_le_left _ _)]

theorem run_nil_pickIP {start : Addr} {segStart attempts : Nat} (hpos : 0 < segmentSize) :
    (pickIP start segStart segmentSize (attempts + 1)).run [] = some none := by
  cases segmentSize with
  | zero => exact absurd hpos (Nat.lt_irrefl 0)
  | succ bound => rfl

theorem run_nil_generateIPsFromRange (hsize : 0 < r.size) (hcount : 0 < count) :
    (generateIPsFromRange r count).run [] = some none := by
  obtain ⟨k, hk⟩ : ∃ k, min r.size count = k + 1 :=
    ⟨min r.size count - 1, by omega⟩
  have hfirst : segEnd r.size (k + 1) (r.size / (k + 1)) 0 - 0 * (r.size / (k + 1)) ≠ 0 := by
    have hseg : 0 < r.size / (k + 1) := Nat.div_pos (hk ▸ Nat.min_le_left _ _) k.succ_pos
    unfold segEnd
    split <;> omega
  rw [generateIPsFromRange]
  simp only [hk, List.range_succ_eq_map]
  rw [if_neg k.succ_ne_zero, segmentLoop, if_neg hfirst]
  exact Draw.run_nil_bind (run_nil_pickIP (Nat.pos_of_ne_zero hfirst))

theorem ensures_generateDirect (hsize : 0 < r.size)
    (hcount : 0 < count) (hF : F → count = 1) (results : List Addr) :
    (generateDirect r count results).Ensures F (AllIn S) ↔
      AllIn S results ∧ ∀ o < r.size, Good F S (r.start.toNat16 + o) := by
  rw [generateDirect, Draw.ensures_bind]
  refine (Draw.ensures_congr (Q := fun res ↦ ResultIn S True res ∧ AllIn S results) ?_).trans ?_
  · intro res
    cases res with
    | none => exact (and_iff_right trivial).symm
    | some ips =>
      exact allIn_append.trans (and_comm.trans (and_congr_left' (true_and _).symm.to_iff))
  · rw [Draw.ensures_and_const ⟨none, run_nil_generateIPsFromRange hsize hcount⟩,
      ensures_generateIPsFromRange hcount hF, true_and, and_comm]

theorem run_nil_generateDirect (hsize : 0 < r.size) (hcount : 0 < count) (results : List Addr) :
    (generateDirect r count results).run [] = some results :=
  Draw.run_nil_bind (run_nil_generateIPsFromRange hsize hcount)

/-! ## The /24s of an IPv4 range -/

theorem ipRangeSize_subnet24 {ip : Addr} (h : ip.is4) : ipRangeSize (prefixFrom ip 24) = 256 := by
  obtain ⟨a, rfl⟩ := Addr.is4_iff.mp h
  rfl

variable {n : Nat}

theorem compare_ofNat16_gt {k : Nat} (hk : 0 < k) (hn : n / 2 ^ 32 = 0xffff)
    (hlt : n + k < 2 ^ 128) : (Addr.ofNat16 (n + k)).compare (.ofNat16 n) = .gt := by
  rw [Addr.ofNat16_mapped hn]
  by_cases hmap : (n + k) / 2 ^ 32 = 0xffff
  · have hval : (n + k) % 2 ^ 32 > n % 2 ^ 32 := by omega
    have hcmp : Ord.compare ((n + k) % 2 ^ 32) (n % 2 ^ 32) = .gt := Nat.compare_eq_gt.mpr hval
    rw [Addr.ofNat16_mapped hmap]
    simp only [Addr.compare, Addr.bitLen, Addr.toNat, BitVec.toNat_ofNat, hcmp]
    rfl
  · rw [Addr.ofNat16_unmapped hlt hmap]
    rfl

variable {p : Prefix}

theorem mapped_of_contains (his4 : p.addr.is4) (hn : n < 2 ^ 128) (h : p.contains (.ofNat16 n)) :
    n / 2 ^ 32 = 0xffff := by
  by_contra hmap
  obtain ⟨-, -, -, hlen, -⟩ := of_decide_eq_true h
  obtain ⟨a, haddr⟩ := Addr.is4_iff.mp his4
  rw [Addr.ofNat16_unmapped hn hmap, haddr] at hlen
  exact absurd hlen (show 128 ≠ 32 by decide)

/-- A round of the walk: the /24 at an address, and then on from the address 256 behind it. -/
theorem walkLoop_succ (his4 : p.addr.is4) {fuel : Nat} (hn : n < 2 ^ 128)
    (hcontains : p.contains (.ofNat16 n)) (results : List Addr) :
    walkLoop p count (fuel + 1) (.ofNat16 n) results =
      generateIPsFromRange { start := .ofNat16 n, size := 256 } count >>= fun
        | none => pure results
        | some ips => walkLoop p count fuel (.ofNat16 (n + 256)) (results ++ ips) := by
  have hmap := mapped_of_contains his4 hn hcontains
  have hlt : n + 256 < 2 ^ 128 := by omega
  have hstep : addIP (.ofNat16 n) 256 = some (.ofNat16 (n + 256)) :=
    addIP_eq_some.mpr (by rw [Addr.toNat16_ofNat16 hn]; exact ⟨hlt, rfl⟩)
  have his4n : (Addr.ofNat16 n).is4 := by rw [Addr.ofNat16_mapped hmap]; rfl
  have hstart : (prefixFrom (.ofNat16 n) 24).addr = .ofNat16 n := by
    rw [Addr.ofNat16_mapped hmap]
    rfl
  rw [walkLoop, if_pos hcontains]
  simp only [hstart, ipRangeSize_subnet24 his4n, ipRangeSize_subnet24 his4, hstep]
  refine congrArg (bind _) (funext fun res ↦ ?_)
  cases res with
  | none => rfl
  | some ips =>
    have hcmp := compare_ofNat16_gt (by decide : 0 < 256) hmap hlt
    show (if _ then _ else _) = _
    rw [if_neg (by simp [hcmp])]

theorem ensures_walkLoop (hp : p.isValid) (his4 : p.addr.is4) (hcount : 0 < count)
    (hF : F → count = 1) (fuel : Nat) (hn : n < 2 ^ 128) (hle : p.addr.toNat16 ≤ n)
    (hfuel : room p (.ofNat16 n) < fuel) (results : List Addr) :
    (walkLoop p count fuel (.ofNat16 n) results).Ensures F (AllIn S) ↔
      AllIn S results ∧ ∀ j, (n + 256 * j) / 2 ^ p.hostBits = p.addr.toNat16 / 2 ^ p.hostBits →
        ∀ o < 256, Good F S (n + 256 * j + o) := by
  induction fuel generalizing n results with
  | zero => exact absurd hfuel (Nat.not_lt_zero _)
  | succ fuel ih =>
    by_cases hcontains : p.contains (.ofNat16 n) = true
    · have hblock := ((Prefix.contains_ofNat16 hp hn).mp hcontains).1
      have hmap := mapped_of_contains his4 hn hcontains
      have hlt : n + 256 < 2 ^ 128 := by omega
      have hroom : room p (.ofNat16 (n + 256)) < room p (.ofNat16 n) :=
        room_addIP_lt hcontains (by decide : 0 < 256)
          (addIP_eq_some.mpr (by rw [Addr.toNat16_ofNat16 hn]; exact ⟨hlt, rfl⟩))
      rw [walkLoop_succ his4 hn hcontains, Draw.ensures_bind]
      -- the condition on the /24s after this one
      let Tail : Prop := ∀ j, (n + 256 + 256 * j) / 2 ^ p.hostBits =
        p.addr.toNat16 / 2 ^ p.hostBits → ∀ o < 256, Good F S (n + 256 + 256 * j + o)
      refine (Draw.ensures_congr (Q := fun res ↦ ResultIn S Tail res ∧ AllIn S results) ?_).trans ?_
      · intro res
        cases res with
        | none => exact (and_iff_right trivial).symm
        | some ips =>
          dsimp only
          rw [ih hlt (Nat.le_add_right_of_le hle) (by omega), allIn_append]
          exact ⟨fun h ↦ ⟨⟨h.2, h.1.2⟩, h.1.1⟩, fun h ↦ ⟨⟨h.2, h.1.2⟩, h.1.1⟩⟩
      · rw [Draw.ensures_and_const
          ⟨none, run_nil_generateIPsFromRange (Nat.zero_lt_succ 255) hcount⟩,
          ensures_generateIPsFromRange hcount hF, Addr.toNat16_ofNat16 hn, and_comm]
        refine and_congr_right fun _ ↦ ?_
        constructor
        · rintro ⟨htail, hfirst⟩ j hj
          cases j with
          | zero => exact hfirst
          | succ j =>
            have heq : n + 256 * (j + 1) = n + 256 + 256 * j := by omega
            rw [heq] at hj ⊢
            exact htail j hj
        · intro h
          refine ⟨fun j hj ↦ ?_, h 0 hblock⟩
          have heq : n + 256 + 256 * j = n + 256 * (j + 1) := by omega
          rw [heq] at hj ⊢
          exact h (j + 1) hj
    · have htail : ∀ j, (n + 256 * j) / 2 ^ p.hostBits ≠ p.addr.toNat16 / 2 ^ p.hostBits := by
        intro j hj
        refine hcontains ((Prefix.contains_ofNat16 hp hn).mpr ⟨?_, .inl his4⟩)
        refine le_antisymm ?_ (Nat.div_le_div_right hle)
        exact hj ▸ Nat.div_le_div_right (Nat.le_add_right n _)
      rw [walkLoop, if_neg hcontains]
      exact (and_iff_left fun j hj ↦ absurd hj (htail j)).symm

/-! ## The random /120s of an IPv6 range -/

/-- The number of addresses in the sampled subnet that starts at number `s`. -/
def subnetSpan (s : Nat) : Nat := if s / 2 ^ 32 = 0xffff then 2 ^ 33 else 256

/-- The sampled subnet that starts at `s`: an IPv4 address has no /120, and the prefix
without a length has the size `2 ^ (32 + 1)`. -/
theorem sampled_subnet {s : Nat} (hs : s < 2 ^ 128) :
    (prefixFrom (.ofNat16 s) 120).addr = .ofNat16 s ∧
      ipRangeSize (prefixFrom (.ofNat16 s) 120) = subnetSpan s := by
  unfold subnetSpan
  split_ifs with hmap
  · rw [Addr.ofNat16_mapped hmap]
    exact ⟨rfl, rfl⟩
  · rw [Addr.ofNat16_unmapped hs hmap]
    exact ⟨rfl, rfl⟩

theorem randomBits_pos (p : Prefix) : 0 < 2 ^ (120 - p.bits).toNat := Nat.two_pow_pos _

/-- One sample: every /120 of the range can be drawn. -/
theorem ensures_sampleSubnet (hcount : 0 < count) (hF : F → count = 1) (results : List Addr) :
    (sampleSubnet p count results).Ensures F (AllIn S) ↔ AllIn S results ∧
      ∀ i < 2 ^ (120 - p.bits).toNat,
        if p.addr.toNat16 + 256 * i < 2 ^ 128 then
          ∀ o < subnetSpan (p.addr.toNat16 + 256 * i), Good F S (p.addr.toNat16 + 256 * i + o)
        else F := by
  simp only [sampleSubnet, Draw.ensures_bind, Draw.ensures_number (randomBits_pos p),
    Draw.ensures_ofOption, elim_addIP]
  have hmul (i : Nat) : i * 2 ^ 8 = 256 * i := Nat.mul_comm _ _
  simp only [hmul]
  refine and_congr_right fun hresults ↦ forall_congr' fun i ↦ imp_congr_right fun _ ↦ ?_
  split_ifs with hlt
  · rw [ensures_generateDirect (ipRangeSize_pos _) hcount hF, (sampled_subnet hlt).1,
      (sampled_subnet hlt).2, Addr.toNat16_ofNat16 hlt]
    exact and_iff_right hresults
  · exact Iff.rfl

theorem run_nil_sampleSubnet (p : Prefix) (count : Nat) (results : List Addr) :
    (sampleSubnet p count results).run [] = some results :=
  Draw.run_nil_number_bind _ (randomBits_pos p)

/-! ## The numbers a prefix reaches -/

/-- The number of consecutive addresses that are scanned from the address of a prefix on.
A range that is scanned directly or sampled has the size of the prefix.  The walk over a
longer IPv4 range goes on to the end of the prefix, in steps of 256. -/
def span (p : Prefix) : Nat :=
  if p.addr.is4 ∧ 8 < p.hostBits then
    2 ^ p.hostBits - p.addr.toNat16 % 2 ^ p.hostBits + p.addr.toNat16 % 256
  else 2 ^ p.hostBits

/-- The numbers that a range with the prefix `p` can be asked for: its span, and what the
sampled subnets reach that start at an IPv4-mapped address. -/
def Reaches (p : Prefix) (n : Nat) : Prop :=
  p.addr.toNat16 ≤ n ∧ n < p.addr.toNat16 + span p ∨
    p.addr.is6 ∧ 8 < p.hostBits ∧ ∃ i < 2 ^ (p.hostBits - 8),
      (p.addr.toNat16 + 256 * i) / 2 ^ 32 = 0xffff ∧ p.addr.toNat16 + 256 * i ≤ n ∧
        n < p.addr.toNat16 + 256 * i + 2 ^ 33

theorem ipRangeSize_of_valid (hp : p.isValid) : ipRangeSize p = 2 ^ p.hostBits := by
  rcases Prefix.valid_cases hp with ⟨a, haddr, -, -⟩ | ⟨a, haddr, -, -⟩
  all_goals
    rw [ipRangeSize, Prefix.hostBits, haddr]
    rfl

theorem forall_offset {first size : Nat} :
    (∀ o < size, P (first + o)) ↔ ∀ n, first ≤ n ∧ n < first + size → P n := by
  constructor
  · rintro h n ⟨hle, hlt⟩
    have hn := h (n - first) (by omega)
    rwa [Nat.add_sub_cancel' hle] at hn
  · intro h o ho
    exact h _ ⟨Nat.le_add_right _ _, Nat.add_lt_add_left ho first⟩

/-- Steps of 256 from `a` to the end of its block of `2 ^ h`. -/
theorem forall_steps {a h : Nat} (hh : 8 ≤ h) :
    (∀ j, (a + 256 * j) / 2 ^ h = a / 2 ^ h → ∀ o < 256, P (a + 256 * j + o)) ↔
      ∀ n, a ≤ n ∧ n < a + (2 ^ h - a % 2 ^ h + a % 256) → P n := by
  obtain ⟨k, rfl⟩ := Nat.exists_eq_add_of_le hh
  have hpow : 2 ^ (8 + k) = 256 * 2 ^ k := Nat.pow_add 2 8 k
  have hmod : a % (256 * 2 ^ k) % 256 = a % 256 := Nat.mod_mul_right_mod a 256 (2 ^ k)
  have hpos : 0 < 256 * 2 ^ k := Nat.mul_pos (by decide) (Nat.two_pow_pos k)
  have hlt : a % (256 * 2 ^ k) < 256 * 2 ^ k := Nat.mod_lt _ hpos
  have hblock (j : Nat) : (a + 256 * j) / (256 * 2 ^ k) = a / (256 * 2 ^ k) ↔
      a % (256 * 2 ^ k) + 256 * j < 256 * 2 ^ k := by
    have hsplit :
        a + 256 * j = a % (256 * 2 ^ k) + 256 * j + 256 * 2 ^ k * (a / (256 * 2 ^ k)) := by
      have := Nat.mod_add_div a (256 * 2 ^ k)
      omega
    rw [hsplit, Nat.add_mul_div_left _ _ hpos, Nat.add_eq_right, Nat.div_eq_zero_iff]
    omega
  simp only [hpow, hblock]
  generalize hr : a % (256 * 2 ^ k) = r at *
  generalize 2 ^ k = K at *
  constructor
  · rintro h n ⟨hle, hn⟩
    have hP := h ((n - a) / 256) (by omega) ((n - a) % 256) (Nat.mod_lt _ (by decide))
    have heq : a + 256 * ((n - a) / 256) + (n - a) % 256 = n := by omega
    rwa [heq] at hP
  · intro h j hj o ho
    exact h _ ⟨by omega, by omega⟩

theorem forall_samples (his6 : p.addr.is6) {k : Nat} (hk : p.hostBits = 8 + k) (hpos : 0 < k) :
    (∀ i < 2 ^ k, if p.addr.toNat16 + 256 * i < 2 ^ 128 then
        ∀ o < subnetSpan (p.addr.toNat16 + 256 * i), Good F S (p.addr.toNat16 + 256 * i + o)
      else F) ↔
      ∀ n, Reaches p n → Good F S n := by
  have his4 : ¬ p.addr.is4 = true := by
    cases haddr : p.addr with
    | v6 a zone | invalid => exact Bool.false_ne_true
    | v4 a => rw [haddr] at his6; exact absurd his6 Bool.false_ne_true
  have hspan : span p = 256 * 2 ^ k := by
    rw [span, if_neg fun h ↦ his4 h.1, hk]
    exact Nat.pow_add 2 8 k
  have hle (s : Nat) : 256 ≤ subnetSpan s := by
    unfold subnetSpan
    split <;> decide
  constructor
  · rintro h n (⟨hfirst, hlast⟩ | ⟨-, -, i, hi, hmap, hstart, hend⟩)
    · rw [hspan] at hlast
      have heq : p.addr.toNat16 + 256 * ((n - p.addr.toNat16) / 256) +
          (n - p.addr.toNat16) % 256 = n := by omega
      have hsubnet := h ((n - p.addr.toNat16) / 256) (by omega)
      split_ifs at hsubnet with hlt
      · have hgood := hsubnet ((n - p.addr.toNat16) % 256)
          (Nat.lt_of_lt_of_le (Nat.mod_lt _ (by decide)) (hle _))
        rwa [heq] at hgood
      · rwa [Good, if_neg (by omega)]
    · rw [hk, Nat.add_sub_cancel_left] at hi
      have hsubnet := h i hi
      rw [if_pos (by omega)] at hsubnet
      have hgood := hsubnet (n - (p.addr.toNat16 + 256 * i)) (by
        rw [subnetSpan, if_pos hmap]
        omega)
      rwa [Nat.add_sub_cancel' hstart] at hgood
  · intro h i hi
    split_ifs with hlt
    · intro o ho
      apply h
      rw [subnetSpan] at ho
      split_ifs at ho with hmap
      · refine .inr ⟨his6, by omega, i, ?_, hmap, Nat.le_add_right _ _, Nat.add_lt_add_left ho _⟩
        rwa [hk, Nat.add_sub_cancel_left]
      · exact .inl ⟨by omega, by rw [hspan]; omega⟩
    · have hstart := h (p.addr.toNat16 + 256 * i)
        (.inl ⟨Nat.le_add_right _ _, by rw [hspan]; omega⟩)
      rwa [Good, if_neg hlt] at hstart

/-- The round of `Generate` for the range of a prefix. -/
theorem ensures_generateRange (hp : p.isValid) (hcount : 0 < count)
    (hF : F → count = 1) (results : List Addr) :
    (generateRange count results (newIPRange p)).Ensures F (AllIn S) ↔
      AllIn S results ∧ ∀ n, Reaches p n → Good F S n := by
  have hdirect (hspan : span p = 2 ^ p.hostBits) (hsmall : ¬ (p.addr.is6 ∧ 8 < p.hostBits)) :
      (generateDirect (newIPRange p) count results).Ensures F (AllIn S) ↔
        AllIn S results ∧ ∀ n, Reaches p n → Good F S n := by
    rw [ensures_generateDirect (ipRangeSize_pos p) hcount hF]
    refine and_congr_right fun _ ↦ ?_
    show (∀ o < ipRangeSize p, Good F S (p.addr.toNat16 + o)) ↔ _
    rw [ipRangeSize_of_valid hp, forall_offset]
    refine forall_congr' fun n ↦ imp_congr_left ?_
    rw [Reaches, hspan, ← and_assoc (a := p.addr.is6 = true)]
    exact (or_iff_left fun h ↦ hsmall h.1).symm
  unfold generateRange newIPRange
  dsimp only
  rcases Prefix.valid_cases hp with ⟨a, haddr, hbits, hlen⟩ | ⟨a, haddr, hbits, hlen⟩
  · have his4 : p.addr.is4 = true := by rw [haddr]; rfl
    have his6 : ¬ p.addr.is6 = true := by rw [haddr]; exact Bool.false_ne_true
    rw [if_pos his4]
    split_ifs with hlong
    · exact hdirect (if_neg (by omega)) fun h ↦ his6 h.1
    · have haddr16 : Addr.ofNat16 p.addr.toNat16 = p.addr := by
        rw [haddr]
        exact Addr.ofNat16_toNat16 rfl rfl rfl
      have hspan : span p = 2 ^ p.hostBits - p.addr.toNat16 % 2 ^ p.hostBits +
          p.addr.toNat16 % 256 := if_pos ⟨his4, by omega⟩
      have hwalk :=
        ensures_walkLoop (S := S) hp his4 hcount hF (room p (.ofNat16 p.addr.toNat16) + 1)
        p.addr.toNat16_lt (le_refl _) (Nat.lt_succ_self _) results
      rw [haddr16] at hwalk
      rw [walkSubnets, hwalk, forall_steps (by omega), ← hspan]
      refine and_congr_right fun _ ↦ forall_congr' fun n ↦ imp_congr_left ?_
      exact (or_iff_left fun h ↦ his6 h.1).symm
  · have his4 : ¬ p.addr.is4 = true := by rw [haddr]; exact Bool.false_ne_true
    have his6 : p.addr.is6 = true := by rw [haddr]; rfl
    rw [if_neg his4]
    split_ifs with hlong
    · exact hdirect (if_neg fun h ↦ his4 h.1) (by omega)
    · obtain ⟨k, hk⟩ : ∃ k, p.hostBits = 8 + k := ⟨p.hostBits - 8, by omega⟩
      have hrandom : (120 - p.bits).toNat = k := by omega
      rw [Draw.ensures_foldlM (fun s _ _ ↦ ⟨s, run_nil_sampleSubnet p count s⟩)
        fun s _ _ ↦ ensures_sampleSubnet hcount hF s, hrandom]
      refine and_congr_right fun _ ↦ ?_
      have hsamples {C : Prop} : (∀ i ∈ List.range sampleSubnetsCount, C) ↔ C :=
        ⟨fun h ↦ h 0 (by decide), fun h _ _ ↦ h⟩
      rw [hsamples]
      exact forall_samples his6 hk (by omega)

theorem run_nil_generateRange (hcount : 0 < count) (results : List Addr) (p : Prefix) :
    (generateRange count results (newIPRange p)).run [] = some results := by
  have hdirect := run_nil_generateDirect (r := newIPRange p) (ipRangeSize_pos p) hcount results
  unfold generateRange
  dsimp only
  split
  · split
    · exact hdirect
    · rw [walkSubnets, walkLoop]
      split
      · exact Draw.run_nil_bind (run_nil_generateIPsFromRange (ipRangeSize_pos _) hcount)
      · rfl
  · split
    · exact hdirect
    · exact Draw.run_nil_foldlM (fun s _ _ ↦ run_nil_sampleSubnet _ count s) results

/-! ## The generator -/

theorem perm_swap (subnets : List IpRange) (i j : Nat) : (swap subnets i j).Perm subnets := by
  unfold swap
  split
  · rename_i x y hx hy
    obtain ⟨hi, rfl⟩ := List.getElem?_eq_some_iff.mp hx
    obtain ⟨hj, rfl⟩ := List.getElem?_eq_some_iff.mp hy
    exact List.set_set_perm hi hj
  · exact List.Perm.refl _

theorem ensures_shuffle {Ok : IpRange → Prop} (is : List Nat) (subnets : List IpRange)
    (hne : subnets ≠ []) :
    (shuffleSubnetsIpRange is subnets).Ensures F (fun ranges ↦ ∀ r ∈ ranges, Ok r) ↔
      ∀ r ∈ subnets, Ok r := by
  induction is generalizing subnets with
  | nil => exact Iff.rfl
  | cons i is ih =>
    rw [shuffleSubnetsIpRange, Draw.ensures_bind,
      Draw.ensures_number (List.length_pos_iff.mpr hne)]
    constructor
    · rintro ⟨herror, -⟩
      exact herror
    · intro h
      refine ⟨h, ?_⟩
      intro j _
      have hperm := perm_swap subnets i j
      refine (ih (swap subnets i j) fun hnil ↦ hne ?_).mpr fun r hr ↦ h r (hperm.mem_iff.mp hr)
      exact List.Perm.eq_nil (hnil ▸ hperm.symm)

variable {opts : Options}

theorem ensures_newIterator {Ok : IpRange → Prop} :
    (newIterator opts).Ensures F (fun ranges ↦ ∀ r ∈ ranges, Ok r) ↔
      ∀ p ∈ opts.cidrList, opts.enabled p → Ok (newIPRange p) := by
  have hranges : (∀ r ∈ (opts.cidrList.filter opts.enabled).map newIPRange, Ok r) ↔
      ∀ p ∈ opts.cidrList, opts.enabled p → Ok (newIPRange p) := by
    simp only [List.forall_mem_map, List.mem_filter, and_imp]
  unfold newIterator
  dsimp only
  split_ifs with hlong
  · rw [ensures_shuffle _ _ fun hnil ↦ absurd hlong (by rw [hnil]; decide), hranges]
  · exact hranges

theorem ensures_generate (hcount : 0 < count) (hF : F → count = 1) {ipRanges : List IpRange}
    (hvalid : ∀ r ∈ ipRanges, ∃ p, p.isValid = true ∧ r = newIPRange p) :
    (generate count ipRanges).Ensures F (fun result ↦ ∀ ips, result = .ok ips → AllIn S ips) ↔
      ∀ r ∈ ipRanges, ∀ n, Reaches r.cidr n → Good F S n := by
  have hnil : AllIn S [] := fun ip hip ↦ absurd hip List.not_mem_nil
  rw [generate, Draw.ensures_bind]
  refine (Draw.ensures_congr (Q := AllIn S) ?_).trans ?_
  · intro results
    split_ifs with hempty
    · exact iff_of_true (fun ips h ↦ nomatch h) (hempty ▸ hnil)
    · exact ⟨fun h ↦ h results rfl, fun h ips heq ↦ Except.ok.inj heq ▸ h⟩
  · have hround : ∀ results, ∀ r ∈ ipRanges, (generateRange count results r).Ensures F (AllIn S) ↔
        AllIn S results ∧ ∀ n, Reaches r.cidr n → Good F S n := by
      intro results r hr
      obtain ⟨p, hp, rfl⟩ := hvalid r hr
      exact ensures_generateRange hp hcount hF results
    have hret : ∀ results, ∀ r ∈ ipRanges, (generateRange count results r).Returns := by
      intro results r hr
      obtain ⟨p, -, rfl⟩ := hvalid r hr
      exact ⟨results, run_nil_generateRange hcount results p⟩
    rw [Draw.ensures_foldlM hret hround, and_iff_right hnil]

/-- The generator returns addresses of `S` only, whatever the random source answers,
exactly when every number that an enabled prefix reaches is good. -/
theorem ensures_generateFrom (hvalid : ∀ p ∈ opts.cidrList, p.isValid = true)
    (hcount : 0 < opts.bucketSize) (hF : F → opts.bucketSize = 1) :
    (generateFrom opts).Ensures F (fun result ↦ ∀ ips, result = .ok ips → AllIn S ips) ↔
      ∀ p ∈ opts.cidrList, opts.enabled p → ∀ n, Reaches p n → Good F S n := by
  have hranges : (newIterator opts).Ensures True fun ranges ↦
      ∀ r ∈ ranges, ∃ p : Prefix, p.isValid = true ∧ r = newIPRange p :=
    ensures_newIterator.mpr fun p hp _ ↦ ⟨p, hvalid p hp, rfl⟩
  rw [generateFrom, Draw.ensures_bind,
    Draw.ensures_congr_of hranges fun ranges hr ↦ ensures_generate hcount hF hr]
  exact ensures_newIterator

theorem run_nil_newIterator (opts : Options) :
    (newIterator opts).run [] = some ((opts.cidrList.filter opts.enabled).map newIPRange) := by
  unfold newIterator
  dsimp only
  split_ifs with hlong
  · obtain ⟨k, hk⟩ := Nat.exists_eq_add_of_lt hlong
    rw [hk, List.range_succ_eq_map, shuffleSubnetsIpRange]
    exact Draw.run_nil_number_bind _ (Nat.lt_of_succ_lt hlong)
  · rfl

theorem run_nil_generateFrom (hcount : 0 < opts.bucketSize) :
    (generateFrom opts).run [] =
      some (.error (str "no IP ranges configured or no IPs generated")) := by
  rw [generateFrom, Draw.run_nil_bind (run_nil_newIterator opts), generate]
  refine Draw.run_nil_bind (Draw.run_nil_foldlM (fun results r hr ↦ ?_) [])
  obtain ⟨p, -, rfl⟩ := List.mem_map.mp hr
  exact run_nil_generateRange hcount results p

theorem toNat16_of_isMasked (hp : p.isValid) (hmasked : p.IsMasked) :
    p.hostBits ≤ 128 ∧ 2 ^ p.hostBits ∣ p.addr.toNat16 := by
  have hdvd := Nat.dvd_of_mod_eq_zero hmasked
  rcases Prefix.valid_cases hp with ⟨a, haddr, hbits, -⟩ | ⟨a, haddr, hbits, -⟩
  · rw [haddr] at hdvd ⊢
    have hbase : 2 ^ p.hostBits ∣ Addr.mappedBase :=
      Dvd.dvd.trans (pow_dvd_pow 2 hbits) ⟨0xffff, rfl⟩
    exact ⟨by omega, Nat.dvd_add hbase hdvd⟩
  · rw [haddr] at hdvd ⊢
    exact ⟨hbits, hdvd⟩

theorem block_end_le (hp : p.isValid) (hmasked : p.IsMasked) :
    p.addr.toNat16 + 2 ^ p.hostBits ≤ 2 ^ 128 := by
  obtain ⟨hlen, q, hq⟩ := toNat16_of_isMasked hp hmasked
  obtain ⟨k, hk⟩ := Nat.exists_eq_add_of_le hlen
  have hpow : (2 : Nat) ^ 128 = 2 ^ p.hostBits * 2 ^ k := by rw [hk, Nat.pow_add]
  have hqk : q < 2 ^ k := Nat.lt_of_mul_lt_mul_left (hpow ▸ hq ▸ p.addr.toNat16_lt)
  rw [hq, hpow, ← Nat.mul_succ]
  exact Nat.mul_le_mul_left _ hqk

theorem range_end_le (hp : p.isValid) (hmasked : p.IsMasked) :
    p.addr.toNat16 + ipRangeSize p ≤ 2 ^ 128 := by
  rw [ipRangeSize_of_valid hp]
  exact block_end_le hp hmasked

/-- A prefix without host bits, whose block is not in the IPv4-mapped one if it is an IPv6
prefix, reaches its own addresses only. -/
theorem contains_of_reaches (hp : p.isValid) (hmasked : p.IsMasked)
    (hmapped : p.addr.is6 = true → ∀ m, m / 2 ^ p.hostBits = p.addr.toNat16 / 2 ^ p.hostBits →
      m / 2 ^ 32 ≠ 0xffff) (h : Reaches p n) :
    n < 2 ^ 128 ∧ p.contains (.ofNat16 n) = true := by
  obtain ⟨hlen, q, hq⟩ := toNat16_of_isMasked hp hmasked
  have hend := block_end_le hp hmasked
  have hblock {m : Nat} (hle : p.addr.toNat16 ≤ m) (hm : m < p.addr.toNat16 + 2 ^ p.hostBits) :
      m / 2 ^ p.hostBits = p.addr.toNat16 / 2 ^ p.hostBits := by
    rw [hq] at hle hm ⊢
    rw [Nat.mul_div_cancel_left _ (Nat.two_pow_pos _)]
    exact Nat.div_eq_of_lt_le (by rwa [Nat.mul_comm]) (by rwa [Nat.mul_comm, Nat.mul_succ])
  have hspan : span p = 2 ^ p.hostBits := by
    unfold span
    split_ifs with hlong
    · have hdvd : 256 ∣ p.addr.toNat16 :=
        Dvd.dvd.trans (pow_dvd_pow 2 (Nat.le_of_lt hlong.2)) ⟨q, hq⟩
      rw [Nat.mod_eq_zero_of_dvd hdvd, hq, Nat.mul_mod_right]
      rfl
    · rfl
  rcases h with ⟨hle, hn⟩ | ⟨his6, hlong, i, hi, hmap, -, -⟩
  · rw [hspan] at hn
    have hn128 : n < 2 ^ 128 := Nat.lt_of_lt_of_le hn hend
    refine ⟨hn128, (Prefix.contains_ofNat16 hp hn128).mpr ⟨hblock hle hn, ?_⟩⟩
    rcases Prefix.valid_cases hp with ⟨a, haddr, -, -⟩ | ⟨a, haddr, -, -⟩
    · exact .inl (by rw [haddr]; rfl)
    · exact .inr (hmapped (by rw [haddr]; rfl) n (hblock hle hn))
  · refine absurd hmap (hmapped his6 _ (hblock (Nat.le_add_right _ _) (Nat.add_lt_add_left ?_ _)))
    obtain ⟨k, hk⟩ := Nat.exists_eq_add_of_lt hlong
    rw [hk] at hi ⊢
    have hpow : 2 ^ (8 + k + 1) = 256 * 2 ^ (8 + k + 1 - 8) := by
      rw [show 8 + k + 1 = 8 + (8 + k + 1 - 8) by omega, Nat.pow_add]
      simp
    omega

/-- The addresses of the configured ranges: those that an enabled prefix of the list
contains. -/
def Options.InRanges (opts : Options) (ip : Addr) : Prop :=
  ∃ p ∈ opts.cidrList, opts.enabled p = true ∧ p.contains ip = true

/-- **The generator stays inside the configured ranges, exactly when the numbers its
prefixes reach do.** -/
theorem generate_in_ranges_iff (opts : Options) (hvalid : ∀ p ∈ opts.cidrList, p.isValid = true)
    (hbucket : 1 ≤ opts.bucketSize) :
    (∀ draws, ∃ result, (generateFrom opts).run draws = some result ∧
      ∀ ips, result = .ok ips → ∀ ip ∈ ips, opts.InRanges ip) ↔
    ∀ p ∈ opts.cidrList, opts.enabled p = true → ∀ n, Reaches p n →
      n < 2 ^ 128 ∧ (validEndpoint (.ofNat16 n) = true → opts.InRanges (.ofNat16 n)) := by
  have hrun (result : Option (Except Bytes (List Addr))) :
      (∃ res, result = some res ∧ ∀ ips, res = .ok ips → ∀ ip ∈ ips, opts.InRanges ip) ↔
        result.elim False fun res ↦ ∀ ips, res = .ok ips → AllIn opts.InRanges ips := by
    cases result with
    | none => exact iff_of_false (fun ⟨_, h, _⟩ ↦ nomatch h) id
    | some res => exact ⟨fun ⟨_, h, hall⟩ ↦ Option.some.inj h ▸ hall, fun hall ↦ ⟨res, rfl, hall⟩⟩
  have hgood (n : Nat) : Good False opts.InRanges n ↔
      n < 2 ^ 128 ∧ (validEndpoint (.ofNat16 n) = true → opts.InRanges (.ofNat16 n)) := by
    unfold Good
    split_ifs with hlt
    · exact (and_iff_right hlt).symm
    · exact iff_of_false id fun h ↦ hlt h.1
  simp only [hrun, ← hgood]
  exact Draw.ensures_iff_run.symm.trans (ensures_generateFrom hvalid hbucket False.elim)

/-- The options that scan one range, with one address for each subnet. -/
def oneRange (cidr : Prefix) : Options where
  useIPv4 := true
  useIPv6 := true
  cidrList := [cidr]
  bucketSize := 1

/-- The range `192.168.1.0/24` is never left. -/
theorem generate_in_ranges_slash24 : let opts := oneRange (prefixFrom (.v4 0xc0a80100) 24)
    ∀ draws, ∃ result, (generateFrom opts).run draws = some result ∧
      ∀ ips, result = .ok ips → ∀ ip ∈ ips, opts.InRanges ip := by
  intro opts
  refine (generate_in_ranges_iff opts (by decide) (by decide)).mpr ?_
  intro p hp henabled n hn
  obtain rfl := List.mem_singleton.mp hp
  obtain ⟨hlt, hcontains⟩ := contains_of_reaches (by decide) (by unfold Prefix.IsMasked; decide)
    (fun his6 ↦ absurd his6 (by decide)) hn
  exact ⟨hlt, fun _ ↦ ⟨_, hp, henabled, hcontains⟩⟩

/-- With host bits set the generator leaves the range: offset 100 into `192.168.1.200/24` is
`192.168.2.44`.  At the end of the address space it panics: there is no offset 1 into the
/120 that is written with its last address. -/
theorem generate_leaves_ranges : let opts := oneRange (prefixFrom (.v4 0xc0a801c8) 24)
    let last := oneRange (prefixFrom (.v6 (BitVec.allOnes 128) []) 120)
    (∀ p ∈ opts.cidrList, p.isValid = true) ∧
      (generateFrom opts).run [some 100] = some (.ok [.v4 0xc0a8022c]) ∧
      ¬ opts.InRanges (.v4 0xc0a8022c) ∧
      (∀ p ∈ last.cidrList, p.isValid = true) ∧ (generateFrom last).run [some 1] = none := by
  intro opts last
  refine ⟨by decide, by decide +kernel, ?_, by decide, by decide +kernel⟩
  unfold Options.InRanges
  decide

end Vwarp.IpScanner.Iterator
