import Vwarp.IpScanner.Iterator.Scope

/-!
# Sampling a range by segments

`generateIPsFromRange` divides a range into as many segments as addresses are asked for and takes
one address from each, or none if ten draws give no endpoint.  The division leaves a remainder,
which the last segment has.

* `Divides` says that the segments are a partition of the range into consecutive intervals.
* `Sampled` follows the loop: segment after segment, one address or none.  That the addresses are
  few, distinct and in order is read off it, by induction on how many segments are done.
* `segmented_sampling` puts this together, for a random source that may fail and for one that
  does not.
-/

namespace Vwarp.IpScanner.Iterator

open Vwarp.Go Vwarp.Lib

/-! ## The segments -/

/-- The offset `o` is in segment `i` of `count`. -/
def InSegment (size count i o : Nat) : Prop :=
  i * (size / count) ≤ o ∧ o < segEnd size count (size / count) i

/-- A range of `size` is divided into `count` segments that are not empty, each starts where the
one before ends, and every offset is in exactly one of them. -/
structure Divides (size count : Nat) : Prop where
  nonempty : ∀ i < count, i * (size / count) < segEnd size count (size / count) i
  consecutive : ∀ i, i + 1 < count → segEnd size count (size / count) i = (i + 1) * (size / count)
  last : segEnd size count (size / count) (count - 1) = size
  cover : ∀ o < size, ∃! i, i < count ∧ InSegment size count i o

theorem segEnd_of_lt {size count segmentSize i : Nat} (h : i + 1 < count) :
    segEnd size count segmentSize i = (i + 1) * segmentSize := by
  rw [segEnd, if_neg (by omega), Nat.succ_mul]

theorem segEnd_le {size count segmentSize i j : Nat} (hij : i < j) (hj : j < count) :
    segEnd size count segmentSize i ≤ j * segmentSize := by
  rw [segEnd_of_lt (Nat.lt_of_le_of_lt hij hj)]
  exact Nat.mul_le_mul_right segmentSize hij

theorem InSegment.lt {size count i j o o' : Nat} (ho : InSegment size count i o)
    (ho' : InSegment size count j o') (hij : i < j) (hj : j < count) : o < o' :=
  Nat.lt_of_lt_of_le ho.2 (Nat.le_trans (segEnd_le hij hj) ho'.1)

theorem InSegment.lt_size {size count i o : Nat} (ho : InSegment size count i o)
    (hi : i < count) (hle : count ≤ size) : o < size :=
  (forall_segments (Nat.zero_lt_of_lt hi) hle).mpr (fun _ h ↦ h) i
    (List.mem_range.mpr hi) o ho.1 ho.2

theorem divides {size count : Nat} (hcount : 0 < count) (hle : count ≤ size) :
    Divides size count where
  nonempty i hi := by
    have hseg : 0 < size / count := Nat.div_pos hle hcount
    obtain hlt | rfl : i + 1 < count ∨ i = count - 1 := by omega
    · rw [segEnd_of_lt hlt]
      exact Nat.mul_lt_mul_of_pos_right (Nat.lt_succ_self i) hseg
    · rw [segEnd, if_pos rfl]
      calc
        (count - 1) * (size / count) < count * (size / count) :=
          Nat.mul_lt_mul_of_pos_right (Nat.sub_lt hcount Nat.one_pos) hseg
        _ ≤ size := Nat.mul_div_le size count
  consecutive i hi := segEnd_of_lt hi
  last := if_pos rfl
  cover o ho := by
    have hex : ∃ i, i < count ∧ InSegment size count i o :=
      (forall_segments (P := fun o ↦ ∃ i, i < count ∧ InSegment size count i o) hcount hle).mp
        (fun i hi o hlo hhi ↦ ⟨i, List.mem_range.mp hi, hlo, hhi⟩) o ho
    obtain ⟨i, hi, hseg⟩ := hex
    refine ⟨i, ⟨hi, hseg⟩, ?_⟩
    rintro j ⟨hj, hseg'⟩
    obtain hlt | rfl | hlt := Nat.lt_trichotomy j i
    · exact absurd (hseg'.lt hseg hlt hi) (Nat.lt_irrefl o)
    · rfl
    · exact absurd (hseg.lt hseg' hlt hj) (Nat.lt_irrefl o)

/-! ## The samples -/

/-- What the loop may have collected after the first `n` of `count` segments. -/
inductive Sampled (r : IpRange) (count : Nat) : Nat → List Addr → Prop
  | nil : Sampled r count 0 []
  | /-- No draw from the segment was an endpoint. -/
    skip {n : Nat} {ips : List Addr} : Sampled r count n ips → Sampled r count (n + 1) ips
  | /-- A draw from the segment was one. -/
    pick {n o : Nat} {ips : List Addr} {ip : Addr} : Sampled r count n ips →
      InSegment r.size count n o → addIP r.start o = some ip → validEndpoint ip = true →
      Sampled r count (n + 1) (ips ++ [ip])

section Sampled

variable {r : IpRange} {count n : Nat} {ips : List Addr}

theorem Sampled.length_le (h : Sampled r count n ips) : ips.length ≤ n := by
  induction h with
  | nil => exact Nat.le_refl 0
  | skip _ ih => exact Nat.le_succ_of_le ih
  | pick _ _ _ _ ih =>
    rw [List.length_append]
    exact Nat.succ_le_succ ih

theorem Sampled.exists_offset (h : Sampled r count n ips) {ip : Addr} (hip : ip ∈ ips) :
    ∃ i < n, ∃ o, InSegment r.size count i o ∧ addIP r.start o = some ip ∧
      validEndpoint ip = true := by
  induction h with
  | nil => exact absurd hip List.not_mem_nil
  | skip _ ih =>
    obtain ⟨i, hi, ho⟩ := ih hip
    exact ⟨i, Nat.lt_succ_of_lt hi, ho⟩
  | pick _ hseg hadd hvalid ih =>
    obtain hip | hip := List.mem_append.mp hip
    · obtain ⟨i, hi, ho⟩ := ih hip
      exact ⟨i, Nat.lt_succ_of_lt hi, ho⟩
    · obtain rfl := List.mem_singleton.mp hip
      exact ⟨_, Nat.lt_succ_self _, _, hseg, hadd, hvalid⟩

theorem Sampled.ascending (h : Sampled r count n ips) (hn : n ≤ count) :
    ips.Pairwise fun ip ip' ↦ ip.toNat16 < ip'.toNat16 := by
  induction h with
  | nil => exact List.Pairwise.nil
  | skip _ ih => exact ih (Nat.le_of_succ_le hn)
  | pick hs hseg hadd _ ih =>
    refine List.pairwise_append.mpr ⟨ih (Nat.le_of_succ_le hn), List.pairwise_singleton _ _, ?_⟩
    intro ip hip ip' hip'
    obtain rfl := List.mem_singleton.mp hip'
    obtain ⟨i, hi, o, ho, hadd', -⟩ := hs.exists_offset hip
    rw [toNat16_addIP hadd, toNat16_addIP hadd']
    exact Nat.add_lt_add_left (ho.lt hseg hi hn) _

end Sampled

/-- The result of sampling a range by `count` segments. -/
structure Sample (r : IpRange) (count : Nat) (ips : List Addr) : Prop where
  bySegment : Sampled r count count ips
  length_le : ips.length ≤ count
  nodup : ips.Nodup
  offset : ∀ ip ∈ ips, ∃ i < count, ∃ o, InSegment r.size count i o ∧
    addIP r.start o = some ip ∧ ip.toNat16 = r.start.toNat16 + o
  endpoint : ∀ ip ∈ ips, ip.is4 = true → ip.asSlice.getD 3 0 ≠ 0 ∧ ip.asSlice.getD 3 0 ≠ 255

theorem lastOctet_of_validEndpoint {ip : Addr} (h : validEndpoint ip = true)
    (his4 : ip.is4 = true) : ip.asSlice.getD 3 0 ≠ 0 ∧ ip.asSlice.getD 3 0 ≠ 255 := by
  simpa [validEndpoint, his4] using h

theorem Sampled.sample {r : IpRange} {count : Nat} {ips : List Addr}
    (h : Sampled r count count ips) : Sample r count ips where
  bySegment := h
  length_le := h.length_le
  nodup := by
    refine (h.ascending le_rfl).imp fun {ip ip'} hlt heq ↦ ?_
    exact Nat.lt_irrefl _ (congrArg Addr.toNat16 heq ▸ hlt)
  offset ip hip := by
    obtain ⟨i, hi, o, ho, hadd, -⟩ := h.exists_offset hip
    exact ⟨i, hi, o, ho, hadd, toNat16_addIP hadd⟩
  endpoint ip hip := by
    obtain ⟨i, hi, o, ho, hadd, hvalid⟩ := h.exists_offset hip
    exact lastOctet_of_validEndpoint hvalid

/-! ## The loops -/

/-- What the attempts at a segment give: an error if the source may fail, nothing, or the address
of an offset in the segment. -/
def PickedIn (failing : Prop) (start : Addr) (segStart segmentSize : Nat) :
    Option (Option Addr) → Prop
  | none => failing
  | some none => True
  | some (some ip) =>
    ∃ o < segmentSize, addIP start (segStart + o) = some ip ∧ validEndpoint ip = true

variable {failing : Prop}

theorem yields_pickIP {start : Addr} {segStart segmentSize : Nat} (hpos : 0 < segmentSize)
    (hfit : start.toNat16 + (segStart + segmentSize) ≤ 2 ^ 128) (attempts : Nat) :
    (pickIP start segStart segmentSize attempts).Yields failing
      (PickedIn failing start segStart segmentSize) := by
  induction attempts with
  | zero => exact trivial
  | succ attempts ih =>
    rw [pickIP, Draw.yields_bind, Draw.yields_number hpos]
    refine ⟨fun hf ↦ hf, fun o ho ↦ ?_⟩
    have hadd : addIP start (segStart + o) = some (.ofNat16 (start.toNat16 + (segStart + o))) :=
      addIP_eq_some.mpr ⟨by omega, rfl⟩
    simp only [Draw.yields_bind, Draw.yields_ofOption, hadd, Option.elim_some,
      Addr.isValid_ofNat16, Bool.true_and]
    split_ifs with hvalid
    · exact ⟨o, ho, hadd, hvalid⟩
    · exact ih

def SampledTo (failing : Prop) (r : IpRange) (count : Nat) : Option (List Addr) → Prop
  | none => failing
  | some ips => Sampled r count count ips

/-- The loop over the segments, from segment `n` on. -/
theorem yields_segmentLoop {r : IpRange} {count m n : Nat} (hle : count ≤ r.size)
    (hfit : r.start.toNat16 + r.size ≤ 2 ^ 128) (hmn : n + m = count) {ips : List Addr}
    (hs : Sampled r count n ips) :
    (segmentLoop r count (r.size / count) (List.range' n m) ips).Yields failing
      (SampledTo failing r count) := by
  induction m generalizing n ips with
  | zero =>
    obtain rfl : n = count := hmn
    exact hs
  | succ m ih =>
    have hn : n < count := by omega
    have hdiv := divides (Nat.zero_lt_of_lt hn) hle
    have hlt := hdiv.nonempty n hn
    have hend : segEnd r.size count (r.size / count) n - 1 < r.size :=
      InSegment.lt_size ⟨by omega, by omega⟩ hn hle
    rw [List.range'_succ, segmentLoop, if_neg (by omega), Draw.yields_bind]
    refine (yields_pickIP (by omega) (by omega) maxRetries).mono fun res hres ↦ ?_
    cases res with
    | none => exact hres
    | some picked =>
      cases picked with
      | none => exact ih (by omega) hs.skip
      | some ip =>
        obtain ⟨o, ho, hadd, hvalid⟩ := hres
        exact ih (by omega) (hs.pick ⟨Nat.le_add_right _ _, by omega⟩ hadd hvalid)

/-- `generateIPsFromRange` on a range that is not too long for its start. -/
theorem yields_generateIPsFromRange {r : IpRange} {count : Nat} (hsize : 0 < r.size)
    (hcount : 0 < count) (hfit : r.start.toNat16 + r.size ≤ 2 ^ 128) :
    (generateIPsFromRange r count).Yields failing (SampledTo failing r (min r.size count)) := by
  unfold generateIPsFromRange
  dsimp only
  rw [if_neg (by omega), List.range_eq_range']
  exact yields_segmentLoop (Nat.min_le_left _ _) hfit (Nat.zero_add _) .nil

/-! ## Ranges of prefixes -/

/-- The count after
`if r.size.Cmp(big.NewInt(int64(count))) < 0 { count = int(r.size.Int64()) }`. -/
def clampCount (size : Nat) (count : Int64) : Int64 :=
  if (size : Int) < count.toInt then Int64.ofInt size else count

theorem clampCount_eq_min (size : Nat) {count : Int64} (hcount : 1 ≤ count) :
    (clampCount size count).toNatClampNeg = min size count.toNatClampNeg := by
  have hpos : 1 ≤ count.toInt := Int64.le_iff_toInt_le.mp hcount
  have hmax : count.toInt < 2 ^ 63 := count.toInt_lt
  show (clampCount size count).toInt.toNat = min size count.toInt.toNat
  unfold clampCount
  split_ifs with hlt
  · rw [Int64.toInt_ofInt_of_le (by omega) (by omega)]
    omega
  · omega

/-- **Sampling by segments.**  For the range of a prefix without host bits and any count from one
on, the range is divided into the smaller of the count and the size many segments, and what is
returned is a sample by these segments: at most one address from each, in their order, each the
start of the range plus an offset in its segment, all distinct, and none of them an IPv4 address
that ends in 0 or 255.  A source that may fail can make the function return an error instead; one
that does not fail cannot. -/
theorem segmented_sampling {p : Prefix} (hp : p.isValid = true) (hmask : p.IsMasked)
    (cidr : Prefix) {count : Int64} (hcount : 1 ≤ count) :
    let r : IpRange := ⟨cidr, p.addr, ipRangeSize p⟩
    let k := (clampCount r.size count).toNatClampNeg
    k = min r.size count.toNatClampNeg ∧ Divides r.size k ∧
      (∀ draws, ∃ res, (generateIPsFromRange r count.toNatClampNeg).run draws = some res ∧
        ∀ ips, res = some ips → Sample r k ips) ∧
      ∀ numbers, ∃ ips, (generateIPsFromRange r count.toNatClampNeg).stream numbers =
        some (some ips) ∧
        Sample r k ips := by
  intro r k
  have hk : k = min r.size count.toNatClampNeg := clampCount_eq_min r.size hcount
  have hsize : 0 < r.size := ipRangeSize_pos p
  have hpos : 0 < count.toNatClampNeg := by
    have : 1 ≤ count.toInt := Int64.le_iff_toInt_le.mp hcount
    show 0 < count.toInt.toNat
    omega
  have hyields (failing : Prop) :
      (generateIPsFromRange r count.toNatClampNeg).Yields failing (SampledTo failing r k) :=
    hk ▸ yields_generateIPsFromRange hsize hpos (range_end_le hp hmask)
  refine ⟨hk, divides (by omega) (by omega), fun draws ↦ ?_, fun numbers ↦ ?_⟩
  · obtain ⟨res, hrun, hres⟩ := (hyields True).run draws
    refine ⟨res, hrun, ?_⟩
    rintro ips rfl
    exact Sampled.sample hres
  · obtain ⟨res, hrun, hres⟩ := (hyields False).stream numbers
    cases res with
    | none => exact hres.elim
    | some ips => exact ⟨ips, hrun, Sampled.sample hres⟩

/-- Three addresses from a /30: the last segment has two offsets. -/
theorem segmented_sampling_slash30 :
    segEnd 4 3 1 2 = 4 ∧ Divides 4 3 ∧ ∀ numbers, ∃ ips,
      (generateIPsFromRange ⟨default, .v4 0x0a000000, 4⟩ 3).stream numbers = some (some ips) ∧
        Sample ⟨default, .v4 0x0a000000, 4⟩ 3 ips := by
  have h := @segmented_sampling (prefixFrom (.v4 0x0a000000) 30) rfl rfl default 3 (by decide)
  exact ⟨rfl, h.2.1, h.2.2.2⟩

end Vwarp.IpScanner.Iterator
