import Mathlib.Data.List.Range
import Vwarp.Go.IPNet

/-!
# The addresses of a range

`expandCIDR` walks through a network from its first address, incrementing the address in place, as
long as the network contains it, and leaves out the network address and, for IPv4, the broadcast
address.

`expandsTo_iff` says when the result is what a scan of the range should try.  It is not for networks
with one or two addresses, of which at most the second is tried, for an IPv6 network that covers the
16-byte forms of IPv4 addresses, where the walk ends, and for `0.0.0.0/0`, where it starts over.
-/

namespace Vwarp.Masque.Scanner

open Vwarp.Go Vwarp.Lib

/-- The loop of `incIP`, from the last byte on. -/
def incIPLoop : Bytes → Bytes
  | [] => []
  | b :: bs => if 0 < b + 1 then (b + 1) :: bs else (b + 1) :: incIPLoop bs

/-- `incIP`. -/
def incIP (ip : Bytes) : Bytes := (incIPLoop ip.reverse).reverse

/-- `isNetworkOrBroadcast`. -/
def isNetworkOrBroadcast (ip : Bytes) (ipnet : IPNet) : Bool :=
  if ipEqual ip ipnet.ip then true
  else if (to4 ip).isSome then
    let broadcast := (ipnet.ip ++ List.replicate ip.length 0).take ip.length
    ipEqual ip (List.zipWith (fun b m ↦ b ||| ~~~m) broadcast ipnet.mask)
  else false

/-- The loop of `expandCIDR`; `none` if it has not ended after `fuel` rounds. -/
def expandLoop (ipnet : IPNet) (maxIPs : Int) : Nat → Bytes → List Bytes → Option (List Bytes)
  | 0, _, _ => none
  | fuel + 1, ip, ips =>
    if ipnet.contains ip then
      if isNetworkOrBroadcast ip ipnet then expandLoop ipnet maxIPs fuel (incIP ip) ips
      else if maxIPs ≤ (ips ++ [ip]).length then some (ips ++ [ip])
      else expandLoop ipnet maxIPs fuel (incIP ip) (ips ++ [ip])
    else some ips

/-- `expandCIDR`. -/
def expandCIDR (fuel : Nat) (cidr : Bytes) (maxIPs : Int) : Option (List Bytes) :=
  match parseCIDR cidr with
  | none => some []
  | some (ip, ipnet) => expandLoop ipnet maxIPs fuel (ipMask ip ipnet.mask) []

/-- `expandCIDR` returns `ips`. -/
def ExpandsTo (cidr : Bytes) (maxIPs : Int) (ips : List Bytes) : Prop :=
  ∃ enough, ∀ fuel, enough ≤ fuel → expandCIDR fuel cidr maxIPs = some ips

/-! ## Addresses as numbers -/

theorem incIP_concat (bs : Bytes) (b : UInt8) :
    incIP (bs ++ [b]) = if 0 < b + 1 then bs ++ [b + 1] else incIP bs ++ [b + 1] := by
  rw [incIP, List.reverse_append, List.reverse_singleton, List.singleton_append, incIPLoop]
  split
  · rw [List.reverse_cons, List.reverse_reverse]
  · rw [List.reverse_cons, incIP]

theorem incIP_toBE (w k : Nat) : incIP (toBE w k) = toBE w (k + 1) := by
  induction w generalizing k with
  | zero => rfl
  | succ w ih =>
    have hbyte : UInt8.ofNat k + 1 = UInt8.ofNat (k + 1) := UInt8.ofNat_add k 1 |>.symm
    have hpos : 0 < UInt8.ofNat k + 1 ↔ (k + 1) % 256 ≠ 0 := by
      rw [hbyte, UInt8.lt_iff_toNat_lt, UInt8.toNat_ofNat']
      exact Nat.pos_iff_ne_zero
    rw [toBE_succ_concat, toBE_succ_concat, incIP_concat, hbyte.symm]
    split_ifs with h
    · rw [show (k + 1) / 256 = k / 256 by have := hpos.mp h; omega]
    · rw [ih, show (k + 1) / 256 = k / 256 + 1 by have := mt hpos.mpr h; omega]

section Walk

variable (N : Network)

theorem incIP_bytes (k : Nat) : incIP (N.bytes k) = N.bytes (k + 1) := incIP_toBE N.width k

theorem length_bytes (k : Nat) : (N.bytes k).length = N.width := length_toBE _ _

theorem ipEqual_bytes {a b : Nat} (ha : a < 256 ^ N.width) (hb : b < 256 ^ N.width) :
    ipEqual (N.bytes a) (N.bytes b) = true ↔ a = b := by
  rw [ipEqual, length_bytes, length_bytes, if_pos rfl, decide_eq_true_eq, N.bytes_inj ha hb]

/-- The addresses of a network that are left out: the first and, for IPv4, the last one. -/
def outer (k : Nat) : Bool :=
  k = N.base || N.v4 && k = N.base + (2 ^ N.hostBits - 1)

theorem isNetworkOrBroadcast_bytes {k : Nat} (hk : k < 256 ^ N.width)
    (hcontains : N.toIPNet.contains (N.bytes k) = true) :
    isNetworkOrBroadcast (N.bytes k) N.toIPNet = outer N k := by
  obtain ⟨hblock, hform⟩ := (N.contains_iff hk).mp hcontains
  have hend := N.block_le
  have hbase : ipEqual (N.bytes k) N.toIPNet.ip = decide (k = N.base) := by
    rw [Bool.eq_iff_iff, decide_eq_true_eq]
    exact ipEqual_bytes N hk (by omega)
  have hcopy : (N.toIPNet.ip ++ List.replicate (N.bytes k).length 0).take (N.bytes k).length =
      N.toIPNet.ip := by
    rw [length_bytes]
    exact List.take_left' (length_bytes N N.base)
  have hlast : ipEqual (N.bytes k) (N.bytes (N.base + (2 ^ N.hostBits - 1))) =
      decide (k = N.base + (2 ^ N.hostBits - 1)) := by
    rw [Bool.eq_iff_iff, decide_eq_true_eq]
    exact ipEqual_bytes N hk (by omega)
  rw [isNetworkOrBroadcast, hbase, N.isSome_to4_bytes hk hcontains, hcopy]
  dsimp only
  rw [N.zipWith_or_mask, hlast, outer]
  by_cases hk0 : k = N.base
  · simp [hk0]
  · cases N.v4 <;> simp [hk0]

/-- How many addresses the walk may want: `maxIPs`, but it takes one before it looks. -/
def wanted (maxIPs : Int) : Nat := max 1 maxIPs.toNat

theorem wanted_pos (maxIPs : Int) : 0 < wanted maxIPs :=
  Nat.lt_of_lt_of_le Nat.one_pos (Nat.le_max_left _ _)

theorem le_iff_wanted_le (maxIPs : Int) {n : Nat} (hn : 0 < n) :
    maxIPs ≤ n ↔ wanted maxIPs ≤ n := by
  rw [wanted]
  omega

/-- The addresses that the walk collects of `len` addresses from `k` on. -/
def inner (k len : Nat) : List Nat :=
  (List.range' k len).filter fun k ↦ !isNetworkOrBroadcast (N.bytes k) N.toIPNet

variable {len : Nat}

/-- A walk over addresses that the network contains, up to one that it does not contain or until it
has what it wants. -/
theorem expandLoop_walk (maxIPs : Int) :
    ∀ {k : Nat} {ips : List Bytes} {fuel : Nat}, ips.length < wanted maxIPs →
      (∀ j < len, N.toIPNet.contains (N.bytes (k + j)) = true) →
      N.toIPNet.contains (N.bytes (k + len)) = false ∨
        wanted maxIPs ≤ ips.length + (inner N k len).length →
      len < fuel →
      expandLoop N.toIPNet maxIPs fuel (N.bytes k) ips =
        some (ips ++ ((inner N k len).take (wanted maxIPs - ips.length)).map N.bytes) := by
  induction len with
  | zero =>
    intro k ips fuel hips _ hstop hfuel
    obtain ⟨fuel, rfl⟩ := Nat.exists_eq_succ_of_ne_zero (Nat.pos_iff_ne_zero.mp hfuel)
    have hnil : inner N k 0 = [] := rfl
    have hend : N.toIPNet.contains (N.bytes k) = false := by
      rw [hnil] at hstop
      exact hstop.resolve_right (Nat.not_le.mpr hips)
    rw [expandLoop, hend, hnil, List.take_nil]
    simp
  | succ len ih =>
    intro k ips fuel hips hcontains hstop hfuel
    obtain ⟨fuel, rfl⟩ :=
      Nat.exists_eq_succ_of_ne_zero (Nat.pos_iff_ne_zero.mp (Nat.zero_lt_of_lt hfuel))
    have hrest : ∀ j < len, N.toIPNet.contains (N.bytes (k + 1 + j)) = true := by
      intro j hj
      rw [Nat.add_right_comm]
      exact hcontains (j + 1) (by omega)
    have hfirst : N.toIPNet.contains (N.bytes k) = true := hcontains 0 (Nat.succ_pos len)
    rw [expandLoop, if_pos hfirst, incIP_bytes]
    split
    · rename_i houter
      have hinner : inner N k (len + 1) = inner N (k + 1) len := by
        rw [inner, List.range'_succ, List.filter_cons, if_neg (by simp [houter]), inner]
      rw [hinner] at hstop ⊢
      refine ih hips hrest ?_ (by omega)
      rwa [Nat.add_right_comm]
    · rename_i houter
      have hinner : inner N k (len + 1) = k :: inner N (k + 1) len := by
        rw [inner, List.range'_succ, List.filter_cons, if_pos (by simpa using houter), inner]
      have hlen : (ips ++ [N.bytes k]).length = ips.length + 1 := List.length_append
      rw [hinner, List.length_cons] at hstop
      have hiff := le_iff_wanted_le maxIPs (Nat.succ_pos ips.length)
      rw [hinner, hlen]
      split_ifs with hge
      · have henough := hiff.mp hge
        have hone : wanted maxIPs - ips.length = 1 := by omega
        rw [hone, List.take_succ_cons, List.take_zero]
        rfl
      · have hmore := mt hiff.mpr hge
        have hsucc : wanted maxIPs - ips.length = wanted maxIPs - (ips.length + 1) + 1 := by omega
        rw [ih (by rw [hlen]; omega) hrest ?_ (by omega), hlen, hsucc, List.take_succ_cons,
          List.map_cons, List.append_assoc, List.singleton_append]
        refine hstop.imp (fun hend ↦ ?_) fun hcount ↦ ?_
        · rwa [Nat.add_right_comm]
        · rw [hlen]
          omega

variable {fuel : Nat} {ips : List Bytes}

theorem expandLoop_inner {ipnet : IPNet} {maxIPs : Int} {ip : Bytes} {ips' : List Bytes}
    (h : expandLoop ipnet maxIPs fuel ip ips = some ips') {x : Bytes} (hx : x ∈ ips') :
    x ∈ ips ∨ isNetworkOrBroadcast x ipnet = false := by
  induction fuel generalizing ip ips with
  | zero => cases h
  | succ fuel ih =>
    rw [expandLoop] at h
    split at h
    · split at h
      · exact ih h
      · rename_i houter
        have hnew : x ∈ ips ++ [ip] → x ∈ ips ∨ isNetworkOrBroadcast x ipnet = false := by
          intro hmem
          rcases List.mem_append.mp hmem with hmem | hmem
          · exact .inl hmem
          · rw [List.mem_singleton.mp hmem]
            exact .inr (Bool.eq_false_iff.mpr houter)
        split at h
        · cases h
          exact hnew hx
        · exact (ih h).elim hnew .inr
    · cases h
      exact .inl hx

theorem expandLoop_endless {maxIPs : Int} (hcontains : ∀ k, N.toIPNet.contains (N.bytes k) = true)
    {k : Nat} {ips' : List Bytes}
    (h : expandLoop N.toIPNet maxIPs fuel (N.bytes k) ips = some ips') : maxIPs ≤ ips'.length := by
  induction fuel generalizing k ips with
  | zero => cases h
  | succ fuel ih =>
    rw [expandLoop, if_pos (hcontains k), incIP_bytes] at h
    split at h
    · exact ih h
    · split_ifs at h with henough
      · cases h
        exact henough
      · exact ih h

/-! ## Where a walk ends -/

/-- The block has addresses in the 16-byte form of IPv4, and starts before them. -/
def CoversMapped : Prop :=
  N.v4 = false ∧ N.base ≤ Addr.mappedBase ∧ Addr.mappedBase < N.base + 2 ^ N.hostBits

instance : Decidable (CoversMapped N) := inferInstanceAs (Decidable (_ ∧ _))

def Endless : Prop := N.wide = false ∧ N.hostBits = 32

instance : Decidable (Endless N) := inferInstanceAs (Decidable (_ ∧ _))

/-- How many addresses from the first one on the network contains. -/
def reach : Nat := if CoversMapped N then Addr.mappedBase - N.base else 2 ^ N.hostBits

theorem reach_le : reach N ≤ 2 ^ N.hostBits := by
  rw [reach]
  split_ifs with h
  · exact Nat.sub_le_of_le_add (Nat.add_comm N.base _ ▸ Nat.le_of_lt h.2.2)
  · exact Nat.le_refl _

theorem contains_of_lt_reach {j : Nat} (hj : j < reach N) :
    N.toIPNet.contains (N.bytes (N.base + j)) = true := by
  have hle := reach_le N
  have hend := N.block_le
  refine (N.contains_iff (by omega)).mpr ⟨⟨Nat.le_add_right _ _, by omega⟩, ?_⟩
  cases hv4 : N.v4 with
  | true => exact .inl rfl
  | false =>
    refine .inr fun hmapped ↦ ?_
    have hbase := (Network.v4_eq_false.mp hv4).2
    have hmap : Addr.mappedBase = 0xffff * 2 ^ 32 := rfl
    have hcovers : CoversMapped N := ⟨hv4, by omega, by omega⟩
    rw [reach, if_pos hcovers] at hj
    omega

theorem not_contains_reach (h : ¬Endless N) :
    N.toIPNet.contains (N.bytes (N.base + reach N)) = false := by
  have hend := N.block_le
  have hpos := Nat.two_pow_pos N.hostBits
  rw [Bool.eq_false_iff, reach]
  split_ifs with hcovers
  · obtain ⟨hv4, hle, hlt⟩ := hcovers
    rw [Nat.add_sub_cancel' hle]
    intro hcontains
    have hform := ((N.contains_iff (by omega)).mp hcontains).2
    rw [hv4] at hform
    exact hform.resolve_left nofun rfl
  · intro hcontains
    rcases Nat.lt_or_ge (N.base + 2 ^ N.hostBits) (256 ^ N.width) with hlt | hge
    · have hblock := ((N.contains_iff hlt).mp hcontains).1
      omega
    · -- The walk is at the end of the address space and starts over.
      have hwrap : N.bytes (N.base + 2 ^ N.hostBits) = N.bytes 0 := by
        rw [Network.bytes, Network.bytes, toBE_eq_iff, Nat.le_antisymm hend hge, Nat.mod_self,
          Nat.zero_mod]
      rw [hwrap] at hcontains
      have hblock := ((N.contains_iff (Nat.pow_pos (by decide))).mp hcontains).1
      have hbase : N.base = 0 := Nat.le_zero.mp hblock.1
      have hall : 2 ^ N.hostBits = 256 ^ N.width := by omega
      cases hwide : N.wide with
      | false =>
        rw [Network.width_narrow hwide] at hall
        exact h ⟨hwide, Nat.pow_right_injective (Nat.le_refl 2) hall⟩
      | true =>
        rw [Network.width_wide hwide] at hall
        refine hcovers ⟨?_, by omega, ?_⟩
        · rw [Network.v4, hwide, hbase]
          rfl
        · rw [hall, hbase]
          decide

theorem base_of_endless (h : Endless N) : N.base = 0 := by
  have haligned := N.aligned
  rw [h.2, Nat.mod_eq_of_lt (Network.bounds_narrow h.1).2] at haligned
  exact haligned

theorem v4_of_endless (h : Endless N) : N.v4 = true := by
  rw [Network.v4, h.1]
  rfl

theorem bytes_of_endless (h : Endless N) (k : Nat) : N.bytes k = N.bytes (k % 2 ^ 32) := by
  rw [Network.bytes, Network.bytes, Network.width_narrow h.1]
  exact (toBE_mod 4 k).symm

theorem contains_of_endless (h : Endless N) (k : Nat) : N.toIPNet.contains (N.bytes k) = true := by
  have hlt : k % 2 ^ 32 < 2 ^ 32 := Nat.mod_lt _ (Nat.two_pow_pos 32)
  rw [bytes_of_endless N h]
  refine (N.contains_iff ?_).mpr ⟨⟨?_, ?_⟩, .inl (v4_of_endless N h)⟩
  · rw [Network.width_narrow h.1]
    exact hlt
  · rw [base_of_endless N h]
    exact Nat.zero_le _
  · rw [base_of_endless N h, h.2, Nat.zero_add]
    exact hlt

/-! ## What a walk returns -/

theorem expandLoop_reach (h : ¬Endless N) (maxIPs : Int) (hfuel : reach N < fuel) :
    expandLoop N.toIPNet maxIPs fuel (N.bytes N.base) [] =
      some (((inner N N.base (reach N)).take (wanted maxIPs)).map N.bytes) :=
  expandLoop_walk N maxIPs (wanted_pos maxIPs)
    (fun _ hj ↦ contains_of_lt_reach N hj) (.inl (not_contains_reach N h)) hfuel

theorem expandLoop_of_endless (h : Endless N) (maxIPs : Int)
    (hlen : wanted maxIPs ≤ (inner N N.base len).length) (hfuel : len < fuel) :
    expandLoop N.toIPNet maxIPs fuel (N.bytes N.base) [] =
      some (((inner N N.base len).take (wanted maxIPs)).map N.bytes) :=
  expandLoop_walk N maxIPs (wanted_pos maxIPs)
    (fun _ _ ↦ contains_of_endless N h _) (.inr (by rwa [List.length_nil, Nat.zero_add])) hfuel

theorem inner_add (k a b : Nat) : inner N k (a + b) = inner N k a ++ inner N (k + a) b := by
  rw [inner, inner, inner, ← List.filter_append, List.range'_append_1]

/-- Of three addresses of IPv4 in a row, one is neither the first nor the last. -/
theorem exists_inner_of_endless (h : Endless N) (k : Nat) :
    ∃ j < 3, isNetworkOrBroadcast (N.bytes (k + j)) N.toIPNet = false := by
  have hbase := base_of_endless N h
  have houter : ∀ j, (k + j) % 2 ^ 32 ≠ 0 → (k + j) % 2 ^ 32 ≠ 2 ^ 32 - 1 →
      isNetworkOrBroadcast (N.bytes (k + j)) N.toIPNet = false := by
    intro j hfirst hlast
    have hlt : (k + j) % 2 ^ 32 < 256 ^ N.width := by
      rw [Network.width_narrow h.1]
      exact Nat.mod_lt _ (Nat.two_pow_pos 32)
    rw [bytes_of_endless N h, isNetworkOrBroadcast_bytes N hlt (contains_of_endless N h _),
      outer, hbase, h.2, Nat.zero_add, decide_eq_false hfirst, decide_eq_false hlast,
      Bool.and_false, Bool.or_false]
  rcases Nat.lt_or_ge ((k + 1) % 2 ^ 32) 1 with hzero | hpos
  · exact ⟨2, by decide, houter 2 (by omega) (by omega)⟩
  · rcases Nat.lt_or_ge ((k + 1) % 2 ^ 32) (2 ^ 32 - 1) with hlt | hge
    · exact ⟨1, by decide, houter 1 (by omega) (by omega)⟩
    · exact ⟨0, by decide, houter 0 (by omega) (by omega)⟩

theorem le_length_inner_of_endless (h : Endless N) (m k : Nat) :
    m ≤ (inner N k (3 * m)).length := by
  induction m generalizing k with
  | zero => exact Nat.zero_le _
  | succ m ih =>
    obtain ⟨j, hj, hinner⟩ := exists_inner_of_endless N h k
    have hmem : k + j ∈ inner N k 3 := by
      refine List.mem_filter.mpr ⟨List.mem_range'_1.mpr ⟨Nat.le_add_right _ _, by omega⟩, ?_⟩
      rw [hinner]
      rfl
    have hpos := List.length_pos_of_mem hmem
    have hrest := ih (k + 3)
    rw [Nat.mul_succ, Nat.add_comm (3 * m), inner_add, List.length_append]
    omega

theorem exists_expandLoop (maxIPs : Int) : ∃ ips enough, ∀ fuel, enough ≤ fuel →
    expandLoop N.toIPNet maxIPs fuel (N.bytes N.base) [] = some ips := by
  by_cases h : Endless N
  · exact ⟨_, _, fun _ hfuel ↦
      expandLoop_of_endless N h maxIPs (le_length_inner_of_endless N h (wanted maxIPs) _) hfuel⟩
  · exact ⟨_, _, fun _ hfuel ↦ expandLoop_reach N h maxIPs hfuel⟩

theorem inner_eq (hlen : len ≤ reach N) :
    inner N N.base len = (List.range' N.base len).filter fun k ↦ !outer N k := by
  refine List.filter_congr fun k hk ↦ ?_
  obtain ⟨hle, hlt⟩ := List.mem_range'_1.mp hk
  have hcontains :=
    contains_of_lt_reach N (Nat.lt_of_lt_of_le (Nat.sub_lt_left_of_lt_add hle hlt) hlen)
  rw [Nat.add_sub_cancel' hle] at hcontains
  have hend := N.block_le
  have hreach := reach_le N
  rw [isNetworkOrBroadcast_bytes N (by omega) hcontains]

/-! ## What should be tried -/

/-- The addresses of a network that a host can have, in ascending order: all of at most two, and
otherwise all but the network address and, for IPv4, the broadcast address. -/
def usable : List Nat :=
  (List.range' N.base (2 ^ N.hostBits)).filter fun k ↦ N.hostBits ≤ 1 || !outer N k

/-- The network is one for which the walk finds the first `maxIPs` of these. -/
structure Exact (maxIPs : Int) : Prop where
  size : 2 ≤ N.hostBits
  all : Endless N → maxIPs ≤ 2 ^ 32 - 2
  mapped : CoversMapped N → maxIPs ≤ Addr.mappedBase - N.base - 1

theorem usable_eq (h : 2 ≤ N.hostBits) :
    usable N = (List.range' N.base (2 ^ N.hostBits)).filter fun k ↦ !outer N k := by
  refine List.filter_congr fun k _ ↦ ?_
  rw [decide_eq_false (by omega), Bool.false_or]

theorem outer_base : outer N N.base = true := by
  rw [outer, decide_eq_true rfl, Bool.true_or]

theorem filter_outer_of_forall {k len : Nat} (h : ∀ j, k ≤ j → j < k + len → outer N j = false) :
    ((List.range' k len).filter fun k ↦ !outer N k) = List.range' k len := by
  refine List.filter_eq_self.mpr fun j hj ↦ ?_
  obtain ⟨hle, hlt⟩ := List.mem_range'_1.mp hj
  rw [h j hle hlt]
  rfl

theorem exists_block : ∃ len, 2 ^ N.hostBits = len + 1 :=
  Nat.exists_eq_succ_of_ne_zero (Nat.pos_iff_ne_zero.mp (Nat.two_pow_pos N.hostBits))

theorem length_filter_v6 (hv4 : N.v4 = false) (len : Nat) :
    ((List.range' N.base (len + 1)).filter fun k ↦ !outer N k).length = len := by
  rw [List.range'_succ, List.filter_cons, outer_base, filter_outer_of_forall]
  · exact List.length_range'
  · intro k hle _
    rw [outer, hv4, decide_eq_false (by omega)]
    rfl

theorem length_filter_v4 (hv4 : N.v4 = true) (h : 1 ≤ N.hostBits) :
    ((List.range' N.base (2 ^ N.hostBits)).filter fun k ↦ !outer N k).length =
      2 ^ N.hostBits - 2 := by
  obtain ⟨len, hlen⟩ : ∃ len, 2 ^ N.hostBits = len + 2 := by
    have hle : 2 ^ 1 ≤ 2 ^ N.hostBits := Nat.pow_le_pow_right (by decide) h
    exact ⟨2 ^ N.hostBits - 2, by omega⟩
  have hlast : outer N (N.base + 1 + len) = true := by
    rw [outer, hv4, hlen, Bool.or_eq_true_iff]
    exact .inr (decide_eq_true (by omega))
  rw [hlen, List.range'_succ, List.range'_concat, List.filter_cons, outer_base, List.filter_append,
    filter_outer_of_forall, Nat.one_mul, List.filter_singleton, hlast]
  · simp
  · intro k hle hlt
    rw [outer, hlen, decide_eq_false (by omega), decide_eq_false (by omega), Bool.and_false]
    rfl

theorem base_lt_width : N.base < 256 ^ N.width := by
  rw [N.pow_width]
  exact N.base_lt

theorem base_not_mem {maxIPs : Int}
    (h : expandLoop N.toIPNet maxIPs fuel (N.bytes N.base) [] = some ips) :
    N.bytes N.base ∉ ips := by
  intro hmem
  have hequal := (ipEqual_bytes N (base_lt_width N) (base_lt_width N)).mpr rfl
  rcases expandLoop_inner h hmem with hnil | hinner
  · cases hnil
  · rw [isNetworkOrBroadcast, Network.toIPNet, hequal] at hinner
    cases hinner

theorem wanted_eq {maxIPs : Int} (h : 1 ≤ maxIPs) : wanted maxIPs = maxIPs.toNat := by
  rw [wanted]
  omega

theorem base_lt_mapped (h : CoversMapped N) : N.base < Addr.mappedBase := by
  refine Nat.lt_of_le_of_ne h.2.1 fun hbase ↦ (Network.v4_eq_false.mp h.1).2 ?_
  rw [hbase]
  rfl

theorem not_endless_of_covers (h : CoversMapped N) : ¬Endless N := by
  intro hendless
  cases hendless.1.symm.trans (Network.v4_eq_false.mp h.1).1

theorem length_inner_of_covers (h : CoversMapped N) :
    (inner N N.base (reach N)).length = Addr.mappedBase - N.base - 1 := by
  have hlt := base_lt_mapped N h
  obtain ⟨len, hlen⟩ : ∃ len, reach N = len + 1 := by
    refine ⟨Addr.mappedBase - N.base - 1, ?_⟩
    rw [reach, if_pos h]
    omega
  have hreach : reach N = Addr.mappedBase - N.base := if_pos h
  rw [inner_eq N (Nat.le_refl _), hlen, length_filter_v6 N h.1]
  omega

/-- On a network of the kind, the walk finds what should be tried. -/
theorem expandLoop_of_exact {maxIPs : Int} (hmax : 1 ≤ maxIPs) (h : Exact N maxIPs)
    (hfuel : 2 ^ N.hostBits < fuel) :
    expandLoop N.toIPNet maxIPs fuel (N.bytes N.base) [] =
      some (((usable N).take maxIPs.toNat).map N.bytes) := by
  have hle := reach_le N
  rw [usable_eq N h.size, ← wanted_eq hmax]
  by_cases hcovers : CoversMapped N
  · have hlen := length_inner_of_covers N hcovers
    have hwanted : wanted maxIPs ≤ (inner N N.base (reach N)).length := by
      have := h.mapped hcovers
      have := base_lt_mapped N hcovers
      rw [hlen, wanted_eq hmax]
      omega
    rw [expandLoop_reach N (not_endless_of_covers N hcovers) maxIPs (Nat.lt_of_le_of_lt hle hfuel),
      ← Nat.add_sub_cancel' hle, ← List.range'_append_1, List.filter_append,
      ← inner_eq N (Nat.le_refl _), List.take_append_of_le_length hwanted]
  · have hreach : reach N = 2 ^ N.hostBits := if_neg hcovers
    rw [← inner_eq N (Nat.le_of_eq hreach.symm)]
    by_cases hendless : Endless N
    · refine expandLoop_of_endless N hendless maxIPs ?_ hfuel
      have hall := h.all hendless
      rw [inner_eq N (Nat.le_of_eq hreach.symm),
        length_filter_v4 N (v4_of_endless N hendless) (Nat.le_of_succ_le h.size), hendless.2,
        wanted_eq hmax]
      omega
    · rw [← hreach] at hfuel ⊢
      exact expandLoop_reach N hendless maxIPs hfuel

/-- On every other network it does not. -/
theorem exact_of_expandLoop {maxIPs : Int} (hmax : 1 ≤ maxIPs) (hfuel : 2 ^ N.hostBits < fuel)
    (h : expandLoop N.toIPNet maxIPs fuel (N.bytes N.base) [] =
      some (((usable N).take maxIPs.toNat).map N.bytes)) : Exact N maxIPs := by
  have hsize : 2 ≤ N.hostBits := by
    by_contra hlt
    refine base_not_mem N h (List.mem_map_of_mem ?_)
    -- The first usable address is the network address.
    obtain ⟨len, hlen⟩ := exists_block N
    obtain ⟨m, hm⟩ := Nat.exists_eq_succ_of_ne_zero (show maxIPs.toNat ≠ 0 by omega)
    rw [usable, hlen, hm, List.range'_succ, List.filter_cons, if_pos (by simp; omega),
      List.take_succ_cons]
    exact List.mem_cons_self
  refine ⟨hsize, fun hendless ↦ ?_, fun hcovers ↦ ?_⟩
  · have hle := expandLoop_endless N (contains_of_endless N hendless) h
    have hlen := length_filter_v4 N (v4_of_endless N hendless) (by omega)
    rw [← usable_eq N hsize, hendless.2] at hlen
    rw [List.length_map, List.length_take, hlen] at hle
    omega
  · have hlt := hcovers.2.2
    have hbase := base_lt_mapped N hcovers
    have hreach := Nat.lt_of_le_of_lt (reach_le N) hfuel
    rw [expandLoop_reach N (not_endless_of_covers N hcovers) maxIPs hreach] at h
    have hlen := congrArg List.length (Option.some.inj h)
    obtain ⟨len, hblock⟩ := exists_block N
    have husable : (usable N).length = len := by
      rw [usable_eq N hsize, hblock, length_filter_v6 N hcovers.1]
    rw [List.length_map, List.length_map, List.length_take, List.length_take, husable,
      length_inner_of_covers N hcovers, wanted_eq hmax] at hlen
    omega

/-! ## When anything is tried -/

/-- The networks of which the walk tries an address. -/
def Tried : Prop := N.hostBits ≠ 0 ∧ (N.v4 = true → N.hostBits ≠ 1)

theorem second_mem_inner (h : Tried N) : N.base + 1 ∈ inner N N.base (reach N) := by
  have hpow : 2 ∣ 2 ^ N.hostBits := dvd_pow_self 2 h.1
  have htwo : 2 ≤ 2 ^ N.hostBits := Nat.le_of_dvd (Nat.two_pow_pos _) hpow
  have hreach : 1 < reach N := by
    rw [reach]
    split_ifs with hcovers
    · have hlt := base_lt_mapped N hcovers
      have heven : 2 ∣ N.base := hpow.trans (Nat.dvd_of_mod_eq_zero N.aligned)
      have hmapped : 2 ∣ Addr.mappedBase := by decide
      omega
    · exact htwo
  rw [inner_eq N (Nat.le_refl _)]
  refine List.mem_filter.mpr ⟨List.mem_range'_1.mpr ⟨Nat.le_succ _, by omega⟩, ?_⟩
  have hlast : N.v4 = true → N.base + 1 ≠ N.base + (2 ^ N.hostBits - 1) := by
    intro hv4
    have hfour : 2 ^ 2 ≤ 2 ^ N.hostBits := by
      have hzero := h.1
      have hone := h.2 hv4
      exact Nat.pow_le_pow_right (by decide) (by omega)
    omega
  rw [outer, decide_eq_false (by omega), Bool.false_or]
  cases hv4 : N.v4 with
  | true => rw [decide_eq_false (hlast hv4)]; rfl
  | false => rfl

theorem inner_eq_nil (h : ¬Tried N) : inner N N.base (reach N) = [] := by
  rw [inner_eq N (Nat.le_refl _)]
  refine List.filter_eq_nil_iff.mpr fun k hk ↦ ?_
  obtain ⟨hle, hlt⟩ := List.mem_range'_1.mp hk
  have hreach := reach_le N
  rw [Bool.not_eq_true', Bool.not_eq_false, outer, Bool.or_eq_true_iff, Bool.and_eq_true_iff,
    decide_eq_true_eq, decide_eq_true_eq]
  by_cases hzero : N.hostBits = 0
  · rw [hzero] at hreach
    exact .inl (by omega)
  · obtain ⟨hv4, hone⟩ : N.v4 = true ∧ N.hostBits = 1 := by
      by_contra hno
      exact h ⟨hzero, fun hv4 hone ↦ hno ⟨hv4, hone⟩⟩
    rw [hone] at hreach ⊢
    rcases Nat.eq_or_lt_of_le hle with heq | hgt
    · exact .inl heq.symm
    · exact .inr ⟨hv4, by omega⟩

end Walk

variable {cidr ip : Bytes}

theorem expandCIDR_eq {ipnet : IPNet} (h : parseCIDR cidr = some (ip, ipnet))
    {N : Network} (hN : N.toIPNet = ipnet) (fuel : Nat) (maxIPs : Int) :
    expandCIDR fuel cidr maxIPs = expandLoop N.toIPNet maxIPs fuel (N.bytes N.base) [] := by
  obtain ⟨-, -, hip⟩ := parseCIDR_network h
  rw [expandCIDR, h]
  dsimp only
  rw [hip, ← hN]
  rfl

variable {maxIPs : Int}

/-- A range is expanded to the first `maxIPs` of its usable addresses if and only if it has more
than two addresses, and is neither all of IPv4 nor an IPv6 network that covers the 16-byte forms of
IPv4, unless the limit ends the walk before. -/
theorem expandsTo_iff {ipnet : IPNet} (h : parseCIDR cidr = some (ip, ipnet))
    {N : Network} (hN : N.toIPNet = ipnet) (hmax : 1 ≤ maxIPs) :
    ExpandsTo cidr maxIPs (((usable N).take maxIPs.toNat).map N.bytes) ↔ Exact N maxIPs := by
  constructor
  · rintro ⟨enough, hexpands⟩
    have hfuel := hexpands (max enough (2 ^ N.hostBits + 1)) (Nat.le_max_left _ _)
    rw [expandCIDR_eq h hN] at hfuel
    exact exact_of_expandLoop N hmax (Nat.le_max_right _ _) hfuel
  · intro hexact
    refine ⟨2 ^ N.hostBits + 1, fun fuel hfuel ↦ ?_⟩
    rw [expandCIDR_eq h hN]
    exact expandLoop_of_exact N hmax hexact hfuel

/-- With enough fuel there is one result. -/
theorem eq_of_enough {α : Type} {f : Nat → Option α} {a b : α}
    (ha : ∃ enough, ∀ fuel, enough ≤ fuel → f fuel = some a)
    (hb : ∃ enough, ∀ fuel, enough ≤ fuel → f fuel = some b) : a = b := by
  obtain ⟨enough, ha⟩ := ha
  obtain ⟨enough', hb⟩ := hb
  have heq := ha (max enough enough') (Nat.le_max_left _ _)
  rw [hb _ (Nat.le_max_right _ _)] at heq
  exact (Option.some.inj heq).symm

theorem ExpandsTo.ne_nil_iff {N : Network} (h : parseCIDR cidr = some (ip, N.toIPNet))
    (hmax : 1 ≤ maxIPs) {ips : List Bytes} (hips : ExpandsTo cidr maxIPs ips) :
    ips ≠ [] ↔ Tried N := by
  by_cases hendless : Endless N
  · have hv4 : Tried N := by rw [Tried, hendless.2]; exact ⟨by decide, fun _ ↦ by decide⟩
    refine iff_of_true (fun hnil ↦ ?_) hv4
    obtain ⟨enough, hips⟩ := hips
    have hfuel := hips enough (Nat.le_refl _)
    rw [expandCIDR_eq h rfl] at hfuel
    have hle := expandLoop_endless N (contains_of_endless N hendless) hfuel
    rw [hnil, List.length_nil] at hle
    omega
  · have hreach :
        ExpandsTo cidr maxIPs (((inner N N.base (reach N)).take (wanted maxIPs)).map N.bytes) := by
      refine ⟨reach N + 1, fun fuel hfuel ↦ ?_⟩
      rw [expandCIDR_eq h rfl]
      exact expandLoop_reach N hendless maxIPs hfuel
    rw [eq_of_enough hips hreach]
    rw [ne_eq, List.map_eq_nil_iff, List.take_eq_nil_iff, not_or,
      and_iff_right (Nat.ne_of_gt (wanted_pos maxIPs))]
    constructor
    · intro hne
      by_contra hno
      exact hne (inner_eq_nil N hno)
    · intro htried
      exact List.ne_nil_of_mem (second_mem_inner N htried)

theorem exists_expandsTo (cidr : Bytes) (maxIPs : Int) : ∃ ips, ExpandsTo cidr maxIPs ips := by
  cases h : parseCIDR cidr with
  | none => exact ⟨[], 0, fun fuel _ ↦ by rw [expandCIDR, h]⟩
  | some parsed =>
    obtain ⟨ip, ipnet⟩ := parsed
    obtain ⟨N, hN, -⟩ := parseCIDR_network h
    obtain ⟨ips, enough, hips⟩ := exists_expandLoop N maxIPs
    refine ⟨ips, enough, fun fuel hfuel ↦ ?_⟩
    rw [expandCIDR_eq h hN]
    exact hips fuel hfuel

end Vwarp.Masque.Scanner
