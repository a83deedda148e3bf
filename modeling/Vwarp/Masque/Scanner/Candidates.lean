import Mathlib.Data.List.Infix
import Vwarp.Masque.Scanner.Expand

/-!
# The candidates of a MASQUE scan

`generateCandidates` puts the custom endpoints first and then goes through the ranges, each expanded
to as many addresses as there is room for candidates, and through the ports for each address, until
there are `MaxEndpoints` candidates.  What does not come from the user is shuffled.

The loops only append, and stop at the limit; `candidates_iff` says that and which ranges
contribute.
-/

namespace Vwarp.Masque.Scanner

open Vwarp.Go

/-- `ScannerConfig`, as far as candidates and workers are concerned. -/
structure ScannerConfig where
  ipv4Ranges : List Bytes := []
  ipv6Ranges : List Bytes := []
  customEndpoints : List Bytes := []
  maxEndpoints : Int := 0
  workers : Int := 0
  ordered : Bool := false
  useIPv6 : Bool := false
  ports : List Int64 := []
  earlyExit : Bool := false

/-- `DefaultIPv4Ranges`. -/
def defaultIPv4Ranges : List Bytes :=
  [str "162.159.192.0/24", str "162.159.193.0/24", str "162.159.195.0/24", str "162.159.197.0/24",
    str "162.159.198.0/24", str "162.159.199.0/24", str "162.159.200.0/24", str "162.159.201.0/24",
    str "162.159.202.0/24", str "162.159.203.0/24", str "162.159.204.0/24"]

/-- `DefaultIPv6Ranges`. -/
def defaultIPv6Ranges : List Bytes :=
  [str "2606:4700:d0::/48", str "2606:4700:d1::/48", str "2606:4700:103::1/128"]

namespace ScannerConfig

/-- The defaults that `NewScanner` puts in. -/
def withDefaults (cfg : ScannerConfig) : ScannerConfig :=
  { cfg with
    maxEndpoints := if cfg.maxEndpoints ≤ 0 then 30 else cfg.maxEndpoints
    workers := if cfg.workers ≤ 0 then 10 else cfg.workers
    ports := if cfg.ports.length = 0 then [443, 500, 1701, 4500, 4443, 8443, 8095] else cfg.ports }

theorem withDefaults_ok (cfg : ScannerConfig) :
    1 ≤ cfg.withDefaults.maxEndpoints ∧ cfg.withDefaults.ports ≠ [] := by
  unfold withDefaults
  constructor
  · dsimp only
    split <;> omega
  · dsimp only
    split_ifs with hne
    · exact List.cons_ne_nil _ _
    · exact fun hnil ↦ hne (congrArg List.length hnil)

/-- The ranges that `generateCandidates` goes through. -/
def ranges (cfg : ScannerConfig) : List Bytes :=
  let ranges :=
    if cfg.useIPv6 ∧ 0 < cfg.ipv6Ranges.length then cfg.ipv6Ranges else cfg.ipv4Ranges
  if ranges.length = 0 ∧ cfg.customEndpoints.length = 0 then
    if cfg.useIPv6 then defaultIPv6Ranges else defaultIPv4Ranges
  else ranges

end ScannerConfig

def endpoint (ip : Bytes) (port : Int64) : Bytes :=
  if to4 ip = none then str "[" ++ ipString ip ++ str "]:" ++ formatInt port
  else joinHostPort (ipString ip) (formatInt port)

/-- The loop over the ports; the flag says that the limit was reached. -/
def addPorts (limit : Int) (ip : Bytes) : List Int64 → List Bytes → List Bytes × Bool
  | [], candidates => (candidates, false)
  | port :: ports, candidates =>
    if limit ≤ (candidates ++ [endpoint ip port]).length then
      (candidates ++ [endpoint ip port], true)
    else addPorts limit ip ports (candidates ++ [endpoint ip port])

/-- The loop over the addresses of a range. -/
def addIPs (limit : Int) (ports : List Int64) : List Bytes → List Bytes → List Bytes × Bool
  | [], candidates => (candidates, false)
  | ip :: ips, candidates =>
    match addPorts limit ip ports candidates with
    | (candidates, true) => (candidates, true)
    | (candidates, false) => addIPs limit ports ips candidates

def addRanges (fuel : Nat) (limit : Int) (ports : List Int64) :
    List Bytes → List Bytes → Option (List Bytes × Bool)
  | [], candidates => some (candidates, false)
  | cidr :: ranges, candidates =>
    (expandCIDR fuel cidr (limit - candidates.length)).bind fun ips ↦
      match addIPs limit ports ips candidates with
      | (candidates, true) => some (candidates, true)
      | (candidates, false) => addRanges fuel limit ports ranges candidates

/-- What `rand.Shuffle` may do. -/
structure Shuffle where
  apply : List Bytes → List Bytes
  perm : ∀ l, (apply l).Perm l

/-- The end of `generateCandidates`, from its label on. -/
def arrange (cfg : ScannerConfig) (shuffle : Shuffle) (candidates : List Bytes) : List Bytes :=
  let customCount := cfg.customEndpoints.length
  let candidates :=
    if !cfg.ordered ∧ customCount < candidates.length then
      candidates.take customCount ++ shuffle.apply (candidates.drop customCount)
    else candidates
  if cfg.maxEndpoints < candidates.length then candidates.take cfg.maxEndpoints.toNat
  else candidates

/-- `Scanner.generateCandidates`. -/
def generateCandidates (fuel : Nat) (cfg : ScannerConfig) (shuffle : Shuffle) :
    Option (List Bytes) :=
  (addRanges fuel cfg.maxEndpoints cfg.ports cfg.ranges cfg.customEndpoints).map
    fun (candidates, _) ↦ arrange cfg shuffle candidates

/-- The loop over some ranges ends with these candidates, and says whether the limit was reached. -/
def RangesTo (cfg : ScannerConfig) (ranges candidates : List Bytes) (r : List Bytes × Bool) :
    Prop :=
  ∃ enough, ∀ fuel, enough ≤ fuel →
    addRanges fuel cfg.maxEndpoints cfg.ports ranges candidates = some r

/-- `generateCandidates` returns `out`. -/
def Generates (cfg : ScannerConfig) (shuffle : Shuffle) (out : List Bytes) : Prop :=
  ∃ enough, ∀ fuel, enough ≤ fuel → generateCandidates fuel cfg shuffle = some out

/-! ## The loops -/

/-- What the loops do to the candidates: they append, and stop at the limit. -/
structure Grows (limit : Int) (candidates : List Bytes) (r : List Bytes × Bool) : Prop where
  kept : candidates <+: r.1
  bound : candidates.length < limit → r.1.length ≤ limit ∧ (r.2 = false → r.1.length < limit)

namespace Grows

variable {limit : Int} {candidates mid : List Bytes} {r : List Bytes × Bool}

theorem refl : Grows limit candidates (candidates, false) :=
  ⟨List.prefix_rfl, fun h ↦ ⟨Int.le_of_lt h, fun _ ↦ h⟩⟩

theorem trans (h : Grows limit candidates (mid, false)) (h' : Grows limit mid r) :
    Grows limit candidates r :=
  ⟨h.kept.trans h'.kept, fun hlt ↦ h'.bound ((h.bound hlt).2 rfl)⟩

end Grows

section Loops

variable (limit : Int) (ports : List Int64)

theorem grows_addPorts (ip : Bytes) (candidates : List Bytes) :
    Grows limit candidates (addPorts limit ip ports candidates) := by
  induction ports generalizing candidates with
  | nil => exact .refl
  | cons port ports ih =>
    have hlen : (candidates ++ [endpoint ip port]).length = candidates.length + 1 :=
      List.length_append
    rw [addPorts]
    split_ifs with hmore
    · refine ⟨List.prefix_append _ _, fun hlt ↦ ⟨?_, nofun⟩⟩
      rw [hlen]
      omega
    · refine Grows.trans ⟨List.prefix_append _ _, fun _ ↦ ⟨?_, fun _ ↦ ?_⟩⟩ (ih _)
      · exact Int.le_of_lt (Int.not_le.mp hmore)
      · exact Int.not_le.mp hmore

theorem grows_addIPs (ips candidates : List Bytes) :
    Grows limit candidates (addIPs limit ports ips candidates) := by
  induction ips generalizing candidates with
  | nil => exact .refl
  | cons ip ips ih =>
    have hports := grows_addPorts limit ports ip candidates
    rw [addIPs]
    generalize addPorts limit ip ports candidates = r at hports ⊢
    obtain ⟨mid, done⟩ := r
    cases done with
    | true => exact hports
    | false => exact hports.trans (ih mid)

variable {ports}

theorem length_lt_addPorts (hports : ports ≠ []) (ip : Bytes) (candidates : List Bytes) :
    candidates.length < (addPorts limit ip ports candidates).1.length := by
  cases ports with
  | nil => exact absurd rfl hports
  | cons port ports =>
    have hlen : (candidates ++ [endpoint ip port]).length = candidates.length + 1 :=
      List.length_append
    rw [addPorts]
    split
    · exact Nat.lt_of_lt_of_eq (Nat.lt_succ_self _) hlen.symm
    · have hle := (grows_addPorts limit ports ip (candidates ++ [endpoint ip port])).kept.length_le
      omega

theorem length_lt_addIPs_iff (hports : ports ≠ []) (ips candidates : List Bytes) :
    candidates.length < (addIPs limit ports ips candidates).1.length ↔ ips ≠ [] := by
  cases ips with
  | nil => exact iff_of_false (Nat.lt_irrefl _) fun h ↦ h rfl
  | cons ip ips =>
    refine iff_of_true ?_ nofun
    have hlt := length_lt_addPorts limit hports ip candidates
    rw [addIPs]
    generalize addPorts limit ip ports candidates = r at hlt ⊢
    obtain ⟨mid, done⟩ := r
    cases done with
    | true => exact hlt
    | false => exact Nat.lt_of_lt_of_le hlt (grows_addIPs limit ports ips mid).kept.length_le

theorem addRanges_append (fuel : Nat) (pre post candidates : List Bytes) :
    addRanges fuel limit ports (pre ++ post) candidates =
      (addRanges fuel limit ports pre candidates).bind fun r ↦
        if r.2 then some r else addRanges fuel limit ports post r.1 := by
  induction pre generalizing candidates with
  | nil => rfl
  | cons cidr pre ih =>
    rw [List.cons_append, addRanges, addRanges, Option.bind_assoc]
    congr 1
    funext ips
    generalize addIPs limit ports ips candidates = r
    obtain ⟨mid, done⟩ := r
    cases done with
    | true => rfl
    | false => exact ih mid

end Loops

section Ranges

variable {cfg : ScannerConfig} {candidates mid : List Bytes} {r r' : List Bytes × Bool}

variable {post pre ranges : List Bytes}

theorem RangesTo.unique (h : RangesTo cfg ranges candidates r)
    (h' : RangesTo cfg ranges candidates r') : r = r' :=
  eq_of_enough h h'

theorem rangesTo_singleton {cidr : Bytes} {ips : List Bytes}
    (h : ExpandsTo cidr (cfg.maxEndpoints - candidates.length) ips) :
    RangesTo cfg [cidr] candidates (addIPs cfg.maxEndpoints cfg.ports ips candidates) := by
  obtain ⟨enough, h⟩ := h
  refine ⟨enough, fun fuel hfuel ↦ ?_⟩
  rw [addRanges, h fuel hfuel, Option.bind_some]
  generalize addIPs cfg.maxEndpoints cfg.ports ips candidates = r
  obtain ⟨mid, done⟩ := r
  cases done <;> rfl

theorem RangesTo.append (h : RangesTo cfg pre candidates (mid, false))
    (h' : RangesTo cfg post mid r) : RangesTo cfg (pre ++ post) candidates r := by
  obtain ⟨enough, h⟩ := h
  obtain ⟨enough', h'⟩ := h'
  refine ⟨max enough enough', fun fuel hfuel ↦ ?_⟩
  rw [addRanges_append, h fuel (Nat.le_trans (Nat.le_max_left _ _) hfuel), Option.bind_some]
  exact h' fuel (Nat.le_trans (Nat.le_max_right _ _) hfuel)

theorem RangesTo.append_done (h : RangesTo cfg pre candidates (mid, true)) :
    RangesTo cfg (pre ++ post) candidates (mid, true) := by
  obtain ⟨enough, h⟩ := h
  refine ⟨enough, fun fuel hfuel ↦ ?_⟩
  rw [addRanges_append, h fuel hfuel, Option.bind_some]
  rfl

theorem exists_rangesTo (cfg : ScannerConfig) (ranges candidates : List Bytes) :
    ∃ r, RangesTo cfg ranges candidates r ∧ Grows cfg.maxEndpoints candidates r := by
  induction ranges generalizing candidates with
  | nil => exact ⟨(candidates, false), ⟨0, fun _ _ ↦ rfl⟩, .refl⟩
  | cons cidr ranges ih =>
    obtain ⟨ips, hips⟩ := exists_expandsTo cidr (cfg.maxEndpoints - candidates.length)
    have hfirst := rangesTo_singleton hips
    have hgrows := grows_addIPs cfg.maxEndpoints cfg.ports ips candidates
    generalize addIPs cfg.maxEndpoints cfg.ports ips candidates = r at hfirst hgrows
    obtain ⟨mid, done⟩ := r
    cases done with
    | true => exact ⟨(mid, true), hfirst.append_done, hgrows⟩
    | false =>
      obtain ⟨r, hrest, hgrows'⟩ := ih mid
      exact ⟨r, hfirst.append hrest, hgrows.trans hgrows'⟩

theorem RangesTo.grows (h : RangesTo cfg ranges candidates r) :
    Grows cfg.maxEndpoints candidates r := by
  obtain ⟨r', h', hgrows⟩ := exists_rangesTo cfg ranges candidates
  rwa [h.unique h']

theorem RangesTo.kept (h : RangesTo cfg pre candidates r)
    (h' : RangesTo cfg (pre ++ post) candidates r') : r.1 <+: r'.1 := by
  obtain ⟨mid, done⟩ := r
  cases done with
  | true =>
    obtain rfl := h'.unique h.append_done
    exact List.prefix_rfl
  | false =>
    obtain ⟨r'', hrest, hgrows⟩ := exists_rangesTo cfg post mid
    rw [h'.unique (h.append hrest)]
    exact hgrows.kept

end Ranges

/-! ## The result -/

/-- The end of `generateCandidates` rearranges what follows the custom endpoints, and cuts. -/
theorem exists_arrange (cfg : ScannerConfig) (hlimit : 1 ≤ cfg.maxEndpoints) (shuffle : Shuffle)
    (rest : List Bytes) :
    ∃ rest' : List Bytes, rest'.Perm rest ∧
      arrange cfg shuffle (cfg.customEndpoints ++ rest) =
        (cfg.customEndpoints ++ rest').take cfg.maxEndpoints.toNat := by
  have hcut :
      ∀ l : List Bytes, (if cfg.maxEndpoints < l.length then l.take cfg.maxEndpoints.toNat else l) =
      l.take cfg.maxEndpoints.toNat := by
    intro l
    split_ifs with hle
    · rfl
    · rw [List.take_of_length_le (by omega)]
  unfold arrange
  simp only [hcut]
  split
  · refine ⟨shuffle.apply rest, shuffle.perm rest, ?_⟩
    rw [List.take_left, List.drop_left]
  · exact ⟨rest, .refl _, rfl⟩

/-- A range contributes to the result, when the ranges before it have made `candidates`. -/
def Contributes (cfg : ScannerConfig) (pre : List Bytes) (cidr : Bytes)
    (candidates out : List Bytes) : Prop :=
  ∃ added done, RangesTo cfg (pre ++ [cidr]) cfg.customEndpoints (candidates ++ added, done) ∧
    added ≠ [] ∧ added ⊆ out

/-- Which ranges contribute to a result that has all candidates that were made. -/
theorem contributes_iff {cfg : ScannerConfig} (hports : cfg.ports ≠ [])
    {pre post candidates out : List Bytes} {cidr ip : Bytes} {N : Network} {r : List Bytes × Bool}
    (hranges : RangesTo cfg (pre ++ cidr :: post) cfg.customEndpoints r)
    (hpre : RangesTo cfg pre cfg.customEndpoints (candidates, false))
    (hlt : candidates.length < cfg.maxEndpoints) (hparse : parseCIDR cidr = some (ip, N.toIPNet))
    (hout : r.1.length ≤ cfg.maxEndpoints → r.1 ⊆ out) :
    Contributes cfg pre cidr candidates out ↔ Tried N := by
  obtain ⟨ips, hips⟩ := exists_expandsTo cidr (cfg.maxEndpoints - candidates.length)
  have hone := hpre.append (rangesTo_singleton hips)
  have hnil := hips.ne_nil_iff hparse (by omega)
  have hadded := length_lt_addIPs_iff cfg.maxEndpoints hports ips candidates
  obtain ⟨added, hkept⟩ := (grows_addIPs cfg.maxEndpoints cfg.ports ips candidates).kept
  generalize addIPs cfg.maxEndpoints cfg.ports ips candidates = mid at hone hadded hkept
  obtain ⟨mid, done⟩ := mid
  obtain rfl : candidates ++ added = mid := hkept
  have hne : added ≠ [] ↔ Tried N := by
    rw [← hnil, ← hadded, List.length_append, ← List.length_pos_iff]
    omega
  constructor
  · rintro ⟨added', done', hone', hne', -⟩
    have heq := congrArg Prod.fst (hone'.unique hone)
    rw [List.append_cancel_left heq] at hne'
    exact hne.mp hne'
  · intro htried
    refine ⟨added, done, hone, hne.mpr htried, ?_⟩
    rw [List.append_cons] at hranges
    have hcustom := hpre.grows.kept.length_le
    have hbound := (hranges.grows.bound (by dsimp only at hcustom; omega)).1
    have hsub := List.Subset.trans (hone.kept hranges).subset (hout hbound)
    exact List.Subset.trans (List.subset_append_right _ _) hsub

/-- The candidates of a scan.  A range that parses is expanded to the first `maxIPs` of its usable
addresses if and only if it is `Exact`; the expansion ends in any case.  The result has at most
`MaxEndpoints` candidates and begins with the custom endpoints, and a range that is reached before
the limit contributes to it if and only if it is `Tried`, that is, unless it is an IPv4 network with
one or two addresses or an IPv6 network with one. -/
theorem candidates_iff (cidr : Bytes) (maxIPs : Int) (hmax : 1 ≤ maxIPs) (cfg : ScannerConfig)
    (hlimit : 1 ≤ cfg.maxEndpoints) (hports : cfg.ports ≠ []) (shuffle : Shuffle) :
    (∀ ip ipnet, parseCIDR cidr = some (ip, ipnet) →
      (∃ ips, ExpandsTo cidr maxIPs ips) ∧ (∃ N : Network, N.toIPNet = ipnet) ∧
        ∀ N : Network, N.toIPNet = ipnet →
          (ExpandsTo cidr maxIPs (((usable N).take maxIPs.toNat).map N.bytes) ↔ Exact N maxIPs)) ∧
    ∃ out, Generates cfg shuffle out ∧ out.length ≤ cfg.maxEndpoints ∧
      cfg.customEndpoints.take cfg.maxEndpoints.toNat <+: out ∧
      ∀ pre cidr post candidates ip N, cfg.ranges = pre ++ cidr :: post →
        RangesTo cfg pre cfg.customEndpoints (candidates, false) →
        candidates.length < cfg.maxEndpoints → parseCIDR cidr = some (ip, Network.toIPNet N) →
        (Contributes cfg pre cidr candidates out ↔ Tried N) := by
  refine ⟨fun ip ipnet hparse ↦ ?_, ?_⟩
  · obtain ⟨N, hN, -⟩ := parseCIDR_network hparse
    exact ⟨exists_expandsTo cidr maxIPs, ⟨N, hN⟩, fun N hN ↦ expandsTo_iff hparse hN hmax⟩
  · obtain ⟨r, hranges, hgrows⟩ := exists_rangesTo cfg cfg.ranges cfg.customEndpoints
    obtain ⟨rest, hrest⟩ := hgrows.kept
    obtain ⟨rest', hperm, harrange⟩ := exists_arrange cfg hlimit shuffle rest
    rw [hrest] at harrange
    refine ⟨arrange cfg shuffle r.1, ?_, ?_, ?_, ?_⟩
    · obtain ⟨enough, hfuel⟩ := hranges
      refine ⟨enough, fun fuel hle ↦ ?_⟩
      rw [generateCandidates, hfuel fuel hle]
      rfl
    · have hle := List.length_take_le cfg.maxEndpoints.toNat (cfg.customEndpoints ++ rest')
      rw [harrange]
      omega
    · rw [harrange]
      exact (List.prefix_append _ _).take _
    · intro pre cidr post candidates ip N hsplit hpre hlt hparse
      rw [hsplit] at hranges
      refine contributes_iff hports hranges hpre hlt hparse fun hle ↦ ?_
      -- Nothing is cut, so that the result is a permutation of what was made.
      have hlen : (cfg.customEndpoints ++ rest').length ≤ cfg.maxEndpoints.toNat := by
        rw [List.length_append, hperm.length_eq, ← List.length_append, hrest]
        omega
      rw [harrange, List.take_of_length_le hlen, ← hrest]
      exact (hperm.symm.append_left _).subset

/-- A network of eight addresses is expanded to the first three it should be, and contributes to a
scan of it and a custom endpoint with the ports that `NewScanner` puts in. -/
theorem candidates_slash29 : let N := Network.of false 0x0a000000 29 (by decide)
    let cfg := ScannerConfig.withDefaults
      { ipv4Ranges := [str "10.0.0.0/29"], customEndpoints := [str "192.0.2.1:443"],
        maxEndpoints := 5 }
    ExpandsTo (str "10.0.0.0/29") 3 (((usable N).take 3).map N.bytes) ∧
      ∃ out, Generates cfg ⟨id, fun _ ↦ .refl _⟩ out ∧ out.length ≤ (5 : Int) ∧
        [str "192.0.2.1:443"] <+: out ∧
        Contributes cfg [] (str "10.0.0.0/29") [str "192.0.2.1:443"] out := by
  intro N cfg
  have hparse : parseCIDR (str "10.0.0.0/29") = some ((Addr.v4 0x0a000000).as16, N.toIPNet) := by
    decide +kernel
  obtain ⟨hlimit, hports⟩ := ScannerConfig.withDefaults_ok
    { ipv4Ranges := [str "10.0.0.0/29"], customEndpoints := [str "192.0.2.1:443"],
      maxEndpoints := 5 }
  obtain ⟨hexpand, out, hgenerates, hlen, hcustom, hranges⟩ :=
    candidates_iff (str "10.0.0.0/29") 3 (by decide) cfg hlimit hports ⟨id, fun _ ↦ .refl _⟩
  have hexact : Exact N 3 := by
    refine ⟨by decide, fun h ↦ absurd h.2 (by decide), fun h ↦ absurd h.1 (by decide)⟩
  refine ⟨((hexpand _ _ hparse).2.2 N rfl).mpr hexact, out, hgenerates, hlen, hcustom, ?_⟩
  exact (hranges [] _ [] _ _ N rfl ⟨0, fun _ _ ↦ rfl⟩ (by decide) hparse).mpr
    ⟨by decide, fun _ ↦ by decide⟩

/-- Of a range with one address, such as the last of the default ones for IPv6, nothing is tried. -/
theorem candidates_single_host :
    parseCIDR (str "2606:4700:103::1/128") =
        some ((Addr.v6 0x26064700010300000000000000000001#128 []).as16,
          (Network.of true 0x26064700010300000000000000000001 128 (by decide)).toIPNet) ∧
      usable (Network.of true 0x26064700010300000000000000000001 128 (by decide)) =
        [0x26064700010300000000000000000001] ∧
      ExpandsTo (str "2606:4700:103::1/128") 1 [] ∧
      Generates
        { ipv6Ranges := [str "2606:4700:103::1/128"], maxEndpoints := 30, useIPv6 := true,
          ports := [443] } ⟨id, fun _ ↦ .refl _⟩ [] := by
  refine ⟨by decide +kernel, by decide +kernel, ⟨2, fun fuel hfuel ↦ ?_⟩, ⟨2, fun fuel hfuel ↦ ?_⟩⟩
  all_goals
    obtain ⟨k, rfl⟩ := Nat.exists_eq_add_of_le' hfuel
    rfl

end Vwarp.Masque.Scanner
