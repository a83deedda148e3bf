import Vwarp.Go.Prefix
import Vwarp.Lib.Draw

/-!
# The address generator of the scanner

`NewIterator` turns the configured prefixes into ranges and shuffles them, and
`IpGenerator.Generate` samples addresses from each: directly from a small range, from
every /24 of a larger IPv4 range, and from a hundred random /120s of a larger IPv6
range.

Addresses are computed as numbers in the 16-byte form.  A sum that does not fit into 16
bytes makes `FillBytes` panic, which is a fault here.  An error of the random source is
`none`.  Of an `ipRange` only the fields that `Generate` reads are kept.
-/

namespace Vwarp.IpScanner.Iterator

open Vwarp.Go Vwarp.Lib

/-- The fields of `statute.ScannerOptions` that the generator reads. -/
structure Options where
  useIPv4 : Bool
  useIPv6 : Bool
  cidrList : List Prefix
  bucketSize : Nat

/-- `ipRange`. -/
structure IpRange where
  cidr : Prefix := default
  start : Addr
  size : Nat

/-- `big.Int.FillBytes` for a buffer of `k` bytes; `none` is its panic. -/
def fillBytes (k n : Nat) : Option Bytes := if n < 256 ^ k then some (toBE k n) else none

/-- `addIP`. -/
def addIP (ip : Addr) (num : Nat) : Option Addr :=
  (fillBytes 16 (ofBE ip.as16 + num)).map fun bytes ↦ ((addrFromSlice bytes).getD .invalid).unmap

/-- `ipRangeSize`. -/
def ipRangeSize (p : Prefix) : Nat := 2 ^ ((if p.addr.is4 then 32 else 128) - p.bits).toNat

/-- `newIPRange`. -/
def newIPRange (cidr : Prefix) : IpRange where
  cidr := cidr
  start := cidr.addr
  size := ipRangeSize cidr

/-- A valid endpoint: an IPv4 address should not end in 0 or 255. -/
def validEndpoint (ip : Addr) : Bool :=
  let lastOctet := ip.asSlice.getD 3 0
  !ip.is4 || (lastOctet ≠ 0 && lastOctet ≠ 255)

/-- `maxRetries`. -/
def maxRetries : Nat := 10

/-- The attempts at one segment of a range: an error of the random source, no valid
endpoint, or the one found. -/
def pickIP (start : Addr) (segStart segmentSize : Nat) : Nat → Draw (Option (Option Addr))
  | 0 => pure (some none)
  | attempts + 1 => do
      match ← Draw.number segmentSize with
      | none => pure none
      | some offset =>
        let candidateIP ← Draw.ofOption (addIP start (segStart + offset))
        if candidateIP.isValid && validEndpoint candidateIP then pure (some (some candidateIP))
        else pickIP start segStart segmentSize attempts

/-- The end of segment `i`: the last segment takes the remainder. -/
def segEnd (size count segmentSize i : Nat) : Nat :=
  if i = count - 1 then size else i * segmentSize + segmentSize

/-- The loop of `generateIPsFromRange` over the segments `is`. -/
def segmentLoop (r : IpRange) (count segmentSize : Nat) :
    List Nat → List Addr → Draw (Option (List Addr))
  | [], ips => pure (some ips)
  | i :: is, ips => do
      let segStart := i * segmentSize
      let currentSegmentSize := segEnd r.size count segmentSize i - segStart
      if currentSegmentSize = 0 then segmentLoop r count segmentSize is ips
      else
        match ← pickIP r.start segStart currentSegmentSize maxRetries with
        | none => pure none
        | some none => segmentLoop r count segmentSize is ips
        | some (some ip) => segmentLoop r count segmentSize is (ips ++ [ip])

/-- `IpGenerator.generateIPsFromRange`. -/
def generateIPsFromRange (r : IpRange) (count : Nat) : Draw (Option (List Addr)) :=
  let count := min r.size count
  if count = 0 then pure (some [])
  else segmentLoop r count (r.size / count) (List.range count) []

/-! ## Addition of addresses -/

variable {ip ip' : Addr} {num : Nat}

/-- What `addIP` returns: the address of the sum, unless it does not fit. -/
theorem addIP_eq_some :
    addIP ip num = some ip' ↔ ip.toNat16 + num < 2 ^ 128 ∧ ip' = .ofNat16 (ip.toNat16 + num) := by
  have hpow : (256 : Nat) ^ 16 = 2 ^ 128 := by norm_num
  rw [addIP, fillBytes, Addr.ofBE_as16, hpow]
  split_ifs with hlt
  · have hslice : addrFromSlice (toBE 16 (ip.toNat16 + num)) =
        some (.v6 (BitVec.ofNat 128 (ip.toNat16 + num)) []) := by
      rw [addrFromSlice, length_toBE, if_neg (by decide), if_pos rfl,
        ofBE_toBE_of_lt (hpow.symm ▸ hlt)]
    rw [Option.map_some, hslice, Option.getD_some, Option.some_inj, and_iff_right hlt, eq_comm]
    rfl
  · exact iff_of_false (by simp) fun h ↦ hlt h.1

theorem elim_addIP {F : Prop} {Q : Addr → Prop} :
    (addIP ip num).elim F Q ↔
      if ip.toNat16 + num < 2 ^ 128 then Q (.ofNat16 (ip.toNat16 + num)) else F := by
  split_ifs with hlt
  · rw [addIP_eq_some.mpr ⟨hlt, rfl⟩, Option.elim_some]
  · cases hadd : addIP ip num with
    | none => exact Iff.rfl
    | some ip' => exact absurd (addIP_eq_some.mp hadd).1 hlt

theorem toNat16_addIP (h : addIP ip num = some ip') : ip'.toNat16 = ip.toNat16 + num := by
  obtain ⟨hlt, rfl⟩ := addIP_eq_some.mp h
  exact Addr.toNat16_ofNat16 hlt

theorem ipRangeSize_pos (p : Prefix) : 0 < ipRangeSize p := Nat.two_pow_pos _

/-- How far an address is from the end of the range that starts at the prefix's address. -/
def room (p : Prefix) (ip : Addr) : Nat := p.addr.toNat16 + 2 ^ p.hostBits - ip.toNat16

variable {p : Prefix}

theorem toNat16_lt_of_contains (h : p.contains ip) :
    ip.toNat16 < p.addr.toNat16 + 2 ^ p.hostBits := by
  obtain ⟨-, -, -, hlen, hdiv⟩ := of_decide_eq_true h
  have hlt : ip.toNat < p.addr.toNat + 2 ^ p.hostBits := by
    have h1 := Nat.lt_div_mul_add (Nat.two_pow_pos p.hostBits) (a := ip.toNat)
    have h2 := Nat.div_mul_le_self p.addr.toNat (2 ^ p.hostBits)
    rw [hdiv] at h1
    omega
  rw [ip.toNat16_eq, p.addr.toNat16_eq, hlen]
  omega

theorem room_addIP_lt (hip : p.contains ip)
    (hnum : 0 < num) (h : addIP ip num = some ip') : room p ip' < room p ip := by
  have hnext := toNat16_addIP h
  have hlt := toNat16_lt_of_contains hip
  unfold room
  omega

/-! ## Generation -/

/-- Scan a range directly: an error leaves the results as they are. -/
def generateDirect (r : IpRange) (ipsPerSubnet : Nat) (results : List Addr) : Draw (List Addr) := do
  match ← generateIPsFromRange r ipsPerSubnet with
  | none => pure results
  | some ips => pure (results ++ ips)

/-- The loop over the /24s of an IPv4 range, for at most `fuel` rounds. -/
def walkLoop (originalPrefix : Prefix) (ipsPerSubnet : Nat) :
    Nat → Addr → List Addr → Draw (List Addr)
  | 0, _, results => pure results
  | fuel + 1, current, results =>
    if originalPrefix.contains current then do
      let subnet := prefixFrom current 24
      let subnetRange : IpRange := { start := subnet.addr, size := ipRangeSize subnet }
      match ← generateIPsFromRange subnetRange ipsPerSubnet with
      | none => pure results
      | some ips => do
          let subnetSize := ipRangeSize (prefixFrom originalPrefix.addr 24)
          let nextAddr ← Draw.ofOption (addIP current subnetSize)
          if ¬ nextAddr.isValid ∨ nextAddr.compare current ≠ .gt then pure (results ++ ips)
          else walkLoop originalPrefix ipsPerSubnet fuel nextAddr (results ++ ips)
    else pure results

/-- Fuel beyond the room of the range makes no difference: the loop ends before it is used
up. -/
theorem walkLoop_fuel {count fuel fuel' : Nat} {current : Addr} (results : List Addr)
    (h : room p current < fuel) (h' : room p current < fuel') :
    walkLoop p count fuel current results = walkLoop p count fuel' current results := by
  induction fuel generalizing fuel' current results with
  | zero => exact absurd h (Nat.not_lt_zero _)
  | succ fuel ih =>
    cases fuel' with
    | zero => exact absurd h' (Nat.not_lt_zero _)
    | succ fuel' =>
      rw [walkLoop, walkLoop]
      split_ifs with hcontains
      · refine congrArg (bind _) (funext fun res ↦ ?_)
        cases res with
        | none => rfl
        | some ips =>
          dsimp only
          cases hadd : addIP current (ipRangeSize (prefixFrom p.addr 24)) with
          | none => rfl
          | some nextAddr =>
            have hroom := room_addIP_lt hcontains (ipRangeSize_pos _) hadd
            have hnext := ih (results ++ ips) (Nat.lt_of_lt_of_le hroom (Nat.le_of_lt_succ h))
              (Nat.lt_of_lt_of_le hroom (Nat.le_of_lt_succ h'))
            show (if _ then _ else _) = if _ then _ else _
            rw [hnext]
      · rfl

/-- The /24s of an IPv4 range, from `current` on.  The fuel is enough for the loop
to end by itself (`walkLoop_fuel`). -/
def walkSubnets (originalPrefix : Prefix) (ipsPerSubnet : Nat) (current : Addr)
    (results : List Addr) : Draw (List Addr) :=
  walkLoop originalPrefix ipsPerSubnet (room originalPrefix current + 1) current results

/-- `sampleSubnetsCount`. -/
def sampleSubnetsCount : Nat := 100

/-- One of the random /120s of an IPv6 range. -/
def sampleSubnet (originalPrefix : Prefix) (ipsPerSubnet : Nat) (results : List Addr) :
    Draw (List Addr) := do
  let randomBits := (120 - originalPrefix.bits).toNat
  match ← Draw.number (2 ^ randomBits) with
  | none => pure results
  | some randomIndex =>
    let subnetOffset := randomIndex * 2 ^ 8
    let subnetStartAddr ← Draw.ofOption (addIP originalPrefix.addr subnetOffset)
    let subnetPrefix := prefixFrom subnetStartAddr 120
    let subnetRange : IpRange := { start := subnetPrefix.addr, size := ipRangeSize subnetPrefix }
    generateDirect subnetRange ipsPerSubnet results

/-- The round of `Generate` for one range. -/
def generateRange (ipsPerSubnet : Nat) (results : List Addr) (r : IpRange) : Draw (List Addr) :=
  let originalPrefix := r.cidr
  if originalPrefix.addr.is4 then
    if originalPrefix.bits ≥ 24 then generateDirect r ipsPerSubnet results
    else walkSubnets originalPrefix ipsPerSubnet originalPrefix.addr results
  else
    if originalPrefix.bits ≥ 120 then generateDirect r ipsPerSubnet results
    else (List.range sampleSubnetsCount).foldlM
      (fun results _ ↦ sampleSubnet originalPrefix ipsPerSubnet results) results

/-- `IpGenerator.Generate`, for the generator's ranges. -/
def generate (ipsPerSubnet : Nat) (ipRanges : List IpRange) : Draw (Except Bytes (List Addr)) := do
  let results ← ipRanges.foldlM (generateRange ipsPerSubnet) []
  if results = [] then pure (.error (str "no IP ranges configured or no IPs generated"))
  else pure (.ok results)

/-- The exchange `subnets[i], subnets[j] = subnets[j], subnets[i]`. -/
def swap (subnets : List IpRange) (i j : Nat) : List IpRange :=
  match subnets[i]?, subnets[j]? with
  | some x, some y => (subnets.set i y).set j x
  | _, _ => subnets

/-- `shuffleSubnetsIpRange`, in place: an error of the random source leaves the list as it
is then. -/
def shuffleSubnetsIpRange : List Nat → List IpRange → Draw (List IpRange)
  | [], subnets => pure subnets
  | i :: is, subnets => do
      match ← Draw.number subnets.length with
      | none => pure subnets
      | some j => shuffleSubnetsIpRange is (swap subnets i j)

def Options.enabled (opts : Options) (cidr : Prefix) : Bool :=
  !((!opts.useIPv6 && cidr.addr.is6) || (!opts.useIPv4 && cidr.addr.is4))

/-- `NewIterator`: the ranges of the generator. -/
def newIterator (opts : Options) : Draw (List IpRange) :=
  let ipRanges := (opts.cidrList.filter opts.enabled).map newIPRange
  if 1 < ipRanges.length then shuffleSubnetsIpRange (List.range ipRanges.length) ipRanges
  else pure ipRanges

/-- `NewIterator` and then `Generate`. -/
def generateFrom (opts : Options) : Draw (Except Bytes (List Addr)) := do
  let ipRanges ← newIterator opts
  generate opts.bucketSize ipRanges

end Vwarp.IpScanner.Iterator
