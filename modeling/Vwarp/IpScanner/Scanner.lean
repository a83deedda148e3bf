import Vwarp.Go.Prefix
import Vwarp.IpScanner.Engine.Pings
import Vwarp.IpScanner.Iterator.Generate

/-!
# `IPScanner`: options, endpoints and runs

A scanner is configured by a list of options that are applied in turn.  The option for a
custom endpoint reads its text as an address with a port, as an address, as a host name
with a port, or as a host name; names are resolved on the spot.  `NewScanner` falls back
to the built-in ranges when the options left it with nothing to scan.

The answer of the resolver is a parameter: `lookup host` is `none` for a failure, and
otherwise the list of addresses as byte strings of any length.
-/

namespace Vwarp.IpScanner

open Vwarp.Go Vwarp.Lib

abbrev Lookup := Bytes → Option (List Bytes)

/-- The fields of `statute.ScannerOptions` that decide what is scanned. -/
structure ScannerOptions extends Iterator.Options where
  customEndpoints : List AddrPort
  port : UInt16
  testPortsForIPs : List (Addr × List UInt16)

/-- The defaults of `NewScanner`. -/
def defaultOptions : ScannerOptions where
  useIPv4 := true
  useIPv6 := true
  cidrList := []
  bucketSize := 5
  customEndpoints := []
  port := 2408
  testPortsForIPs := []

/-- `netip.MustParsePrefix` of a literal. -/
def mustParsePrefix (s : String) : Prefix := (parsePrefix (str s)).getD default

/-- `statute.DefaultCFRanges`. -/
def defaultCFRanges : List Prefix :=
  ["103.21.244.0/22", "103.22.200.0/22", "103.31.4.0/22", "104.16.0.0/12", "108.162.192.0/18",
    "131.0.72.0/22", "141.101.64.0/18", "162.158.0.0/15", "172.64.0.0/13", "173.245.48.0/20",
    "188.114.96.0/20", "190.93.240.0/20", "197.234.240.0/22", "198.41.128.0/17", "2400:cb00::/32",
    "2405:8100::/32", "2405:b500::/32", "2606:4700::/32", "2803:f800::/32", "2c0f:f248::/32",
    "2a06:98c0::/29"].map mustParsePrefix

namespace ScannerOptions

/-- `WithUseIPv4`. -/
def withUseIPv4 (useIPv4 : Bool) (o : ScannerOptions) : ScannerOptions :=
  { o with useIPv4 := useIPv4 }

/-- `WithUseIPv6`. -/
def withUseIPv6 (useIPv6 : Bool) (o : ScannerOptions) : ScannerOptions :=
  { o with useIPv6 := useIPv6 }

/-- `WithBucketSize`. -/
def withBucketSize (size : Nat) (o : ScannerOptions) : ScannerOptions :=
  if 0 < size then { o with bucketSize := size } else o

/-- `WithCidrList`. -/
def withCidrList (cidrList : List Prefix) (o : ScannerOptions) : ScannerOptions :=
  { o with cidrList := cidrList }

/-- `WithAppendCidrList`. -/
def withAppendCidrList (cidr : Prefix) (o : ScannerOptions) : ScannerOptions :=
  { o with cidrList := o.cidrList ++ [cidr] }

/-- The scanner's default port, for endpoints without one. -/
def defaultPort (o : ScannerOptions) : UInt16 := if o.port = 0 then 2408 else o.port

def familyEnabled (o : ScannerOptions) (addr : Addr) : Bool :=
  (addr.is4 && o.useIPv4) || (addr.is6 && o.useIPv6)

/-- The endpoints of the addresses that a name was resolved to. -/
def resolved (o : ScannerOptions) (ips : List Bytes) (port : UInt16) : List AddrPort :=
  ((ips.filterMap addrFromSlice).filter o.familyEnabled).map (AddrPort.mk · port)

/-- What `addEndpoint` appends for a text without a comma. -/
def endpointsOf (lookup : Lookup) (o : ScannerOptions) (endpoint : Bytes) : List AddrPort :=
  match parseAddrPort endpoint with
  | some addrPort => [addrPort]
  | none =>
    match parseAddr endpoint with
    | some addr => [⟨addr, o.defaultPort⟩]
    | none =>
      match splitHostPort endpoint with
      | some (host, portStr) =>
        match lookup host, parseUint portStr 16 with
        | some ips, some port => o.resolved ips (UInt16.ofNat port)
        | _, _ => []
      | none =>
        match lookup endpoint with
        | some ips => o.resolved ips o.defaultPort
        | none => []

/-- `addEndpoint` for a text without a comma. -/
def addOne (lookup : Lookup) (o : ScannerOptions) (endpoint : Bytes) : ScannerOptions :=
  { o with customEndpoints := o.customEndpoints ++ o.endpointsOf lookup endpoint }

/-- `IPScanner.addEndpoint`: a comma separates several endpoints, which have no comma
themselves. -/
def addEndpoint (lookup : Lookup) (o : ScannerOptions) (endpoint : Bytes) : ScannerOptions :=
  if contains endpoint (str ",") then
    (split (ch ',') endpoint).foldl
      (fun o part ↦ if trimSpace part = [] then o else o.addOne lookup (trimSpace part)) o
  else o.addOne lookup endpoint

/-- `WithAppendCustomEndpoint`. -/
def withAppendCustomEndpoint (lookup : Lookup) (endpoint : Bytes) (o : ScannerOptions) :
    ScannerOptions := o.addEndpoint lookup endpoint

/-- `WithCustomEndpoints`.  The resolver may answer anew for each endpoint. -/
def withCustomEndpoints (lookup : Nat → Lookup) (endpoints : List Bytes) (o : ScannerOptions) :
    ScannerOptions :=
  endpoints.zipIdx.foldl (fun o (endpoint, i) ↦ o.addEndpoint (lookup i) endpoint) o

/-- `TestPortsForIPs[addr] = ports`. -/
def setTestPorts (ports : List UInt16) (o : ScannerOptions) (addr : Addr) : ScannerOptions :=
  { o with testPortsForIPs := o.testPortsForIPs.filter (·.1 ≠ addr) ++ [(addr, ports)] }

/-- `WithTestEndpointPorts`. -/
def withTestEndpointPorts (lookup : Lookup) (hostOrIP : Bytes) (ports : List UInt16)
    (o : ScannerOptions) : ScannerOptions :=
  match parseAddr hostOrIP with
  | some addr => o.setTestPorts ports addr
  | none =>
    match lookup hostOrIP with
    | some ips =>
      ((ips.filterMap addrFromSlice).filter o.familyEnabled).foldl (setTestPorts ports) o
    | none => o

theorem addEndpoint_eq {endpoint : Bytes} (h : ch ',' ∉ endpoint) (lookup : Lookup)
    (o : ScannerOptions) : o.addEndpoint lookup endpoint = o.addOne lookup endpoint := by
  have hcomma : ¬ contains endpoint (str ",") = true := by
    rw [show str "," = [ch ','] from rfl, contains_singleton]
    exact h
  rw [addEndpoint, if_neg hcomma]

/-- Endpoints without commas are appended, in order. -/
theorem withCustomEndpoints_eq (lookup : Nat → Lookup) {endpoints : List Bytes}
    (h : ∀ endpoint ∈ endpoints, ch ',' ∉ endpoint) (o : ScannerOptions) :
    o.withCustomEndpoints lookup endpoints =
      { o with customEndpoints := o.customEndpoints ++
        endpoints.zipIdx.flatMap fun e ↦ o.endpointsOf (lookup e.2) e.1 } := by
  have hfold : ∀ (es : List (Bytes × Nat)), (∀ e ∈ es, ch ',' ∉ e.1) → ∀ o : ScannerOptions,
      es.foldl (fun o (endpoint, i) ↦ o.addEndpoint (lookup i) endpoint) o =
        { o with customEndpoints := o.customEndpoints ++
          es.flatMap fun e ↦ o.endpointsOf (lookup e.2) e.1 } := by
    intro es
    induction es with
    | nil => simp
    | cons e es ih =>
      intro hes o
      rw [List.foldl_cons, ih fun e' he' ↦ hes e' (List.mem_cons_of_mem _ he')]
      dsimp only
      rw [addEndpoint_eq (hes e List.mem_cons_self), addOne]
      simp only [List.flatMap_cons, List.append_assoc]
      -- the families and the port are the same in all rounds
      rfl
  refine hfold _ (fun e he ↦ h e.1 ?_) o
  exact List.mem_of_getElem? (List.mem_zipIdx_iff_getElem?.mp he)

end ScannerOptions

/-- `NewScanner`: the options in turn, and the built-in ranges if there is nothing to scan. -/
def newScanner (options : List (ScannerOptions → ScannerOptions)) : ScannerOptions :=
  let o := options.foldl (fun o option ↦ option o) defaultOptions
  if o.cidrList = [] ∧ o.customEndpoints = [] ∧ o.testPortsForIPs = [] then
    { o with cidrList := defaultCFRanges }
  else o

/-! ## Runs -/

/-- What `Engine.Run` takes over from `Generate`: nothing, if it returned an error. -/
def cidrIPs : Except Bytes (List Addr) → List Addr
  | .ok ips => ips
  | .error _ => []

/-- `IPScanner.Run` pings the address, in some run: for some outcome of the random draws,
some order of the candidates and some schedule of the engine, which may be cancelled from
outside at any time.  With both families disabled nothing is run, and a dedicated port
scan pings the addresses it was given ports for. -/
def Pinged (engine : Engine.Options) (o : ScannerOptions) (ip : Addr) : Prop :=
  (o.useIPv4 = true ∨ o.useIPv6 = true) ∧
    if o.testPortsForIPs = [] then
      ∃ draws result candidates s,
        (Iterator.generateFrom o.toOptions).run draws = some result ∧
          Engine.Candidates (cidrIPs result) o.customEndpoints candidates ∧
          (Engine.scan engine candidates).Reachable s ∧ s.Pings ip
    else ∃ ports, (ip, ports) ∈ o.testPortsForIPs ∧ ports ≠ []

/-- How a run without a port scan begins: a family is enabled, `Generate` returned `result`
for some outcome of the random draws, and the candidates are listed in some order. -/
structure Listed (o : ScannerOptions) (result : Except Bytes (List Addr))
    (candidates : List AddrPort) : Prop where
  family : o.useIPv4 = true ∨ o.useIPv6 = true
  generated : ∃ draws, (Iterator.generateFrom o.toOptions).run draws = some result
  ordered : Engine.Candidates (cidrIPs result) o.customEndpoints candidates

variable {o : ScannerOptions} {result : Except Bytes (List Addr)}

theorem Listed.mem_iff
    {candidates : List AddrPort} (h : Listed o result candidates) {c : AddrPort} :
    c ∈ candidates ↔ (c.addr ∈ cidrIPs result ∧ c.port = 0) ∨ c ∈ o.customEndpoints := by
  rw [Engine.mem_candidates h.ordered, List.mem_map]
  refine or_congr_left ⟨?_, ?_⟩
  · rintro ⟨ip, hip, rfl⟩
    exact ⟨hip, rfl⟩
  · rintro ⟨hip, hport⟩
    exact ⟨c.addr, hip, by rw [← hport]⟩

theorem exists_listed (hfamily : o.useIPv4 = true ∨ o.useIPv6 = true) {draws : List (Option Nat)}
    (hrun : (Iterator.generateFrom o.toOptions).run draws = some result) :
    ∃ candidates, Listed o result candidates :=
  ⟨_, hfamily, ⟨draws, hrun⟩, _, .refl _, rfl⟩

/-- Without a port scan, the addresses pinged are those generated and those of the custom
endpoints. -/
theorem pinged_iff {engine : Engine.Options} (hicmp : engine.icmpPing = false)
    (htcp : engine.tcpPing = true) (hk : 1 ≤ engine.concurrentScanners)
    (htest : o.testPortsForIPs = []) {ip : Addr} :
    Pinged engine o ip ↔ (o.useIPv4 = true ∨ o.useIPv6 = true) ∧
      ∃ draws result, (Iterator.generateFrom o.toOptions).run draws = some result ∧
        (ip ∈ cidrIPs result ∨ ∃ c ∈ o.customEndpoints, c.addr = ip) := by
  rw [Pinged, if_pos htest]
  refine and_congr_right fun hfamily ↦ ?_
  constructor
  · rintro ⟨draws, result, candidates, s, hrun, hcands, hreach, hping⟩
    have hlisted : Listed o result candidates := ⟨hfamily, ⟨draws, hrun⟩, hcands⟩
    obtain ⟨c, hc, rfl⟩ := Engine.Scan.pings_of_reach hreach hping
    exact ⟨draws, result, hrun, (hlisted.mem_iff.mp hc).imp And.left fun hc ↦ ⟨c, hc, rfl⟩⟩
  · rintro ⟨draws, result, hrun, hip⟩
    obtain ⟨candidates, hlisted⟩ := exists_listed hfamily hrun
    obtain ⟨c, hc, rfl⟩ : ∃ c ∈ candidates, c.addr = ip := by
      rcases hip with hip | ⟨c, hc, hip⟩
      · exact ⟨⟨ip, 0⟩, hlisted.mem_iff.mpr (.inl ⟨hip, rfl⟩), rfl⟩
      · exact ⟨c, hlisted.mem_iff.mpr (.inr hc), hip⟩
    obtain ⟨s, hreach, hping⟩ := Engine.Scan.exists_pings hicmp htcp hk hc
    exact ⟨draws, result, candidates, s, hrun, hlisted.ordered, hreach, hping⟩

end Vwarp.IpScanner
