import Vwarp.Go.Scanner
import Vwarp.Masque.Scanner.Candidates
import Vwarp.Warp.Endpoint

/-!
# What `warp-scan` scans

`buildScanner` collects the user's endpoints and CIDRs, infers from them which IP versions to scan
if no flag says it, and hands them to `NewScanner`, with the ranges of WARP or MASQUE if there are
none.

`buildScanner_iff` says when the scanner covers what the user listed, and no more.  The inference
looks for addresses only, so that a host name enables nothing, and it does not read an IPv6 address
in brackets without a port.  `NewScanner` has a default of its own, which it falls back to when
nothing is left of the user's entries.
-/

namespace Vwarp.Cmd.WarpScan

open Vwarp.Go Vwarp.IpScanner

/-- `config`, as far as it says what is scanned. -/
structure Config where
  useIPv4 : Bool := false
  useIPv6 : Bool := false
  cidrs : List Bytes := []
  cidrsFile : Bytes := []
  endpoints : List Bytes := []
  endpointsFile : Bytes := []
  noDefaultCidrs : Bool := false
  bucketSize : Int := 1
  testIP : Bytes := []
  allPorts : Bool := false
  enableMasque : Bool := false
  masqueOnly : Bool := false

/-- `os.Open` and the content of the file. -/
abbrev FileSystem := Bytes → Except Bytes Bytes

/-- `readFileLines`. -/
def readFileLines (files : FileSystem) (path : Bytes) : Except Bytes (List Bytes) :=
  (files path).bind fun content ↦
    match scanLines content with
    | (_, some .tooLong) => .error (str "bufio.Scanner: token too long")
    | (lines, none) =>
      .ok ((lines.map trimSpace).filter fun line ↦ line ≠ [] ∧ line.head? ≠ some (ch '#'))

/-- The lines of a file that was named, after the entries of a flag. -/
def withFile (files : FileSystem) (kind : String) (entries : List Bytes) (path : Bytes) :
    Except Bytes (List Bytes) :=
  if path = [] then .ok entries
  else
    match readFileLines files path with
    | .ok lines => .ok (entries ++ lines)
    | .error err => .error (str "failed to read " ++ str kind ++ str " file: " ++ err)

/-- The endpoints one by one: several can be given in one value, separated by commas. -/
def normalize (endpoints : List Bytes) : List Bytes :=
  endpoints.flatMap fun e ↦ ((split (ch ',') e).map trimSpace).filter (· ≠ [])

/-- The text whose address tells the IP version of an endpoint. -/
def inferenceHost (e : Bytes) : Bytes :=
  match splitHostPort e with
  | some (host, _) => if host = [] then e else host
  | none => e

namespace Config

def consolidate (files : FileSystem) (cfg : Config) : Except Bytes Config :=
  (withFile files "endpoints" cfg.endpoints cfg.endpointsFile).bind fun endpoints ↦
    (withFile files "cidrs" cfg.cidrs cfg.cidrsFile).map fun cidrs ↦
      { cfg with endpoints := normalize endpoints, cidrs := cidrs }

/-- Some entry has an address of the version: of IPv4, or not. -/
def infers (cfg : Config) (v4 : Bool) : Bool :=
  cfg.cidrs.any (fun c ↦ (parsePrefix c).any fun p ↦ p.addr.is4 = v4) ||
    cfg.endpoints.any (fun e ↦ (parseAddr (inferenceHost e)).any fun addr ↦ addr.is4 = v4) ||
    (parseAddr cfg.testIP).any fun addr ↦ addr.is4 = v4

/-- `userInputProvided`. -/
def userInputProvided (cfg : Config) : Bool :=
  0 < cfg.endpoints.length || 0 < cfg.cidrs.length || cfg.testIP ≠ []

/-- The IP versions, inferred if no flag says them. -/
def withFamilies (cfg : Config) : Config :=
  if cfg.useIPv4 || cfg.useIPv6 then cfg
  else if !cfg.userInputProvided then { cfg with useIPv4 := true, useIPv6 := true }
  else { cfg with useIPv4 := cfg.infers true, useIPv6 := cfg.infers false }

def masqueCidrs (cfg : Config) : List Prefix :=
  (if cfg.useIPv4 then Masque.Scanner.defaultIPv4Ranges.filterMap parsePrefix else []) ++
    if cfg.useIPv6 then Masque.Scanner.defaultIPv6Ranges.filterMap parsePrefix else []

/-- The ranges that are scanned if the user lists nothing. -/
def defaultCidrs (cfg : Config) : List Prefix :=
  if !cfg.noDefaultCidrs ∧ cfg.cidrs.length = 0 ∧ cfg.endpoints.length = 0 then
    if cfg.masqueOnly then cfg.masqueCidrs
    else if cfg.enableMasque then Wiresocks.warpPrefixes ++ cfg.masqueCidrs
    else Wiresocks.warpPrefixes
  else []

def portsToTest (cfg : Config) : List UInt16 :=
  if cfg.allPorts then (List.range 65535).map fun i ↦ UInt16.ofNat (i + 1) else Warp.warpPorts

/-- The options for `NewScanner` that say what is scanned. -/
def options (cfg : Config) (lookup : Nat → Lookup) : List (ScannerOptions → ScannerOptions) :=
  [ScannerOptions.withUseIPv4 cfg.useIPv4, ScannerOptions.withUseIPv6 cfg.useIPv6,
    ScannerOptions.withBucketSize cfg.bucketSize.toNat] ++
    if cfg.testIP ≠ [] then
      [ScannerOptions.withTestEndpointPorts (lookup 0) cfg.testIP cfg.portsToTest]
    else
      [ScannerOptions.withCidrList (cfg.defaultCidrs ++ cfg.cidrs.filterMap parsePrefix),
        ScannerOptions.withCustomEndpoints lookup cfg.endpoints]

end Config

def errDisabled : Bytes := str "IPv4 and IPv6 scanning are both disabled; nothing to do"

/-- The rest of `buildScanner`, when the lists are complete. -/
def Config.build (cfg : Config) (lookup : Nat → Lookup) : Except Bytes ScannerOptions :=
  let cfg := cfg.withFamilies
  if !cfg.useIPv4 && !cfg.useIPv6 then .error errDisabled
  else .ok (newScanner (cfg.options lookup))

/-- `buildScanner`, without the options that do not say what is scanned. -/
def buildScanner (files : FileSystem) (lookup : Nat → Lookup) (cfg : Config) :
    Except Bytes ScannerOptions :=
  (cfg.consolidate files).bind fun cfg ↦ cfg.build lookup

/-! ## Valid entries -/

def isNameByte (c : UInt8) : Bool :=
  ch 'a' ≤ c ∧ c ≤ ch 'z' ∨ ch 'A' ≤ c ∧ c ≤ ch 'Z' ∨ ch '0' ≤ c ∧ c ≤ ch '9' ∨
    c = ch '-' ∨ c = ch '_' ∨ c = ch '.'

structure IsAddr (t : Bytes) : Prop where
  parses : (parseAddr t).isSome
  brackets : ch '[' ∉ t ∧ ch ']' ∉ t

structure IsName (t : Bytes) : Prop where
  nonempty : t ≠ []
  bytes : ∀ c ∈ t, isNameByte c = true
  noAddr : parseAddr t = none

/-- An entry of the list of endpoints. -/
inductive Entry
  | ip (addr : Bytes)
  | ipPort (addr port : Bytes)
  | brackets (addr : Bytes)
  | host (name : Bytes)
  | hostPort (name port : Bytes)

namespace Entry

def text : Entry → Bytes
  | ip addr => addr
  | ipPort addr port => joinHostPort addr port
  | brackets addr => ch '[' :: addr ++ [ch ']']
  | host name => name
  | hostPort name port => joinHostPort name port

def Valid : Entry → Prop
  | ip addr => IsAddr addr
  | ipPort addr port => IsAddr addr ∧ (parseUint port 16).isSome
  | brackets addr => IsAddr addr ∧ ch ':' ∈ addr
  | host name => IsName name
  | hostPort name port => IsName name ∧ (parseUint port 16).isSome

/-- A scanner does not exclude it by its IP version: the one of an address is enabled, and for a
host name both are. -/
def Kept (o : ScannerOptions) : Entry → Prop
  | ip t | ipPort t _ | brackets t => ∀ addr, parseAddr t = some addr → o.familyEnabled addr = true
  | host _ | hostPort _ _ => o.useIPv4 = true ∧ o.useIPv6 = true

def Named : Entry → Prop
  | host _ | hostPort _ _ => True
  | _ => False

end Entry

section Texts

variable {t port : Bytes}

theorem not_mem_port (h : (parseUint port 16).isSome) :
    ch ':' ∉ port ∧ ch '[' ∉ port ∧ ch ']' ∉ port :=
  ⟨not_mem_of_parseUint h (by decide), not_mem_of_parseUint h (by decide),
    not_mem_of_parseUint h (by decide)⟩

theorem IsName.not_mem (h : IsName t) {c : UInt8} (hc : isNameByte c = false) : c ∉ t := by
  intro hmem
  rw [h.bytes c hmem] at hc
  cases hc

theorem IsAddr.ne_nil (h : IsAddr t) : t ≠ [] := by
  rintro rfl
  exact absurd h.parses (by decide)

theorem inferenceHost_of_not_mem (h : ch ':' ∉ t) : inferenceHost t = t := by
  rw [inferenceHost, splitHostPort, lastIndexByte_eq_none h]

theorem inferenceHost_joinHostPort (hne : t ≠ []) (hbrackets : ch '[' ∉ t ∧ ch ']' ∉ t)
    (hport : (parseUint port 16).isSome) : inferenceHost (joinHostPort t port) = t := by
  rw [inferenceHost, splitHostPort_joinHostPort hbrackets (not_mem_port hport)]
  exact if_neg hne

theorem IsAddr.inferenceHost_eq (h : IsAddr t) : inferenceHost t = t := by
  by_cases hcolon : ch ':' ∈ t
  · obtain ⟨addr, haddr⟩ := Option.isSome_iff_exists.mp h.parses
    have hhead : t.head? ≠ some (ch '[') := fun hhead ↦ h.brackets.1 (List.mem_of_mem_head? hhead)
    rw [inferenceHost, splitHostPort_eq_none_of_colons (two_le_count_colon haddr hcolon) hhead]
  · exact inferenceHost_of_not_mem hcolon

theorem parseAddr_inferenceHost_brackets (h : IsAddr t) (hcolon : ch ':' ∈ t) :
    parseAddr (inferenceHost (ch '[' :: t ++ [ch ']'])) = none := by
  have hsplit : splitHostPort (ch '[' :: t ++ [ch ']']) = none := by
    have hnone := splitHostPort_bracketed h.brackets.2
    rwa [bracketed, if_pos hcolon] at hnone
  rw [inferenceHost, hsplit]
  exact parseAddr_open _

theorem Entry.Valid.parseAddr_inferenceHost {E : Entry} (h : E.Valid) :
    parseAddr (inferenceHost E.text) =
      match E with
      | .ip t | .ipPort t _ => parseAddr t
      | _ => none := by
  cases E with
  | ip t => rw [text, IsAddr.inferenceHost_eq h]
  | ipPort t port =>
    rw [text, inferenceHost_joinHostPort h.1.ne_nil h.1.brackets h.2]
  | brackets t => exact parseAddr_inferenceHost_brackets h.1 h.2
  | host t =>
    rw [text, inferenceHost_of_not_mem (IsName.not_mem h (by decide))]
    exact h.noAddr
  | hostPort t port =>
    rw [text, inferenceHost_joinHostPort h.1.nonempty
      ⟨h.1.not_mem (by decide), h.1.not_mem (by decide)⟩ h.2]
    exact h.1.noAddr

end Texts

/-! ## The scanner -/

namespace Config

variable (cfg : Config) (lookup : Nat → Lookup)

def scanner : ScannerOptions :=
  { defaultOptions with useIPv4 := cfg.useIPv4, useIPv6 := cfg.useIPv6 }

def customEndpoints : List AddrPort :=
  cfg.endpoints.zipIdx.flatMap fun e ↦ cfg.scanner.endpointsOf (lookup e.2) e.1

def allCidrs : List Prefix := cfg.defaultCidrs ++ cfg.cidrs.filterMap parsePrefix

/-- The scanner that the options make, if they are not for a port test. -/
theorem newScanner_options (htest : cfg.testIP = []) (hcomma : ∀ e ∈ cfg.endpoints, ch ',' ∉ e) :
    (newScanner (cfg.options lookup)).useIPv4 = cfg.useIPv4 ∧
      (newScanner (cfg.options lookup)).useIPv6 = cfg.useIPv6 ∧
      (newScanner (cfg.options lookup)).cidrList =
        if cfg.allCidrs = [] ∧ cfg.customEndpoints lookup = [] then defaultCFRanges
        else cfg.allCidrs := by
  obtain ⟨size, hsize⟩ : ∃ size, ScannerOptions.withBucketSize cfg.bucketSize.toNat cfg.scanner =
      { cfg.scanner with bucketSize := size } := by
    unfold ScannerOptions.withBucketSize
    split
    all_goals exact ⟨_, rfl⟩
  have hfold : (cfg.options lookup).foldl (fun o option ↦ option o) defaultOptions =
      { cfg.scanner with
        bucketSize := size
        cidrList := cfg.allCidrs
        customEndpoints := cfg.customEndpoints lookup } := by
    rw [options, if_neg (not_not.mpr htest)]
    show (ScannerOptions.withCidrList cfg.allCidrs
      (ScannerOptions.withBucketSize cfg.bucketSize.toNat cfg.scanner)).withCustomEndpoints lookup
        cfg.endpoints = _
    rw [hsize, ScannerOptions.withCustomEndpoints_eq lookup hcomma]
    rfl
  rw [newScanner, hfold]
  dsimp only
  have htests : cfg.scanner.testPortsForIPs = [] := rfl
  simp only [htests, and_true]
  split
  all_goals exact ⟨rfl, rfl, rfl⟩

/-- The lists are complete: no file is left to read, and each endpoint is one. -/
structure Listed (cfg : Config) : Prop where
  useIPv4 : cfg.useIPv4 = false
  useIPv6 : cfg.useIPv6 = false
  testIP : cfg.testIP = []
  comma : ∀ e ∈ cfg.endpoints, ch ',' ∉ e

def HasValid : Prop :=
  (∃ c ∈ cfg.cidrs, (parsePrefix c).isSome) ∨ ∃ E : Entry, E.Valid ∧ E.text ∈ cfg.endpoints

/-- If some entry is valid, there is a scanner, and it does not exclude a valid entry by its IP
version. -/
def Covers (r : Except Bytes ScannerOptions) : Prop :=
  cfg.HasValid → ∃ o, r = .ok o ∧
    (∀ c ∈ cfg.cidrs, ∀ p, parsePrefix c = some p → o.familyEnabled p.addr = true) ∧
    ∀ E : Entry, E.Valid → E.text ∈ cfg.endpoints → E.Kept o

/-- If the user listed something or declined the default ranges, the ranges of the scanner are the
user's. -/
def OwnRanges (r : Except Bytes ScannerOptions) : Prop :=
  cfg.endpoints ≠ [] ∨ cfg.cidrs ≠ [] ∨ cfg.noDefaultCidrs = true → ∀ o, r = .ok o →
    ∀ p ∈ o.cidrList, ∃ c ∈ cfg.cidrs, parsePrefix c = some p

/-- The inference finds what it should. -/
structure Inferred : Prop where
  version : cfg.HasValid → cfg.infers true = true ∨ cfg.infers false = true
  brackets {t : Bytes} : (Entry.brackets t).Valid → (Entry.brackets t).text ∈ cfg.endpoints →
    cfg.infers false = true
  names {E : Entry} : E.Valid → E.Named → E.text ∈ cfg.endpoints →
    cfg.infers true = true ∧ cfg.infers false = true

/-- The user's entries leave something to scan: a range, or an endpoint that has an address. -/
def LeavesEntry : Prop :=
  (∃ c ∈ cfg.cidrs, (parsePrefix c).isSome) ∨ cfg.withFamilies.customEndpoints lookup ≠ []

/-- The user's entries leave something to scan whenever they must: the user listed something or
declined the default ranges, and an IP version is enabled. -/
def Provides : Prop :=
  cfg.endpoints ≠ [] ∨ cfg.cidrs ≠ [] ∨ cfg.noDefaultCidrs = true →
    cfg.endpoints = [] ∧ cfg.cidrs = [] ∨ cfg.infers true = true ∨ cfg.infers false = true →
      cfg.LeavesEntry lookup

variable {cfg}

theorem userInputProvided_iff (h : cfg.Listed) :
    cfg.userInputProvided = true ↔ cfg.endpoints ≠ [] ∨ cfg.cidrs ≠ [] := by
  rw [userInputProvided, h.testIP]
  simp [List.length_pos_iff]

theorem withFamilies_of_provided (h : cfg.Listed)
    (hprovided : cfg.endpoints ≠ [] ∨ cfg.cidrs ≠ []) :
    cfg.withFamilies = { cfg with useIPv4 := cfg.infers true, useIPv6 := cfg.infers false } := by
  rw [withFamilies, h.useIPv4, h.useIPv6, (userInputProvided_iff h).mpr hprovided]
  rfl

theorem withFamilies_of_not_provided (h : cfg.Listed) (he : cfg.endpoints = [])
    (hc : cfg.cidrs = []) : cfg.withFamilies = { cfg with useIPv4 := true, useIPv6 := true } := by
  have hprovided : cfg.userInputProvided = false := by
    rw [Bool.eq_false_iff, ne_eq, userInputProvided_iff h]
    simp [he, hc]
  rw [withFamilies, h.useIPv4, h.useIPv6, hprovided]
  rfl

theorem HasValid.provided (h : cfg.HasValid) : cfg.endpoints ≠ [] ∨ cfg.cidrs ≠ [] := by
  rcases h with ⟨c, hc, -⟩ | ⟨E, -, hE⟩
  · exact .inr (List.ne_nil_of_mem hc)
  · exact .inl (List.ne_nil_of_mem hE)

theorem withFamilies_eq (cfg : Config) :
    ∃ v4 v6, cfg.withFamilies = { cfg with useIPv4 := v4, useIPv6 := v6 } := by
  unfold withFamilies
  split
  · exact ⟨cfg.useIPv4, cfg.useIPv6, rfl⟩
  · split
    all_goals exact ⟨_, _, rfl⟩

theorem build_eq (h : cfg.Listed) :
    (cfg.withFamilies.useIPv4 = false ∧ cfg.withFamilies.useIPv6 = false ∧
      cfg.build lookup = .error errDisabled) ∨
    (cfg.withFamilies.useIPv4 = true ∨ cfg.withFamilies.useIPv6 = true) ∧
      ∃ o, cfg.build lookup = .ok o ∧ o.useIPv4 = cfg.withFamilies.useIPv4 ∧
        o.useIPv6 = cfg.withFamilies.useIPv6 ∧
        o.cidrList =
          if cfg.withFamilies.allCidrs = [] ∧ cfg.withFamilies.customEndpoints lookup = []
          then defaultCFRanges else cfg.withFamilies.allCidrs := by
  obtain ⟨v4, v6, heq⟩ := cfg.withFamilies_eq
  rw [build, heq]
  dsimp only
  cases v4 with
  | false =>
    cases v6 with
    | false => exact .inl ⟨rfl, rfl, rfl⟩
    | true => exact .inr ⟨.inr rfl, _, rfl, newScanner_options _ lookup h.testIP h.comma⟩
  | true => exact .inr ⟨.inl rfl, _, rfl, newScanner_options _ lookup h.testIP h.comma⟩

theorem familyEnabled_eq {addr : Addr} (hvalid : addr.isValid = true) (o : ScannerOptions) :
    o.familyEnabled addr = if addr.is4 then o.useIPv4 else o.useIPv6 := by
  cases addr with
  | invalid => cases hvalid
  | v4 a | v6 a zone => simp [ScannerOptions.familyEnabled, Addr.is4, Addr.is6]

theorem isValid_addr_of_parsePrefix {c : Bytes} {p : Prefix} (h : parsePrefix c = some p) :
    p.addr.isValid = true :=
  (Prefix.parts_of_valid (Prefix.isValid_of_parsePrefix h)).1

theorem infers_of_cidr {c : Bytes} (hc : c ∈ cfg.cidrs) {p : Prefix} (hp : parsePrefix c = some p) :
    cfg.infers p.addr.is4 = true := by
  rw [infers, Bool.or_eq_true_iff, Bool.or_eq_true_iff]
  refine .inl (.inl (List.any_eq_true.mpr ⟨c, hc, ?_⟩))
  rw [hp, Option.any_some, decide_eq_true_eq]

theorem infers_of_endpoint {e : Bytes} (he : e ∈ cfg.endpoints) {addr : Addr}
    (haddr : parseAddr (inferenceHost e) = some addr) : cfg.infers addr.is4 = true := by
  rw [infers, Bool.or_eq_true_iff, Bool.or_eq_true_iff]
  refine .inl (.inr (List.any_eq_true.mpr ⟨e, he, ?_⟩))
  rw [haddr, Option.any_some, decide_eq_true_eq]

section Kept

variable {o : ScannerOptions} (h4 : o.useIPv4 = cfg.infers true) (h6 : o.useIPv6 = cfg.infers false)
include h4 h6

theorem familyEnabled_eq_infers {addr : Addr} (hvalid : addr.isValid = true) :
    o.familyEnabled addr = cfg.infers addr.is4 := by
  rw [familyEnabled_eq hvalid, h4, h6]
  cases addr.is4 <;> rfl

theorem familyEnabled_of_found {e : Bytes} (hmem : e ∈ cfg.endpoints) {addr : Addr}
    (haddr : parseAddr (inferenceHost e) = some addr) : o.familyEnabled addr = true := by
  rw [familyEnabled_eq_infers h4 h6 (isValid_of_parseAddr haddr)]
  exact infers_of_endpoint hmem haddr

/-- What keeps a valid entry.  An address in brackets is not found by the inference, and a host name
is not looked up for it: their versions have to come from other entries. -/
theorem kept_iff {E : Entry} (hv : E.Valid) (hmem : E.text ∈ cfg.endpoints) :
    E.Kept o ↔
      match E with
      | .ip _ | .ipPort _ _ => True
      | .brackets _ => cfg.infers false = true
      | .host _ | .hostPort _ _ => cfg.infers true = true ∧ cfg.infers false = true := by
  cases E with
  | ip t | ipPort t port =>
    refine iff_of_true (fun addr haddr ↦ ?_) trivial
    exact familyEnabled_of_found h4 h6 hmem (hv.parseAddr_inferenceHost.trans haddr)
  | brackets t =>
    obtain ⟨addr, haddr⟩ := Option.isSome_iff_exists.mp hv.1.parses
    have his4 : addr.is4 = false :=
      Bool.eq_false_iff.mpr fun his4 ↦ (is4_iff_of_parseAddr haddr).mp his4 hv.2
    have henabled := familyEnabled_eq_infers h4 h6 (isValid_of_parseAddr haddr)
    rw [his4] at henabled
    rw [← henabled]
    constructor
    · intro hkept
      exact hkept addr haddr
    · intro hkept addr' haddr'
      obtain rfl := Option.some.inj (haddr.symm.trans haddr')
      exact hkept
  | host t | hostPort t port => rw [Entry.Kept, h4, h6]

end Kept

/-- The valid entries are covered if and only if the inference finds what it should. -/
theorem covers_iff (h : cfg.Listed) : cfg.Covers (cfg.build lookup) ↔ cfg.Inferred := by
  by_cases hvalid : cfg.HasValid
  · have hbuild := build_eq lookup h
    rw [withFamilies_of_provided h hvalid.provided] at hbuild
    constructor
    · intro hcovers
      obtain ⟨o, ho, -, hentries⟩ := hcovers hvalid
      obtain ⟨-, -, herror⟩ | ⟨hversion, o', ho', h4, h6, -⟩ := hbuild
      · cases ho.symm.trans herror
      · rw [ho] at ho'
        cases ho'
        refine ⟨fun _ ↦ hversion, fun {t} hv hmem ↦ ?_, fun {E} hv hnamed hmem ↦ ?_⟩
        · exact (kept_iff h4 h6 hv hmem).mp (hentries _ hv hmem)
        · have hkept := (kept_iff h4 h6 hv hmem).mp (hentries E hv hmem)
          cases E with
          | host t | hostPort t port => exact hkept
          | ip t | ipPort t port | brackets t => cases hnamed
    · intro hinferred _
      obtain ⟨h4, h6, -⟩ | ⟨-, o, ho, h4, h6, -⟩ := hbuild
      · dsimp only at h4 h6
        have hversion := hinferred.version hvalid
        rw [h4, h6] at hversion
        simp at hversion
      · refine ⟨o, ho, fun c hc p hp ↦ ?_, fun E hv hmem ↦ (kept_iff h4 h6 hv hmem).mpr ?_⟩
        · rw [familyEnabled_eq_infers h4 h6 (isValid_addr_of_parsePrefix hp)]
          exact infers_of_cidr hc hp
        · cases E with
          | ip t | ipPort t port => trivial
          | brackets t => exact hinferred.brackets hv hmem
          | host t | hostPort t port => exact hinferred.names hv trivial hmem
  · refine iff_of_true (fun hv ↦ absurd hv hvalid) ⟨fun hv ↦ absurd hv hvalid, ?_, ?_⟩
    · exact fun hv hmem ↦ absurd (.inr ⟨_, hv, hmem⟩) hvalid
    · exact fun hv _ hmem ↦ absurd (.inr ⟨_, hv, hmem⟩) hvalid

theorem allCidrs_withFamilies
    (hdomain : cfg.endpoints ≠ [] ∨ cfg.cidrs ≠ [] ∨ cfg.noDefaultCidrs = true) :
    cfg.withFamilies.allCidrs = cfg.cidrs.filterMap parsePrefix := by
  obtain ⟨v4, v6, hfamilies⟩ := cfg.withFamilies_eq
  have hdefault : cfg.withFamilies.defaultCidrs = [] := by
    rw [defaultCidrs, if_neg]
    rw [hfamilies, List.length_eq_zero_iff, List.length_eq_zero_iff]
    rintro ⟨hdecline, hc, he⟩
    rcases hdomain with hne | hne | hno
    · exact hne he
    · exact hne hc
    · dsimp only at hdecline
      rw [hno] at hdecline
      cases hdecline
  rw [allCidrs, hdefault, hfamilies]
  rfl

theorem leavesEntry_iff
    (hdomain : cfg.endpoints ≠ [] ∨ cfg.cidrs ≠ [] ∨ cfg.noDefaultCidrs = true) :
    cfg.LeavesEntry lookup ↔
      ¬(cfg.withFamilies.allCidrs = [] ∧ cfg.withFamilies.customEndpoints lookup = []) := by
  rw [LeavesEntry, allCidrs_withFamilies hdomain, not_and_or]
  refine or_congr_left ⟨?_, fun hne ↦ ?_⟩
  · rintro ⟨c, hc, hsome⟩
    obtain ⟨p, hp⟩ := Option.isSome_iff_exists.mp hsome
    exact List.ne_nil_of_mem (List.mem_filterMap.mpr ⟨c, hc, hp⟩)
  · obtain ⟨p, hmem⟩ := List.exists_mem_of_ne_nil _ hne
    obtain ⟨c, hc, hp⟩ := List.mem_filterMap.mp hmem
    exact ⟨c, hc, Option.isSome_of_eq_some hp⟩

theorem enabled_iff (h : cfg.Listed) :
    cfg.endpoints = [] ∧ cfg.cidrs = [] ∨ cfg.infers true = true ∨ cfg.infers false = true ↔
      cfg.withFamilies.useIPv4 = true ∨ cfg.withFamilies.useIPv6 = true := by
  by_cases hprovided : cfg.endpoints ≠ [] ∨ cfg.cidrs ≠ []
  · rw [withFamilies_of_provided h hprovided, or_iff_right]
    rintro ⟨he, hc⟩
    exact hprovided.elim (fun hne ↦ hne he) fun hne ↦ hne hc
  · obtain ⟨he, hc⟩ := not_or.mp hprovided
    rw [withFamilies_of_not_provided h (not_not.mp he) (not_not.mp hc)]
    exact iff_of_true (.inl ⟨not_not.mp he, not_not.mp hc⟩) (.inl rfl)

/-- The ranges are the user's if and only if the entries leave something to scan. -/
theorem ownRanges_iff (h : cfg.Listed) :
    cfg.OwnRanges (cfg.build lookup) ↔ cfg.Provides lookup := by
  rw [OwnRanges, Provides]
  refine forall_congr' fun hdomain ↦ ?_
  have hall := allCidrs_withFamilies hdomain
  rw [enabled_iff h, leavesEntry_iff lookup hdomain]
  obtain ⟨h4, h6, herror⟩ | ⟨hversion, o, ho, -, -, hlist⟩ := build_eq lookup h
  · refine iff_of_true (fun o ho ↦ ?_) fun hversion ↦ ?_
    · cases ho.symm.trans herror
    · rw [h4, h6] at hversion
      simp at hversion
  · rw [imp_iff_right hversion]
    constructor
    · rintro hown ⟨hcidrs, hcustoms⟩
      rw [if_pos ⟨hcidrs, hcustoms⟩] at hlist
      obtain ⟨p, hp⟩ : ∃ p, p ∈ defaultCFRanges := ⟨_, List.mem_cons_self⟩
      obtain ⟨c, hc, hparse⟩ := hown o ho p (hlist ▸ hp)
      have hmem : p ∈ cfg.withFamilies.allCidrs := by
        rw [hall]
        exact List.mem_filterMap.mpr ⟨c, hc, hparse⟩
      rw [hcidrs] at hmem
      cases hmem
    · intro hleft o' ho' p hp
      rw [ho] at ho'
      cases ho'
      rw [hlist, if_neg hleft, hall] at hp
      exact List.mem_filterMap.mp hp

end Config

theorem not_mem_of_mem_normalize {endpoints : List Bytes} {e : Bytes}
    (h : e ∈ normalize endpoints) : ch ',' ∉ e := by
  obtain ⟨value, -, he⟩ := List.mem_flatMap.mp h
  obtain ⟨part, hpart, rfl⟩ := List.mem_map.mp (List.mem_of_mem_filter he)
  exact fun hmem ↦ not_mem_of_mem_split hpart (mem_of_mem_trimSpace hmem)

/-- The scanner of a user who gave no flag for the IP version and no address for a port test.  It
covers the valid entries, and its ranges are the user's, if and only if the inference finds what it
should and the entries leave something to scan. -/
theorem buildScanner_iff (files : FileSystem) (lookup : Nat → Lookup) (cfg listed : Config)
    (h4 : cfg.useIPv4 = false) (h6 : cfg.useIPv6 = false) (htest : cfg.testIP = [])
    (hlisted : cfg.consolidate files = .ok listed) :
    listed.Covers (buildScanner files lookup cfg) ∧
      listed.OwnRanges (buildScanner files lookup cfg) ↔
      listed.Inferred ∧ listed.Provides lookup := by
  have hcomplete : listed.Listed := by
    unfold Config.consolidate at hlisted
    cases hendpoints : withFile files "endpoints" cfg.endpoints cfg.endpointsFile with
    | error err => rw [hendpoints] at hlisted; cases hlisted
    | ok endpoints =>
      cases hcidrs : withFile files "cidrs" cfg.cidrs cfg.cidrsFile with
      | error err => rw [hendpoints, hcidrs] at hlisted; cases hlisted
      | ok cidrs =>
        rw [hendpoints, hcidrs] at hlisted
        cases hlisted
        exact ⟨h4, h6, htest, fun e he ↦ not_mem_of_mem_normalize he⟩
  have hbuild : buildScanner files lookup cfg = listed.build lookup := by
    rw [buildScanner, hlisted]
    rfl
  rw [hbuild]
  exact and_congr (Config.covers_iff lookup hcomplete) (Config.ownRanges_iff lookup hcomplete)

/-- A resolver and a file system that have nothing. -/
def noLookup : Nat → Lookup := fun _ _ ↦ none

/-- See `noLookup`. -/
def noFiles : FileSystem := fun _ ↦ .error (str "no such file or directory")

/-- The endpoints of both IP versions stand in one value, and a host name and a range beside
them. -/
def mixedConfig : Config where
  endpoints := [str "192.0.2.1:2408, [2001:db8::1]:500", str "[2001:db8::2]",
    str "engage.cloudflareclient.com:2408"]
  cidrs := [str "10.0.0.0/24"]

/-- The configuration with its endpoints one by one. -/
def mixedListed : Config where
  endpoints := [str "192.0.2.1:2408", str "[2001:db8::1]:500", str "[2001:db8::2]",
    str "engage.cloudflareclient.com:2408"]
  cidrs := [str "10.0.0.0/24"]

/-- The versions of the two addresses with a port are what the address in brackets and the host name
need, although the name does not resolve. -/
theorem buildScanner_mixed :
    mixedConfig.consolidate noFiles = .ok mixedListed ∧
      mixedListed.HasValid ∧ mixedListed.Covers (buildScanner noFiles noLookup mixedConfig) ∧
      mixedListed.OwnRanges (buildScanner noFiles noLookup mixedConfig) := by
  have hlisted : mixedConfig.consolidate noFiles = .ok mixedListed := rfl
  have hprefix : (parsePrefix (str "10.0.0.0/24")).isSome := by decide
  have h4 : mixedListed.infers true = true := by decide
  have h6 : mixedListed.infers false = true := by decide
  refine ⟨hlisted, .inl ⟨_, List.mem_cons_self, hprefix⟩, ?_⟩
  refine (buildScanner_iff noFiles noLookup mixedConfig mixedListed rfl rfl rfl hlisted).mpr
    ⟨?_, ?_⟩
  · exact ⟨fun _ ↦ .inl h4, fun _ _ ↦ h6, fun _ _ _ ↦ ⟨h4, h6⟩⟩
  · exact fun _ _ ↦ .inl ⟨_, List.mem_cons_self, hprefix⟩

/-- A host name and an IPv6 address in brackets are valid entries, but neither of them alone makes a
scanner.  A user who declines the default ranges and lists nothing gets the ranges of
`NewScanner`. -/
theorem buildScanner_excludes :
    ((Entry.host (str "engage.cloudflareclient.com")).Valid ∧
      buildScanner noFiles noLookup { endpoints := [str "engage.cloudflareclient.com"] } =
        .error errDisabled) ∧
    ((Entry.brackets (str "2001:db8::1")).Valid ∧
      buildScanner noFiles noLookup { endpoints := [str "[2001:db8::1]"] } = .error errDisabled) ∧
    (buildScanner noFiles noLookup { noDefaultCidrs := true }).map (·.cidrList) =
      .ok defaultCFRanges := by
  refine ⟨⟨⟨by decide, by decide +kernel, by decide⟩, ?_⟩,
    ⟨⟨⟨by decide, by decide⟩, by decide⟩, ?_⟩, ?_⟩
  · rfl
  · rfl
  · rfl

end Vwarp.Cmd.WarpScan
