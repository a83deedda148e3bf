import Vwarp.Go.NetText
import Vwarp.IpScanner.Iterator.Scope
import Vwarp.Wiresocks.Scanner

/-!
# The scope of a scan

`InScope` says which addresses the user's text denotes, and `Contributes` says whether an
entry of the text leaves the scanner anything to scan.  Every custom endpoint is in scope.
What is scanned from the prefixes need not be: a prefix is scanned from its address on,
host bits included, and if no entry contributes the built-in ranges are scanned instead.
`runScan_scope_iff` is the exact condition under which nothing outside the scope is
pinged and the built-in ranges are not scanned.
-/

namespace Vwarp.Wiresocks

open Vwarp.Go Vwarp.Lib Vwarp.IpScanner

/-! ## The scope of a text -/

/-- The text that an entry, if it is no prefix, is looked up under. -/
def endpointText (entry : Bytes) : Bytes :=
  if (splitHostPort entry).isSome then entry else joinHostPort entry (str "0")

def hostName (entry : Bytes) : Bytes :=
  match splitHostPort (endpointText entry) with
  | some (host, _) => host
  | none => endpointText entry

/-- The addresses that an entry denotes: those of a prefix, the one that is written, or
those that the name was resolved to. -/
inductive EntryScope (lookup : Lookup) (entry : Bytes) : Addr → Prop
  | /-- A prefix denotes what it contains once it is masked. -/
    cidr {p ip} : parsePrefix entry = some p → p.masked.contains ip = true →
      EntryScope lookup entry ip
  | addrPort {ap} : parseAddrPort entry = some ap → EntryScope lookup entry ap.addr
  | addr {ip} : parseAddr entry = some ip → EntryScope lookup entry ip
  | /-- A name denotes the addresses of the resolver's answer. -/
    name {ips bytes ip} : parsePrefix entry = none →
      parseAddrPort entry = none → parseAddr entry = none → lookup (hostName entry) = some ips →
      bytes ∈ ips → addrFromSlice bytes = some ip → EntryScope lookup entry ip

def InScope (endpoints : Bytes) (lookup : Nat → Lookup) (ip : Addr) : Prop :=
  ∃ i entry, (entries endpoints)[i]? = some entry ∧ EntryScope (lookup i) entry ip

/-- The port of the entry's text, if it has one, can be read by `ParseUint`. -/
def portReadable (entry : Bytes) : Bool :=
  match splitHostPort (endpointText entry) with
  | some (_, portStr) => (parseUint portStr 16).isSome
  | none => true

/-- The entry leaves the scanner something to scan: it is a prefix or an address, or a name
with a readable port that was resolved to an address of an enabled family. -/
def Contributes (opts : ScanOptions) (lookup : Lookup) (entry : Bytes) : Prop :=
  (parsePrefix entry).isSome = true ∨ (parseAddrPort entry).isSome = true ∨
    (parseAddr entry).isSome = true ∨
      portReadable entry = true ∧ ∃ ips bytes addr, lookup (hostName entry) = some ips ∧
        bytes ∈ ips ∧ addrFromSlice bytes = some addr ∧
        (addr.is4 = true ∧ opts.v4 = true ∨ addr.is6 = true ∧ opts.v6 = true)

def ScanOptions.scanner (opts : ScanOptions) : ScannerOptions :=
  { defaultOptions with useIPv4 := opts.v4, useIPv6 := opts.v6, bucketSize := 1 }

/-- The resolver answered the address for the name. -/
def Resolves (lookup : Lookup) (entry : Bytes) (ip : Addr) : Prop :=
  ∃ ips bytes, lookup (hostName entry) = some ips ∧ bytes ∈ ips ∧ addrFromSlice bytes = some ip

/-- The addresses that an entry which is no prefix adds to the endpoints: the one that is written,
or those of the resolver's answer for which `Is4` or `Is6` meets its flag, if the port can be
read. -/
inductive Adds (opts : ScanOptions) (lookup : Lookup) (entry : Bytes) : Addr → Prop
  | addrPort {ap} : parseAddrPort entry = some ap → Adds opts lookup entry ap.addr
  | addr {ip} : parseAddr entry = some ip → Adds opts lookup entry ip
  | name {ip} : parseAddrPort entry = none → parseAddr entry = none →
      portReadable entry = true → Resolves lookup entry ip → opts.scanner.familyEnabled ip = true →
      Adds opts lookup entry ip

/-! ## Entries -/

variable {entry text : Bytes} {opts : ScanOptions} {ip : Addr}

/-- An entry that became an endpoint: it was split into host and port, or it has none and
is an address or looks like a name. -/
theorem endpoint_cases (h : parseEntry entry = .ok (.endpoint text)) :
    parsePrefix entry = none ∧ text = endpointText entry ∧
      ((splitHostPort entry).isSome = true ∨
        (splitHostPort entry = none ∧ text = joinHostPort entry (str "0") ∧
          ((parseAddr entry).isSome = true ∨ ch '.' ∈ entry ∧ ch ':' ∉ entry))) := by
  unfold parseEntry at h
  split at h
  · cases h
  · rename_i hcidr
    refine ⟨hcidr, ?_⟩
    split at h
    · rename_i host portStr hsplit
      have htext : entry = text := by
        split at h
        · split at h
          · cases h
          · exact ScanEntry.endpoint.inj (Except.ok.inj h)
        · cases h
      subst htext
      rw [endpointText, hsplit]
      exact ⟨rfl, .inl rfl⟩
    · rename_i hsplit
      have hjoin : text = joinHostPort entry (str "0") ∧
          ((parseAddr entry).isSome = true ∨ ch '.' ∈ entry ∧ ch ':' ∉ entry) := by
        split at h
        · rename_i haddr
          exact ⟨(ScanEntry.endpoint.inj (Except.ok.inj h)).symm, .inl haddr⟩
        · split at h
          · rename_i hname
            exact ⟨(ScanEntry.endpoint.inj (Except.ok.inj h)).symm, .inr ⟨hname.1, hname.2.2⟩⟩
          · cases h
      refine ⟨?_, .inr ⟨hsplit, hjoin.1, hjoin.2⟩⟩
      rw [endpointText, hsplit]
      exact hjoin.1

/-- A text that is no address is looked up. -/
theorem endpointsOf_of_name (hentry : endpointText entry = text) (hap : parseAddrPort text = none)
    (haddr : parseAddr text = none) (lookup : Lookup) (o : ScannerOptions) :
    ∃ port, o.endpointsOf lookup text =
      match lookup (hostName entry), portReadable entry with
      | some ips, true => o.resolved ips port
      | _, _ => [] := by
  simp only [hostName, portReadable, hentry]
  rw [ScannerOptions.endpointsOf, hap, haddr]
  cases splitHostPort text with
  | none => exact ⟨o.defaultPort, by cases lookup text <;> rfl⟩
  | some hp =>
    obtain ⟨host, portStr⟩ := hp
    dsimp only
    cases parseUint portStr 16 with
    | none => exact ⟨0, by cases lookup host <;> rfl⟩
    | some port => exact ⟨UInt16.ofNat port, by cases lookup host <;> rfl⟩

/-- What the scanner reads in the text of an endpoint: the address of the entry with some
port, or the answer to the lookup of its name. -/
theorem endpointsOf_eq (h : parseEntry entry = .ok (.endpoint text))
    (lookup : Lookup) (o : ScannerOptions) :
    (∃ ap, o.endpointsOf lookup text = [ap] ∧
      (parseAddrPort entry = some ap ∨ parseAddr entry = some ap.addr)) ∨
    parseAddrPort entry = none ∧ parseAddr entry = none ∧
      ∃ port, o.endpointsOf lookup text =
        match lookup (hostName entry), portReadable entry with
        | some ips, true => o.resolved ips port
        | _, _ => [] := by
  obtain ⟨-, htext, hsplit | ⟨hsplit, hjoin, hkind⟩⟩ := endpoint_cases h
  · -- the entry is read as it is
    have hentry : endpointText entry = entry := if_pos hsplit
    rw [htext, hentry]
    cases hap : parseAddrPort entry with
    | some ap => exact .inl ⟨ap, by rw [ScannerOptions.endpointsOf, hap], .inl rfl⟩
    | none =>
      cases haddr : parseAddr entry with
      | some addr => exact .inl ⟨_, by rw [ScannerOptions.endpointsOf, hap, haddr], .inr rfl⟩
      | none => exact .inr ⟨rfl, rfl, endpointsOf_of_name hentry hap haddr lookup o⟩
  · cases haddr : parseAddr entry with
    | some addr =>
      refine .inl ⟨⟨addr, 0⟩, ?_, .inr rfl⟩
      rw [hjoin, ScannerOptions.endpointsOf, parseAddrPort_joinHostPort haddr]
    | none =>
      obtain ⟨hdot, hcolon⟩ := hkind.resolve_left (by simp [haddr])
      have hap : parseAddrPort entry = none := by
        rw [parseAddrPort, lastIndexByte_eq_none hcolon]
      exact .inr ⟨hap, rfl, endpointsOf_of_name htext.symm
        (hjoin ▸ parseAddrPort_joinHostPort_eq_none hcolon haddr)
        (hjoin ▸ parseAddr_joinHostPort_eq_none hcolon hdot) lookup o⟩

variable {o : ScannerOptions}

theorem mem_resolved {ips : List Bytes} {port : UInt16} :
    (∃ c ∈ o.resolved ips port, c.addr = ip) ↔
      (∃ bytes ∈ ips, addrFromSlice bytes = some ip) ∧ o.familyEnabled ip = true := by
  simp only [ScannerOptions.resolved, List.mem_map, List.mem_filter, List.mem_filterMap]
  constructor
  · rintro ⟨c, ⟨ip, hip, rfl⟩, rfl⟩
    exact hip
  · intro hip
    exact ⟨_, ⟨ip, hip, rfl⟩, rfl⟩

theorem mem_endpointsOf_iff (h : parseEntry entry = .ok (.endpoint text)) {lookup : Lookup} :
    (∃ c ∈ opts.scanner.endpointsOf lookup text, c.addr = ip) ↔ Adds opts lookup entry ip := by
  obtain ⟨ap, hlist, haddr⟩ | ⟨hap, haddr, port, hlist⟩ := endpointsOf_eq h lookup opts.scanner
  · rw [hlist]
    constructor
    · rintro ⟨c, hc, rfl⟩
      obtain rfl := List.mem_singleton.mp hc
      exact haddr.elim .addrPort .addr
    · intro hadds
      refine ⟨ap, List.mem_singleton_self ap, ?_⟩
      cases hadds with
      | @addrPort ap' hap' =>
        rcases haddr with hap | haddr
        · exact congrArg AddrPort.addr (Option.some.inj (hap.symm.trans hap'))
        · exact nomatch (parseAddrPort_of_parseAddr haddr).symm.trans hap'
      | addr haddr' =>
        rcases haddr with hap | haddr
        · exact nomatch (parseAddrPort_of_parseAddr haddr').symm.trans hap
        · exact Option.some.inj (haddr.symm.trans haddr')
      | name hnone hnone' =>
        rcases haddr with hap | haddr
        · exact nomatch hnone.symm.trans hap
        · exact nomatch hnone'.symm.trans haddr
  · rw [hlist]
    constructor
    · intro hmem
      split at hmem
      · rename_i ips hips hport
        obtain ⟨⟨bytes, hbytes, hslice⟩, henabled⟩ := mem_resolved.mp hmem
        exact .name hap haddr hport ⟨ips, bytes, hips, hbytes, hslice⟩ henabled
      · obtain ⟨c, hc, -⟩ := hmem
        cases hc
    · intro hadds
      cases hadds with
      | addrPort hap' => exact nomatch hap.symm.trans hap'
      | addr haddr' => exact nomatch haddr.symm.trans haddr'
      | name _ _ hport hresolves henabled =>
        obtain ⟨ips, bytes, hips, hbytes, hslice⟩ := hresolves
        rw [hips, hport]
        exact mem_resolved.mpr ⟨⟨bytes, hbytes, hslice⟩, henabled⟩

theorem Adds.entryScope {lookup : Lookup} (hcidr : parsePrefix entry = none)
    (h : Adds opts lookup entry ip) : EntryScope lookup entry ip := by
  cases h with
  | addrPort hap => exact .addrPort hap
  | addr haddr => exact .addr haddr
  | name hap haddr _ hresolves _ =>
    obtain ⟨ips, bytes, hips, hbytes, hslice⟩ := hresolves
    exact .name hcidr hap haddr hips hbytes hslice

theorem contributes_iff_adds {lookup : Lookup} (hcidr : parsePrefix entry = none) :
    Contributes opts lookup entry ↔ ∃ ip, Adds opts lookup entry ip := by
  have henabled (ip : Addr) : opts.scanner.familyEnabled ip = true ↔
      ip.is4 = true ∧ opts.v4 = true ∨ ip.is6 = true ∧ opts.v6 = true := by
    simp [ScannerOptions.familyEnabled, ScanOptions.scanner]
  rw [Contributes, or_iff_right (by simp [hcidr])]
  constructor
  · cases hap : parseAddrPort entry with
    | some ap => exact fun _ ↦ ⟨_, .addrPort hap⟩
    | none =>
      cases haddr : parseAddr entry with
      | some ip => exact fun _ ↦ ⟨_, .addr haddr⟩
      | none =>
        rintro (h | h | ⟨hport, ips, bytes, ip, hips, hbytes, hslice, hfamily⟩)
        · cases h
        · cases h
        · exact ⟨ip, .name hap haddr hport ⟨ips, bytes, hips, hbytes, hslice⟩
            ((henabled ip).mpr hfamily)⟩
  · rintro ⟨ip, hap | haddr | ⟨-, -, hport, ⟨ips, bytes, hips, hbytes, hslice⟩, hfamily⟩⟩
    · exact .inl (by rw [hap]; rfl)
    · exact .inr (.inl (by rw [haddr]; rfl))
    · exact .inr (.inr ⟨hport, ips, bytes, ip, hips, hbytes, hslice, (henabled ip).mp hfamily⟩)

/-! ## The scanner of a text -/

def ScanEntry.cidrs : ScanEntry → List Prefix
  | cidr p => [p]
  | endpoint _ => []

def ScanEntry.customEndpoints (lookup : Lookup) (o : ScannerOptions) : ScanEntry → List AddrPort
  | cidr _ => []
  | endpoint text => o.endpointsOf lookup text

variable {endpoints : Bytes}

theorem not_mem_endpoint (hentry : entry ∈ entries endpoints)
    (h : parseEntry entry = .ok (.endpoint text)) : ch ',' ∉ text := by
  have hcomma : ch ',' ∉ entry := by
    obtain ⟨part, hpart, rfl⟩ := List.mem_map.mp (List.mem_of_mem_filter hentry)
    exact fun hmem ↦ not_mem_of_mem_split hpart (mem_of_mem_trimSpace hmem)
  rw [(endpoint_cases h).2.1, endpointText]
  split
  · exact hcomma
  · unfold joinHostPort
    split
    · simp only [List.mem_append, not_or]
      exact ⟨⟨⟨by decide, hcomma⟩, by decide⟩, by decide⟩
    · simp only [List.mem_append, not_or]
      exact ⟨⟨hcomma, by decide⟩, by decide⟩

theorem option_eq {e : ScanEntry} (h : ∀ text, e = .endpoint text → ch ',' ∉ text) (lookup : Lookup)
    (o : ScannerOptions) :
    e.option lookup o = { o with
      cidrList := o.cidrList ++ e.cidrs
      customEndpoints := o.customEndpoints ++ e.customEndpoints lookup o } := by
  cases e with
  | cidr p => simp [ScanEntry.option, ScannerOptions.withAppendCidrList, ScanEntry.cidrs,
      ScanEntry.customEndpoints]
  | endpoint text =>
    rw [ScanEntry.option, ScannerOptions.withAppendCustomEndpoint,
      ScannerOptions.addEndpoint_eq (h text rfl), ScannerOptions.addOne]
    simp [ScanEntry.cidrs, ScanEntry.customEndpoints]

theorem foldl_option (lookup : Nat → Lookup) (es : List (ScanEntry × Nat))
    (h : ∀ e ∈ es, ∀ text, e.1 = .endpoint text → ch ',' ∉ text) (o : ScannerOptions) :
    (es.map fun (e, i) ↦ e.option (lookup i)).foldl (fun o option ↦ option o) o = { o with
      cidrList := o.cidrList ++ es.flatMap (·.1.cidrs)
      customEndpoints := o.customEndpoints ++
        es.flatMap fun e ↦ e.1.customEndpoints (lookup e.2) o } := by
  induction es generalizing o with
  | nil => simp
  | cons e es ih =>
    obtain ⟨e, i⟩ := e
    rw [List.map_cons, List.foldl_cons, ih (fun e' he' ↦ h e' (List.mem_cons_of_mem _ he'))]
    dsimp only
    rw [option_eq (h (e, i) List.mem_cons_self)]
    simp only [List.flatMap_cons, List.append_assoc]
    -- the families and the port are the same in all rounds
    rfl

theorem map_of_mapM {α β ε : Type} {f : α → Except ε β} {l : List α} {es : List β}
    (h : l.mapM f = .ok es) : l.map f = es.map .ok := by
  induction l generalizing es with
  | nil =>
    obtain rfl : [] = es := Except.ok.inj h
    rfl
  | cons x l ih =>
    rw [List.mapM_cons] at h
    cases hx : f x with
    | error err => rw [hx] at h; cases h
    | ok y =>
      cases hl : l.mapM f with
      | error err => rw [hx, hl] at h; cases h
      | ok ys =>
        rw [hx, hl] at h
        obtain rfl : y :: ys = es := Except.ok.inj h
        rw [List.map_cons, List.map_cons, ih hl, hx]

/-- The lists that the scanner of a text is left with. -/
structure Collected (opts : ScanOptions) (lookup : Nat → Lookup) (cidrs : List Prefix)
    (customs : List AddrPort) : Prop where
  mem_cidrs (p : Prefix) :
    p ∈ cidrs ↔ ∃ (i : Nat) (entry : Bytes), (entries opts.endpoints)[i]? = some entry ∧
      parsePrefix entry = some p
  /-- The endpoints are those that the other entries add. -/
  mem_customs (c : AddrPort) :
    c ∈ customs ↔ ∃ (i : Nat) (entry text : Bytes), (entries opts.endpoints)[i]? = some entry ∧
      parseEntry entry = .ok (.endpoint text) ∧ c ∈ opts.scanner.endpointsOf (lookup i) text
  accepted {i : Nat} {entry : Bytes} (h : (entries opts.endpoints)[i]? = some entry) :
    ∃ e, parseEntry entry = .ok e

theorem parseEntry_cidr {p : Prefix} :
    parseEntry entry = .ok (.cidr p) ↔ parsePrefix entry = some p := by
  constructor
  · intro h
    unfold parseEntry at h
    split at h
    · rename_i q hq
      rw [hq, ScanEntry.cidr.inj (Except.ok.inj h)]
    · repeat' split at h
      all_goals cases h
  · intro h
    rw [parseEntry, h]

variable {lookup : Nat → Lookup} {cidrs list : List Prefix} {customs : List AddrPort}

/-- An entry that is no prefix is scanned under its text. -/
theorem Collected.parseEntry_eq (h : Collected opts lookup cidrs customs) {i : Nat}
    (hentry : (entries opts.endpoints)[i]? = some entry) (hcidr : parsePrefix entry = none) :
    parseEntry entry = .ok (.endpoint (endpointText entry)) := by
  obtain ⟨e, he⟩ := h.accepted hentry
  cases e with
  | cidr p => exact nomatch hcidr.symm.trans (parseEntry_cidr.mp he)
  | endpoint text => rw [he, (endpoint_cases he).2.1]

theorem Collected.mem_customs_iff (hcoll : Collected opts lookup cidrs customs) :
    (∃ c ∈ customs, c.addr = ip) ↔ ∃ (i : Nat) (entry : Bytes),
      (entries opts.endpoints)[i]? = some entry ∧ parsePrefix entry = none ∧
      Adds opts (lookup i) entry ip := by
  constructor
  · rintro ⟨c, hc, hip⟩
    obtain ⟨i, entry, text, hentry, hparse, hc⟩ := (hcoll.mem_customs c).mp hc
    exact ⟨i, entry, hentry, (endpoint_cases hparse).1,
      (mem_endpointsOf_iff hparse).mp ⟨c, hc, hip⟩⟩
  · rintro ⟨i, entry, hentry, hcidr, hadds⟩
    have hparse := hcoll.parseEntry_eq hentry hcidr
    obtain ⟨c, hc, hip⟩ := (mem_endpointsOf_iff hparse).mpr hadds
    exact ⟨c, (hcoll.mem_customs c).mpr ⟨i, entry, _, hentry, hparse, hc⟩, hip⟩

theorem runScanner_eq (hne : opts.endpoints ≠ []) (h : runScanner opts lookup = .ok o) :
    ∃ cidrs customs, Collected opts lookup cidrs customs ∧
      o = if cidrs = [] ∧ customs = [] then { opts.scanner with cidrList := defaultCFRanges }
        else { opts.scanner with cidrList := cidrs, customEndpoints := customs } := by
  rw [runScanner, if_neg hne] at h
  cases hes : parseEndpoints opts.endpoints with
  | error err => rw [hes] at h; cases h
  | ok es =>
    rw [hes] at h
    have hmap (i : Nat) : ((entries opts.endpoints)[i]?).map parseEntry = es[i]?.map .ok := by
      rw [← List.getElem?_map, ← List.getElem?_map, map_of_mapM hes]
    have hget (i : Nat) (e : ScanEntry) : es[i]? = some e ↔
        ∃ entry, (entries opts.endpoints)[i]? = some entry ∧ parseEntry entry = .ok e := by
      rw [← Option.map_eq_some_iff, hmap, Option.map_eq_some_iff]
      simp
    have hmem {β : Type} (f : ScanEntry × Nat → List β) (x : β) : x ∈ es.zipIdx.flatMap f ↔
        ∃ (i : Nat) (entry : Bytes) (e : ScanEntry), (entries opts.endpoints)[i]? = some entry ∧
          parseEntry entry = .ok e ∧ x ∈ f (e, i) := by
      simp only [List.mem_flatMap, Prod.exists, List.mem_zipIdx_iff_getElem?, hget]
      grind
    have hcomma : ∀ e ∈ es.zipIdx, ∀ text, e.1 = .endpoint text → ch ',' ∉ text := by
      rintro ⟨e, i⟩ he text rfl
      obtain ⟨entry, hentry, hparse⟩ := (hget i _).mp (List.mem_zipIdx_iff_getElem?.mp he)
      exact not_mem_endpoint (List.mem_of_getElem? hentry) hparse
    refine ⟨es.zipIdx.flatMap (·.1.cidrs),
      es.zipIdx.flatMap fun e ↦ e.1.customEndpoints (lookup e.2) opts.scanner, ?_, ?_⟩
    · refine ⟨fun p ↦ (hmem _ p).trans ⟨?_, ?_⟩, fun c ↦ (hmem _ c).trans ⟨?_, ?_⟩, ?_⟩
      · rintro ⟨i, entry, _ | _, hentry, hparse, hp⟩
        · obtain rfl := List.mem_singleton.mp hp
          exact ⟨i, entry, hentry, parseEntry_cidr.mp hparse⟩
        · cases hp
      · rintro ⟨i, entry, hentry, hp⟩
        exact ⟨i, entry, _, hentry, parseEntry_cidr.mpr hp, List.mem_singleton_self p⟩
      · rintro ⟨i, entry, _ | text, hentry, hparse, hc⟩
        · cases hc
        · exact ⟨i, entry, text, hentry, hparse, hc⟩
      · rintro ⟨i, entry, text, hentry, hparse, hc⟩
        exact ⟨i, entry, _, hentry, hparse, hc⟩
      · intro i entry hentry
        have hi := hmap i
        rw [hentry] at hi
        obtain ⟨e, -, he⟩ := Option.map_eq_some_iff.mp hi.symm
        exact ⟨e, he.symm⟩
    · obtain rfl := Except.ok.inj h
      have hfold := foldl_option lookup es.zipIdx hcomma opts.scanner
      simp only [newScanner, List.foldl_append]
      refine (congrArg (fun o : ScannerOptions ↦
        if o.cidrList = [] ∧ o.customEndpoints = [] ∧ o.testPortsForIPs = [] then
          { o with cidrList := defaultCFRanges } else o) hfold).trans ?_
      refine ite_congr (propext (and_congr_right fun _ ↦ and_iff_left rfl)) ?_ fun _ ↦ rfl
      rintro ⟨-, hcustoms⟩
      rw [hcustoms]
      rfl

/-- The scanner of `RunScan` with the given prefixes and endpoints. -/
def ScanOptions.scannerOf (opts : ScanOptions) (cidrs : List Prefix) (customs : List AddrPort) :
    ScannerOptions :=
  { opts.scanner with cidrList := cidrs, customEndpoints := customs }

/-- The prefixes that are scanned: those collected, or built-in ones if nothing was. -/
def Scanned (cidrs : List Prefix) (customs : List AddrPort) (list : List Prefix) : Prop :=
  if cidrs = [] ∧ customs = [] then list = warpPrefixes ∨ list = defaultCFRanges else list = cidrs

theorem runScanner_lists (h : runScanner opts lookup = .ok o) :
    ∃ cidrs customs list, Collected opts lookup cidrs customs ∧ Scanned cidrs customs list ∧
      o = opts.scannerOf list customs := by
  by_cases hne : opts.endpoints = []
  · have hentries : entries opts.endpoints = [] := by
      rw [hne]
      rfl
    refine ⟨[], [], warpPrefixes, ⟨?_, ?_, ?_⟩, .inl rfl, ?_⟩
    · simp [hentries]
    · simp [hentries]
    · simp [hentries]
    · rw [runScanner, if_pos hne] at h
      obtain rfl := Except.ok.inj h
      rfl
  · obtain ⟨cidrs, customs, hcoll, rfl⟩ := runScanner_eq hne h
    split_ifs with hnil
    · obtain ⟨rfl, rfl⟩ := hnil
      exact ⟨[], [], defaultCFRanges, hcoll, .inr rfl, rfl⟩
    · exact ⟨cidrs, customs, cidrs, hcoll, (if_neg hnil).mpr rfl, rfl⟩

theorem isValid_builtin (hlist : list = warpPrefixes ∨ list = defaultCFRanges) :
    ∀ p ∈ list, p.isValid = true := by
  rcases hlist with rfl | rfl
  · decide +kernel
  · decide +kernel

theorem Collected.isValid_of_mem (hcoll : Collected opts lookup cidrs customs)
    (hlist : Scanned cidrs customs list) : ∀ p ∈ list, p.isValid = true := by
  intro p hp
  unfold Scanned at hlist
  split at hlist
  · exact isValid_builtin hlist p hp
  · subst hlist
    obtain ⟨i, entry, -, hparse⟩ := (hcoll.mem_cidrs p).mp hp
    exact Prefix.isValid_of_parsePrefix hparse

/-! ## What is pinged -/

/-- A number that can be pinged if it is reached is in `S`: numbers that do not fit panic
before anything is pinged. -/
def Allowed (S : Addr → Prop) (n : Nat) : Prop :=
  n < 2 ^ 128 → Iterator.validEndpoint (.ofNat16 n) = true → S (.ofNat16 n)

/-- The prefixes of the scanner give addresses of `S` only, exactly when the numbers they reach
allow it. -/
theorem generated_in_iff (hbucket : o.bucketSize = 1)
    (hvalid : ∀ p ∈ o.cidrList, p.isValid = true) {S : Addr → Prop} :
    (∀ draws result, (Iterator.generateFrom o.toOptions).run draws = some result →
      ∀ ip ∈ cidrIPs result, S ip) ↔
      ∀ p ∈ o.cidrList, o.enabled p = true → ∀ n, Iterator.Reaches p n → Allowed S n := by
  have hgood (n : Nat) : Iterator.Good True S n ↔ Allowed S n := by
    unfold Iterator.Good Allowed
    split_ifs with hlt
    · exact ⟨fun h _ ↦ h, fun h ↦ h hlt⟩
    · exact iff_of_true trivial fun h ↦ absurd h hlt
  have hgen := (Draw.ensures_iff_run (F := True)).symm.trans
    (Iterator.ensures_generateFrom (S := S) hvalid (by omega) fun _ ↦ hbucket)
  simp only [hgood] at hgen
  rw [← hgen]
  refine forall_congr' fun draws ↦ ?_
  cases (Iterator.generateFrom o.toOptions).run draws with
  | none => exact iff_of_true (fun _ h ↦ nomatch h) trivial
  | some result =>
    constructor
    · rintro h ips rfl
      exact h _ rfl
    · intro h result' heq ip hip
      cases heq
      cases result with
      | error err => cases hip
      | ok ips => exact h ips rfl ip hip

/-- With the custom endpoints in `S`, the scanner of `RunScan` pings addresses of `S` only,
exactly when the numbers its prefixes reach allow it. -/
theorem pinged_in_iff (htest : o.testPortsForIPs = [])
    (hfamily : o.useIPv4 = true ∨ o.useIPv6 = true) (hbucket : o.bucketSize = 1)
    (hvalid : ∀ p ∈ o.cidrList, p.isValid = true) {S : Addr → Prop}
    (hcustoms : ∀ c ∈ o.customEndpoints, S c.addr) :
    (∀ ip, Pinged engineOptions o ip → S ip) ↔
      ∀ p ∈ o.cidrList, o.enabled p = true → ∀ n, Iterator.Reaches p n → Allowed S n := by
  rw [← generated_in_iff hbucket hvalid]
  have hpinged {ip : Addr} := @pinged_iff o engineOptions rfl rfl (by decide) htest ip
  simp only [hpinged]
  constructor
  · intro h draws result hrun ip hip
    exact h ip ⟨hfamily, draws, result, hrun, .inl hip⟩
  · rintro h ip ⟨-, draws, result, hrun, hip | ⟨c, hc, rfl⟩⟩
    · exact h draws result hrun ip hip
    · exact hcustoms c hc

/-- The address after that of an enabled built-in range can be pinged. -/
theorem pinged_default (opts : ScanOptions) (hfamily : opts.v4 = true ∨ opts.v6 = true) {p : Prefix}
    (hp : p ∈ defaultCFRanges ∧ 1 < Iterator.span p ∧ p.addr.toNat16 + 1 < 2 ^ 128 ∧
      Iterator.validEndpoint (.ofNat16 (p.addr.toNat16 + 1)) = true)
    (henabled : opts.scanner.enabled p = true) :
    Pinged engineOptions { opts.scanner with cidrList := defaultCFRanges }
      (.ofNat16 (p.addr.toNat16 + 1)) := by
  obtain ⟨hmem, hspan, hlt, hendpoint⟩ := hp
  by_contra hnot
  have hvalid := isValid_builtin (.inr rfl)
  -- if it is not, then all that is pinged differs from it, and so does what is reached
  have hreach := (pinged_in_iff (o := { opts.scanner with cidrList := defaultCFRanges })
    (S := (· ≠ .ofNat16 (p.addr.toNat16 + 1))) rfl hfamily rfl hvalid fun c hc ↦ nomatch hc).mp
      fun ip hip heq ↦ hnot (heq ▸ hip)
  exact hreach p hmem henabled _ (.inl ⟨Nat.le_succ _, Nat.add_lt_add_left hspan _⟩)
    hlt hendpoint rfl

/-- Some enabled prefix of a built-in list reaches an address that can be pinged. -/
theorem exists_reached_builtin {list : List Prefix} (hfamily : opts.v4 = true ∨ opts.v6 = true)
    (hlist : list = warpPrefixes ∨ list = defaultCFRanges) :
    ∃ p ∈ list, opts.scanner.enabled p = true ∧
      ∃ n, Iterator.Reaches p n ∧ ¬ Allowed (fun _ ↦ False) n := by
  have hsecond : ∀ l ∈ [warpPrefixes, defaultCFRanges], ∀ v4 : Bool, ∃ p ∈ l,
      (if v4 then p.addr.is6 else p.addr.is4) = false ∧ 1 < Iterator.span p ∧
        p.addr.toNat16 + 1 < 2 ^ 128 ∧
        Iterator.validEndpoint (.ofNat16 (p.addr.toNat16 + 1)) = true := by decide +kernel
  obtain ⟨p, hp, hother, hspan, hlt, hvalid⟩ := hsecond list (by simpa using hlist) opts.v4
  refine ⟨p, hp, ?_, _, .inl ⟨Nat.le_succ _, Nat.add_lt_add_left hspan _⟩, fun h ↦ h hlt hvalid⟩
  show (!((!opts.v6 && p.addr.is6) || (!opts.v4 && p.addr.is4))) = true
  split_ifs at hother with h4
  · simp [h4, hother]
  · simp [hfamily.resolve_left h4, hother]

theorem exists_pinged_builtin (hfamily : opts.v4 = true ∨ opts.v6 = true)
    (hlist : list = warpPrefixes ∨ list = defaultCFRanges) :
    ∃ ip, Pinged engineOptions (opts.scannerOf list []) ip := by
  by_contra hnone
  obtain ⟨p, hp, henabled, n, hn, hnot⟩ := exists_reached_builtin hfamily hlist
  refine hnot ?_
  exact (pinged_in_iff (o := opts.scannerOf list []) rfl hfamily rfl (isValid_builtin hlist)
    fun c hc ↦ nomatch hc).mp (fun ip hip ↦ hnone ⟨ip, hip⟩) p hp henabled n hn

/-- An accepted text contributes nothing exactly when the scanner is left without anything
to scan. -/
theorem Collected.contributes_iff (h : Collected opts lookup cidrs customs) :
    (∃ (i : Nat) (entry : Bytes), (entries opts.endpoints)[i]? = some entry ∧
      Contributes opts (lookup i) entry) ↔ ¬ (cidrs = [] ∧ customs = []) := by
  constructor
  · rintro ⟨i, entry, hentry, hcontr⟩ ⟨rfl, rfl⟩
    cases hp : parsePrefix entry with
    | some p => exact List.not_mem_nil ((h.mem_cidrs p).mpr ⟨i, entry, hentry, hp⟩)
    | none =>
      obtain ⟨ip, hadds⟩ := (contributes_iff_adds hp).mp hcontr
      obtain ⟨c, hc, -⟩ := h.mem_customs_iff.mpr ⟨i, entry, hentry, hp, hadds⟩
      exact List.not_mem_nil hc
  · intro hne
    rcases not_and_or.mp hne with hne | hne
    · obtain ⟨p, hp⟩ := List.exists_mem_of_ne_nil _ hne
      obtain ⟨i, entry, hentry, hparse⟩ := (h.mem_cidrs p).mp hp
      exact ⟨i, entry, hentry, .inl (by rw [hparse]; rfl)⟩
    · obtain ⟨c, hc⟩ := List.exists_mem_of_ne_nil _ hne
      obtain ⟨i, entry, hentry, hp, hadds⟩ := h.mem_customs_iff.mp ⟨c, hc, rfl⟩
      exact ⟨i, entry, hentry, (contributes_iff_adds hp).mpr ⟨_, hadds⟩⟩

/-- **A scan stays inside the scope of the user's text, and does not fall back to the
built-in ranges, exactly when some entry contributes and the numbers that its enabled
prefixes reach are in scope** (or both families are disabled, and nothing is scanned). -/
theorem runScan_scope_iff (opts : ScanOptions) (lookup : Nat → Lookup) (o : ScannerOptions)
    (h : runScanner opts lookup = .ok o) :
    ((∀ ip, Pinged engineOptions o ip → InScope opts.endpoints lookup ip) ∧
      ((∀ (i : Nat) (entry : Bytes), (entries opts.endpoints)[i]? = some entry →
        ¬ Contributes opts (lookup i) entry) → ∀ ip, ¬ Pinged engineOptions o ip)) ↔
    (opts.v4 = false ∧ opts.v6 = false) ∨
      (∃ (i : Nat) (entry : Bytes), (entries opts.endpoints)[i]? = some entry ∧
        Contributes opts (lookup i) entry) ∧
      ∀ (i : Nat) (entry : Bytes) (p : Prefix), (entries opts.endpoints)[i]? = some entry →
        parsePrefix entry = some p → opts.scanner.enabled p = true → ∀ n, Iterator.Reaches p n →
          Allowed (InScope opts.endpoints lookup) n := by
  obtain ⟨cidrs, customs, list, hcoll, hlist, rfl⟩ := runScanner_lists h
  by_cases hfamily : opts.v4 = true ∨ opts.v6 = true
  · have hoff : ¬ (opts.v4 = false ∧ opts.v6 = false) := by
      rintro ⟨h4, h6⟩
      simp [h4, h6] at hfamily
    rw [or_iff_right hoff, hcoll.contributes_iff]
    by_cases hnil : cidrs = [] ∧ customs = []
    · -- the fallback
      rw [Scanned, if_pos hnil] at hlist
      obtain ⟨rfl, rfl⟩ := id hnil
      refine iff_of_false ?_ fun hr ↦ hr.1 hnil
      rintro ⟨-, hfall⟩
      obtain ⟨ip, hip⟩ := exists_pinged_builtin hfamily hlist
      refine hfall (fun i entry hentry hcontr ↦ ?_) ip hip
      exact hcoll.contributes_iff.mp ⟨i, entry, hentry, hcontr⟩ hnil
    · have hvalid := hcoll.isValid_of_mem hlist
      rw [Scanned, if_neg hnil] at hlist
      subst hlist
      have hcustoms : ∀ c ∈ customs, InScope opts.endpoints lookup c.addr := by
        intro c hc
        obtain ⟨i, entry, hentry, hp, hadds⟩ := hcoll.mem_customs_iff.mp ⟨c, hc, rfl⟩
        exact ⟨i, entry, hentry, hadds.entryScope hp⟩
      have hpinged := pinged_in_iff (o := opts.scannerOf list customs) rfl hfamily rfl hvalid
        hcustoms
      rw [and_iff_right hnil]
      refine Iff.trans (and_iff_left fun hnone ↦ ?_) (hpinged.trans ?_)
      · obtain ⟨i, entry, hentry, hc⟩ := hcoll.contributes_iff.mpr hnil
        exact absurd hc (hnone i entry hentry)
      · constructor
        · intro hall i entry p hentry hparse
          exact hall p ((hcoll.mem_cidrs p).mpr ⟨i, entry, hentry, hparse⟩)
        · intro hall p hp
          obtain ⟨i, entry, hentry, hparse⟩ := (hcoll.mem_cidrs p).mp hp
          exact hall i entry p hentry hparse
  · -- with both families disabled nothing is run
    have hnone (ip : Addr) : ¬ Pinged engineOptions (opts.scannerOf list customs) ip :=
      fun hping ↦ hfamily hping.1
    rw [not_or, Bool.not_eq_true, Bool.not_eq_true] at hfamily
    exact iff_of_true ⟨fun ip hip ↦ absurd hip (hnone ip), fun _ ↦ hnone⟩ (.inl hfamily)

/-- A scan of the text `1.2.3.0/24`. -/
def scanSlash24 : ScanOptions where
  endpoints := str "1.2.3.0/24"
  v4 := true
  v6 := false

/-- A text that is one prefix without host bits is respected. -/
theorem runScan_scope_slash24 :
    ∃ o, runScanner scanSlash24 (fun _ _ ↦ none) = .ok o ∧
      ∀ ip, Pinged engineOptions o ip → InScope scanSlash24.endpoints (fun _ _ ↦ none) ip := by
  have hentries : entries scanSlash24.endpoints = [str "1.2.3.0/24"] := by decide +kernel
  have hparse : parsePrefix (str "1.2.3.0/24") = some (prefixFrom (.v4 0x01020300) 24) := by
    decide +kernel
  obtain ⟨o, ho⟩ : ∃ o, runScanner scanSlash24 (fun _ _ ↦ none) = .ok o := ⟨_, rfl⟩
  refine ⟨o, ho, ((runScan_scope_iff scanSlash24 _ o ho).mpr (.inr ⟨?_, ?_⟩)).1⟩
  · exact ⟨0, str "1.2.3.0/24", by rw [hentries]; rfl, .inl (by rw [hparse]; rfl)⟩
  · intro i entry p hentry hp _ n hn _ _
    obtain rfl : entry = str "1.2.3.0/24" := by
      rw [hentries] at hentry
      exact List.mem_singleton.mp (List.mem_of_getElem? hentry)
    obtain rfl := Option.some.inj (hparse.symm.trans hp)
    obtain ⟨-, hcontains⟩ := Iterator.contains_of_reaches (by decide)
      (by unfold Prefix.IsMasked; decide) (fun his6 ↦ absurd his6 (by decide)) hn
    refine ⟨i, _, hentry, .cidr hp ?_⟩
    rwa [Prefix.contains_masked (by decide)]

/-- Some run pings an address outside the scope of the text. -/
def LeavesScope (opts : ScanOptions) (lookup : Nat → Lookup) : Prop :=
  ∃ o ip, runScanner opts lookup = .ok o ∧ Pinged engineOptions o ip ∧
    ¬ InScope opts.endpoints lookup ip

def exampleLookup : Nat → Lookup :=
  fun _ host ↦ if host = str "example.com" then some [[1, 2, 3, 4]] else none

/-- A text that contributes nothing leaves the scope, unless it denotes `103.21.244.1`. -/
theorem leavesScope_default
    (hrun : runScanner ⟨endpoints, true, true⟩ lookup =
      .ok { (⟨endpoints, true, true⟩ : ScanOptions).scanner with cidrList := defaultCFRanges })
    (hscope : ¬ InScope endpoints lookup (.v4 0x6715f401)) :
    LeavesScope ⟨endpoints, true, true⟩ lookup := by
  have hping := pinged_default ⟨endpoints, true, true⟩
    (p := mustParsePrefix "103.21.244.0/22") (.inl rfl) (by decide +kernel) rfl
  have haddr : Addr.ofNat16 ((mustParsePrefix "103.21.244.0/22").addr.toNat16 + 1) =
      .v4 0x6715f401 := by decide +kernel
  rw [haddr] at hping
  exact ⟨_, _, hrun, hping, hscope⟩

/-- A text with one name as its entry denotes what the name was resolved to. -/
theorem mem_of_inScope_name (entry : Bytes) {ip : Addr} (hentries : entries endpoints = [entry])
    (hcidr : parsePrefix entry = none) (hap : parseAddrPort entry = none)
    (haddr : parseAddr entry = none) (h : InScope endpoints lookup ip) :
    ∃ i ips bytes, lookup i (hostName entry) = some ips ∧ bytes ∈ ips ∧
      addrFromSlice bytes = some ip := by
  obtain ⟨i, entry', hentry, hscope⟩ := h
  rw [hentries] at hentry
  obtain rfl := List.mem_singleton.mp (List.mem_of_getElem? hentry)
  cases hscope with
  | cidr hp _ => exact absurd (hcidr.symm.trans hp) (by simp)
  | addrPort hp => exact absurd (hap.symm.trans hp) (by simp)
  | addr hp => exact absurd (haddr.symm.trans hp) (by simp)
  | name _ _ _ hips hbytes hslice => exact ⟨i, _, _, hips, hbytes, hslice⟩

/-- The scope is left if the text has blank entries only, if a name cannot be resolved, and
if the port has a sign, which `Atoi` accepts and `ParseUint` does not: in these cases
`103.21.244.1` of the built-in ranges can be pinged.  It is also left if a prefix has host
bits set: for `192.168.1.200/24` the address `192.168.2.44` can be pinged. -/
theorem runScan_leaves_scope :
    LeavesScope ⟨str " , ", true, true⟩ exampleLookup ∧
      LeavesScope ⟨str "nosuch.example:80", true, true⟩ exampleLookup ∧
      LeavesScope ⟨str "example.com:+80", true, true⟩ exampleLookup ∧
      LeavesScope ⟨str "192.168.1.200/24", true, true⟩ exampleLookup := by
  refine ⟨leavesScope_default rfl ?_, leavesScope_default rfl ?_, leavesScope_default rfl ?_, ?_⟩
  · rintro ⟨i, entry, hentry, -⟩
    have hentries : entries (str " , ") = [] := by decide +kernel
    rw [hentries] at hentry
    cases hentry
  · intro hscope
    obtain ⟨i, ips, bytes, hips, -⟩ := mem_of_inScope_name (str "nosuch.example:80")
      (by decide +kernel) (by decide +kernel) (by decide +kernel) (by decide +kernel) hscope
    have hnone : exampleLookup i (hostName (str "nosuch.example:80")) = none := rfl
    exact nomatch hnone.symm.trans hips
  · intro hscope
    obtain ⟨i, ips, bytes, hips, hbytes, hslice⟩ := mem_of_inScope_name (str "example.com:+80")
      (by decide +kernel) (by decide +kernel) (by decide +kernel) (by decide +kernel) hscope
    have hfound : exampleLookup i (hostName (str "example.com:+80")) = some [[1, 2, 3, 4]] := rfl
    obtain rfl := Option.some.inj (hfound.symm.trans hips)
    obtain rfl := List.mem_singleton.mp hbytes
    exact absurd hslice (by decide)
  · have hentries : entries (str "192.168.1.200/24") = [str "192.168.1.200/24"] := by decide +kernel
    refine ⟨_, .v4 0xc0a8022c, rfl, (pinged_iff rfl rfl (by decide) rfl).mpr
      ⟨.inl rfl, [some 100], .ok [.v4 0xc0a8022c], by decide +kernel, .inl (by decide)⟩, ?_⟩
    rintro ⟨i, entry, hentry, hscope⟩
    rw [hentries] at hentry
    obtain rfl := List.mem_singleton.mp (List.mem_of_getElem? hentry)
    have hparse : parsePrefix (str "192.168.1.200/24") = some (prefixFrom (.v4 0xc0a801c8) 24) := by
      decide +kernel
    generalize hip : Addr.v4 0xc0a8022c = ip at hscope
    cases hscope with
    | cidr hp hc =>
      obtain rfl := Option.some.inj (hparse.symm.trans hp)
      subst hip
      exact absurd hc (by decide)
    | addrPort hp =>
      have hnone : parseAddrPort (str "192.168.1.200/24") = none := by decide +kernel
      exact nomatch hnone.symm.trans hp
    | addr hp =>
      have hnone : parseAddr (str "192.168.1.200/24") = none := by decide +kernel
      exact nomatch hnone.symm.trans hp
    | name hp => exact nomatch hparse.symm.trans hp

end Vwarp.Wiresocks
