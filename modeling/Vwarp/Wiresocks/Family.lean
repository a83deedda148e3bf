import Vwarp.Wiresocks.Scope

/-!
# The families of a scan

The user enables IPv4 and IPv6 apart.  `FamilyEnabled` says what that means for an address in
either of its forms: an IPv4-mapped address is an IPv4 address.  The scanner decides with `Is4`
and `Is6`, for which it is an IPv6 address, and it decides for a prefix as a whole and not for
what is generated from it.

`runScan_family_iff` is the exact condition under which only addresses of enabled families are
pinged for the prefixes and the names of the text, and all such addresses of the names become
candidates.  It is a condition on the numbers that the prefixes of the text reach and on the
resolver's answers; the built-in prefixes meet it (`builtin_reaches`).
-/

namespace Vwarp.Wiresocks

open Vwarp.Go Vwarp.Lib Vwarp.IpScanner

/-! ## What is asked for -/

/-- The family of the address is enabled, in whatever form the address is. -/
def ScanOptions.FamilyEnabled (opts : ScanOptions) (ip : Addr) : Prop :=
  if ip.unmap.is4 = true then opts.v4 = true else opts.v6 = true

instance (opts : ScanOptions) (ip : Addr) : Decidable (opts.FamilyEnabled ip) :=
  inferInstanceAs (Decidable (if ip.unmap.is4 = true then opts.v4 = true else opts.v6 = true))

/-- Entry `i` of the text is a host name, with or without a port. -/
structure NameAt (opts : ScanOptions) (i : Nat) (entry : Bytes) : Prop where
  listed : (entries opts.endpoints)[i]? = some entry
  not_cidr : parsePrefix entry = none
  not_addrPort : parseAddrPort entry = none
  not_addr : parseAddr entry = none

/-- An address comes from a host name: a name of the text added it to the endpoints. -/
def FromName (opts : ScanOptions) (lookup : Nat → Lookup) (ip : Addr) : Prop :=
  ∃ (i : Nat) (entry : Bytes) (c : AddrPort), NameAt opts i entry ∧
    c ∈ opts.scanner.endpointsOf (lookup i) (endpointText entry) ∧ c.addr = ip

/-- Whatever is pinged and comes from a prefix or from a name is of an enabled family. -/
def KeepsFamilies (opts : ScanOptions) (lookup : Nat → Lookup) (o : ScannerOptions) : Prop :=
  ∀ result candidates s ip, Listed o result candidates →
    (Engine.scan engineOptions candidates).Reachable s → s.Pings ip →
    ip ∈ cidrIPs result ∨ FromName opts lookup ip → opts.FamilyEnabled ip

/-- An address of an enabled family that a name was resolved to. -/
def WantedName (opts : ScanOptions) (lookup : Nat → Lookup) (ip : Addr) : Prop :=
  ∃ (i : Nat) (entry : Bytes), NameAt opts i entry ∧ Resolves (lookup i) entry ip ∧
    opts.FamilyEnabled ip

/-- In every run, the addresses of enabled families that names were resolved to are candidates, in
one of their forms. -/
def CoversNames (opts : ScanOptions) (lookup : Nat → Lookup) (o : ScannerOptions) : Prop :=
  ∀ ip, WantedName opts lookup ip → ∀ draws, ∃ result,
    (Iterator.generateFrom o.toOptions).run draws = some result ∧
      ∀ candidates, Engine.Candidates (cidrIPs result) o.customEndpoints candidates →
        ∃ c ∈ candidates, c.addr.unmap = ip.unmap

/-! ## The scanner's lists -/

variable {opts : ScanOptions} {lookup : Nat → Lookup} {cidrs list : List Prefix}
  {customs : List AddrPort} {o : ScannerOptions} {ip : Addr}

theorem fromName_iff (hcoll : Collected opts lookup cidrs customs) :
    FromName opts lookup ip ↔ ∃ (i : Nat) (entry : Bytes), NameAt opts i entry ∧
      portReadable entry = true ∧ Resolves (lookup i) entry ip ∧
      opts.scanner.familyEnabled ip = true := by
  constructor
  · rintro ⟨i, entry, c, hname, hc, hip⟩
    have hadds :=
      (mem_endpointsOf_iff (hcoll.parseEntry_eq hname.listed hname.not_cidr)).mp ⟨c, hc, hip⟩
    cases hadds with
    | addrPort hap => exact nomatch hname.not_addrPort.symm.trans hap
    | addr haddr => exact nomatch hname.not_addr.symm.trans haddr
    | name _ _ hport hresolves henabled => exact ⟨i, entry, hname, hport, hresolves, henabled⟩
  · rintro ⟨i, entry, hname, hport, hresolves, henabled⟩
    obtain ⟨c, hc, hip⟩ :=
      (mem_endpointsOf_iff (hcoll.parseEntry_eq hname.listed hname.not_cidr)).mpr
      (.name hname.not_addrPort hname.not_addr hport hresolves henabled)
    exact ⟨i, entry, c, hname, hc, hip⟩

/-! ## The prefixes -/

/-- A prefix without host bits whose block is outside the IPv4-mapped one, if it is an IPv6
prefix. -/
def Plain (p : Prefix) : Prop :=
  p.isValid = true ∧ p.addr.toNat % 2 ^ p.hostBits = 0 ∧ (p.addr.is6 = true →
    32 ≤ p.hostBits ∧ p.addr.toNat16 / 2 ^ p.hostBits ≠ 0xffff / 2 ^ (p.hostBits - 32))

variable {p : Prefix} {n : Nat}

theorem Plain.contains_of_reaches (h : Plain p) (hn : Iterator.Reaches p n) :
    n < 2 ^ 128 ∧ p.contains (.ofNat16 n) = true := by
  obtain ⟨hvalid, hmasked, hmapped⟩ := h
  refine Iterator.contains_of_reaches hvalid hmasked (fun his6 m hm hmap ↦ ?_) hn
  obtain ⟨hlen, hne⟩ := hmapped his6
  obtain ⟨k, hk⟩ := Nat.exists_eq_add_of_le hlen
  apply hne
  rw [← hm, hk, Nat.pow_add, ← Nat.div_div_eq_div_mul, hmap, Nat.add_sub_cancel_left]

theorem plain_builtin (h : p ∈ warpPrefixes ∨ p ∈ defaultCFRanges) : Plain p := by
  have hall : ∀ p ∈ warpPrefixes ++ defaultCFRanges, Plain p := by
    unfold Plain
    decide +kernel
  exact hall p (List.mem_append.mpr h)

theorem familyEnabled_of_contains (henabled : opts.scanner.enabled p = true)
    (h : p.contains (.ofNat16 n) = true) : opts.FamilyEnabled (.ofNat16 n) := by
  obtain ⟨hvalid, -, -, hlen, -⟩ := of_decide_eq_true h
  have hflag : ((opts.v6 || !p.addr.is6) && (opts.v4 || !p.addr.is4)) = true := by
    simpa [Iterator.Options.enabled, ScanOptions.scanner] using henabled
  rw [ScanOptions.FamilyEnabled, Addr.unmap_ofNat16]
  generalize Addr.ofNat16 n = ip at hlen
  rcases Prefix.valid_cases hvalid with ⟨a, haddr, -, -⟩ | ⟨a, haddr, -, -⟩
  · rw [haddr] at hlen hflag
    cases ip with
    | v4 b => simpa [Addr.is4, Addr.is6] using hflag
    | invalid | v6 b zone => cases hlen
  · rw [haddr] at hlen hflag
    cases ip with
    | v6 b zone => simpa [Addr.is4, Addr.is6] using hflag
    | invalid | v4 b => cases hlen

theorem enabled_eq_false (h : opts.v4 = false ∧ opts.v6 = false)
    (hp : p.isValid = true) : opts.scanner.enabled p = false := by
  rcases Prefix.valid_cases hp with ⟨a, haddr, -, -⟩ | ⟨a, haddr, -, -⟩
  · simp [Iterator.Options.enabled, ScanOptions.scanner, h, haddr, Addr.is4]
  · simp [Iterator.Options.enabled, ScanOptions.scanner, h, haddr, Addr.is6]

theorem builtin_reaches (h : p ∈ warpPrefixes ∨ p ∈ defaultCFRanges)
    (henabled : opts.scanner.enabled p = true) (hn : Iterator.Reaches p n) :
    n < 2 ^ 128 ∧ opts.FamilyEnabled (.ofNat16 n) := by
  obtain ⟨hlt, hcontains⟩ := (plain_builtin h).contains_of_reaches hn
  exact ⟨hlt, familyEnabled_of_contains henabled hcontains⟩

/-- `Generate` never panics exactly when the numbers its prefixes reach are addresses. -/
theorem never_panics_iff (hbucket : 0 < o.bucketSize)
    (hvalid : ∀ p ∈ o.cidrList, p.isValid = true) :
    (∀ draws, ∃ result, (Iterator.generateFrom o.toOptions).run draws = some result) ↔
      ∀ p ∈ o.cidrList, o.enabled p = true → ∀ n, Iterator.Reaches p n → n < 2 ^ 128 := by
  have hgood (n : Nat) : Iterator.Good False (fun _ ↦ True) n ↔ n < 2 ^ 128 := by
    unfold Iterator.Good
    split_ifs with hlt
    · exact iff_of_true (fun _ ↦ trivial) hlt
    · exact iff_of_false id hlt
  have hgen := Draw.ensures_iff_run.symm.trans
    (Iterator.ensures_generateFrom (F := False) (S := fun _ ↦ True) hvalid hbucket False.elim)
  simp only [hgood] at hgen
  rw [← hgen]
  refine forall_congr' fun draws ↦ ?_
  cases (Iterator.generateFrom o.toOptions).run draws with
  | none => exact iff_of_false (fun ⟨_, h⟩ ↦ nomatch h) id
  | some result => exact iff_of_true ⟨result, rfl⟩ fun _ _ _ _ ↦ trivial

/-- A property of what the prefixes reach is one of the prefixes of the text, if the built-in ones
have it. -/
theorem Collected.forall_reaches_iff (hcoll : Collected opts lookup cidrs customs)
    (hlist : Scanned cidrs customs list)
    {Q : Nat → Prop} (hQ : ∀ n, n < 2 ^ 128 → opts.FamilyEnabled (.ofNat16 n) → Q n) :
    (∀ p ∈ list, opts.scanner.enabled p = true → ∀ n, Iterator.Reaches p n → Q n) ↔
      ∀ (i : Nat) (entry : Bytes) (p : Prefix), (entries opts.endpoints)[i]? = some entry →
        parsePrefix entry = some p → opts.scanner.enabled p = true →
          ∀ n, Iterator.Reaches p n → Q n := by
  unfold Scanned at hlist
  split_ifs at hlist with hnil
  · obtain ⟨rfl, -⟩ := hnil
    refine iff_of_true (fun p hp henabled n hn ↦ ?_) fun i entry p hentry hp ↦ ?_
    · obtain ⟨hlt, hfamily⟩ := builtin_reaches (hlist.imp (· ▸ hp) (· ▸ hp)) henabled hn
      exact hQ n hlt hfamily
    · exact absurd ((hcoll.mem_cidrs p).mpr ⟨i, entry, hentry, hp⟩) List.not_mem_nil
  · subst hlist
    constructor
    · intro h i entry p hentry hp
      exact h p ((hcoll.mem_cidrs p).mpr ⟨i, entry, hentry, hp⟩)
    · intro h p hp
      obtain ⟨i, entry, hentry, hp⟩ := (hcoll.mem_cidrs p).mp hp
      exact h i entry p hentry hp

/-! ## Runs -/

/-- A candidate that comes from a prefix or from a name is of an enabled family. -/
theorem KeepsFamilies.familyEnabled (h : KeepsFamilies opts lookup o)
    (hfamily : o.useIPv4 = true ∨ o.useIPv6 = true) (draws : List (Option Nat))
    (result : Except Bytes (List Addr))
    (hrun : (Iterator.generateFrom o.toOptions).run draws = some result) {c : AddrPort}
    (hc : (c.addr ∈ cidrIPs result ∧ c.port = 0) ∨ c ∈ o.customEndpoints)
    (hsource : c.addr ∈ cidrIPs result ∨ FromName opts lookup c.addr) :
    opts.FamilyEnabled c.addr := by
  obtain ⟨candidates, hlisted⟩ := exists_listed hfamily hrun
  have hicmp : engineOptions.icmpPing = false := rfl
  obtain ⟨s, hreach, hpings⟩ :=
    Engine.Scan.exists_pings hicmp rfl (by decide) (hlisted.mem_iff.mpr hc)
  exact h result candidates s c.addr hlisted hreach hpings hsource

/-- What is pinged is of an enabled family, exactly when the numbers that the prefixes reach and
the addresses that the names add are. -/
theorem keepsFamilies_iff (hcoll : Collected opts lookup cidrs customs)
    (hvalid : ∀ p ∈ list, p.isValid = true) :
    KeepsFamilies opts lookup (opts.scannerOf list customs) ↔
      (∀ p ∈ list, opts.scanner.enabled p = true → ∀ n, Iterator.Reaches p n →
        Allowed opts.FamilyEnabled n) ∧
      ∀ ip, FromName opts lookup ip → opts.FamilyEnabled ip := by
  have hgen := generated_in_iff (S := opts.FamilyEnabled)
    (o := opts.scannerOf list customs) rfl hvalid
  refine Iff.trans ?_ (and_congr_left' hgen)
  constructor
  · intro h
    by_cases hfamily : opts.v4 = true ∨ opts.v6 = true
    · refine ⟨fun draws result hrun ip hip ↦ ?_, fun ip hip ↦ ?_⟩
      · exact h.familyEnabled (c := ⟨ip, 0⟩) hfamily draws result hrun (.inl ⟨hip, rfl⟩) (.inl hip)
      · obtain ⟨i, entry, c, hname, hc, rfl⟩ := id hip
        have hmem := (hcoll.mem_customs c).mpr
          ⟨i, entry, _, hname.listed, hcoll.parseEntry_eq hname.listed hname.not_cidr, hc⟩
        exact h.familyEnabled hfamily [] _ (Iterator.run_nil_generateFrom Nat.zero_lt_one)
          (.inr hmem) (.inr hip)
    · rw [not_or, Bool.not_eq_true, Bool.not_eq_true] at hfamily
      refine ⟨hgen.mpr fun p hp henabled ↦ ?_, fun ip hip ↦ ?_⟩
      · exact nomatch (enabled_eq_false hfamily (hvalid p hp)).symm.trans henabled
      · obtain ⟨i, entry, -, -, -, henabled⟩ := (fromName_iff hcoll).mp hip
        simp [ScannerOptions.familyEnabled, ScanOptions.scanner, hfamily] at henabled
  · rintro ⟨hcidr, hname⟩ result candidates s ip hlisted - - hsource
    obtain ⟨draws, hrun⟩ := hlisted.generated
    exact hsource.elim (hcidr draws result hrun ip) (hname ip)

/-- The addresses of the names become candidates, exactly when `Generate` never panics and each is
among the custom endpoints: the prefixes cannot be relied on, since the random source may fail. -/
theorem coversNames_iff (hvalid : ∀ p ∈ list, p.isValid = true) :
    CoversNames opts lookup (opts.scannerOf list customs) ↔
      ((∃ ip, WantedName opts lookup ip) → ∀ p ∈ list, opts.scanner.enabled p = true →
        ∀ n, Iterator.Reaches p n → n < 2 ^ 128) ∧
      ∀ ip, WantedName opts lookup ip → ∃ c ∈ customs, c.addr.unmap = ip.unmap := by
  have hpanic := never_panics_iff (o := opts.scannerOf list customs) Nat.zero_lt_one hvalid
  constructor
  · intro h
    constructor
    · rintro ⟨ip, hip⟩
      refine hpanic.mp fun draws ↦ ?_
      obtain ⟨result, hrun, -⟩ := h ip hip draws
      exact ⟨result, hrun⟩
    · intro ip hip
      obtain ⟨result, hrun, hall⟩ := h ip hip []
      rw [Iterator.run_nil_generateFrom Nat.zero_lt_one] at hrun
      cases hrun
      obtain ⟨c, hc, heq⟩ := hall _ ⟨_, .refl _, rfl⟩
      rcases (Engine.mem_candidates ⟨_, .refl _, rfl⟩ c).mp hc with hc | hc
      · cases hc
      · exact ⟨c, hc, heq⟩
  · rintro ⟨hlt, hcustoms⟩ ip hip draws
    obtain ⟨result, hrun⟩ := hpanic.mpr (hlt ⟨ip, hip⟩) draws
    obtain ⟨c, hc, heq⟩ := hcustoms ip hip
    exact ⟨result, hrun, fun candidates hcands ↦
      ⟨c, (Engine.mem_candidates hcands c).mpr (.inr hc), heq⟩⟩

/-- **Only addresses of enabled families are pinged for the prefixes and the names of the text, and
all such addresses of its names become candidates, exactly when** what the enabled prefixes of the
text reach is of an enabled family, and is an address at all if a name has an address to offer;
whatever passes `Is4` and `Is6` in an answer that is used is of an enabled family; and whatever is
of an enabled family in an answer is added by some entry, in one of its forms. -/
theorem runScan_family_iff (opts : ScanOptions) (lookup : Nat → Lookup) (o : ScannerOptions)
    (h : runScanner opts lookup = .ok o) :
    KeepsFamilies opts lookup o ∧ CoversNames opts lookup o ↔
      (∀ (i : Nat) (entry : Bytes) (p : Prefix), (entries opts.endpoints)[i]? = some entry →
        parsePrefix entry = some p → opts.scanner.enabled p = true → ∀ n, Iterator.Reaches p n →
          Allowed opts.FamilyEnabled n ∧ ((∃ ip, WantedName opts lookup ip) → n < 2 ^ 128)) ∧
      ∀ (i : Nat) (entry : Bytes) (ip : Addr), NameAt opts i entry → Resolves (lookup i) entry ip →
        (portReadable entry = true → opts.scanner.familyEnabled ip = true → opts.FamilyEnabled ip) ∧
        (opts.FamilyEnabled ip → ∃ (j : Nat) (entry' : Bytes) (ip' : Addr),
          (entries opts.endpoints)[j]? = some entry' ∧ parsePrefix entry' = none ∧
          Adds opts (lookup j) entry' ip' ∧ ip'.unmap = ip.unmap) := by
  obtain ⟨cidrs, customs, list, hcoll, hlist, rfl⟩ := runScanner_lists h
  have hvalid := hcoll.isValid_of_mem hlist
  have hadds (ip : Addr) : (∃ c ∈ customs, c.addr.unmap = ip.unmap) ↔
      ∃ (j : Nat) (entry' : Bytes) (ip' : Addr), (entries opts.endpoints)[j]? = some entry' ∧
        parsePrefix entry' = none ∧ Adds opts (lookup j) entry' ip' ∧ ip'.unmap = ip.unmap := by
    constructor
    · rintro ⟨c, hc, heq⟩
      obtain ⟨j, entry', hentry, hcidr, hadds⟩ := hcoll.mem_customs_iff.mp ⟨c, hc, rfl⟩
      exact ⟨j, entry', c.addr, hentry, hcidr, hadds, heq⟩
    · rintro ⟨j, entry', ip', hentry, hcidr, hadds, heq⟩
      obtain ⟨c, hc, rfl⟩ := hcoll.mem_customs_iff.mpr ⟨j, entry', hentry, hcidr, hadds⟩
      exact ⟨c, hc, heq⟩
  rw [keepsFamilies_iff hcoll hvalid, coversNames_iff hvalid,
    ← hcoll.forall_reaches_iff hlist fun n hlt hn ↦ ⟨fun _ _ ↦ hn, fun _ ↦ hlt⟩]
  constructor
  · rintro ⟨⟨hallowed, hnames⟩, hlt, hcustoms⟩
    refine ⟨fun p hp henabled n hn ↦ ?_, fun i entry ip hname hresolves ↦ ⟨?_, ?_⟩⟩
    · exact ⟨hallowed p hp henabled n hn, fun hwanted ↦ hlt hwanted p hp henabled n hn⟩
    · intro hport henabled
      exact hnames ip ((fromName_iff hcoll).mpr ⟨i, entry, hname, hport, hresolves, henabled⟩)
    · intro hfamily
      exact (hadds ip).mp (hcustoms ip ⟨i, entry, hname, hresolves, hfamily⟩)
  · rintro ⟨hreaches, hnames⟩
    refine ⟨⟨fun p hp henabled n hn ↦ (hreaches p hp henabled n hn).1, fun ip hip ↦ ?_⟩,
      fun hwanted p hp henabled n hn ↦ (hreaches p hp henabled n hn).2 hwanted, ?_⟩
    · obtain ⟨i, entry, hname, hport, hresolves, henabled⟩ := (fromName_iff hcoll).mp hip
      exact (hnames i entry ip hname hresolves).1 hport henabled
    · rintro ip ⟨i, entry, hname, hresolves, hfamily⟩
      exact (hadds ip).mpr ((hnames i entry ip hname hresolves).2 hfamily)

def scanSlash24AndName : ScanOptions where
  endpoints := str "1.2.3.0/24,example.com:443"
  v4 := true
  v6 := false

/-- With a prefix without host bits, and a name that is resolved to a 4-byte address. -/
theorem runScan_family_slash24 :
    ∃ o, runScanner scanSlash24AndName exampleLookup = .ok o ∧
      KeepsFamilies scanSlash24AndName exampleLookup o ∧
      CoversNames scanSlash24AndName exampleLookup o := by
  have hentries :
      entries scanSlash24AndName.endpoints = [str "1.2.3.0/24", str "example.com:443"] := by
    decide +kernel
  have hentry {i : Nat} {entry : Bytes}
      (h : (entries scanSlash24AndName.endpoints)[i]? = some entry) :
      entry = str "1.2.3.0/24" ∨ entry = str "example.com:443" := by
    rw [hentries] at h
    simpa using List.mem_of_getElem? h
  have hparse : parsePrefix (str "1.2.3.0/24") = some (prefixFrom (.v4 0x01020300) 24) := by
    decide +kernel
  have hname : parsePrefix (str "example.com:443") = none := by decide +kernel
  have hplain : Plain (prefixFrom (.v4 0x01020300) 24) := by
    unfold Plain
    decide
  obtain ⟨o, ho⟩ : ∃ o, runScanner scanSlash24AndName exampleLookup = .ok o := ⟨_, rfl⟩
  refine ⟨o, ho, (runScan_family_iff scanSlash24AndName exampleLookup o ho).mpr ⟨?_, ?_⟩⟩
  · intro i entry p hi hp henabled n hn
    rcases hentry hi with rfl | rfl
    · obtain rfl := Option.some.inj (hparse.symm.trans hp)
      obtain ⟨hlt, hcontains⟩ := hplain.contains_of_reaches hn
      exact ⟨fun _ _ ↦ familyEnabled_of_contains henabled hcontains, fun _ ↦ hlt⟩
    · exact nomatch hname.symm.trans hp
  · intro i entry ip hi hresolves
    rcases hentry hi.listed with rfl | rfl
    · exact nomatch hi.not_cidr.symm.trans hparse
    · have hfound : exampleLookup i (hostName (str "example.com:443")) = some [[1, 2, 3, 4]] := rfl
      obtain ⟨ips, bytes, hips, hbytes, hslice⟩ := id hresolves
      obtain rfl := Option.some.inj (hfound.symm.trans hips)
      obtain rfl := List.mem_singleton.mp hbytes
      obtain rfl : .v4 0x01020304 = ip := Option.some.inj hslice
      refine ⟨fun _ _ ↦ rfl, fun _ ↦ ⟨i, _, _, hi.listed, hname, ?_, rfl⟩⟩
      exact .name hi.not_addrPort hi.not_addr (by decide +kernel) hresolves rfl

/-- A resolver that answers with the 16-byte form of `1.2.3.4`. -/
def mappedLookup : Nat → Lookup := fun _ _ ↦ some [netIPv4 1 2 3 4]

/-- The name `example.com`, scanned with the given families. -/
def scanName (v4 v6 : Bool) : ScanOptions := ⟨str "example.com", v4, v6⟩

/-- The one entry of the text `example.com` is a name. -/
theorem nameAt_scanName (v4 v6 : Bool) : NameAt (scanName v4 v6) 0 (str "example.com") where
  listed := by
    have hentries : entries (str "example.com") = [str "example.com"] := by decide +kernel
    exact congrArg (·[0]?) hentries
  not_cidr := by decide +kernel
  not_addrPort := by decide +kernel
  not_addr := by decide +kernel

/-- Four scans that get the families wrong.  The 16-byte form of an IPv4 address counts as IPv6: in
an IPv4 scan of a name it is dropped, and in an IPv6 scan it is pinged.  An IPv4 prefix with host
bits at the end of the IPv4 addresses is scanned into the IPv6 ones behind them, and the
IPv4-mapped prefix, which is an IPv6 one, gives IPv4 addresses. -/
theorem runScan_wrong_family :
    (∃ o, runScanner (scanName true false) mappedLookup = .ok o ∧
      ¬ CoversNames (scanName true false) mappedLookup o) ∧
    (∃ o, runScanner (scanName false true) mappedLookup = .ok o ∧
      ¬ KeepsFamilies (scanName false true) mappedLookup o) ∧
    (∃ o, runScanner ⟨str "255.255.255.200/24", true, false⟩ mappedLookup = .ok o ∧
      ¬ KeepsFamilies ⟨str "255.255.255.200/24", true, false⟩ mappedLookup o) ∧
    ∃ o, runScanner ⟨str "::ffff:0:0/96", false, true⟩ mappedLookup = .ok o ∧
      ¬ KeepsFamilies ⟨str "::ffff:0:0/96", false, true⟩ mappedLookup o := by
  refine ⟨⟨_, rfl, fun h ↦ ?_⟩, ⟨_, rfl, fun h ↦ ?_⟩, ⟨_, rfl, fun h ↦ ?_⟩, ⟨_, rfl, fun h ↦ ?_⟩⟩
  · -- when the source fails there is no candidate at all
    obtain ⟨result, hrun, hall⟩ := h (.v6 0xffff01020304 [])
      ⟨0, _, nameAt_scanName true false, ⟨_, _, rfl, List.mem_singleton_self _, rfl⟩, rfl⟩ []
    rw [Iterator.run_nil_generateFrom Nat.zero_lt_one] at hrun
    cases hrun
    obtain ⟨c, hc, -⟩ := hall _ ⟨_, .refl _, rfl⟩
    cases hc
  · have hip : (⟨.v6 0xffff01020304 [], 0⟩ : AddrPort) ∈
        (scanName false true).scanner.endpointsOf (mappedLookup 0)
          (endpointText (str "example.com")) := by
      decide +kernel
    have hfamily := h.familyEnabled (.inr rfl) [] _ (Iterator.run_nil_generateFrom Nat.zero_lt_one)
      (c := ⟨.v6 0xffff01020304 [], 0⟩) (.inr (by decide +kernel))
      (.inr ⟨0, _, _, nameAt_scanName false true, hip, rfl⟩)
    exact absurd hfamily (by decide)
  · have hfamily :=
      h.familyEnabled (.inl rfl) [some 100] (.ok [.v6 0x100000000002c []]) (by decide +kernel)
      (c := ⟨.v6 0x100000000002c [], 0⟩) (.inl (by decide)) (.inl (by decide))
    exact absurd hfamily (by decide)
  · have hfamily := h.familyEnabled (.inr rfl) [some 0, some 1] (.ok [.v4 1]) (by decide +kernel)
      (c := ⟨.v4 1, 0⟩) (.inl (by decide)) (.inl (by decide))
    exact absurd hfamily (by decide)

end Vwarp.Wiresocks
