import Vwarp.Warp.Endpoint
import Vwarp.Wiresocks.Family
import Vwarp.Wiresocks.Result

/-!
# The ports of a scan

The ports that the user lists replace the scanner's default ports, from which `PingContext` draws
when it is asked to ping port zero.  A candidate that was given without a port has port zero, up
to the WARP stage: there the scanner's own port takes the place of zero, and that is 2408 from the
start.  So the list is never consulted, and `runScan_ports_iff` is what is left of it: the ports of
the user are kept to exactly when 2408 is one of them, no family is enabled, or the text leaves no
candidate without a port (`AllPorted`).
-/

namespace Vwarp.Wiresocks

open Vwarp.Go Vwarp.Lib Vwarp.IpScanner

/-! ## Ports -/

/-- The ports that `WithCustomScanPorts` reads in the text; what it cannot read is skipped. -/
def scanPorts (ports : Bytes) : List UInt16 :=
  (split (ch ',') ports).filterMap fun portStr ↦ (parseUint (trimSpace portStr) 16).map UInt16.ofNat

/-- `DefaultScanPorts` of the scanner of `RunScan`. -/
def defaultScanPorts (scannerPorts : Bytes) : List UInt16 :=
  if scannerPorts ≠ [] ∧ scanPorts scannerPorts ≠ [] then scanPorts scannerPorts else Warp.warpPorts

/-- The ports that `WarpPing.PingContext` may ping when its options have the given port: zero
means one that `GetRandomWarpPort` draws. -/
def pingPorts (scannerPorts : Bytes) (port : UInt16) : List UInt16 :=
  if port = 0 then defaultScanPorts scannerPorts else [port]

/-- The answers of `WarpPing.PingContext`: the address and the port that were pinged. -/
def Answers (scannerPorts : Bytes) (p : Engine.WarpPing) (info : Engine.IPInfo) : Prop :=
  info.addrPort.addr = p.candidate.addr ∧ info.addrPort.port ∈ pingPorts scannerPorts p.port

/-- The candidate was given without a port: it was generated from a prefix, or it comes from an
entry that is an address or a name and nothing else. -/
def Portless (opts : ScanOptions) (lookup : Nat → Lookup) (result : Except Bytes (List Addr))
    (c : AddrPort) : Prop :=
  (c.addr ∈ cidrIPs result ∧ c.port = 0) ∨
    ∃ (i : Nat) (entry : Bytes), (entries opts.endpoints)[i]? = some entry ∧
      parsePrefix entry = none ∧ splitHostPort entry = none ∧
      c ∈ opts.scanner.endpointsOf (lookup i) (endpointText entry)

/-- In every run whose pings answer as they should, the WARP pings of candidates without a port go
to ports of the user's list only; and what is returned is the answer of some ping, and has such a
port too if it is the answer to the ping of such a candidate. -/
def HonoursPorts (opts : ScanOptions) (scannerPorts : Bytes) (lookup : Nat → Lookup)
    (o : ScannerOptions) : Prop :=
  ∀ result candidates s, Listed o result candidates →
    (Engine.scan engineOptions candidates).Reach
      (Engine.Scan.Honest engineOptions (Answers scannerPorts)) s →
    (∀ p ∈ s.pings, Portless opts lookup result p.candidate →
      ∀ port ∈ pingPorts scannerPorts p.port, port ∈ scanPorts scannerPorts) ∧
    ∀ info, Returned s info → (∃ p ∈ s.pings, Answers scannerPorts p info) ∧
      ∀ p ∈ s.pings, Answers scannerPorts p info → Portless opts lookup result p.candidate →
        info.addrPort.port ∈ scanPorts scannerPorts

/-! ## Candidates without a port -/

theorem port_of_splitHostPort {s host portStr : Bytes}
    (h : splitHostPort (s ++ [ch ':', ch '0']) = some (host, portStr)) : portStr = [ch '0'] := by
  have hdrop : (s ++ [ch ':', ch '0']).drop (s.length + 1) = [ch '0'] := by
    rw [List.drop_append]
    simp
  rw [splitHostPort, lastIndexByte_append (by decide)] at h
  dsimp only at h
  rw [hdrop] at h
  split at h
  · split at h
    · cases h
    · split at h
      · cases h
      · split at h
        · cases h
        · split at h
          · cases h
          · exact (Prod.mk.inj (Option.some.inj h)).2.symm
  · split at h
    · cases h
    · split at h
      · cases h
      · split at h
        · cases h
        · exact (Prod.mk.inj (Option.some.inj h)).2.symm

theorem port_of_mem_resolved {o : ScannerOptions} {ips : List Bytes} {port : UInt16} {c : AddrPort}
    (h : c ∈ o.resolved ips port) : c.port = port := by
  obtain ⟨ip, -, rfl⟩ := List.mem_map.mp h
  rfl

/-- The endpoints of an entry without a port have port zero or the scanner's own. -/
theorem port_of_bare {entry text : Bytes} (h : parseEntry entry = .ok (.endpoint text))
    (hbare : splitHostPort entry = none) {lookup : Lookup} {o : ScannerOptions} {c : AddrPort}
    (hc : c ∈ o.endpointsOf lookup text) : c.port = 0 ∨ c.port = o.defaultPort := by
  obtain ⟨-, -, hsplit | ⟨-, rfl, hkind⟩⟩ := endpoint_cases h
  · simp [hbare] at hsplit
  · rw [ScannerOptions.endpointsOf] at hc
    cases haddr : parseAddr entry with
    | some addr =>
      rw [parseAddrPort_joinHostPort haddr] at hc
      obtain rfl := List.mem_singleton.mp hc
      exact .inl rfl
    | none =>
      obtain ⟨hdot, hcolon⟩ := hkind.resolve_left (by simp [haddr])
      rw [parseAddrPort_joinHostPort_eq_none hcolon haddr,
        parseAddr_joinHostPort_eq_none hcolon hdot] at hc
      have hjoin : joinHostPort entry (str "0") = entry ++ [ch ':', ch '0'] :=
        joinHostPort_of_not_mem hcolon _
      rw [hjoin] at hc
      dsimp only at hc
      split at hc
      · rename_i host portStr hsplit
        rw [port_of_splitHostPort hsplit, show parseUint [ch '0'] 16 = some 0 by decide] at hc
        split at hc
        · rename_i port _ hport
          cases hport
          exact .inl (port_of_mem_resolved hc)
        · cases hc
      · split at hc
        · exact .inr (port_of_mem_resolved hc)
        · cases hc

variable {opts : ScanOptions} {scannerPorts : Bytes} {lookup : Nat → Lookup}
  {cidrs list : List Prefix} {customs : List AddrPort} {result : Except Bytes (List Addr)}
  {o : ScannerOptions}

theorem warpPort_of_portless (hcoll : Collected opts lookup cidrs customs) {c : AddrPort}
    (h : Portless opts lookup result c) : Engine.warpPort engineOptions c = 2408 := by
  have hport : c.port = 0 ∨ c.port = 2408 := by
    rcases h with ⟨-, hport⟩ | ⟨i, entry, hentry, hcidr, hbare, hc⟩
    · exact .inl hport
    · exact port_of_bare (hcoll.parseEntry_eq hentry hcidr) hbare hc
  rcases hport with hport | hport
  · rw [Engine.warpPort, if_neg (not_not.mpr hport)]
    rfl
  · rw [Engine.warpPort, hport]
    rfl

/-- The text leaves no candidate without a port: some entry leaves something to scan, so that no
built-in prefixes are scanned; the enabled prefixes of the text reach no address that is scanned;
and no entry without a port is an address or a name that was resolved to an address of an enabled
family. -/
structure AllPorted (opts : ScanOptions) (lookup : Nat → Lookup) : Prop where
  contributes : ∃ (i : Nat) (entry : Bytes), (entries opts.endpoints)[i]? = some entry ∧
    Contributes opts (lookup i) entry
  cidr {i : Nat} {entry : Bytes} {p : Prefix} : (entries opts.endpoints)[i]? = some entry →
    parsePrefix entry = some p → opts.scanner.enabled p = true → ∀ n, Iterator.Reaches p n →
      n < 2 ^ 128 → Iterator.validEndpoint (.ofNat16 n) = false
  bare {i : Nat} {entry : Bytes} {ip : Addr} : (entries opts.endpoints)[i]? = some entry →
    parsePrefix entry = none → splitHostPort entry = none → ¬ Adds opts (lookup i) entry ip

theorem not_portless_of_allPorted (hcoll : Collected opts lookup cidrs customs)
    (hlist : Scanned cidrs customs list) (h : AllPorted opts lookup) {draws : List (Option Nat)}
    (hrun : (Iterator.generateFrom (opts.scannerOf list customs).toOptions).run draws = some result)
    (c : AddrPort) : ¬ Portless opts lookup result c := by
  have hvalid := hcoll.isValid_of_mem hlist
  rw [Scanned, if_neg (hcoll.contributes_iff.mp h.contributes)] at hlist
  subst hlist
  rintro (⟨hip, -⟩ | ⟨i, entry, hentry, hcidr, hbare, hc⟩)
  · refine (generated_in_iff (o := opts.scannerOf list customs) (S := fun _ ↦ False) rfl
      hvalid).mpr (fun p hp henabled n hn hlt hvalid ↦ ?_) _ _ hrun _ hip
    obtain ⟨i, entry, hentry, hparse⟩ := (hcoll.mem_cidrs p).mp hp
    cases hvalid.symm.trans (h.cidr hentry hparse henabled n hn hlt)
  · have hparse := hcoll.parseEntry_eq hentry hcidr
    exact h.bare hentry hcidr hbare ((mem_endpointsOf_iff hparse).mp ⟨c, hc, rfl⟩)

/-- No run has a candidate without a port exactly when no family is enabled or the text leaves
none. -/
theorem forall_not_portless_iff (h : runScanner opts lookup = .ok o) :
    (∀ result candidates, Listed o result candidates →
      ∀ c ∈ candidates, ¬ Portless opts lookup result c) ↔
      (opts.v4 = false ∧ opts.v6 = false) ∨ AllPorted opts lookup := by
  obtain ⟨cidrs, customs, list, hcoll, hlist, rfl⟩ := runScanner_lists h
  have hvalid := hcoll.isValid_of_mem hlist
  constructor
  · intro hnone
    refine or_iff_not_imp_left.mpr fun hoff ↦ ?_
    have hfamily : opts.v4 = true ∨ opts.v6 = true :=
      (not_and_or.mp hoff).imp Bool.eq_true_of_not_eq_false Bool.eq_true_of_not_eq_false
    have hnot {draws : List (Option Nat)} {result : Except Bytes (List Addr)}
        (hrun : (Iterator.generateFrom (opts.scannerOf list customs).toOptions).run draws =
          some result) {c : AddrPort}
        (hc : (c.addr ∈ cidrIPs result ∧ c.port = 0) ∨ c ∈ customs) :
        ¬ Portless opts lookup result c := by
      obtain ⟨candidates, hlisted⟩ := exists_listed hfamily hrun
      exact hnone result candidates hlisted c (hlisted.mem_iff.mpr hc)
    have hgen : ∀ p ∈ list, opts.scanner.enabled p = true → ∀ n, Iterator.Reaches p n →
        Allowed (fun _ ↦ False) n :=
      (generated_in_iff (o := opts.scannerOf list customs) rfl hvalid).mp
        fun draws result hrun ip hip ↦
          hnot hrun (c := ⟨ip, 0⟩) (.inl ⟨hip, rfl⟩) (.inl ⟨hip, rfl⟩)
    have hcontr : ¬ (cidrs = [] ∧ customs = []) := by
      intro hnil
      rw [Scanned, if_pos hnil] at hlist
      obtain ⟨p, hp, henabled, n, hn, hfalse⟩ := exists_reached_builtin hfamily hlist
      exact hfalse (hgen p hp henabled n hn)
    rw [Scanned, if_neg hcontr] at hlist
    subst hlist
    refine ⟨hcoll.contributes_iff.mpr hcontr, fun hentry hparse henabled n hn hlt ↦ ?_,
      fun hentry hcidr hbare hadds ↦ ?_⟩
    · exact Bool.eq_false_of_not_eq_true
        (hgen _ ((hcoll.mem_cidrs _).mpr ⟨_, _, hentry, hparse⟩) henabled n hn hlt)
    · have hparse := hcoll.parseEntry_eq hentry hcidr
      obtain ⟨c, hc, -⟩ := (mem_endpointsOf_iff hparse).mpr hadds
      exact hnot (Iterator.run_nil_generateFrom Nat.zero_lt_one)
        (.inr ((hcoll.mem_customs c).mpr ⟨_, _, _, hentry, hparse, hc⟩))
        (.inr ⟨_, _, hentry, hcidr, hbare, hc⟩)
  · rintro (⟨h4, h6⟩ | hported) result candidates hlisted c -
    · have hfamily : opts.v4 = true ∨ opts.v6 = true := hlisted.family
      simp [h4, h6] at hfamily
    · obtain ⟨draws, hrun⟩ := hlisted.generated
      exact not_portless_of_allPorted hcoll hlist hported hrun c

/-- **The user's ports are kept to exactly when** the scanner's own port is one of them, no family
is enabled, or the text leaves no candidate without a port. -/
theorem runScan_ports_iff (opts : ScanOptions) (scannerPorts : Bytes) (lookup : Nat → Lookup)
    (o : ScannerOptions) (h : runScanner opts lookup = .ok o) :
    HonoursPorts opts scannerPorts lookup o ↔
      2408 ∈ scanPorts scannerPorts ∨ (opts.v4 = false ∧ opts.v6 = false) ∨
        AllPorted opts lookup := by
  rw [← forall_not_portless_iff h]
  obtain ⟨cidrs, customs, list, hcoll, -, rfl⟩ := runScanner_lists h
  constructor
  · intro hports
    by_contra hnot
    obtain ⟨hmem, hall⟩ := not_or.mp hnot
    refine hall fun result candidates hlisted c hc hportless ↦ hmem ?_
    have hicmp : engineOptions.icmpPing = false := rfl
    obtain ⟨s, hreach, hping⟩ := Engine.Scan.exists_warp_ping hicmp rfl (by decide)
      Engine.Scan.openGuard_honest hc
    refine (hports result candidates s hlisted hreach).1 _ hping hportless 2408 ?_
    rw [warpPort_of_portless hcoll hportless]
    exact List.mem_singleton_self _
  · intro hcond result candidates s hlisted hreach
    -- a candidate without a port is pinged on 2408, and that is one of the user's ports
    have hping : ∀ p ∈ s.pings, Portless opts lookup result p.candidate →
        ∀ port ∈ pingPorts scannerPorts p.port, port ∈ scanPorts scannerPorts := by
      intro p hp hportless port hport
      rcases hcond with hmem | hnone
      · rw [Engine.Scan.port_of_reach hreach p hp, warpPort_of_portless hcoll hportless] at hport
        exact List.mem_singleton.mp hport ▸ hmem
      · have hc := (Engine.Scan.in_of_reach hreach).pings p hp
        exact absurd hportless (hnone result candidates hlisted _ hc)
    refine ⟨hping, fun info hinfo ↦ ⟨?_, ?_⟩⟩
    · obtain ⟨rest, hqueue⟩ := returned_iff.mp hinfo
      exact Engine.Scan.exists_ping_of_mem_queue hreach (hqueue ▸ List.mem_cons_self)
    · intro p hp hanswer hportless
      exact hping p hp hportless _ hanswer.2

/-- An IPv4 scan of the address `1.2.3.4`, without a port. -/
def scanBareAddr : ScanOptions where
  endpoints := str "1.2.3.4"
  v4 := true
  v6 := false

/-- A list with port 2408 is kept to. -/
theorem runScan_ports_2408 :
    ∃ o, runScanner scanBareAddr (fun _ _ ↦ none) = .ok o ∧
      HonoursPorts scanBareAddr (str "500, 2408") (fun _ _ ↦ none) o :=
  ⟨_, rfl, (runScan_ports_iff scanBareAddr (str "500, 2408") _ _ rfl).mpr
    (.inl (by decide +kernel))⟩

/-- With the list `500,4500` the address is pinged on port 2408. -/
theorem runScan_ignores_ports :
    scanPorts (str "500,4500") = [500, 4500] ∧ ∃ o result candidates s p,
      runScanner scanBareAddr (fun _ _ ↦ none) = .ok o ∧ Listed o result candidates ∧
      (Engine.scan engineOptions candidates).Reach
        (Engine.Scan.Honest engineOptions (Answers (str "500,4500"))) s ∧
      p ∈ s.pings ∧ Portless scanBareAddr (fun _ _ ↦ none) result p.candidate ∧
      pingPorts (str "500,4500") p.port = [2408] := by
  refine ⟨by decide +kernel, ?_⟩
  have hicmp : engineOptions.icmpPing = false := rfl
  have hc : (⟨.v4 0x01020304, 0⟩ : AddrPort) ∈ [(⟨.v4 0x01020304, 0⟩ : AddrPort)] :=
    List.mem_singleton_self _
  obtain ⟨s, hreach, hping⟩ := Engine.Scan.exists_warp_ping hicmp rfl (by decide)
    (Engine.Scan.openGuard_honest (A := Answers (str "500,4500"))) hc
  refine ⟨_, .error (str "no IP ranges configured or no IPs generated"), _, s, _, rfl,
    ⟨.inl rfl, ⟨[], rfl⟩, _, .refl _, rfl⟩, hreach, hping, .inr ⟨0, str "1.2.3.4", ?_⟩, rfl⟩
  have hentries : entries scanBareAddr.endpoints = [str "1.2.3.4"] := by decide +kernel
  exact ⟨by rw [hentries]; rfl, by decide +kernel, by decide +kernel, by decide +kernel⟩

end Vwarp.Wiresocks
