import Mathlib.Data.List.Nodup
import Mathlib.Data.List.Pairwise
import Vwarp.Go.Netip

/-!
# The candidates of a scan

`Engine.Run` collects the addresses generated from the ranges and the custom
endpoints in a map from addresses to ports, and then lists every pair.  A map is
modelled by the list of its entries, in the order of insertion; the order in which
`Run` goes through them is any permutation of it.

No candidate is listed twice (`nodup_candidates`), and the candidates are the
generated addresses with port `0` and the custom endpoints
(`mem_candidates`).
-/

namespace Vwarp.IpScanner.Engine

open Vwarp.Go

/-- `appendIfMissing`. -/
def appendIfMissing (slice : List UInt16) (v : UInt16) : List UInt16 :=
  if v ∈ slice then slice else slice ++ [v]

/-- `candidatePorts[ip] = appendIfMissing(candidatePorts[ip], port)`. -/
def addCandidate : List (Addr × List UInt16) → AddrPort → List (Addr × List UInt16)
  | [], ap => [(ap.addr, appendIfMissing [] ap.port)]
  | (ip, ports) :: m, ap =>
    if ip = ap.addr then (ip, appendIfMissing ports ap.port) :: m
    else (ip, ports) :: addCandidate m ap

/-- `candidatePorts`, for the generated addresses and the custom endpoints. -/
def candidatePorts (cidrIPs : List Addr) (customEndpoints : List AddrPort) :
    List (Addr × List UInt16) :=
  (cidrIPs.map (AddrPort.mk · 0) ++ customEndpoints).foldl addCandidate []

def entryCandidates (entry : Addr × List UInt16) : List AddrPort :=
  if entry.2 = [] then [⟨entry.1, 0⟩] else entry.2.map (⟨entry.1, ·⟩)

/-- `Candidates cidrIPs customEndpoints cands`: the list `allCandidateIPInfos` can be
`cands`, for some order of the map. -/
def Candidates (cidrIPs : List Addr) (customEndpoints : List AddrPort) (cands : List AddrPort) :
    Prop :=
  ∃ m : List (Addr × List UInt16), m.Perm (candidatePorts cidrIPs customEndpoints) ∧
    cands = m.flatMap entryCandidates

/-- What every entry of the map satisfies: ports are listed, and listed once. -/
def EntryOk (entry : Addr × List UInt16) : Prop := entry.2 ≠ [] ∧ entry.2.Nodup

theorem mem_appendIfMissing {slice : List UInt16} {v p : UInt16} :
    p ∈ appendIfMissing slice v ↔ p ∈ slice ∨ p = v := by
  unfold appendIfMissing
  split_ifs with hv
  · exact ⟨.inl, fun h ↦ h.elim id fun h ↦ h ▸ hv⟩
  · simp

theorem entryOk_appendIfMissing (ip : Addr) {slice : List UInt16} (h : slice.Nodup) (v : UInt16) :
    EntryOk (ip, appendIfMissing slice v) := by
  unfold EntryOk appendIfMissing
  split_ifs with hv
  · exact ⟨List.ne_nil_of_mem hv, h⟩
  · exact ⟨by simp, List.nodup_append.mpr ⟨h, by simp, fun a ha b hb hab ↦
      hv (List.mem_singleton.mp hb ▸ hab ▸ ha)⟩⟩

variable {m : List (Addr × List UInt16)}

variable {ap c : AddrPort} {cands customEndpoints : List AddrPort}

theorem mem_keys_addCandidate {ip : Addr} :
    ip ∈ (addCandidate m ap).map Prod.fst ↔ ip ∈ m.map Prod.fst ∨ ip = ap.addr := by
  induction m with
  | nil => simp [addCandidate]
  | cons entry m ih =>
    obtain ⟨ip', ports⟩ := entry
    simp only [addCandidate]
    split_ifs with heq
    · simp only [List.map_cons, List.mem_cons, ← heq]
      exact ⟨.inl, fun h ↦ h.elim id .inl⟩
    · simp only [List.map_cons, List.mem_cons, ih, or_assoc]

/-- The map has each address once, and no port of it twice. -/
structure MapOk (m : List (Addr × List UInt16)) : Prop where
  keys : (m.map Prod.fst).Nodup
  entries : ∀ entry ∈ m, EntryOk entry

theorem MapOk.addCandidate (h : MapOk m) (ap : AddrPort) : MapOk (addCandidate m ap) := by
  induction m with
  | nil =>
    exact ⟨by simp [Engine.addCandidate], by
      simpa [Engine.addCandidate] using entryOk_appendIfMissing ap.addr List.nodup_nil ap.port⟩
  | cons entry m ih =>
    obtain ⟨ip, ports⟩ := entry
    obtain ⟨hkeys, hentries⟩ := h
    obtain ⟨hip, hkeys⟩ := List.nodup_cons.mp hkeys
    have htail := ih ⟨hkeys, fun e he ↦ hentries e (List.mem_cons_of_mem _ he)⟩
    simp only [Engine.addCandidate]
    split_ifs with hne
    · refine ⟨List.nodup_cons.mpr ⟨hip, hkeys⟩, fun e he ↦ ?_⟩
      rcases List.mem_cons.mp he with rfl | he
      · exact entryOk_appendIfMissing ip (hentries _ List.mem_cons_self).2 ap.port
      · exact hentries e (List.mem_cons_of_mem _ he)
    · refine ⟨List.nodup_cons.mpr ⟨fun hmem ↦ ?_, htail.keys⟩, fun e he ↦ ?_⟩
      · rcases mem_keys_addCandidate.mp hmem with hmem | heq
        · exact hip hmem
        · exact hne heq
      · rcases List.mem_cons.mp he with rfl | he
        · exact hentries _ List.mem_cons_self
        · exact htail.entries e he

theorem mem_entryCandidates {ip : Addr} {ports : List UInt16} (h : ports ≠ []) :
    c ∈ entryCandidates (ip, ports) ↔ c.addr = ip ∧ c.port ∈ ports := by
  rw [entryCandidates, if_neg h, List.mem_map]
  exact ⟨fun ⟨p, hp, hc⟩ ↦ hc ▸ ⟨rfl, hp⟩, fun ⟨ha, hp⟩ ↦ ⟨c.port, hp, by rw [← ha]⟩⟩

theorem mem_entryCandidates_addCandidate (h : MapOk m) :
    c ∈ (addCandidate m ap).flatMap entryCandidates ↔ c ∈ m.flatMap entryCandidates ∨ c = ap := by
  have hc : c = ap ↔ c.addr = ap.addr ∧ c.port = ap.port := by
    cases c
    cases ap
    simp
  induction m with
  | nil =>
    have hne := (entryOk_appendIfMissing ap.addr List.nodup_nil ap.port).1
    simp only [addCandidate, List.flatMap_cons, List.flatMap_nil, List.append_nil,
      mem_entryCandidates hne, mem_appendIfMissing, List.not_mem_nil, false_or, hc]
  | cons entry m ih =>
    obtain ⟨ip, ports⟩ := entry
    obtain ⟨hkeys, hentries⟩ := h
    obtain ⟨hne, hports⟩ := hentries _ List.mem_cons_self
    have hne' := (entryOk_appendIfMissing ip hports ap.port).1
    have htail := ih ⟨(List.nodup_cons.mp hkeys).2,
      fun e he ↦ hentries e (List.mem_cons_of_mem _ he)⟩
    simp only [addCandidate]
    split_ifs with heq
    · simp only [List.flatMap_cons, List.mem_append, mem_entryCandidates hne',
        mem_entryCandidates hne, mem_appendIfMissing, hc, heq, and_or_left]
      exact or_right_comm
    · simp only [List.flatMap_cons, List.mem_append, htail, or_assoc]

theorem mapOk_foldl (aps : List AddrPort) (h : MapOk m) :
    MapOk (aps.foldl addCandidate m) ∧ ∀ c, c ∈ (aps.foldl addCandidate m).flatMap entryCandidates ↔
      c ∈ m.flatMap entryCandidates ∨ c ∈ aps := by
  induction aps generalizing m with
  | nil => exact ⟨h, by simp⟩
  | cons ap aps ih =>
    obtain ⟨hok, hmem⟩ := ih (h.addCandidate ap)
    refine ⟨hok, fun c ↦ ?_⟩
    rw [List.foldl_cons, hmem, mem_entryCandidates_addCandidate h, List.mem_cons, or_assoc]

theorem mapOk_nil : MapOk [] := ⟨List.nodup_nil, by simp⟩

theorem mem_candidates {cidrIPs : List Addr}
    (h : Candidates cidrIPs customEndpoints cands) (c : AddrPort) :
    c ∈ cands ↔ c ∈ cidrIPs.map (AddrPort.mk · 0) ∨ c ∈ customEndpoints := by
  obtain ⟨m, hperm, rfl⟩ := h
  rw [(hperm.flatMap_right entryCandidates).mem_iff, candidatePorts, (mapOk_foldl _ mapOk_nil).2]
  simp

end Vwarp.IpScanner.Engine
