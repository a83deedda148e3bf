import Vwarp.Masque.Noize.Safety

/-!
# The shape of obfuscated packets

`ObfuscateWrite` pads a packet and puts a header before it.  The header depends on the protocol that
is imitated, and its length field on the padded packet.  `obfuscateWrite_shape` says what comes out
for every packet that is not fragmented, and that the packet can be read off it.
-/

namespace Vwarp.Masque.Noize

open Vwarp.Go Vwarp.Lib

variable {config : NoizeConfig} {packet : Bytes}

/-- What `ObfuscateWrite` returns. -/
def obfuscateWrite (config : NoizeConfig) (packet : Bytes) : Draw Bytes :=
  if packet = [] then pure packet
  else if fragments config packet then pure (packet.take config.fragmentSize.toNatClampNeg)
  else padAndWrap config packet

/-! ## Headers -/

def headerLength (protocol : Bytes) : Nat :=
  if protocol = str "dns" then 12
  else if protocol = str "https" ∨ protocol = str "h3" then 5
  else if protocol = str "dtls" then 13
  else if protocol = str "stun" then 20
  else 0

/-- Where the length field of the header is, if there is one. -/
def lengthOffset (protocol : Bytes) : Option Nat :=
  if protocol = str "https" ∨ protocol = str "h3" then some 3
  else if protocol = str "dtls" then some 11
  else if protocol = str "stun" then some 2
  else none

/-- The header of a protocol, before `size` bytes. -/
structure IsHeader (protocol : Bytes) (size : Nat) (header : Bytes) : Prop where
  length_eq : header.length = headerLength protocol
  field {offset : Nat} : lengthOffset protocol = some offset →
    ofBE ((header.drop offset).take 2) = size % 2 ^ 16

theorem ofBE_len16 (packet : Bytes) : ofBE (len16 packet) = packet.length % 2 ^ 16 := by
  rw [len16, ofBE_toBE]
  exact Nat.mod_mod _ _

/-- `wrapProtocol` puts a header before the packet. -/
theorem ensures_wrapProtocol (config : NoizeConfig) (packet : Bytes) :
    (wrapProtocol config packet).Ensures False fun wrapped ↦
      ∃ header, wrapped = header ++ packet ∧
        IsHeader config.mimicProtocol packet.length header := by
  unfold wrapProtocol
  by_cases hdns : config.mimicProtocol = str "dns"
  · rw [if_pos hdns, hdns, wrapDNS, Draw.ensures_bind]
    refine safe_intn_65536.mono fun transactionID _ ↦ ⟨_, rfl, ⟨rfl, nofun⟩⟩
  rw [if_neg hdns]
  by_cases hhttps : config.mimicProtocol = str "https" ∨ config.mimicProtocol = str "h3"
  · rw [if_pos hhttps]
    refine ⟨_, rfl, ⟨?_, fun {offset} hoffset ↦ ?_⟩⟩
    · rw [headerLength, if_neg hdns, if_pos hhttps]
      rfl
    · rw [lengthOffset, if_pos hhttps] at hoffset
      cases hoffset
      exact ofBE_len16 packet
  rw [if_neg hhttps]
  by_cases hdtls : config.mimicProtocol = str "dtls"
  · rw [if_pos hdtls, hdtls, wrapDTLS, Draw.ensures_bind]
    refine safe_intn_65536.mono fun epoch _ ↦ ⟨_, rfl, ⟨rfl, fun {offset} hoffset ↦ ?_⟩⟩
    cases hoffset
    exact ofBE_len16 packet
  rw [if_neg hdtls]
  by_cases hstun : config.mimicProtocol = str "stun"
  · rw [if_pos hstun, hstun, wrapSTUN, Draw.ensures_bind, ensures_randRead]
    intro transactionID hlength
    refine ⟨_, rfl, ⟨?_, fun {offset} hoffset ↦ ?_⟩⟩
    · simp only [List.length_append, hlength]
      rfl
    · cases hoffset
      exact ofBE_len16 packet
  rw [if_neg hstun]
  refine ⟨[], rfl, ⟨?_, fun {offset} hoffset ↦ ?_⟩⟩
  · rw [headerLength, if_neg hdns, if_neg hhttps, if_neg hdtls, if_neg hstun]
    rfl
  · rw [lengthOffset, if_neg hhttps, if_neg hdtls, if_neg hstun] at hoffset
    cases hoffset

/-! ## Padding -/

/-- The padding of a packet of `size` bytes. -/
structure IsPadding (config : NoizeConfig) (size : Nat) (pad : Bytes) : Prop where
  none : size < 16 ∨ 1200 ≤ size → pad = []
  le : 16 ≤ size → size < 1200 → (pad.length : Int) ≤ config.paddingMax.toInt ∧
    size + pad.length ≤ 1200
  fixed : 16 ≤ size → size < 1200 → config.randomPadding = false →
    (pad.length : Int) = min config.paddingMax.toInt (1200 - size)
  random : 16 ≤ size → size < 1200 → config.randomPadding = true →
    min config.paddingMin.toInt (1200 - size) ≤ pad.length

/-- Bounds for the padding that are in order. -/
structure PaddingBounds (config : NoizeConfig) : Prop where
  nonneg : 0 ≤ config.paddingMin.toInt
  le : config.paddingMin.toInt ≤ config.paddingMax.toInt
  small : config.paddingMax.toInt ≤ 65535

/-- `addPadding` appends the padding. -/
theorem ensures_addPadding (hbounds : PaddingBounds config)
    (hlen : (packet.length : Int) ≤ maxAlloc) :
    (addPadding config packet).Ensures False fun padded ↦
      ∃ pad, padded = packet ++ pad ∧ IsPadding config packet.length pad := by
  obtain ⟨hnonneg, hle, hsmall⟩ := hbounds
  have hzero : (0 : Int64).toInt = 0 := rfl
  have hmaxAlloc : maxAlloc = 2 ^ 48 := rfl
  rw [addPadding_eq]
  refine ensures_pad_of_fits (.inr ⟨by omega, fun _ ↦ ⟨hle, by omega⟩⟩) (fun hnone ↦ ?_)
    fun _ hlong size hhi hlo hfixed ↦ ?_
  · have hnone' : config.paddingMax.toInt = 0 ∨ packet.length < 16 := by
      refine hnone.imp_left fun hmax ↦ ?_
      rw [hmax, hzero]
    refine ⟨[], (List.append_nil packet).symm, fun _ ↦ rfl, fun h h' ↦ ?_, fun h h' _ ↦ ?_,
      fun h h' _ ↦ ?_⟩
    all_goals
      rw [List.length_nil]
      omega
  · refine (ensures_padBy hlen (by omega)).mono ?_
    rintro _ ⟨pad, rfl, hlength⟩
    refine ⟨pad, rfl, fun h ↦ ?_, fun h h' ↦ ?_, fun h h' hrandom ↦ ?_, fun h h' hrandom ↦ ?_⟩
    · refine List.eq_nil_of_length_eq_zero ?_
      omega
    · omega
    · rw [hfixed hrandom] at hlength
      omega
    · have hmin := hlo hrandom
      omega

/-! ## The packets that come out -/

/-- A packet in its header and with its padding. -/
def Shaped (config : NoizeConfig) (packet out : Bytes) : Prop :=
  ∃ header pad, out = header ++ packet ++ pad ∧
    IsHeader config.mimicProtocol (packet.length + pad.length) header ∧
    IsPadding config packet.length pad

/-- A packet of this size, read off what came out. -/
def recover (protocol : Bytes) (size : Nat) (out : Bytes) : Bytes :=
  (out.drop (headerLength protocol)).take size

theorem Shaped.recover {out : Bytes} (h : Shaped config packet out) :
    recover config.mimicProtocol packet.length out = packet := by
  obtain ⟨header, pad, rfl, hheader, -⟩ := h
  rw [Noize.recover, ← hheader.length_eq, List.append_assoc, List.drop_left, List.take_left]

/-- Without a protocol `wrapProtocol` does nothing, so that it need not be tested. -/
theorem padAndWrap_eq (config : NoizeConfig) (packet : Bytes) :
    padAndWrap config packet = addPadding config packet >>= fun packet ↦
      wrapProtocol config packet >>= fun packet ↦ applyDelay config >>= fun _ ↦ pure packet := by
  unfold padAndWrap
  refine congrArg (addPadding config packet >>= ·) (funext fun padded ↦ ?_)
  dsimp only
  split_ifs with hprotocol
  · rfl
  · rw [not_not] at hprotocol
    have hwrap : wrapProtocol config padded = pure padded := by
      rw [wrapProtocol, hprotocol]
      rfl
    rw [hwrap]

/-- The end of `ObfuscateWrite`. -/
theorem ensures_padAndWrap (hbounds : PaddingBounds config) (hdelay : DelayFits config)
    (hlen : (packet.length : Int) ≤ maxAlloc) :
    (padAndWrap config packet).Ensures False (Shaped config packet) := by
  rw [padAndWrap_eq, Draw.ensures_bind]
  refine (ensures_addPadding hbounds hlen).mono ?_
  rintro _ ⟨pad, rfl, hpad⟩
  rw [Draw.ensures_bind]
  refine (ensures_wrapProtocol config _).mono ?_
  rintro _ ⟨header, rfl, hheader⟩
  rw [Draw.ensures_bind]
  refine (safe_applyDelay.mpr hdelay).mono fun _ _ ↦ ?_
  rw [List.length_append] at hheader
  exact ⟨header, pad, (List.append_assoc _ _ _).symm, hheader, hpad⟩

/-! ## In every run -/

section Runs

variable {δ : Type} {n : Layer} {s t : State δ}

/-- Where a call is agrees with its buffer, and what it has from `ObfuscateWrite` is what that
returns. -/
def Call.Agrees (config : NoizeConfig) (c : Call δ) : Prop :=
  match c.pc with
  | .seen _ => c.buf ≠ []
  | .pad _ => c.buf ≠ [] ∧ fragments config c.buf = false
  | .out _ packet => ∃ draws, (obfuscateWrite config c.buf).run draws = some packet
  | _ => True

theorem agrees_of_route {enabled : Bool} {c : Call δ} {pc : Pc δ}
    (h : c.route config enabled = some (.goto pc)) : Call.Agrees config { c with pc := pc } := by
  have hudp {addr : δ} (h : routeUDP config enabled addr = .goto pc) :
      Call.Agrees config { c with pc := pc } := by
    unfold routeUDP at h
    split at h
    · cases h
    · cases h
      trivial
  unfold Call.route at h
  split at h
  · split at h
    · exact hudp (Option.some.inj h)
    · exact hudp (Option.some.inj h)
    · cases h
    · split at h
      · cases h
      · split at h
        · cases h
        · cases h
          trivial
    · cases h
      trivial
  · exact hudp (Option.some.inj h)
  · cases h

theorem agrees_setPc (h : ∀ c ∈ s.calls, c.Agrees config) {i : Nat} {c : Call δ} {pc : Pc δ}
    (hpc : Call.Agrees config { c with pc := pc }) :
    ∀ d ∈ (s.setPc i c pc).calls, d.Agrees config := by
  intro d hd
  rcases List.mem_or_eq_of_mem_set hd with hd | rfl
  · exact h d hd
  · exact hpc

variable [DecidableEq δ]

/-- From the first critical section to `addPadding`. -/
theorem agrees_secondStep (h : ∀ c ∈ s.calls, c.Agrees n.config) {i : Nat} {c : Call δ} {addr : δ}
    (hne : c.buf ≠ []) : ∀ d ∈ (s.secondStep n i c addr).calls, d.Agrees n.config := by
  unfold State.secondStep
  split
  · rename_i hfragments
    refine agrees_setPc (s := s.go n addr _) h ⟨[], ?_⟩
    rw [obfuscateWrite, if_neg hne, if_pos hfragments]
    rfl
  · rename_i hwhole
    have hpad : Call.Agrees n.config { c with pc := .pad addr } :=
      ⟨hne, Bool.eq_false_iff.mpr hwhole⟩
    dsimp only
    split
    all_goals exact agrees_setPc h hpad

theorem agrees_next {a : Label} (h : ∀ c ∈ s.calls, c.Agrees n.config)
    (hnext : s.next n a = some t) : ∀ c ∈ t.calls, c.Agrees n.config := by
  obtain ⟨halive, hstep⟩ := step_of_next hnext
  have hsecond {i : Nat} {c : Call δ} {addr : δ} {u : State δ} (hc : s.calls[i]? = some c)
      (hpc : c.pc = .seen addr) (hu : s.next n (.second i) = some u) :
      ∀ c ∈ u.calls, c.Agrees n.config := by
    have hseen := h c (List.mem_of_getElem? hc)
    rw [Call.Agrees, hpc] at hseen
    have hu' : s.next n (.second i) = some (s.secondStep n i c addr) := by
      simp [State.next, halive, hc, hpc]
    cases hu.symm.trans hu'
    exact agrees_secondStep h hseen
  cases hstep with
  | raw _ _ => exact agrees_setPc (s := s.write .raw _ _) h trivial
  | goto _ hroute => exact agrees_setPc h (agrees_of_route hroute)
  | empty _ _ hempty =>
    refine agrees_setPc h ⟨[], ?_⟩
    rw [obfuscateWrite, if_pos hempty]
    rfl
  | again _ _ hne _ | pre _ _ hne _ => exact agrees_setPc h hne
  | fragment hc hpc _ | post hc hpc _ _ | plain hc hpc => exact hsecond hc hpc hnext
  | panic _ _ _ => exact h
  | @padded i draws c addr packet hc hpc hrun =>
    have hpad := h c (List.mem_of_getElem? hc)
    rw [Call.Agrees, hpc] at hpad
    refine agrees_setPc h ⟨draws, ?_⟩
    rw [obfuscateWrite, if_neg hpad.1, if_neg (Bool.eq_false_iff.mp hpad.2)]
    exact hrun
  | emit _ _ _ => exact agrees_setPc (s := s.write .obfuscated _ _) h trivial
  | ret _ _ _ => exact agrees_setPc h trivial
  | crash _ _ _ => exact h
  | skip _ _ _ => exact h
  | send _ _ _ => exact h
  | disable => exact h
  | enable => exact h

/-- What a call has from `ObfuscateWrite`, in every run. -/
theorem exists_run_of_out {reqs : List (Entry δ × Bytes)} (h : (machine n reqs).Reachable s)
    {c : Call δ} (hc : c ∈ s.calls) {addr : δ} {out : Bytes} (hpc : c.pc = .out addr out) :
    ∃ draws, (obfuscateWrite n.config c.buf).run draws = some out := by
  have hagrees : ∀ c ∈ s.calls, c.Agrees n.config := by
    refine Machine.Reach.invariant (I := fun s ↦ ∀ c ∈ s.calls, c.Agrees n.config) ?_ ?_ h
    · rintro s rfl c hc
      obtain ⟨r, -, rfl⟩ := List.mem_map.mp hc
      trivial
    · intro s a t hs _ hnext
      exact agrees_next hs hnext
  have hout := hagrees c hc
  rwa [Call.Agrees, hpc] at hout

end Runs

/-- What `ObfuscateWrite` returns for a packet that is not empty and not fragmented: the packet
behind the header of the protocol, whose length field counts what follows it, and before the
padding.  The packet can be read off it.  In particular every call, however it is interleaved with
others, gets such a packet. -/
theorem obfuscateWrite_shape (config : NoizeConfig) (hbounds : PaddingBounds config)
    (hdelay : 0 ≤ config.delayMin.toInt) (packet : Bytes) (hne : packet ≠ [])
    (hlen : (packet.length : Int) ≤ maxAlloc) (hwhole : fragments config packet = false) :
    (∀ draws, ∃ out, (obfuscateWrite config packet).run draws = some out ∧
      Shaped config packet out ∧ recover config.mimicProtocol packet.length out = packet) ∧
    ∀ (δ : Type) [DecidableEq δ] (conn : Bool) (reqs : List (Entry δ × Bytes)) (s : State δ),
      (machine ⟨config, conn⟩ reqs).Reachable s → ∀ c ∈ s.calls, c.buf = packet →
        ∀ addr out, c.pc = .out addr out → Shaped config packet out := by
  have hfits : DelayFits config := by
    intro _ _
    have hlt := config.delayMax.toInt_lt
    omega
  have hensures : (obfuscateWrite config packet).Ensures False (Shaped config packet) := by
    rw [obfuscateWrite, if_neg hne, if_neg (Bool.eq_false_iff.mp hwhole)]
    exact ensures_padAndWrap hbounds hfits hlen
  constructor
  · intro draws
    obtain ⟨out, hrun⟩ := Option.ne_none_iff_exists'.mp (hensures.run_ne_none draws)
    have hshaped := hensures.of_run hrun
    exact ⟨out, hrun, hshaped, hshaped.recover⟩
  · rintro δ _ conn reqs s hs c hc rfl addr out hpc
    obtain ⟨draws, hrun⟩ := exists_run_of_out hs hc hpc
    exact hensures.of_run hrun

/-- A short 1-RTT packet with the default configuration. -/
theorem obfuscateWrite_shape_default :
    ∃ out, (obfuscateWrite defaultConfig (List.replicate 20 0x40)).run [] = some out ∧
      Shaped defaultConfig (List.replicate 20 0x40) out ∧
        recover (str "h3") 20 out = List.replicate 20 0x40 :=
  (obfuscateWrite_shape defaultConfig ⟨by decide, by decide, by decide⟩ (by decide)
    (List.replicate 20 0x40) (by decide) (by decide) (by decide)).1 []

end Vwarp.Masque.Noize
