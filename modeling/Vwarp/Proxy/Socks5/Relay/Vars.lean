import Vwarp.Go.NetText
import Vwarp.Proxy.Socks5.Relay.Buffer

/-!
# What the embedded relay remembers

The source, the target and the header of replies are fixed by the first datagrams.  They are
functions of the datagrams that came before (`Follows`): the source is that of the first datagram,
the target is the address in the first datagram of the source that parses, and the header is three
zeros and the encoding of the target.  The source code encodes the target from its text, which is
the same because `ParseIP` reads what `IP.String` prints (`writeAddrWithStr_string`).

The header has ten or twenty-two bytes, so the loop stays inside its array exactly if every reply
leaves room for it: `relay_in_range_iff`.
-/

namespace Vwarp.Proxy.Socks5

open Vwarp.Go Vwarp.Lib

/-! ## The header of replies -/

/-- An address as `readAddr` gives it: no IP, or one of four or sixteen bytes, and a port of two
bytes. -/
structure ValidTarget (t : UDPAddr) : Prop where
  ip : t.ip = [] ∨ t.ip.length = 4 ∨ t.ip.length = 16
  port : t.port < 65536

/-- The encoding of a target: its IP and port, and zeros for no IP. -/
def encodeTarget (t : UDPAddr) : Bytes :=
  (writeHost ⟨[], t.ip, t.port⟩).getD [] ++ putUint16 (UInt16.ofNat t.port)

/-- The header in front of a reply of the target. -/
def replyHeader (t : UDPAddr) : Bytes := [0, 0, 0] ++ encodeTarget t

def headerLen (t : UDPAddr) : Nat := if t.ip = [] ∨ (to4 t.ip).isSome then 10 else 22

theorem writeHost_noName (ip : Bytes) (port : Nat) :
    ∃ enc, writeHost ⟨[], ip, port⟩ = some enc := by
  unfold writeHost
  split
  · split
    · exact ⟨_, rfl⟩
    · split
      all_goals exact ⟨_, rfl⟩
  · exact ⟨_, rfl⟩

theorem writeAddr_target (t : UDPAddr) :
    writeAddr (some ⟨[], t.ip, t.port⟩) = some (encodeTarget t) := by
  obtain ⟨enc, henc⟩ := writeHost_noName t.ip t.port
  rw [writeAddr, encodeTarget, henc]
  rfl

variable {t : UDPAddr}

theorem length_replyHeader (h : ValidTarget t) : (replyHeader t).length = headerLen t := by
  have hhost : ((writeHost ⟨[], t.ip, t.port⟩).getD []).length = headerLen t - 5 := by
    unfold writeHost headerLen
    by_cases hnil : t.ip = []
    · simp [hnil]
    · cases hto4 : to4 t.ip with
      | some ip4 =>
        obtain ⟨a, b, c, d, rfl, -⟩ := exists_of_to4 hto4
        simp [hnil]
      | none =>
        have h16 : t.ip.length = 16 := by
          rcases h.ip with hip | hip | hip
          · exact absurd hip hnil
          · rw [to4, if_pos hip] at hto4
            cases hto4
          · exact hip
        simp [hnil, h16]
  have hlen : headerLen t = 10 ∨ headerLen t = 22 := by
    unfold headerLen
    split
    · exact .inl rfl
    · exact .inr rfl
  rw [replyHeader, encodeTarget, List.length_append, List.length_append, hhost, length_putUint16]
  simp only [List.length_cons, List.length_nil]
  omega

theorem writeHost_to16 {ip ip16 : Bytes} (h : to16 ip = some ip16) (port : Nat) :
    writeHost ⟨[], ip16, port⟩ = writeHost ⟨[], ip, port⟩ := by
  unfold to16 at h
  split at h
  · rename_i hlen
    cases h
    match ip, hlen with
    | [a, b, c, d], _ => rfl
  · split at h
    · cases h
      rfl
    · cases h

def hostText (t : UDPAddr) : Bytes := if t.ip = [] then [] else ipString t.ip

theorem UDPAddr_string (t : UDPAddr) : t.string = joinHostPort (hostText t) (itoa t.port) := rfl

theorem not_bracket_hostText (h : ValidTarget t) : ch '[' ∉ hostText t ∧ ch ']' ∉ hostText t := by
  unfold hostText
  split_ifs with hne
  · exact ⟨List.not_mem_nil, List.not_mem_nil⟩
  · have hlen := h.ip.resolve_left hne
    exact ⟨not_mem_ipString hlen (by decide) (by decide) (by decide) (by decide),
      not_mem_ipString hlen (by decide) (by decide) (by decide) (by decide)⟩

theorem not_mem_port (n : Nat) : ch ':' ∉ itoa n ∧ ch '[' ∉ itoa n ∧ ch ']' ∉ itoa n :=
  ⟨not_mem_itoa (by decide), not_mem_itoa (by decide), not_mem_itoa (by decide)⟩

theorem splitHostPort_string (h : ValidTarget t) :
    splitHostPort t.string = some (hostText t, t.port) := by
  have hport : t.port < 2 ^ 63 := Nat.lt_trans h.port (by decide)
  have hrange : ¬ ((0 : Int) > t.port ∨ (t.port : Int) > 0xffff) := by
    have := h.port
    omega
  rw [splitHostPort, UDPAddr_string,
    splitHostPort_joinHostPort (not_bracket_hostText h) (not_mem_port t.port), Option.bind_some]
  dsimp only
  rw [atoi_itoa hport, Option.bind_some, if_neg hrange, Int.toNat_natCast]

theorem writeAddrWithStr_string (h : ValidTarget t) :
    writeAddrWithStr t.string = some (encodeTarget t) := by
  rw [writeAddrWithStr, splitHostPort_string h, Option.bind_some, ← writeAddr_target]
  dsimp only
  unfold hostText
  by_cases hne : t.ip = []
  · rw [if_pos hne, hne]
    rfl
  · have hlen := h.ip.resolve_left hne
    obtain ⟨ip16, h16⟩ : ∃ ip16, to16 t.ip = some ip16 := by
      unfold to16
      rcases hlen with hlen | hlen
      · exact ⟨_, if_pos hlen⟩
      · exact ⟨_, by rw [if_neg (by omega), if_pos hlen]⟩
    rw [if_neg hne, parseIP_ipString hlen, h16]
    dsimp only
    rw [writeAddr, writeAddr, writeHost_to16 h16]

/-- A target that `readAddr` gives is valid. -/
theorem validTarget_of_parse {d : Datagram} {a : Address} {pay : Bytes}
    (h : d.parse = some (a, pay)) : ValidTarget a.udpAddr := by
  obtain ⟨-, hread, -⟩ := parse_eq_some h
  obtain ⟨enc, henc, -⟩ :=
    encodes_of_readAddr (r := Buffer.mk (d.read.drop 3)) trivial trivial hread
  obtain ⟨hhost, hport⟩ := henc
  refine ⟨?_, UInt16.toNat_lt _⟩
  cases hhost with
  | ipv4 hlen => exact .inr (.inl hlen)
  | ipv6 hlen => exact .inr (.inr hlen)
  | fqdn _ => exact .inl rfl

/-! ## The variables -/

def firstSource (ds : List Datagram) : Option Bytes := ds.head?.map Datagram.source

/-- The address in the first datagram of the source that parses. -/
def firstNamed (src : Bytes) (ds : List Datagram) : Option Address :=
  ds.findSome? fun d ↦ if d.source = src then d.parse.map Prod.fst else none

def fixedTarget (ds : List Datagram) : Option UDPAddr :=
  (firstSource ds).bind fun src ↦ (firstNamed src ds).map Address.udpAddr

/-- The variables of the loop after these datagrams. -/
structure Follows (vars : Embed) (ds : List Datagram) : Prop where
  sourceAddr : vars.sourceAddr = firstSource ds
  targetAddr : vars.targetAddr = fixedTarget ds
  replyPrefix : ∀ p, vars.replyPrefix = some p → ∃ t, vars.targetAddr = some t ∧ p = replyHeader t

theorem follows_init : Follows .init [] := ⟨rfl, rfl, nofun⟩

variable {ds : List Datagram}

theorem validTarget_of_fixed (h : fixedTarget ds = some t) : ValidTarget t := by
  obtain ⟨src, -, hnamed⟩ := Option.bind_eq_some_iff.mp h
  obtain ⟨a, hfirst, rfl⟩ := Option.map_eq_some_iff.mp hnamed
  obtain ⟨d, -, hd⟩ := List.exists_of_findSome?_eq_some hfirst
  split at hd
  · obtain ⟨⟨a', pay⟩, hparse, rfl⟩ := Option.map_eq_some_iff.mp hd
    exact validTarget_of_parse hparse
  · cases hd

theorem fixedTarget_concat (ds : List Datagram) (d : Datagram) :
    fixedTarget (ds ++ [d]) = (fixedTarget ds).or
      (if (firstSource ds).getD d.source = d.source then
        d.parse.map fun named ↦ named.1.udpAddr else none) := by
  have hone (src : Bytes) : (firstNamed src [d]).map Address.udpAddr =
      if d.source = src then d.parse.map (fun named ↦ named.1.udpAddr) else none := by
    rw [firstNamed, List.findSome?_singleton]
    split
    · rw [Option.map_map]
      rfl
    · rfl
  cases ds with
  | nil =>
    show (firstNamed d.source [d]).map Address.udpAddr = _
    rw [hone, if_pos rfl]
    exact (if_pos rfl).symm
  | cons e es =>
    show (firstNamed e.source (e :: es ++ [d])).map Address.udpAddr =
      ((firstNamed e.source (e :: es)).map Address.udpAddr).or
        (if e.source = d.source then _ else none)
    rw [firstNamed, List.findSome?_append, Option.map_or, ← firstNamed, ← firstNamed, hone]
    simp only [eq_comm]

theorem fixedTarget_append {es : List Datagram} (h : fixedTarget ds = some t) :
    fixedTarget (ds ++ es) = some t := by
  induction es generalizing ds with
  | nil => rwa [List.append_nil]
  | cons e es ih =>
    rw [List.append_cons]
    apply ih
    rw [fixedTarget_concat, h]
    rfl

theorem firstSource_append {es : List Datagram} {src : Bytes} (h : firstSource ds = some src) :
    firstSource (ds ++ es) = some src := by
  cases ds with
  | nil => cases h
  | cons d ds => exact h

theorem firstSource_concat (ds : List Datagram) (d : Datagram) :
    firstSource (ds ++ [d]) = some ((firstSource ds).getD d.source) := by
  cases ds <;> rfl

/-! ## One iteration -/

theorem embedFromTarget_eq (writeTo : Write → Option Error) (source : Option Bytes)
    (hvalid : ValidTarget t) {replyPrefix : Option Bytes}
    (hheader : ∀ p, replyPrefix = some p → ∃ t', some t = some t' ∧ p = replyHeader t')
    (d : Datagram) (src : Bytes) :
    embedFromTarget writeTo ⟨source, some t, replyPrefix⟩ d src t =
      if maxUdpPacket < headerLen t + d.read.length then
        (⟨source, some t, some (replyHeader t)⟩, [], .panic)
      else writeOrReturn writeTo (.toSource (replyHeader t ++ d.read) src)
        ⟨source, some t, some (replyHeader t)⟩ := by
  have hreply : replyPrefix.or (writeAddrWithStr t.string |>.map ([0, 0, 0] ++ ·)) =
      some (replyHeader t) := by
    cases replyPrefix with
    | none =>
      rw [Option.none_or, writeAddrWithStr_string hvalid]
      rfl
    | some p =>
      obtain ⟨t', ht', rfl⟩ := hheader p rfl
      cases ht'
      rfl
  rw [embedFromTarget, hreply]
  dsimp only
  rw [length_replyHeader hvalid]

/-- The datagram is one of the source and names the target. -/
structure Forwarded (pre : List Datagram) (d : Datagram) (pay : Bytes) (t : UDPAddr) : Prop where
  source : (firstSource pre).getD d.source = d.source
  target : fixedTarget (pre ++ [d]) = some t
  parses : ∃ a, d.parse = some (a, pay) ∧ a.string = t.string

/-- The datagram is one of the target. -/
structure Reply (pre : List Datagram) (d : Datagram) (src : Bytes) (t : UDPAddr) : Prop where
  source : firstSource pre = some src
  other : src ≠ d.source
  target : fixedTarget pre = some t
  sender : t.string = d.source

theorem Forwarded.not_reply {pre : List Datagram} {d : Datagram} {pay src : Bytes} {t' : UDPAddr}
    (h : Forwarded pre d pay t) : ¬ Reply pre d src t' := by
  intro hreply
  have hsource := h.source
  rw [hreply.source] at hsource
  exact hreply.other hsource

def afterWrite (writeTo : Write → Option Error) (w : Write) : Flow :=
  if writeTo w = none then .continue else .return

/-- The outcomes of an iteration for a datagram `d` after the datagrams `pre`. -/
inductive Iteration (writeTo : Write → Option Error) (pre : List Datagram) (d : Datagram) :
    List Write × Flow → Prop
  | forwarded (pay : Bytes) (t : UDPAddr) : Forwarded pre d pay t →
      Iteration writeTo pre d ([.toTarget pay t], afterWrite writeTo (.toTarget pay t))
  | replied (src : Bytes) (t : UDPAddr) : Reply pre d src t →
      headerLen t + d.bytes.length ≤ maxUdpPacket →
      Iteration writeTo pre d ([.toSource (replyHeader t ++ d.bytes) src],
        afterWrite writeTo (.toSource (replyHeader t ++ d.bytes) src))
  | tooLong (src : Bytes) (t : UDPAddr) : Reply pre d src t →
      maxUdpPacket < headerLen t + d.bytes.length → Iteration writeTo pre d ([], .panic)
  | ignored : (∀ pay t, ¬ Forwarded pre d pay t) → (∀ src t, ¬ Reply pre d src t) →
      Iteration writeTo pre d ([], .continue)

theorem headerLen_pos (t : UDPAddr) : 0 < headerLen t := by
  unfold headerLen
  split
  · decide
  · decide

theorem fits_read_iff (t : UDPAddr) (d : Datagram) :
    maxUdpPacket < headerLen t + d.read.length ↔ maxUdpPacket < headerLen t + d.bytes.length := by
  have hpos := headerLen_pos t
  rw [Datagram.read, List.length_take]
  omega

variable {vars : Embed} {pre : List Datagram}

/-- An iteration has one of the outcomes, and the variables after it follow the datagrams up to
it. -/
theorem Follows.step (h : Follows vars pre) (writeTo : Write → Option Error) (d : Datagram) :
    Follows (embedStep writeTo vars d).1 (pre ++ [d]) ∧
      Iteration writeTo pre d (embedStep writeTo vars d).2 := by
  obtain ⟨source, target, replyPrefix⟩ := vars
  obtain ⟨hsource, htarget, hheader⟩ := h
  dsimp only at hsource htarget hheader
  have hsource' : some (source.getD d.source) = firstSource (pre ++ [d]) := by
    rw [firstSource_concat, hsource]
  have htarget' := fixedTarget_concat pre d
  rw [← htarget, ← hsource] at htarget'
  unfold embedStep
  dsimp only
  split
  · -- a datagram of the source
    rename_i hsrc
    have hreply : ∀ src t, ¬ Reply pre d src t := by
      intro src t hreply
      rw [hsource, hreply.source, Option.getD_some] at hsrc
      exact hreply.other hsrc
    rw [if_pos hsrc] at htarget'
    rw [embedFromSource_eq]
    cases hparse : d.parse with
    | none =>
      rw [hparse, Option.map_none, Option.or_none] at htarget'
      refine ⟨⟨hsource', htarget'.symm, hheader⟩, .ignored ?_ hreply⟩
      intro pay t hforwarded
      obtain ⟨a, ha, -⟩ := hforwarded.parses
      cases hparse.symm.trans ha
    | some named =>
      obtain ⟨a, pay⟩ := named
      have hfixed : fixedTarget (pre ++ [d]) = some (target.getD a.udpAddr) := by
        rw [htarget', hparse]
        cases target <;> rfl
      have hheader' : ∀ p, replyPrefix = some p →
          ∃ t, some (target.getD a.udpAddr) = some t ∧ p = replyHeader t := by
        intro p hp
        obtain ⟨t, rfl, rfl⟩ := hheader p hp
        exact ⟨t, rfl, rfl⟩
      dsimp only
      split_ifs with hne
      · refine ⟨⟨hsource', hfixed.symm, hheader'⟩, .ignored ?_ hreply⟩
        intro pay' t hforwarded
        obtain ⟨a', ha', hstring⟩ := hforwarded.parses
        rw [hparse] at ha'
        cases ha'
        have ht := hforwarded.target
        cases hfixed.symm.trans ht
        exact hne hstring
      · refine ⟨⟨hsource', hfixed.symm, hheader'⟩, .forwarded pay _ ⟨?_, hfixed, a, hparse, ?_⟩⟩
        · rw [← hsource]
          exact hsrc
        · exact not_not.mp hne
  · rename_i hsrc
    rw [if_neg hsrc, Option.or_none] at htarget'
    have hforwarded : ∀ pay t, ¬ Forwarded pre d pay t := by
      intro pay t hforwarded
      have hfirst := hforwarded.source
      rw [← hsource] at hfirst
      exact hsrc hfirst
    cases target with
    | none =>
      refine ⟨⟨hsource', htarget'.symm, hheader⟩, .ignored hforwarded ?_⟩
      intro src t hreply
      have ht := hreply.target
      rw [← htarget] at ht
      cases ht
    | some t =>
      dsimp only
      split
      · -- a datagram of the target
        rename_i hsender
        have hreply : Reply pre d (source.getD d.source) t := by
          refine ⟨?_, hsrc, htarget.symm, hsender⟩
          cases source with
          | none => exact absurd rfl hsrc
          | some src => exact hsource.symm
        have hheader' : ∀ p, some (replyHeader t) = some p →
            ∃ t', some t = some t' ∧ p = replyHeader t' := by
          rintro _ ⟨⟩
          exact ⟨t, rfl, rfl⟩
        rw [embedFromTarget_eq writeTo _ (validTarget_of_fixed htarget.symm) hheader]
        by_cases hfits : maxUdpPacket < headerLen t + d.bytes.length
        · rw [if_pos ((fits_read_iff t d).mpr hfits)]
          exact ⟨⟨hsource', htarget'.symm, hheader'⟩, .tooLong _ t hreply hfits⟩
        · have hread : d.read = d.bytes := by
            have hpos := headerLen_pos t
            exact List.take_of_length_le (by omega)
          rw [if_neg ((fits_read_iff t d).not.mpr hfits), hread]
          exact ⟨⟨hsource', htarget'.symm, hheader'⟩,
            .replied _ t hreply (Nat.le_of_not_lt hfits)⟩
      · rename_i hsender
        refine ⟨⟨hsource', htarget'.symm, hheader⟩, .ignored hforwarded ?_⟩
        intro src t' hreply
        have ht := hreply.target
        rw [← htarget] at ht
        cases ht
        exact hsender hreply.sender

/-! ## The array is not left -/

/-- The datagram is a reply that does not fit behind its header. -/
def TooLong (pre : List Datagram) (d : Datagram) : Prop :=
  ∃ src t, Reply pre d src t ∧ maxUdpPacket < headerLen t + d.bytes.length

/-- A loop that meets no reply which is too long does not panic. -/
theorem Follows.no_panic (h : Follows vars pre)
    (hfits : ∀ mid d post, ds = mid ++ d :: post → ¬ TooLong (pre ++ mid) d)
    (writeTo : Write → Option Error) (closed : Option Error) :
    (embedHandleAssociate writeTo closed vars ds).2.2 ≠ .panic := by
  induction ds generalizing vars pre with
  | nil =>
    rw [embedHandleAssociate]
    split
    all_goals rintro ⟨⟩
  | cons d ds ih =>
    obtain ⟨hfollows, hiter⟩ := h.step writeTo d
    have hnot := hfits [] d ds rfl
    rw [List.append_nil] at hnot
    have hrest : ∀ mid d' post, ds = mid ++ d' :: post → ¬ TooLong (pre ++ [d] ++ mid) d' := by
      intro mid d' post heq
      have hlater := hfits (d :: mid) d' post (by rw [heq]; rfl)
      rwa [List.append_cons] at hlater
    have hflow : (embedStep writeTo vars d).2.2 ≠ .panic := by
      generalize (embedStep writeTo vars d).2 = result at hiter
      cases hiter with
      | forwarded pay t _ | replied src t _ _ =>
        unfold afterWrite
        dsimp only
        split
        all_goals rintro ⟨⟩
      | tooLong src t hreply hlong => exact absurd ⟨src, t, hreply, hlong⟩ hnot
      | ignored _ _ => rintro ⟨⟩
    have hlater := ih hfollows hrest
    rw [embedHandleAssociate]
    generalize embedStep writeTo vars d = result at hflow hlater
    obtain ⟨vars', ws, flow⟩ := result
    cases flow with
    | «continue» => exact hlater
    | «return» => rintro ⟨⟩
    | panic => exact absurd rfl hflow

/-- While all writes succeed, the loop ends only at a reply that is too long. -/
theorem Follows.flow_of_succeed (h : Follows vars pre) (d : Datagram) :
    (embedStep writesSucceed vars d).2.2 = .panic ∧ TooLong pre d ∨
      (embedStep writesSucceed vars d).2.2 = .continue ∧ ¬ TooLong pre d := by
  obtain ⟨-, hiter⟩ := h.step writesSucceed d
  generalize (embedStep writesSucceed vars d).2 = result at hiter
  cases hiter with
  | forwarded pay t hforwarded =>
    refine .inr ⟨rfl, ?_⟩
    rintro ⟨src, t', hreply, -⟩
    exact hforwarded.not_reply hreply
  | replied src t hreply hfits =>
    refine .inr ⟨rfl, ?_⟩
    rintro ⟨src', t', hreply', hlong⟩
    have ht := hreply.target.symm.trans hreply'.target
    cases ht
    exact Nat.not_lt.mpr hfits hlong
  | tooLong src t hreply hlong => exact .inl ⟨rfl, src, t, hreply, hlong⟩
  | ignored _ hnot =>
    refine .inr ⟨rfl, ?_⟩
    rintro ⟨src, t, hreply, -⟩
    exact hnot src t hreply

/-- A loop that panics for no datagram met no reply that is too long. -/
theorem Follows.fits_of_no_panic (h : Follows vars pre)
    (hflow : (embedHandleAssociate writesSucceed none vars ds).2.2 ≠ .panic) :
    ∀ mid d post, ds = mid ++ d :: post → ¬ TooLong (pre ++ mid) d := by
  induction ds generalizing vars pre with
  | nil =>
    intro mid d post heq
    exact absurd heq.symm (List.append_ne_nil_of_right_ne_nil _ (List.cons_ne_nil _ _))
  | cons e es ih =>
    intro mid d post heq
    have hfollows := (h.step writesSucceed e).1
    have hstep := h.flow_of_succeed e
    rw [embedHandleAssociate] at hflow
    generalize embedStep writesSucceed vars e = result at hflow hfollows hstep
    obtain ⟨vars', ws, flow⟩ := result
    rcases hstep with ⟨rfl, -⟩ | ⟨rfl, hnot⟩
    · exact absurd rfl hflow
    · cases mid with
      | nil =>
        cases heq
        rwa [List.append_nil]
      | cons m mid =>
        cases heq
        rw [List.append_cons]
        exact ih hfollows hflow mid d post rfl

/-- Whatever the writes return, every slice expression of the relay is in range exactly if every
reply leaves room for its header. -/
theorem relay_in_range_iff (ds : List Datagram) :
    (∀ writeTo closed, (relay writeTo closed .init ds).2.2 ≠ .panic) ↔
      ∀ pre d post, ds = pre ++ d :: post → ∀ src t, Reply pre d src t →
        headerLen t + d.bytes.length ≤ maxUdpPacket := by
  constructor
  · intro hrange pre d post heq src t hreply
    have hflow := hrange writesSucceed none
    rw [relay_init] at hflow
    have hnot := follows_init.fits_of_no_panic hflow pre d post heq
    exact Nat.le_of_not_lt fun hlong ↦ hnot ⟨src, t, hreply, hlong⟩
  · intro hfits writeTo closed
    rw [relay_init]
    refine follows_init.no_panic ?_ writeTo closed
    rintro mid d post heq ⟨src, t, hreply, hlong⟩
    exact Nat.not_lt.mpr (hfits mid d post heq src t hreply) hlong

/-- A datagram of a client for `8.8.8.8:53` with one byte of payload. -/
def clientDatagram : Datagram := ⟨str "10.0.0.2:4000", [0, 0, 0, 1, 8, 8, 8, 8, 0, 53, 7]⟩

/-- A reply of `8.8.8.8:53` with this many bytes. -/
def replyOf (n : Nat) : Datagram := ⟨str "8.8.8.8:53", List.replicate n 9⟩

/-- A reply of 2039 bytes, one more than fits behind a header of ten bytes. -/
theorem long_reply_panics :
    (relay writesSucceed none .init [clientDatagram, replyOf 2039]).2.2 = .panic := by
  have hreply : Reply [clientDatagram] (replyOf 2039) (str "10.0.0.2:4000") ⟨[8, 8, 8, 8], 53⟩ :=
    ⟨rfl, by decide, by decide, by decide⟩
  have hlong : TooLong [clientDatagram] (replyOf 2039) := by
    refine ⟨_, _, hreply, ?_⟩
    rw [replyOf, List.length_replicate]
    decide
  by_contra hflow
  rw [relay_init] at hflow
  exact follows_init.fits_of_no_panic hflow [clientDatagram] (replyOf 2039) [] rfl hlong

end Vwarp.Proxy.Socks5
