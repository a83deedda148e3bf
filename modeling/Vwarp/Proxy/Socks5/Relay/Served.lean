import Mathlib.Data.List.Induction
import Vwarp.Proxy.Socks5.Relay.Vars

/-!
# What the embedded relay writes

An iteration writes nothing, or one datagram that the datagram it read causes (`Causes`): a write to
the target is the payload of a datagram of the first source whose header names the target, and a
write to the source is a reply of the target behind three zeros and the encoding of the target.

Two things are missing.  `ReadFrom` keeps no more than `maxUdpPacket` bytes of a datagram, so of a
longer one the relay forwards a payload that nobody sent: `relay_sound_iff`.  And the target is kept
as a UDP address, which has no name, while its text is compared with the text of the address in each
header.  If the first header has a domain name, no header names the target, and the association
forwards nothing that is meant for that host: `relay_complete_iff`.
-/

namespace Vwarp.Proxy.Socks5

open Vwarp.Go Vwarp.Lib

/-! ## Headers and payloads -/

/-- The datagram is a header of three bytes, the encoding of the address, and the payload. -/
def Carries (d : Datagram) (a : Address) (pay : Bytes) : Prop :=
  ∃ head enc, head.length = 3 ∧ Encodes enc a ∧ d.bytes = head ++ enc ++ pay

variable {a : Address}

theorem length_encodes {enc : Bytes} (h : Encodes enc a) : enc.length ≤ 259 := by
  obtain ⟨hhost, hport⟩ := h
  rw [List.length_append, List.length_cons, hport]
  cases hhost with
  | ipv4 hlen | ipv6 hlen => omega
  | @fqdn len name hlen =>
    have hbyte := len.toNat_lt
    rw [List.length_cons]
    omega

variable {d : Datagram} {pay : Bytes}

/-- What the relay parses is the header, and the payload up to what was read. -/
theorem carries_of_parse (h : d.parse = some (a, pay)) :
    Carries d a (pay ++ d.bytes.drop maxUdpPacket) := by
  obtain ⟨hlen, hread, -⟩ := parse_eq_some h
  obtain ⟨enc, henc, hcont, -⟩ :=
    encodes_of_readAddr (r := Buffer.mk (d.read.drop 3)) trivial trivial hread
  have hdrop : d.read.drop 3 = enc ++ pay := hcont
  refine ⟨d.read.take 3, enc, List.length_take_of_le hlen, henc, ?_⟩
  calc d.bytes = d.read ++ d.bytes.drop maxUdpPacket := (List.take_append_drop _ _).symm
    _ = d.read.take 3 ++ (enc ++ pay) ++ d.bytes.drop maxUdpPacket := by
      rw [← hdrop, List.take_append_drop]
    _ = d.read.take 3 ++ enc ++ (pay ++ d.bytes.drop maxUdpPacket) := by
      simp only [List.append_assoc]

/-- A well-formed datagram is parsed, however long it is. -/
theorem parse_of_carries (h : Carries d a pay) :
    ∃ pay', d.parse = some (a, pay') ∧ pay = pay' ++ d.bytes.drop maxUdpPacket := by
  obtain ⟨head, enc, hhead, henc, hbytes⟩ := h
  have hlen := length_encodes henc
  have hroom : (head ++ enc).length ≤ maxUdpPacket := by
    rw [List.length_append, hhead, maxUdpPacket]
    omega
  obtain ⟨room, hroom⟩ := Nat.exists_eq_add_of_le hroom
  have hread : d.read = head ++ (enc ++ pay.take room) := by
    rw [Datagram.read, hbytes, hroom, List.take_length_add_append, List.append_assoc]
  have hdrop : d.read.drop 3 = enc ++ pay.take room := by
    rw [hread, ← hhead, List.drop_left]
  have hthree : ¬ d.read.length < 3 := by
    rw [hread, List.length_append, hhead]
    omega
  obtain ⟨r, haddr, hafter⟩ :=
    readAddr_of_encodes (r := Buffer.mk (d.read.drop 3)) trivial trivial henc hdrop
  have hrest : r.bytes = pay.take room := by
    have hcont : r.bytes = (d.read.drop 3).drop enc.length := hafter.content
    rw [hcont, hdrop, List.drop_left]
  refine ⟨pay.take room, ?_, ?_⟩
  · unfold Datagram.parse
    rw [if_neg hthree, haddr]
    dsimp only
    rw [hrest]
  · rw [hbytes, hroom, List.drop_length_add_append, List.take_append_drop]

theorem carries_parsed_iff {b : Address} (h : d.parse = some (a, pay)) :
    Carries d b pay ↔ b = a ∧ d.bytes.length ≤ maxUdpPacket := by
  constructor
  · intro hcarries
    obtain ⟨pay', hparse, heq⟩ := parse_of_carries hcarries
    cases h.symm.trans hparse
    exact ⟨rfl, List.drop_eq_nil_iff.mp (List.append_right_eq_self.mp heq.symm)⟩
  · rintro ⟨rfl, hlen⟩
    have hcarries := carries_of_parse h
    rwa [List.drop_eq_nil_iff.mpr hlen, List.append_nil] at hcarries

/-! ## Names of a target -/

/-- The address in a header names the target: it has its port, and its IP or the text of it. -/
structure Names (t : UDPAddr) (a : Address) : Prop where
  port : a.port = t.port
  ip : a.ip ≠ [] → to16 a.ip = to16 t.ip
  name : a.ip = [] → a.name = hostText t

variable {t : UDPAddr}

theorem parseIP_hostText (h : ValidTarget t) : parseIP (hostText t) = to16 t.ip := by
  unfold hostText
  split_ifs with hnil
  · rw [hnil]
    rfl
  · exact parseIP_ipString (h.ip.resolve_left hnil)

theorem names_of_string (ht : ValidTarget t)
    (ha : ValidTarget a.udpAddr) (h : a.string = t.string) : Names t a := by
  have hbracket := (not_bracket_hostText ht).1
  rw [UDPAddr_string] at h
  unfold Address.string at h
  split_ifs at h with hip
  · obtain ⟨hhost, hport⟩ := joinHostPort_inj (not_mem_port _).1 (not_mem_port _).1 hbracket h
    refine ⟨itoa_inj hport, fun _ ↦ ?_, fun hnil ↦ absurd hnil hip⟩
    have hparse : parseIP (ipString a.ip) = to16 a.ip := parseIP_ipString (ha.ip.resolve_left hip)
    rw [← hparse, hhost, parseIP_hostText ht]
  · obtain ⟨hname, hport⟩ := joinHostPort_inj (not_mem_port _).1 (not_mem_port _).1 hbracket h
    exact ⟨itoa_inj hport, fun hne ↦ absurd hne hip, fun _ ↦ hname⟩

/-! ## The writes of each iteration -/

/-- What the relay has written when these datagrams have arrived. -/
def writesOf (writeTo : Write → Option Error) (closed : Option Error) (ds : List Datagram) :
    List Write :=
  (relay writeTo closed .init ds).2.1

theorem embedHandleAssociate_closed (writeTo : Write → Option Error) (closed : Option Error)
    (vars : Embed) (ds : List Datagram) :
    (embedHandleAssociate writeTo closed vars ds).2.1 =
      (embedHandleAssociate writeTo none vars ds).2.1 := by
  induction ds generalizing vars with
  | nil => rfl
  | cons d ds ih =>
    rw [embedHandleAssociate, embedHandleAssociate]
    obtain ⟨vars', ws, flow⟩ := embedStep writeTo vars d
    cases flow with
    | «continue» => exact congrArg (ws ++ ·) (ih vars')
    | «return» | panic => rfl

/-- A loop that is still reading handles one more datagram by an iteration; one that has ended does
nothing. -/
theorem embedHandleAssociate_concat (writeTo : Write → Option Error) (vars : Embed)
    (ds : List Datagram) (d : Datagram) :
    embedHandleAssociate writeTo none vars (ds ++ [d]) =
      let before := embedHandleAssociate writeTo none vars ds
      let iteration := embedStep writeTo before.1 d
      if before.2.2 = .continue then (iteration.1, before.2.1 ++ iteration.2.1, iteration.2.2)
      else before := by
  induction ds generalizing vars with
  | nil =>
    rw [List.nil_append, embedHandleAssociate, embedHandleAssociate]
    dsimp only
    rw [if_pos (if_pos rfl), List.nil_append]
    obtain ⟨vars', ws, flow⟩ := embedStep writeTo vars d
    cases flow with
    | «continue» =>
      dsimp only
      rw [embedHandleAssociate, List.append_nil]
      rfl
    | «return» => rfl
    | panic => rfl
  | cons e es ih =>
    rw [List.cons_append, embedHandleAssociate, embedHandleAssociate]
    obtain ⟨vars', ws, flow⟩ := embedStep writeTo vars e
    cases flow with
    | «continue» =>
      dsimp only
      rw [ih vars']
      dsimp only
      split
      · rw [List.append_assoc]
      · rfl
    | «return» => rfl
    | panic => rfl

variable {ds : List Datagram}

theorem follows_of_continue (writeTo : Write → Option Error)
    (h : (embedHandleAssociate writeTo none .init ds).2.2 = .continue) :
    Follows (embedHandleAssociate writeTo none .init ds).1 ds := by
  induction ds using List.reverseRecOn with
  | nil => exact follows_init
  | append_singleton ds d ih =>
    rw [embedHandleAssociate_concat] at h ⊢
    dsimp only at h ⊢
    split_ifs at h with hbefore
    · rw [if_pos hbefore]
      exact ((ih hbefore).step writeTo d).1
    · exact absurd h hbefore

/-- One more datagram adds the writes of its iteration, if the loop is still reading. -/
theorem writesOf_concat (writeTo : Write → Option Error) (closed : Option Error)
    (ds : List Datagram) (d : Datagram) :
    (embedHandleAssociate writeTo none .init ds).2.2 ≠ .continue ∧
        writesOf writeTo closed (ds ++ [d]) = writesOf writeTo closed ds ∨
      ∃ result, Iteration writeTo ds d result ∧
        writesOf writeTo closed (ds ++ [d]) = writesOf writeTo closed ds ++ result.1 := by
  unfold writesOf
  rw [relay_init, relay_init, embedHandleAssociate_closed,
    embedHandleAssociate_closed writeTo closed, embedHandleAssociate_concat]
  dsimp only
  split_ifs with hflow
  · exact .inr ⟨_, ((follows_of_continue writeTo hflow).step writeTo d).2, rfl⟩
  · exact .inl ⟨hflow, rfl⟩

/-- While all writes succeed and all replies fit, the loop goes on. -/
theorem continue_of_fits (hfits : ∀ pre d post, ds = pre ++ d :: post → ¬ TooLong pre d) :
    (embedHandleAssociate writesSucceed none .init ds).2.2 = .continue := by
  induction ds using List.reverseRecOn with
  | nil => rfl
  | append_singleton ds d ih =>
    have hbefore : (embedHandleAssociate writesSucceed none .init ds).2.2 = .continue := by
      apply ih
      rintro pre e post rfl
      exact hfits pre e (post ++ [d]) (by simp only [List.append_assoc, List.cons_append])
    rw [embedHandleAssociate_concat]
    dsimp only
    rw [if_pos hbefore]
    rcases (follows_of_continue _ hbefore).flow_of_succeed d with ⟨-, hlong⟩ | ⟨hflow, -⟩
    · exact absurd hlong (hfits ds d [] rfl)
    · exact hflow

variable {pre post : List Datagram}

theorem iteration_of_fits
    (hfits : ∀ pre d post, ds = pre ++ d :: post → ¬ TooLong pre d) (h : ds = pre ++ d :: post) :
    ∃ result, Iteration writesSucceed pre d result ∧
      writesOf writesSucceed none (pre ++ [d]) = writesOf writesSucceed none pre ++ result.1 := by
  rcases writesOf_concat writesSucceed none pre d with ⟨hflow, -⟩ | hiter
  · refine absurd (continue_of_fits ?_) hflow
    rintro mid e rest rfl
    apply hfits mid e (rest ++ d :: post)
    rw [h, List.append_assoc, List.cons_append]
  · exact hiter

/-! ## Soundness -/

/-- The datagram causes the write, in an association of a source and a target. -/
inductive Causes (src : Bytes) (t : UDPAddr) (d : Datagram) : Write → Prop
  | forwarded {a : Address} {pay : Bytes} : d.source = src → Carries d a pay → Names t a →
      Causes src t d (.toTarget pay t)
  | replied {enc : Bytes} : d.source = t.string → writeAddr (some ⟨[], t.ip, t.port⟩) = some enc →
      Causes src t d (.toSource ([0, 0, 0] ++ enc ++ d.bytes) src)

/-- Each datagram that arrives makes the relay write nothing, or one datagram that it causes. -/
def Sound (writeTo : Write → Option Error) (closed : Option Error) (ds : List Datagram) : Prop :=
  ∀ pre d post, ds = pre ++ d :: post →
    writesOf writeTo closed (pre ++ [d]) = writesOf writeTo closed pre ∨
      ∃ w src t, writesOf writeTo closed (pre ++ [d]) = writesOf writeTo closed pre ++ [w] ∧
        firstSource ds = some src ∧ fixedTarget ds = some t ∧ Causes src t d w

theorem Forwarded.fixed (h : Forwarded pre d pay t) (post : List Datagram) :
    firstSource (pre ++ d :: post) = some d.source ∧ fixedTarget (pre ++ d :: post) = some t := by
  have hsource := firstSource_concat pre d
  rw [h.source] at hsource
  rw [List.append_cons]
  exact ⟨firstSource_append hsource, fixedTarget_append h.target⟩

theorem forwarded_of_names (hsource : firstSource (pre ++ d :: post) = some d.source)
    (htarget : fixedTarget (pre ++ d :: post) = some t) (hparse : d.parse = some (a, pay))
    (hstring : a.string = t.string) : Forwarded pre d pay t := by
  have hfirst : firstSource (pre ++ [d]) = some d.source := by
    cases pre with
    | nil => rfl
    | cons e es => exact hsource
  rw [firstSource_concat, Option.some.injEq] at hfirst
  refine ⟨hfirst, ?_, a, hparse, hstring⟩
  -- the target is fixed by this datagram at the latest
  have hfixed : (fixedTarget (pre ++ [d])).isSome := by
    rw [fixedTarget_concat, if_pos hfirst, hparse]
    cases fixedTarget pre with
    | none => rfl
    | some _ => rfl
  obtain ⟨t', ht'⟩ := Option.isSome_iff_exists.mp hfixed
  have heq : fixedTarget (pre ++ [d] ++ post) = some t' := fixedTarget_append ht'
  rw [← List.append_cons, htarget] at heq
  rw [ht', heq]

variable {writeTo : Write → Option Error} {result : List Write × Flow}

/-- An iteration for a datagram that is read whole writes nothing, or what the datagram causes. -/
theorem Iteration.causes (h : Iteration writeTo pre d result) (post : List Datagram)
    (hread : ∀ pay t, Forwarded pre d pay t → d.bytes.length ≤ maxUdpPacket) :
    result.1 = [] ∨ ∃ w src t, result.1 = [w] ∧ firstSource (pre ++ d :: post) = some src ∧
      fixedTarget (pre ++ d :: post) = some t ∧ Causes src t d w := by
  cases h with
  | tooLong _ _ _ _ | ignored _ _ => exact .inl rfl
  | forwarded pay t hforwarded =>
    obtain ⟨a, hparse, hstring⟩ := hforwarded.parses
    obtain ⟨hsource, htarget⟩ := hforwarded.fixed post
    have hcarries := (carries_parsed_iff hparse).mpr ⟨rfl, hread pay t hforwarded⟩
    have hnames := names_of_string (validTarget_of_fixed htarget) (validTarget_of_parse hparse)
      hstring
    exact .inr ⟨_, d.source, t, rfl, hsource, htarget, .forwarded rfl hcarries hnames⟩
  | replied src t hreply _ =>
    exact .inr ⟨_, src, t, rfl, firstSource_append hreply.source,
      fixedTarget_append hreply.target, .replied hreply.sender.symm (writeAddr_target t)⟩

theorem Iteration.writes_iff (h : Iteration writeTo pre d result) :
    result.1 = [.toTarget pay t] ↔ Forwarded pre d pay t := by
  constructor
  · intro hwrites
    cases h with
    | tooLong _ _ _ _ | replied _ _ _ _ | ignored _ _ => cases hwrites
    | forwarded _ _ hforwarded =>
      cases hwrites
      exact hforwarded
  · intro hforwarded
    cases h with
    | tooLong _ _ hreply _ | replied _ _ hreply _ => exact absurd hreply hforwarded.not_reply
    | ignored hnot _ => exact absurd hforwarded (hnot pay t)
    | forwarded _ _ hforwarded' =>
      obtain ⟨a, hparse, -⟩ := hforwarded.parses
      obtain ⟨a', hparse', -⟩ := hforwarded'.parses
      have htarget := hforwarded.target.symm.trans hforwarded'.target
      rw [hparse] at hparse'
      cases hparse'
      cases htarget
      rfl

/-- If all replies fit, the relay is sound, whatever the writes return, exactly if every datagram
of the first source that names the target was read whole. -/
theorem relay_sound_iff {ds : List Datagram}
    (hfits : ∀ pre d post, ds = pre ++ d :: post → ∀ src t, Reply pre d src t →
      headerLen t + d.bytes.length ≤ maxUdpPacket) :
    (∀ writeTo closed, Sound writeTo closed ds) ↔
      ∀ d ∈ ds, firstSource ds = some d.source → ∀ t, fixedTarget ds = some t →
        ∀ a pay, Carries d a pay → a.string = t.string → d.bytes.length ≤ maxUdpPacket := by
  constructor
  · intro hsound d hd hsource t htarget a pay hcarries hstring
    have hnotLong : ∀ mid e rest, ds = mid ++ e :: rest → ¬ TooLong mid e := by
      rintro mid e rest heq ⟨src, t', hreply, hlong⟩
      exact Nat.not_lt.mpr (hfits mid e rest heq src t' hreply) hlong
    obtain ⟨pre, post, rfl⟩ := List.append_of_mem hd
    obtain ⟨pay', hparse, -⟩ := parse_of_carries hcarries
    have hforwarded := forwarded_of_names hsource htarget hparse hstring
    obtain ⟨result, hiter, hwrites⟩ := iteration_of_fits hnotLong rfl
    rw [hiter.writes_iff.mpr hforwarded] at hwrites
    rcases hsound writesSucceed none pre d post rfl with hnone | ⟨w, src, t', hw, -, -, hcauses⟩
    · rw [hwrites] at hnone
      exact absurd (List.append_right_eq_self.mp hnone) (List.cons_ne_nil _ _)
    · rw [hwrites] at hw
      cases List.append_cancel_left hw
      cases hcauses with
      | forwarded _ hcarries' _ => exact ((carries_parsed_iff hparse).mp hcarries').2
  · intro hread writeTo closed pre d post heq
    subst heq
    rcases writesOf_concat writeTo closed pre d with ⟨-, hnone⟩ | ⟨result, hiter, hwrites⟩
    · exact .inl hnone
    · have hcauses := hiter.causes post (by
        intro pay t hforwarded
        obtain ⟨hsource, htarget⟩ := hforwarded.fixed post
        obtain ⟨a, hparse, hstring⟩ := hforwarded.parses
        exact hread d (List.mem_append_right pre List.mem_cons_self) hsource t htarget a _
          (carries_of_parse hparse) hstring)
      rw [hwrites]
      rcases hcauses with hnil | ⟨w, src, t, hw, hcause⟩
      · left
        rw [hnil, List.append_nil]
      · right
        exact ⟨w, src, t, by rw [hw], hcause⟩

/-! ## Datagrams of one source -/

def fromSource (src : Bytes) (packets : List Bytes) : List Datagram := packets.map (Datagram.mk src)

variable {src : Bytes} {packets : List Bytes}

theorem source_of_mem (h : d ∈ fromSource src packets) : d.source = src := by
  obtain ⟨bytes, -, rfl⟩ := List.mem_map.mp h
  rfl

theorem firstSource_fromSource (h : d ∈ fromSource src packets) :
    firstSource (fromSource src packets) = some src := by
  cases packets with
  | nil => cases h
  | cons bytes packets => rfl

theorem not_reply_fromSource (pre : List Datagram) (d : Datagram) (post : List Datagram)
    (h : fromSource src packets = pre ++ d :: post) (src' : Bytes) (t : UDPAddr) :
    ¬ Reply pre d src' t := by
  intro hreply
  have hmem : d ∈ fromSource src packets := h ▸ List.mem_append_right pre List.mem_cons_self
  have hfirst : firstSource (pre ++ d :: post) = some src' := firstSource_append hreply.source
  rw [← h, firstSource_fromSource hmem, Option.some.injEq] at hfirst
  apply hreply.other
  rw [← hfirst, source_of_mem hmem]

theorem not_tooLong_fromSource (pre : List Datagram)
    (d : Datagram) (post : List Datagram) (h : fromSource src packets = pre ++ d :: post) :
    ¬ TooLong pre d := by
  rintro ⟨src', t, hreply, -⟩
  exact not_reply_fromSource pre d post h src' t hreply

def client : Bytes := str "10.0.0.2:4000"

/-- A packet for `8.8.8.8:53` with this many bytes of payload. -/
def packetOf (n : Nat) : Bytes := [0, 0, 0] ++ [1, 8, 8, 8, 8, 0, 53] ++ List.replicate n 7

theorem length_packetOf (n : Nat) : (packetOf n).length = 10 + n := by
  rw [packetOf, List.length_append, List.length_replicate]
  rfl

/-- A small packet, and a reply of one byte. -/
def exchange : List Datagram := [⟨client, packetOf 1⟩, ⟨str "8.8.8.8:53", [9]⟩]

/-- An association that sees a small packet and the reply to it is sound, and writes both. -/
theorem relay_sound_exchange :
    writesOf writesSucceed none exchange = [.toTarget [7] ⟨[8, 8, 8, 8], 53⟩,
      .toSource [0, 0, 0, 1, 8, 8, 8, 8, 0, 53, 9] client] ∧ Sound writesSucceed none exchange := by
  have hsmall : ∀ d ∈ exchange, d.bytes.length ≤ 11 := by decide
  refine ⟨by decide +kernel, (relay_sound_iff ?_).mpr ?_ writesSucceed none⟩
  · intro pre d post heq src t _
    have hlen := hsmall d (heq ▸ List.mem_append_right pre List.mem_cons_self)
    have hheader : headerLen t ≤ 22 := by unfold headerLen; split <;> decide
    rw [maxUdpPacket]
    omega
  · intro d hd _ t _ a pay _ _
    exact (hsmall d hd).trans (by decide)

/-- Of a packet with 2039 bytes of payload behind a header of ten, the last byte is cut off. -/
theorem long_packet_truncated :
    (∃ pay t, writesOf writesSucceed none (fromSource client [packetOf 2039]) = [.toTarget pay t] ∧
      pay.length = 2038) ∧ ¬ Sound writesSucceed none (fromSource client [packetOf 2039]) := by
  have hcarries : Carries ⟨client, packetOf 2039⟩ ⟨[], [8, 8, 8, 8], 53⟩ (List.replicate 2039 7) :=
    ⟨[0, 0, 0], [1, 8, 8, 8, 8, 0, 53], rfl,
      @Encodes.mk 1 [8, 8, 8, 8] [0, 53] ⟨[], [8, 8, 8, 8], 0⟩ (.ipv4 rfl) rfl, rfl⟩
  obtain ⟨pay, hparse, hpay⟩ := parse_of_carries hcarries
  have hforwarded : Forwarded [] ⟨client, packetOf 2039⟩ pay ⟨[8, 8, 8, 8], 53⟩ :=
    ⟨rfl, by rw [fixedTarget_concat, hparse]; rfl, _, hparse, rfl⟩
  have hds (bytes : Bytes) : fromSource client [bytes] = [] ++ ⟨client, bytes⟩ :: [] := rfl
  obtain ⟨result, hiter, hwrites⟩ := iteration_of_fits not_tooLong_fromSource (hds (packetOf 2039))
  rw [hiter.writes_iff.mpr hforwarded] at hwrites
  have hbytes : (Datagram.mk client (packetOf 2039)).bytes.length = 10 + 2039 :=
    length_packetOf 2039
  have hlen : pay.length = 2038 := by
    have hlen := congrArg List.length hpay
    rw [List.length_replicate, List.length_append, List.length_drop, hbytes, maxUdpPacket] at hlen
    omega
  refine ⟨⟨pay, _, hwrites, hlen⟩, ?_⟩
  intro hsound
  rcases hsound [] _ [] rfl with hnone | ⟨w, src, t, hw, -, -, hcauses⟩
  · cases hwrites.symm.trans hnone
  · cases hwrites.symm.trans hw
    cases hcauses with
    | forwarded _ hwhole _ =>
      have hread := ((carries_parsed_iff hparse).mp hwhole).2
      rw [hbytes] at hread
      exact absurd hread (by decide)

/-! ## Completeness -/

/-- Each well-formed datagram with the destination of the first one is forwarded whole. -/
def Complete (src : Bytes) (packets : List Bytes) : Prop :=
  ∀ a₀, firstNamed src (fromSource src packets) = some a₀ →
    ∀ pre d post, fromSource src packets = pre ++ d :: post →
      ∀ a pay, Carries d a pay → a.string = a₀.string →
        ∃ t, writesOf writesSucceed none (pre ++ [d]) =
          writesOf writesSucceed none pre ++ [.toTarget pay t]

theorem string_udpAddr_iff (a : Address) :
    a.string = a.udpAddr.string ↔ a.ip ≠ [] ∨ a.name = [] := by
  rw [UDPAddr_string]
  unfold Address.string hostText
  by_cases hip : a.ip = []
  · have hnil : a.udpAddr.ip = [] := hip
    rw [if_neg (not_not.mpr hip), if_pos hnil]
    constructor
    · intro h
      exact .inr (joinHostPort_inj (not_mem_port _).1 (not_mem_port _).1 List.not_mem_nil h).1
    · rintro (hne | hname)
      · exact absurd hip hne
      · rw [hname]
        rfl
  · have hne : a.udpAddr.ip ≠ [] := hip
    rw [if_pos hip, if_neg hne]
    exact ⟨fun _ ↦ .inl hip, fun _ ↦ rfl⟩

theorem fixedTarget_fromSource {a₀ : Address}
    (h : firstNamed src (fromSource src packets) = some a₀) :
    fixedTarget (fromSource src packets) = some a₀.udpAddr ∧
      ∃ pre d post pay, fromSource src packets = pre ++ d :: post ∧ Carries d a₀ pay := by
  obtain ⟨d, hd, hnamed⟩ := List.exists_of_findSome?_eq_some h
  constructor
  · rw [fixedTarget, firstSource_fromSource hd, Option.bind_some, h]
    rfl
  · obtain ⟨pre, post, hds⟩ := List.append_of_mem hd
    rw [if_pos (source_of_mem hd)] at hnamed
    obtain ⟨⟨a, pay⟩, hparse, rfl⟩ := Option.map_eq_some_iff.mp hnamed
    exact ⟨pre, d, post, _, hds, carries_of_parse hparse⟩

theorem writesOf_toTarget_iff (h : fromSource src packets = pre ++ d :: post) :
    writesOf writesSucceed none (pre ++ [d]) =
        writesOf writesSucceed none pre ++ [.toTarget pay t] ↔ Forwarded pre d pay t := by
  obtain ⟨result, hiter, hwrites⟩ := iteration_of_fits not_tooLong_fromSource h
  rw [hwrites, List.append_cancel_left_eq]
  exact hiter.writes_iff

/-- While all writes succeed, the relay is complete for the datagrams of one source exactly if the
first well-formed one has an IP for its destination, or no host at all, and those that have the same
destination are read whole. -/
theorem relay_complete_iff (src : Bytes) (packets : List Bytes) :
    Complete src packets ↔
      ∀ a₀, firstNamed src (fromSource src packets) = some a₀ →
        (a₀.ip ≠ [] ∨ a₀.name = []) ∧
          ∀ d ∈ fromSource src packets, ∀ a pay, Carries d a pay → a.string = a₀.string →
            d.bytes.length ≤ maxUdpPacket := by
  constructor
  · intro hcomplete a₀ hfirst
    obtain ⟨htarget, pre, d, post, pay, hds, hcarries⟩ := fixedTarget_fromSource hfirst
    constructor
    · obtain ⟨t, hwrites⟩ := hcomplete a₀ hfirst pre d post hds a₀ pay hcarries rfl
      have hforwarded := (writesOf_toTarget_iff hds).mp hwrites
      obtain ⟨a, hparse, hstring⟩ := hforwarded.parses
      obtain ⟨pay', hparse', -⟩ := parse_of_carries hcarries
      rw [hparse] at hparse'
      cases hparse'
      have ht := (hforwarded.fixed post).2
      rw [← hds, htarget] at ht
      cases ht
      exact (string_udpAddr_iff _).mp hstring
    · intro d hd a pay hcarries hstring
      obtain ⟨pre, post, hds⟩ := List.append_of_mem hd
      obtain ⟨t, hwrites⟩ := hcomplete a₀ hfirst pre d post hds a pay hcarries hstring
      obtain ⟨b, hparse, -⟩ := ((writesOf_toTarget_iff hds).mp hwrites).parses
      exact ((carries_parsed_iff hparse).mp hcarries).2
  · intro hcond a₀ hfirst pre d post hds a pay hcarries hstring
    obtain ⟨hhost, hread⟩ := hcond a₀ hfirst
    obtain ⟨htarget, -⟩ := fixedTarget_fromSource hfirst
    have hd : d ∈ fromSource src packets := hds ▸ List.mem_append_right pre List.mem_cons_self
    have hsource : firstSource (pre ++ d :: post) = some d.source := by
      rw [← hds, firstSource_fromSource hd, source_of_mem hd]
    rw [hds] at htarget
    obtain ⟨pay', hparse, hpay⟩ := parse_of_carries hcarries
    have hwhole : pay = pay' := by
      rw [hpay, List.drop_eq_nil_iff.mpr (hread d hd a pay hcarries hstring), List.append_nil]
    refine ⟨a₀.udpAddr, (writesOf_toTarget_iff hds).mpr ?_⟩
    rw [hwhole]
    exact forwarded_of_names hsource htarget hparse
      (hstring.trans ((string_udpAddr_iff a₀).mpr hhost))

/-- A packet for `example.com:53`. -/
def namedPacket : Bytes := [0, 0, 0, 3, 11] ++ str "example.com" ++ [0, 53, 7]

/-- A client that names its target by a domain name is never served. -/
theorem named_packet_dropped :
    (Datagram.parse ⟨client, namedPacket⟩ = some (⟨str "example.com", [], 53⟩, [7])) ∧
      writesOf writesSucceed none (fromSource client [namedPacket, namedPacket]) = [] ∧
        ¬ Complete client [namedPacket, namedPacket] := by
  have hparse : Datagram.parse ⟨client, namedPacket⟩ = some (⟨str "example.com", [], 53⟩, [7]) := by
    decide
  refine ⟨hparse, by rw [writesOf, relay_init]; decide, ?_⟩
  intro hcomplete
  obtain ⟨t, hwrites⟩ := hcomplete ⟨str "example.com", [], 53⟩ (by decide) [] ⟨client, namedPacket⟩
    [⟨client, namedPacket⟩] rfl _ _ (carries_of_parse hparse) rfl
  have hnone : writesOf writesSucceed none ([] ++ [⟨client, namedPacket⟩]) = [] := by
    rw [writesOf, relay_init]
    decide
  rw [hnone] at hwrites
  exact List.append_ne_nil_of_right_ne_nil _ (List.cons_ne_nil _ _) hwrites.symm

end Vwarp.Proxy.Socks5
