import Vwarp.Proxy.Socks5.Associate

/-!
# The association without a handler

A datagram is *wanted* if it comes from the association's source, has a header that
parses, and names the association's target.  `embedHandleAssociate` writes the
payloads of the wanted datagrams and skips the others, so it writes one payload
for each datagram exactly when all are wanted: `embed_of_wanted` and
`wanted_of_length`.
-/

namespace Vwarp.Proxy.Socks5

open Vwarp.Go Vwarp.Lib

/-! ## Wanted datagrams -/

/-- The address a datagram's header names, and its payload. -/
def Datagram.parse (d : Datagram) : Option (Address × Bytes) :=
  if d.read.length < 3 then none
  else match readAddr (Buffer.mk (d.read.drop 3)) with
    | .error _ => none
    | .ok (addr, reader) => some (addr, reader.bytes)

def Datagram.payload (d : Datagram) : Bytes := (d.parse.map Prod.snd).getD []

/-- The target an association is fixed to by a datagram. -/
def Address.udpAddr (a : Address) : UDPAddr := ⟨a.ip, a.port⟩

/-- A datagram from the source `src` for the target `t`. -/
structure Wanted (src : Bytes) (t : UDPAddr) (d : Datagram) : Prop where
  source : d.source = src
  parses : ∃ a, d.parse = some (a, d.payload) ∧ a.string = t.string

variable {d : Datagram} {a : Address}

/-- A header that parses is read by `readAddr`, and the payload is the rest. -/
theorem parse_eq_some {pay : Bytes} (h : d.parse = some (a, pay)) :
    3 ≤ d.read.length ∧ readAddr (Buffer.mk (d.read.drop 3)) = .ok (a, ⟨pay⟩) ∧
      d.payload = pay := by
  have hpay : d.payload = pay := by rw [Datagram.payload, h]; rfl
  unfold Datagram.parse at h
  split at h
  · cases h
  · split at h
    · cases h
    · rename_i hlen addr reader hread
      obtain ⟨rfl, rfl⟩ : addr = a ∧ reader.bytes = pay := by simpa using h
      exact ⟨by omega, hread, hpay⟩

theorem drop_read {pay : Bytes} (h : d.parse = some (a, pay)) :
    d.read.drop (d.read.length - pay.length) = pay := by
  obtain ⟨-, hread, -⟩ := parse_eq_some h
  obtain ⟨enc, -, hcont, -⟩ :=
    encodes_of_readAddr (r := Buffer.mk (d.read.drop 3)) trivial trivial hread
  have hsuffix : pay <:+ d.read :=
    List.IsSuffix.trans ⟨enc, hcont.symm⟩ (List.drop_suffix 3 d.read)
  exact (List.suffix_iff_eq_drop.mp hsuffix).symm

/-! ## What the loop without a handler writes -/

def writesSucceed : Write → Option Error := fun _ ↦ none

theorem embedFromSource_eq (writeTo : Write → Option Error) (vars : Embed) (d : Datagram) :
    embedFromSource writeTo vars d =
      match d.parse with
      | none => (vars, [], .continue)
      | some (a, pay) =>
        if a.string ≠ (vars.targetAddr.getD a.udpAddr).string then
          ({ vars with targetAddr := some (vars.targetAddr.getD a.udpAddr) }, [], .continue)
        else writeOrReturn writeTo (.toTarget pay (vars.targetAddr.getD a.udpAddr))
          { vars with targetAddr := some (vars.targetAddr.getD a.udpAddr) } := by
  unfold embedFromSource Datagram.parse
  split
  · rfl
  · cases readAddr (Buffer.mk (d.read.drop 3)) with
    | error err => rfl
    | ok result => rfl

theorem embedStep_of_parse {e : Embed} (hsrc : e.sourceAddr.getD d.source = d.source)
    (hp : d.parse = some (a, d.payload)) (ht : a.string = (e.targetAddr.getD a.udpAddr).string) :
    embedStep writesSucceed e d =
      (⟨some d.source, some (e.targetAddr.getD a.udpAddr), e.replyPrefix⟩,
        [.toTarget d.payload (e.targetAddr.getD a.udpAddr)], .continue) := by
  simp only [embedStep, hsrc, if_true]
  rw [embedFromSource_eq, hp]
  exact if_neg (not_not.mpr ht)

theorem payloads_embedFromTarget (writeTo : Write → Option Error) (e : Embed) (d : Datagram)
    (source : Bytes) (target : UDPAddr) :
    payloads (embedFromTarget writeTo e d source target).2.1 = [] := by
  unfold embedFromTarget
  split
  · rfl
  · dsimp only
    split <;> rfl

/-- A datagram of the source is forwarded only if it parses and names the target. -/
theorem embedFromSource_cases (writeTo : Write → Option Error) (e : Embed) (d : Datagram) :
    payloads (embedFromSource writeTo e d).2.1 = [] ∨
      ∃ a, d.parse = some (a, d.payload) ∧ a.string = (e.targetAddr.getD a.udpAddr).string := by
  rw [embedFromSource_eq]
  cases hp : d.parse with
  | none => exact .inl rfl
  | some named =>
    obtain ⟨a, pay⟩ := named
    dsimp only
    split_ifs with ht
    · exact .inl rfl
    · exact .inr ⟨a, by rw [(parse_eq_some hp).2.2], not_not.mp ht⟩

theorem embedStep_cases (writeTo : Write → Option Error) (e : Embed) (d : Datagram) :
    payloads (embedStep writeTo e d).2.1 = [] ∨
      e.sourceAddr.getD d.source = d.source ∧ ∃ a, d.parse = some (a, d.payload) ∧
        a.string = (e.targetAddr.getD a.udpAddr).string := by
  simp only [embedStep]
  split_ifs with hsrc
  · exact (embedFromSource_cases writeTo _ d).imp_right fun h ↦ ⟨hsrc, h⟩
  · left
    split
    · split
      · exact payloads_embedFromTarget ..
      · rfl
    · rfl

@[simp] theorem payloads_append (ws ws' : List Write) :
    payloads (ws ++ ws') = payloads ws ++ payloads ws' := List.filterMap_append

variable {ds : List Datagram}

/-- The loop on wanted datagrams writes every payload and goes on reading. -/
theorem embed_of_wanted {src : Bytes} {t : UDPAddr}
    (h : ∀ d ∈ ds, Wanted src t d) (p : Option Bytes) :
    ∃ ws, embedHandleAssociate writesSucceed none ⟨some src, some t, p⟩ ds =
        (⟨some src, some t, p⟩, ws, .continue) ∧ payloads ws = ds.map Datagram.payload := by
  induction ds with
  | nil => exact ⟨[], rfl, rfl⟩
  | cons d ds ih =>
    obtain ⟨ws, hws, hpay⟩ := ih fun d' hd' ↦ h d' (List.mem_cons_of_mem d hd')
    obtain ⟨hsrc, a, hp, ht⟩ := h d List.mem_cons_self
    have hstep := embedStep_of_parse (e := ⟨some src, some t, p⟩) (by simp [hsrc]) hp ht
    simp only [Option.getD_some, hsrc] at hstep
    refine ⟨.toTarget d.payload t :: ws, ?_, ?_⟩
    · simp only [embedHandleAssociate, hstep, hws, List.singleton_append]
    · rw [← List.singleton_append, payloads_append, hpay]
      rfl

theorem length_payloads_le (e : Embed) (ds : List Datagram) :
    (payloads (embedHandleAssociate writesSucceed none e ds).2.1).length ≤ ds.length := by
  induction ds generalizing e with
  | nil => exact Nat.zero_le _
  | cons d ds ih =>
    have hone : (payloads (embedStep writesSucceed e d).2.1).length ≤ 1 := by
      rcases embedStep_cases writesSucceed e d with h | ⟨hsrc, a, hp, ht⟩
      · simp [h]
      · rw [embedStep_of_parse hsrc hp ht]
        rfl
    unfold embedHandleAssociate
    split
    · rename_i e' ws hstep
      have := ih e'
      rw [hstep] at hone
      dsimp only at hone
      simp only [payloads_append, List.length_append, List.length_cons]
      omega
    · rename_i e' ws flow _ hstep
      rw [hstep] at hone
      exact Nat.le_trans hone (by simp)

theorem embed_cons_of_length {e : Embed}
    (h : (payloads (embedHandleAssociate writesSucceed none e (d :: ds)).2.1).length =
      ds.length + 1) :
    e.sourceAddr.getD d.source = d.source ∧ ∃ a, d.parse = some (a, d.payload) ∧
      a.string = (e.targetAddr.getD a.udpAddr).string ∧
      (payloads (embedHandleAssociate writesSucceed none
        ⟨some d.source, some (e.targetAddr.getD a.udpAddr), e.replyPrefix⟩ ds).2.1).length =
        ds.length := by
  rcases embedStep_cases writesSucceed e d with hnil | ⟨hsrc, a, hp, ht⟩
  · unfold embedHandleAssociate at h
    split at h
    · rename_i e' ws hstep
      have := length_payloads_le e' ds
      rw [hstep] at hnil
      simp only [payloads_append, hnil, List.nil_append] at h
      omega
    · rename_i e' ws flow _ hstep
      rw [hstep] at hnil
      simp [hnil] at h
  · refine ⟨hsrc, a, hp, ht, ?_⟩
    simp only [embedHandleAssociate, embedStep_of_parse hsrc hp ht, payloads_append,
      List.length_append] at h
    have hone : (payloads [Write.toTarget d.payload (e.targetAddr.getD a.udpAddr)]).length = 1 :=
      rfl
    omega

theorem wanted_of_length {src : Bytes} {t : UDPAddr} {p : Option Bytes}
    (h : (payloads (embedHandleAssociate writesSucceed none ⟨some src, some t, p⟩ ds).2.1).length =
      ds.length) : ∀ d ∈ ds, Wanted src t d := by
  induction ds with
  | nil => simp
  | cons d ds ih =>
    obtain ⟨hsrc, a, hp, ht, hrest⟩ := embed_cons_of_length h
    simp only [Option.getD_some] at hsrc ht hrest
    subst hsrc
    intro d' hd'
    rcases List.mem_cons.mp hd' with rfl | hd'
    · exact ⟨rfl, a, hp, ht⟩
    · exact ih hrest d' hd'

end Vwarp.Proxy.Socks5
