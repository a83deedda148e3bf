import Vwarp.Masque.Pinning

/-!
# The spellings of a MASQUE endpoint

A host can be written with or without a port, and an IPv6 address with or without brackets.  The
application splits what it is given and joins the host with port 443; `NewMasqueAdapter` adds that
port itself, to an endpoint of the registration, if it sees no colon.

`endpointAddr_spelling_iff` says which spellings come out as the host with port 443.  A host
without a colon always does.  An IPv6 address does if it is given to the application, alone or in
brackets with a port; in brackets alone it gets a second pair.  Taken from the registration it never
does, since its own colons pass for the one before a port.
-/

namespace Vwarp.Masque

open Vwarp.Go

inductive Spelling
  | /-- `h` -/
    plain
  | /-- `h:p` -/
    plainPort
  | /-- `[h]` -/
    brackets
  | /-- `[h]:p` -/
    bracketsPort
deriving DecidableEq

namespace Spelling

def text (host port : Bytes) : Spelling → Bytes
  | plain => host
  | plainPort => host ++ ch ':' :: port
  | brackets => ch '[' :: host ++ [ch ']']
  | bracketsPort => (ch '[' :: host ++ [ch ']']) ++ ch ':' :: port

@[simp] theorem text_plain (host port : Bytes) : text host port plain = host := rfl

@[simp] theorem text_plainPort (host port : Bytes) :
    text host port plainPort = host ++ ch ':' :: port := rfl

@[simp] theorem text_brackets (host port : Bytes) :
    text host port brackets = ch '[' :: host ++ [ch ']'] := rfl

def Accepted (host : Bytes) : Spelling → Prop
  | plain | plainPort => True
  | brackets | bracketsPort => ch ':' ∈ host

end Spelling

/-- A host: a name or an IPv4 address, which have no colon, or an IPv6 address. -/
structure IsHost (host : Bytes) : Prop where
  brackets : ch '[' ∉ host ∧ ch ']' ∉ host
  address : ch ':' ∈ host → (parseAddr host).isSome

section Texts

variable {host port : Bytes}

theorem IsHost.two_le_count (h : IsHost host) (hcolon : ch ':' ∈ host) :
    2 ≤ host.count (ch ':') := by
  obtain ⟨addr, haddr⟩ := Option.isSome_iff_exists.mp (h.address hcolon)
  exact two_le_count_colon haddr hcolon

theorem IsHost.head?_ne (h : IsHost host) (t : Bytes) (hcolon : ch ':' ∈ host) :
    (host ++ t).head? ≠ some (ch '[') := by
  obtain ⟨c, cs, rfl⟩ := List.exists_cons_of_ne_nil (List.ne_nil_of_mem hcolon)
  intro hhead
  exact h.brackets.1 (Option.some.inj hhead ▸ List.mem_cons_self)

theorem IsHost.splitHostPort_eq_none (h : IsHost host) (hcolon : ch ':' ∈ host) (t : Bytes) :
    splitHostPort (host ++ t) = none := by
  have hcount := h.two_le_count hcolon
  exact splitHostPort_eq_none_of_colons (by rw [List.count_append]; omega) (h.head?_ne t hcolon)

variable {spelling : Spelling}

/-- The text of a host with a port is what `JoinHostPort` makes of them. -/
theorem text_eq_joinHostPort
    (hplain : spelling = .plainPort ∧ ch ':' ∉ host ∨ spelling = .bracketsPort ∧ ch ':' ∈ host) :
    spelling.text host port = joinHostPort host port := by
  rw [joinHostPort_eq, bracketed]
  obtain ⟨rfl, hcolon⟩ | ⟨rfl, hcolon⟩ := hplain
  · rw [if_neg hcolon]
    rfl
  · rw [if_pos hcolon]
    rfl

theorem eq_plain_of_text (h : spelling.text host port = host) : spelling = .plain := by
  have hlen := congrArg List.length h
  cases spelling with
  | plain => rfl
  | _ =>
    simp only [Spelling.text, List.length_append, List.length_cons] at hlen
    omega

/-- A spelling is joined from the host and the port, or `SplitHostPort` refuses it. -/
theorem text_cases (port : Bytes) (hhost : IsHost host) (haccepted : spelling.Accepted host) :
    spelling.text host port = joinHostPort host port ∧
        (spelling = .bracketsPort ∨ ch ':' ∉ host) ∨
      splitHostPort (spelling.text host port) = none ∧ spelling ≠ .bracketsPort ∧
        (ch ':' ∉ host → spelling = .plain) := by
  have hbracketed := splitHostPort_bracketed hhost.brackets.2
  by_cases hcolon : ch ':' ∈ host
  · cases spelling with
    | plain =>
      have h := hhost.splitHostPort_eq_none hcolon []
      rw [List.append_nil] at h
      exact .inr ⟨h, by decide, absurd hcolon⟩
    | plainPort => exact .inr ⟨hhost.splitHostPort_eq_none hcolon _, by decide, absurd hcolon⟩
    | brackets =>
      rw [bracketed, if_pos hcolon] at hbracketed
      exact .inr ⟨hbracketed, by decide, absurd hcolon⟩
    | bracketsPort => exact .inl ⟨text_eq_joinHostPort (.inr ⟨rfl, hcolon⟩), .inl rfl⟩
  · cases spelling with
    | plain =>
      rw [bracketed, if_neg hcolon] at hbracketed
      exact .inr ⟨hbracketed, by decide, fun _ ↦ rfl⟩
    | plainPort => exact .inl ⟨text_eq_joinHostPort (.inl ⟨rfl, hcolon⟩), .inr hcolon⟩
    | brackets | bracketsPort => exact absurd haccepted hcolon

/-! ## The application -/

theorem colon_mem_masqueEndpoint (endpoint : Bytes) : ch ':' ∈ masqueEndpoint endpoint := by
  have hjoin (host : Bytes) : ch ':' ∈ joinHostPort host (str "443") := by
    rw [joinHostPort_eq]
    exact List.mem_append_right _ List.mem_cons_self
  unfold masqueEndpoint
  split
  · exact hjoin _
  · exact hjoin _

theorem endpointAddr_masqueEndpoint (endpoint sni : Bytes) (useIPv6 : Bool) (reg : Registration) :
    endpointAddr ⟨masqueEndpoint endpoint, sni, useIPv6⟩ reg = masqueEndpoint endpoint := by
  have hcolon := colon_mem_masqueEndpoint endpoint
  rw [endpointAddr, if_pos (List.ne_nil_of_mem hcolon), if_pos hcolon]

/-- The registered endpoint of the family that is used. -/
def Registration.endpoint (reg : Registration) (useIPv6 : Bool) : Bytes :=
  if useIPv6 then reg.v6 else reg.v4

theorem endpointAddr_registered (sni : Bytes) {useIPv6 : Bool} {reg : Registration} {stored : Bytes}
    (h : stripPortSuffix (reg.endpoint useIPv6) = stored) :
    endpointAddr ⟨[], sni, useIPv6⟩ reg =
      if ch ':' ∈ stored then stored else stored ++ str ":443" := by
  subst h
  cases useIPv6
  · rfl
  · rfl

variable (hhost : IsHost host)
    (hport : ch ':' ∉ port ∧ ch '[' ∉ port ∧ ch ']' ∉ port) (haccepted : spelling.Accepted host)

include hhost hport haccepted

/-- The application takes the host of every spelling, except for an IPv6 address in brackets alone
or with a port but no brackets. -/
theorem masqueEndpoint_text_iff :
    masqueEndpoint (spelling.text host port) = joinHostPort host (str "443") ↔
      ch ':' ∉ host ∨ spelling = .plain ∨ spelling = .bracketsPort := by
  obtain ⟨htext, hjoined⟩ | ⟨hsplit, hne, hplain⟩ := text_cases port hhost haccepted
  · rw [htext, masqueEndpoint, splitHostPort_joinHostPort hhost.brackets hport]
    exact iff_of_true rfl (hjoined.symm.imp_right .inr)
  · -- a text that is joined whole would have to be the host
    rw [masqueEndpoint, hsplit]
    constructor
    · intro heq
      have htext := (joinHostPort_inj (by decide) (by decide) hhost.brackets.1 heq).1
      exact .inr (.inl (eq_plain_of_text htext))
    · rintro (hcolon | rfl | rfl)
      · rw [hplain hcolon]
        rfl
      · rfl
      · exact absurd rfl hne

/-! ## The registration -/

/-- `stripPortSuffix` takes off a port and the brackets before it, and nothing else. -/
theorem stripPortSuffix_text :
    stripPortSuffix (spelling.text host port) =
      if spelling = .bracketsPort ∨ ch ':' ∉ host then host else spelling.text host port := by
  obtain ⟨htext, hjoined⟩ | ⟨hsplit, hne, hplain⟩ := text_cases port hhost haccepted
  · rw [htext, if_pos hjoined]
    exact stripPortSuffix_joinHostPort hhost.brackets hport
  · rw [stripPortSuffix, hsplit, ite_self, ite_self]
    dsimp only
    split_ifs with hjoined
    · rw [hplain (hjoined.resolve_left hne)]
      rfl
    · rfl

theorem endpointAddr_registered_iff (sni : Bytes) {useIPv6 : Bool} {reg : Registration}
    (hreg : reg.endpoint useIPv6 = spelling.text host port) :
    endpointAddr ⟨[], sni, useIPv6⟩ reg = joinHostPort host (str "443") ↔ ch ':' ∉ host := by
  have hstored := (congrArg stripPortSuffix hreg).trans (stripPortSuffix_text hhost hport haccepted)
  by_cases hcolon : ch ':' ∈ host
  · have hjoin : joinHostPort host (str "443") = (ch '[' :: host ++ [ch ']']) ++ str ":443" := by
      rw [joinHostPort_eq, bracketed, if_pos hcolon]
      rfl
    -- without brackets the text begins otherwise, and with them it lacks the port
    have hplain (t : Bytes) : host ++ t ≠ (ch '[' :: host ++ [ch ']']) ++ str ":443" := by
      intro heq
      exact hhost.head?_ne t hcolon (congrArg List.head? heq)
    have halone : host ≠ (ch '[' :: host ++ [ch ']']) ++ str ":443" := by
      have h := hplain []
      rwa [List.append_nil] at h
    refine iff_of_false ?_ (not_not.mpr hcolon)
    rw [hjoin]
    cases spelling with
    | plain =>
      rw [if_neg (by simp [hcolon]), Spelling.text_plain] at hstored
      rw [endpointAddr_registered sni hstored, if_pos hcolon]
      exact halone
    | plainPort =>
      rw [if_neg (by simp [hcolon]), Spelling.text_plainPort] at hstored
      rw [endpointAddr_registered sni hstored, if_pos (List.mem_append_left _ hcolon)]
      exact hplain _
    | brackets =>
      have hmem : ch ':' ∈ ch '[' :: host ++ [ch ']'] :=
        List.mem_append_left _ (List.mem_cons_of_mem _ hcolon)
      rw [if_neg (by simp [hcolon]), Spelling.text_brackets] at hstored
      rw [endpointAddr_registered sni hstored, if_pos hmem]
      intro heq
      have hempty := List.self_eq_append_right.mp heq
      revert hempty
      decide
    | bracketsPort =>
      rw [if_pos (.inl rfl)] at hstored
      rw [endpointAddr_registered sni hstored, if_pos hcolon]
      exact halone
  · rw [if_pos (.inr hcolon)] at hstored
    rw [endpointAddr_registered sni hstored, if_neg hcolon]
    refine iff_of_true ?_ hcolon
    rw [joinHostPort_eq, bracketed, if_neg hcolon]
    rfl

end Texts

/-- The endpoint that is resolved is the host with port 443, for a spelling given to the application
if the host has no colon or is an IPv6 address alone or in brackets with a port, and for a spelling
in the registration if the host has no colon. -/
theorem endpointAddr_spelling_iff (host port : Bytes) (spelling : Spelling) (sni : Bytes)
    (useIPv6 : Bool) (hhost : IsHost host)
    (hport : ch ':' ∉ port ∧ ch '[' ∉ port ∧ ch ']' ∉ port) (haccepted : spelling.Accepted host) :
    (∀ reg, endpointAddr ⟨masqueEndpoint (spelling.text host port), sni, useIPv6⟩ reg =
        joinHostPort host (str "443") ↔
          ch ':' ∉ host ∨ spelling = .plain ∨ spelling = .bracketsPort) ∧
      ∀ reg : Registration, reg.endpoint useIPv6 = spelling.text host port →
        (endpointAddr ⟨[], sni, useIPv6⟩ reg = joinHostPort host (str "443") ↔ ch ':' ∉ host) := by
  constructor
  · intro reg
    rw [endpointAddr_masqueEndpoint]
    exact masqueEndpoint_text_iff hhost hport haccepted
  · intro reg hreg
    exact endpointAddr_registered_iff hhost hport haccepted sni hreg

/-- A name with a port, from both sides. -/
theorem endpointAddr_spelling_name :
    endpointAddr ⟨masqueEndpoint (str "engage.cloudflareclient.com:2408"), [], false⟩ ⟨[], []⟩ =
        str "engage.cloudflareclient.com:443" ∧
      endpointAddr ⟨[], [], false⟩ ⟨str "engage.cloudflareclient.com:2408", []⟩ =
        str "engage.cloudflareclient.com:443" := by
  have hname : ch ':' ∉ str "engage.cloudflareclient.com" := by decide
  have h := endpointAddr_spelling_iff (str "engage.cloudflareclient.com") (str "2408") .plainPort []
    false ⟨by decide, fun hcolon ↦ absurd hcolon hname⟩ (by decide) trivial
  exact ⟨(h.1 ⟨[], []⟩).mpr (.inl hname),
    (h.2 ⟨str "engage.cloudflareclient.com:2408", []⟩ (by decide)).mpr hname⟩

/-- An IPv6 address in brackets gets a second pair, and the registered one gets no port. -/
theorem endpointAddr_spelling_ipv6 :
    endpointAddr ⟨masqueEndpoint (str "[2606:4700:103::1]"), [], false⟩ ⟨[], []⟩ =
        str "[[2606:4700:103::1]]:443" ∧
      endpointAddr ⟨[], [], true⟩ ⟨[], str "[2606:4700:103::1]:443"⟩ = str "2606:4700:103::1" ∧
      endpointAddr ⟨[], [], true⟩ ⟨[], str "2606:4700:103::1"⟩ = str "2606:4700:103::1" ∧
      joinHostPort (str "2606:4700:103::1") (str "443") = str "[2606:4700:103::1]:443" := by
  decide

end Vwarp.Masque
