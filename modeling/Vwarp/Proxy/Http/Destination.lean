import Vwarp.Go.NetText
import Vwarp.Proxy.Http.Server

/-!
# The destination of a proxied request

Both the user's handler and the embedded one take the destination from the host of the request's
URL: they split it into a host and a port, and put in a port of their own if that fails.  It fails
for a host without a port, as it should, but then the host is used with the brackets it has in the
URL, and `JoinHostPort` puts another pair around it.

The host of a URL is `bracketed host`: a name or an IPv4 address as it is, an IPv6 address in
brackets.  `destination_iff` says for which hosts and ports both handlers use the destination that
is meant.
-/

namespace Vwarp.Proxy.Http

open Vwarp.Go

def defaultPort (req : Request) (isConnectMethod : Bool) : Bytes :=
  if req.scheme = str "https" ∨ isConnectMethod = true then str "443" else str "80"

def Served.destination? : Served → Option Bytes
  | failed _ => none
  | user req => some req.destination
  | tunnel targetAddr _ _ => some targetAddr

/-- Both handlers use the destination: the user's is given it, and the embedded one dials it and, if
that succeeds, tunnels to it. -/
structure Uses (req : Request) (isConnectMethod : Bool) (dest : Bytes) : Prop where
  user (env : Env) (conn : Conn) : env.userConnectHandle = true →
    (isConnectMethod = true → env.connWrite connectionEstablished = none) →
      (handleHTTP env conn req isConnectMethod).destination? = some dest
  dial (env : Env) (conn : Conn) (err : Error) : env.userConnectHandle = false →
    env.proxyDial dest = some err →
      handleHTTP env conn req isConnectMethod = .failed (.error err)
  tunnel (env : Env) (conn : Conn) : env.userConnectHandle = false → env.proxyDial dest = none →
    (isConnectMethod = true → env.connWrite connectionEstablished = none) →
    (isConnectMethod = false → ∃ written, req.write = .ok written) →
      (handleHTTP env conn req isConnectMethod).destination? = some dest

/-! ## Ports -/

/-- A port number, as `ParseUint` reads it. -/
structure IsPort (p : Bytes) : Prop where
  parses : (parseUint p 16).isSome

theorem IsPort.not_mem {p : Bytes} (h : IsPort p) {c : UInt8} (hc : digit? c = none) : c ∉ p :=
  not_mem_of_parseUint h.parses hc

/-- `Atoi` takes a port number. -/
theorem IsPort.atoi {p : Bytes} (h : IsPort p) : (Go.atoi p).isSome := by
  obtain ⟨n, hn⟩ := Option.isSome_iff_exists.mp h.parses
  obtain ⟨m, hm, hlt⟩ := Option.bind_eq_some_iff.mp hn
  have hm63 : m < 2 ^ 63 := Nat.lt_trans (Option.ite_none_right_eq_some.mp hlt).1 (by decide)
  cases p with
  | nil => cases hm
  | cons c cs =>
    have hminus : c ≠ ch '-' := by
      rintro rfl
      exact h.not_mem (by decide) List.mem_cons_self
    have hplus : c ≠ ch '+' := by
      rintro rfl
      exact h.not_mem (by decide) List.mem_cons_self
    simp only [Go.atoi, hminus, hplus, or_self, if_false, hm, Option.bind_some, if_pos hm63,
      Option.isSome_some]

theorem isPort_defaultPort (req : Request) (isConnectMethod : Bool) :
    IsPort (defaultPort req isConnectMethod) := by
  unfold defaultPort
  split
  all_goals exact ⟨by decide⟩

/-! ## Hosts -/

theorem splitHostPort_port {host p : Bytes} (hhost : ch '[' ∉ host ∧ ch ']' ∉ host)
    (hp : IsPort p) : splitHostPort (joinHostPort host p) = some (host, p) :=
  splitHostPort_joinHostPort hhost
    ⟨hp.not_mem (by decide), hp.not_mem (by decide), hp.not_mem (by decide)⟩

/-! ## The two handlers -/

def userTarget (req : Request) (isConnectMethod : Bool) : Bytes :=
  match splitHostPort req.host with
  | some _ => req.host
  | none => joinHostPort (hostPort req isConnectMethod).1 (hostPort req isConnectMethod).2

def embedTarget (req : Request) (isConnectMethod : Bool) : Bytes :=
  joinHostPort (hostPort req isConnectMethod).1 (hostPort req isConnectMethod).2

section Targets

variable {req : Request} {isConnectMethod : Bool}

/-- The user's handler is given its target, if the port is a number. -/
theorem destination_user (hport : IsPort (hostPort req isConnectMethod).2) {env : Env}
    {conn : Conn} (henv : env.userConnectHandle = true)
    (hwrite : isConnectMethod = true → env.connWrite connectionEstablished = none) :
    (handleHTTP env conn req isConnectMethod).destination? =
      some (userTarget req isConnectMethod) := by
  obtain ⟨n, hn⟩ := Option.isSome_iff_exists.mp hport.atoi
  have hcall (client : Client) :
      (callUser client req isConnectMethod).destination? =
        some (userTarget req isConnectMethod) := by
    unfold callUser
    dsimp only
    rw [hn]
    rfl
  cases isConnectMethod with
  | true => simp only [handleHTTP, henv, hwrite rfl, Bool.true_eq_false, if_false, if_true, hcall]
  | false => simp only [handleHTTP, henv, Bool.true_eq_false, Bool.false_eq_true, if_false, hcall]

/-- Both handlers use a destination that is the target of both. -/
theorem uses_of_targets {dest : Bytes} (hport : IsPort (hostPort req isConnectMethod).2)
    (huser : userTarget req isConnectMethod = dest)
    (hembed : embedTarget req isConnectMethod = dest) : Uses req isConnectMethod dest where
  user env conn henv hwrite := huser ▸ destination_user hport henv hwrite
  dial env conn err henv hdial := by
    have hdial : env.proxyDial (joinHostPort (hostPort req isConnectMethod).1
        (hostPort req isConnectMethod).2) = some err := by
      rw [← hdial, ← hembed]
      rfl
    simp only [handleHTTP, henv, if_true, embedHandleHTTP, hdial]
  tunnel env conn henv hdial hwrite hreq := by
    subst hembed
    unfold embedTarget at hdial ⊢
    cases isConnectMethod with
    | true =>
      simp only [handleHTTP, henv, if_true, embedHandleHTTP, hdial, hwrite rfl,
        Served.destination?]
    | false =>
      obtain ⟨written, hwritten⟩ := hreq rfl
      simp only [handleHTTP, henv, if_true, embedHandleHTTP, hdial, Bool.false_eq_true, if_false,
        hwritten, Served.destination?]

theorem Uses.target {dest : Bytes} (h : Uses req isConnectMethod dest)
    (hport : IsPort (hostPort req isConnectMethod).2) : userTarget req isConnectMethod = dest := by
  have henv := h.user ⟨true, fun _ ↦ none, fun _ ↦ none⟩ ⟨[], .eof⟩ rfl fun _ ↦ rfl
  rw [destination_user hport rfl fun _ ↦ rfl] at henv
  exact Option.some.inj henv

/-- Both handlers use the host without brackets and the port, or the default port, which is split
again, if and only if there is a port or the host is not an IPv6 address. -/
theorem destination_iff {host : Bytes} {port : Option Bytes}
    (hhost : ch '[' ∉ host ∧ ch ']' ∉ host) (hport : ∀ p, port = some p → IsPort p)
    (hreq : req.host = bracketed host ++ port.elim [] (ch ':' :: ·)) :
    (Uses req isConnectMethod (joinHostPort host (port.getD (defaultPort req isConnectMethod))) ∧
        splitHostPort (joinHostPort host (port.getD (defaultPort req isConnectMethod))) =
          some (host, port.getD (defaultPort req isConnectMethod))) ↔
      (port ≠ none ∨ ch ':' ∉ host) := by
  have hdefault := isPort_defaultPort req isConnectMethod
  cases port with
  | some p =>
    have hp := hport p rfl
    have htext : req.host = joinHostPort host p := hreq.trans (joinHostPort_eq host p).symm
    have hsplit := splitHostPort_port hhost hp
    have hpair : hostPort req isConnectMethod = (host, p) := by
      simp only [hostPort, htext, hsplit]
    refine iff_of_true ⟨?_, hsplit⟩ (.inl (Option.some_ne_none p))
    refine uses_of_targets (hpair ▸ hp) ?_ ?_
    · simp only [userTarget, htext, hsplit, Option.getD_some]
    · simp only [embedTarget, hpair, Option.getD_some]
  | none =>
    have htext : req.host = bracketed host := hreq.trans (List.append_nil _)
    have hsplit : splitHostPort (bracketed host) = none := splitHostPort_bracketed hhost.2
    have hpair : hostPort req isConnectMethod =
        (bracketed host, defaultPort req isConnectMethod) := by
      simp only [hostPort, htext, hsplit, defaultPort]
    have huser : userTarget req isConnectMethod =
        joinHostPort (bracketed host) (defaultPort req isConnectMethod) := by
      simp only [userTarget, htext, hsplit, hpair]
    rw [Option.getD_none]
    constructor
    · rintro ⟨huses, -⟩
      right
      intro hcolon
      have hjoin := huser.symm.trans (huses.target (hpair ▸ hdefault))
      have hcolon' := hdefault.not_mem (c := ch ':') (by decide)
      have heq := (joinHostPort_inj hcolon' hcolon' hhost.1 hjoin).1
      rw [bracketed, if_pos hcolon] at heq
      have hlen := congrArg List.length heq
      simp at hlen
      omega
    · intro hname
      have hcolon : ch ':' ∉ host := hname.resolve_left fun h ↦ h rfl
      have hplain : bracketed host = host := if_neg hcolon
      refine ⟨uses_of_targets (hpair ▸ hdefault) ?_ ?_, splitHostPort_port hhost hdefault⟩
      · rw [huser, hplain]
      · simp only [embedTarget, hpair, hplain]

end Targets

/-- A request for `[::1]:8080`. -/
theorem destination_port :
    Uses ⟨methodConnect, [], str "[::1]:8080", .ok []⟩ true (str "[::1]:8080") := by
  have hhost : ch '[' ∉ str "::1" ∧ ch ']' ∉ str "::1" := ⟨by decide, by decide⟩
  have hport : ∀ p, some (str "8080") = some p → IsPort p := by
    rintro p ⟨⟩
    exact ⟨by decide⟩
  have hiff := @destination_iff ⟨methodConnect, [], str "[::1]:8080", .ok []⟩ true _ _ hhost hport
    (by decide)
  exact (hiff.mpr (.inl (Option.some_ne_none _))).1

/-- A `CONNECT` request for `[::1]`: both handlers use a text that is no address. -/
theorem destination_ipv6 :
    (handleHTTP ⟨true, fun _ ↦ none, fun _ ↦ none⟩ ⟨[], .eof⟩
        ⟨methodConnect, [], str "[::1]", .ok []⟩ true).destination? = some (str "[[::1]]:443") ∧
      (handleHTTP ⟨false, fun _ ↦ none, fun _ ↦ none⟩ ⟨[], .eof⟩
        ⟨methodConnect, [], str "[::1]", .ok []⟩ true).destination? = some (str "[[::1]]:443") ∧
      joinHostPort (str "::1") (str "443") = str "[::1]:443" ∧
      splitHostPort (str "[[::1]]:443") = none := by
  decide

end Vwarp.Proxy.Http
