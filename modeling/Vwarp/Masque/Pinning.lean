import Vwarp.Go.NetText

/-!
# Which server `NewMasqueAdapter` trusts

The registration has the public key of the server and its endpoints, one for each family.
`NewMasqueAdapter` pins the key unless it is told to dial another host, in which case it accepts
any certificate.  What is another host it decides by comparing texts: the host of the endpoint,
and what `stripPortSuffix` left of one of the registered endpoints when they were stored.

`pins_iff` says for which endpoints the decision is right.  It is for a host that is written like
the endpoint it is compared with, and it is not for the endpoint of the other family, or for
another spelling of the same address.  The application never sets the flag for IPv6, so that it
compares with the IPv4 endpoint only.
-/

namespace Vwarp.Masque

open Vwarp.Go

/-! ## The decision -/

/-- `strings.Trim(s, "[]")`. -/
def trimBrackets (s : Bytes) : Bytes :=
  let bracket : UInt8 → Bool := fun c ↦ c = ch '[' ∨ c = ch ']'
  ((s.dropWhile bracket).reverse.dropWhile bracket).reverse

/-- `stripPortSuffix`. -/
def stripPortSuffix (endpoint : Bytes) : Bytes :=
  match if endpoint.count (ch ':') = 1 then splitHostPort endpoint else none with
  | some (host, _) => host
  | none =>
    match if endpoint.head? = some (ch '[') then splitHostPort endpoint else none with
    | some (host, _) => trimBrackets host
    | none => endpoint

/-- The endpoints of a registration, as the API returns them. -/
structure Registration where
  v4 : Bytes
  v6 : Bytes

/-- `EndpointV4`, as it is stored. -/
def Registration.endpointV4 (reg : Registration) : Bytes := stripPortSuffix reg.v4

/-- `EndpointV6`, as it is stored. -/
def Registration.endpointV6 (reg : Registration) : Bytes := stripPortSuffix reg.v6

/-- `AdapterConfig`, as far as the endpoint and the certificate depend on it. -/
structure AdapterConfig where
  endpoint : Bytes
  sni : Bytes
  useIPv6 : Bool

/-- `DefaultMasqueSNI`. -/
def defaultMasqueSNI : Bytes := str "consumer-masque.cloudflareclient.com"

def AdapterConfig.serverName (cfg : AdapterConfig) : Bytes :=
  if cfg.sni = [] then defaultMasqueSNI else cfg.sni

/-- `endpointAddr`. -/
def endpointAddr (cfg : AdapterConfig) (reg : Registration) : Bytes :=
  let addr :=
    if cfg.endpoint ≠ [] then cfg.endpoint
    else if cfg.useIPv6 then reg.endpointV6 else reg.endpointV4
  if ch ':' ∈ addr then addr else addr ++ str ":443"

/-- `registeredEndpoint`. -/
def registeredEndpoint (cfg : AdapterConfig) (reg : Registration) : Bytes :=
  if cfg.useIPv6 ∧ reg.endpointV6 ≠ [] then reg.endpointV6 else reg.endpointV4

/-- `usingCustomEndpoint`; the error of `SplitHostPort` is dropped, and the host is then empty. -/
def usingCustomEndpoint (cfg : AdapterConfig) (reg : Registration) : Bool :=
  let customHost := ((splitHostPort (endpointAddr cfg reg)).map Prod.fst).getD []
  cfg.endpoint ≠ [] ∧ customHost ≠ registeredEndpoint cfg reg

/-- The configuration of TLS: with `InsecureSkipVerify`, or with the key of the server pinned. -/
inductive TlsConfig
  | insecureSkipVerify (serverName : Bytes)
  | pinned (serverName : Bytes)
deriving DecidableEq

/-- The errors of what is called on the way. -/
structure Outside where
  getEcPrivateKey : Option Bytes
  getEcEndpointPublicKey : Option Bytes
  generateSelfSignedCert : Option Bytes
  prepareTlsConfig : Option Bytes
  /-- The error of `net.ResolveUDPAddr` for an address with a port: the port is not one, or the
  name is not known. -/
  resolve : Bytes → Option Bytes
  /-- Its error for an address without one. -/
  missingPort : Bytes
  /-- The error of the test of UDP, for the address that is resolved. -/
  dialTimeout : Bytes → Option Bytes

/-- The host that is dialed, and how it is authenticated. -/
structure Dial where
  host : Bytes
  port : Bytes
  tls : TlsConfig
deriving DecidableEq

def wrapError {α : Type} (text : String) (err : Bytes) : Except Bytes α := .error (str text ++ err)

/-- `NewMasqueAdapter`, from the endpoint to the dial. -/
def connect (o : Outside) (cfg : AdapterConfig) (reg : Registration) : Except Bytes Dial :=
  match o.getEcPrivateKey with
  | some err => wrapError "failed to get private key: " err
  | none =>
    match o.getEcEndpointPublicKey with
    | some err => wrapError "failed to get peer public key: " err
    | none =>
      match o.generateSelfSignedCert with
      | some err => wrapError "failed to generate certificate: " err
      | none =>
        if usingCustomEndpoint cfg reg then resolveWith (.insecureSkipVerify cfg.serverName)
        else
          match o.prepareTlsConfig with
          | some err => wrapError "failed to prepare TLS config: " err
          | none => resolveWith (.pinned cfg.serverName)
where
  /-- `net.ResolveUDPAddr`, which splits the address itself. -/
  resolveWith (tls : TlsConfig) : Except Bytes Dial :=
    match splitHostPort (endpointAddr cfg reg) with
    | none => wrapError "failed to resolve endpoint: " o.missingPort
    | some (host, port) =>
      match o.resolve (endpointAddr cfg reg) with
      | some err => wrapError "failed to resolve endpoint: " err
      | none =>
        match o.dialTimeout (endpointAddr cfg reg) with
        | some err => wrapError "UDP connectivity test failed: " err
        | none => .ok ⟨host, port, tls⟩

/-! ## Registered hosts -/

/-- Two hosts are the same: as addresses if both are, and as texts if not.  The IPv4-mapped form
of an address is the address. -/
def sameHost (a b : Bytes) : Bool :=
  match parseAddr a, parseAddr b with
  | some x, some y => x.unmap = y.unmap
  | _, _ => a = b

/-- The host is one of the registered endpoints; a family may have none. -/
def Registration.Has (reg : Registration) (host : Bytes) : Prop :=
  ∃ endpoint ∈ [reg.endpointV4, reg.endpointV6], endpoint ≠ [] ∧ sameHost host endpoint = true

/-- A registered host is not dialed without its key. -/
def Pins (o : Outside) (cfg : AdapterConfig) (reg : Registration) : Prop :=
  ∀ d, connect o cfg reg = .ok d → d.tls = .insecureSkipVerify cfg.serverName → ¬reg.Has d.host

/-- Nothing fails on the way to a dial without a pinned key. -/
structure Outside.Ready (o : Outside) (addr : Bytes) : Prop where
  privateKey : o.getEcPrivateKey = none
  publicKey : o.getEcEndpointPublicKey = none
  certificate : o.generateSelfSignedCert = none
  resolve : o.resolve addr = none
  dialTimeout : o.dialTimeout addr = none

section Decision

variable {o : Outside} {cfg : AdapterConfig} {reg : Registration}

theorem resolveWith_eq_ok {tls : TlsConfig} {d : Dial} :
    connect.resolveWith o cfg reg tls = .ok d ↔
      o.resolve (endpointAddr cfg reg) = none ∧ o.dialTimeout (endpointAddr cfg reg) = none ∧
        splitHostPort (endpointAddr cfg reg) = some (d.host, d.port) ∧ d.tls = tls := by
  obtain ⟨host, port, tls'⟩ := d
  unfold connect.resolveWith
  cases hsplit : splitHostPort (endpointAddr cfg reg) with
  | none => exact iff_of_false nofun fun h ↦ nomatch h.2.2.1
  | some hostport =>
    cases o.resolve (endpointAddr cfg reg) with
    | some err => exact iff_of_false nofun fun h ↦ nomatch h.1
    | none =>
      cases o.dialTimeout (endpointAddr cfg reg) with
      | some err => exact iff_of_false nofun fun h ↦ nomatch h.2.1
      | none =>
        simp only [true_and, Except.ok.injEq, Dial.mk.injEq, Option.some.injEq, Prod.ext_iff]
        constructor
        · rintro ⟨rfl, rfl, rfl⟩
          exact ⟨⟨rfl, rfl⟩, rfl⟩
        · rintro ⟨⟨rfl, rfl⟩, rfl⟩
          exact ⟨rfl, rfl, rfl⟩

/-- A dial without a pinned key. -/
theorem connect_eq_insecure {d : Dial} :
    (connect o cfg reg = .ok d ∧ d.tls = .insecureSkipVerify cfg.serverName) ↔
      o.Ready (endpointAddr cfg reg) ∧ usingCustomEndpoint cfg reg = true ∧
        splitHostPort (endpointAddr cfg reg) = some (d.host, d.port) ∧
        d.tls = .insecureSkipVerify cfg.serverName := by
  constructor
  · rintro ⟨h, htls⟩
    unfold connect at h
    split at h
    · cases h
    · rename_i hprivate
      split at h
      · cases h
      · rename_i hpublic
        split at h
        · cases h
        · rename_i hcertificate
          split_ifs at h with hcustom
          · obtain ⟨hresolve, hdial, hsplit, -⟩ := resolveWith_eq_ok.mp h
            exact ⟨⟨hprivate, hpublic, hcertificate, hresolve, hdial⟩, hcustom, hsplit, htls⟩
          · split at h
            · cases h
            · obtain ⟨-, -, -, hpinned⟩ := resolveWith_eq_ok.mp h
              cases hpinned.symm.trans htls
  · rintro ⟨hready, hcustom, hsplit, htls⟩
    refine ⟨?_, htls⟩
    unfold connect
    rw [hready.privateKey, hready.publicKey, hready.certificate]
    dsimp only
    rw [if_pos hcustom]
    exact resolveWith_eq_ok.mpr ⟨hready.resolve, hready.dialTimeout, hsplit, htls⟩

theorem usingCustomEndpoint_iff {host port : Bytes}
    (hsplit : splitHostPort (endpointAddr cfg reg) = some (host, port)) :
    usingCustomEndpoint cfg reg = true ↔ cfg.endpoint ≠ [] ∧ host ≠ registeredEndpoint cfg reg := by
  rw [usingCustomEndpoint, hsplit]
  exact decide_eq_true_iff

end Decision

/-- The key of a registered host is pinned exactly if its host is written like the endpoint that
it is compared with. -/
theorem pins_iff (o : Outside) (cfg : AdapterConfig) (reg : Registration) :
    Pins o cfg reg ↔
      (cfg.endpoint ≠ [] → o.Ready (endpointAddr cfg reg) →
        ∀ host port, splitHostPort (endpointAddr cfg reg) = some (host, port) → reg.Has host →
          host = registeredEndpoint cfg reg) := by
  constructor
  · intro h hendpoint hready host port hsplit hhas
    by_contra hne
    have hcustom := (usingCustomEndpoint_iff hsplit).mpr ⟨hendpoint, hne⟩
    obtain ⟨hconnect, htls⟩ := (connect_eq_insecure
      (d := ⟨host, port, .insecureSkipVerify cfg.serverName⟩)).mpr ⟨hready, hcustom, hsplit, rfl⟩
    exact h _ hconnect htls hhas
  · intro h d hconnect htls hhas
    obtain ⟨hready, hcustom, hsplit, -⟩ := connect_eq_insecure.mp ⟨hconnect, htls⟩
    obtain ⟨hendpoint, hne⟩ := (usingCustomEndpoint_iff hsplit).mp hcustom
    exact hne (h hendpoint hready d.host d.port hsplit hhas)

/-! ## Endpoints with a port -/

/-- `stripPortSuffix` takes the port off that `JoinHostPort` put there, for either family. -/
theorem stripPortSuffix_joinHostPort {host port : Bytes} (hhost : ch '[' ∉ host ∧ ch ']' ∉ host)
    (hport : ch ':' ∉ port ∧ ch '[' ∉ port ∧ ch ']' ∉ port) :
    stripPortSuffix (joinHostPort host port) = host := by
  have hsplit := splitHostPort_joinHostPort hhost hport
  have hcount : (joinHostPort host port).count (ch ':') = host.count (ch ':') + 1 := by
    rw [joinHostPort_eq, List.count_append, List.count_cons_self, List.count_eq_zero.mpr hport.1,
      bracketed]
    split
    · rw [List.count_append, List.count_cons_of_ne (by decide)]
      rfl
    · rfl
  unfold stripPortSuffix
  rw [hcount, hsplit]
  by_cases hcolon : ch ':' ∈ host
  · have hmany : host.count (ch ':') + 1 ≠ 1 := by
      have hpos := List.count_pos_iff.mpr hcolon
      omega
    have hhead : (joinHostPort host port).head? = some (ch '[') := by
      rw [joinHostPort_eq, bracketed, if_pos hcolon]
      rfl
    have hplain : ∀ s : Bytes, ch '[' ∉ s ∧ ch ']' ∉ s →
        s.dropWhile (fun c ↦ c = ch '[' ∨ c = ch ']') = s := by
      intro s hs
      cases s with
      | nil => rfl
      | cons c s =>
        apply List.dropWhile_cons_of_neg
        simp only [List.mem_cons, not_or] at hs
        simp only [decide_eq_true_eq, not_or]
        exact ⟨fun h ↦ hs.1.1 h.symm, fun h ↦ hs.2.1 h.symm⟩
    rw [if_neg hmany, hhead]
    dsimp only
    rw [if_pos rfl]
    dsimp only
    rw [trimBrackets, hplain host hhost, hplain host.reverse (by simpa using hhost),
      List.reverse_reverse]
  · rw [if_pos (by rw [List.count_eq_zero.mpr hcolon])]

/-- The endpoint that `runWarpWithMasque` passes on. -/
def masqueEndpoint (endpoint : Bytes) : Bytes :=
  match splitHostPort endpoint with
  | some (host, _) => joinHostPort host (str "443")
  | none => joinHostPort endpoint (str "443")

/-- A registration with an endpoint for each family. -/
def bothFamilies : Registration where
  v4 := str "162.159.198.1:443"
  v6 := str "[2606:4700:103::1]:443"

def noErrors : Outside where
  getEcPrivateKey := none
  getEcEndpointPublicKey := none
  generateSelfSignedCert := none
  prepareTlsConfig := none
  resolve _ := none
  missingPort := str "missing port in address"
  dialTimeout _ := none

/-- The registered IPv6 endpoint is dialed without its key, and so is another spelling of it even
if the flag is set. -/
theorem registered_host_unpinned :
    connect noErrors ⟨str "[2606:4700:103::1]:443", [], false⟩ bothFamilies =
        .ok ⟨str "2606:4700:103::1", str "443", .insecureSkipVerify defaultMasqueSNI⟩ ∧
      bothFamilies.endpointV6 = str "2606:4700:103::1" ∧
    connect noErrors ⟨str "[2606:4700:103:0::1]:443", [], true⟩ bothFamilies =
        .ok ⟨str "2606:4700:103:0::1", str "443", .insecureSkipVerify defaultMasqueSNI⟩ ∧
      sameHost (str "2606:4700:103:0::1") bothFamilies.endpointV6 = true := by
  decide +kernel

end Vwarp.Masque
