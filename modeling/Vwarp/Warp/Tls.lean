import Vwarp.IpScanner.Scanner
import Vwarp.Iputils.RandomIP
import Vwarp.Lib.Retry

/-!
# Dialing the API

`TLSDial` tries three fingerprints, each of them three times.  The attempts share a variable for the
connection and one for the error, and the error of the last `retry.Do` says whether one of them
succeeded; but the function returns `nil` in its place: `tlsDial_reports_iff`.

What the network does in each attempt is given.  `retry.Do` is any function that makes attempts
until one succeeds and returns `nil` only then: `Vwarp.Lib.Retries`.
-/

namespace Vwarp.Warp

open Vwarp.Go Vwarp.Lib Vwarp.Iputils
open Vwarp.IpScanner (mustParsePrefix)

inductive Fprint
  | curve
  | tls
  | chrome
deriving DecidableEq

/-- The errors of `TLSDial`. -/
inductive DialError
  | splitHostPort
  | randomIP (text : Bytes)
  | attempt (text : Bytes)
  | retry (errs : List DialError)

/-- What the network does.  Attempts are counted for each fingerprint, and `π` are the plain
connections. -/
structure Network (π : Type) where
  /-- `plainDialer.Dial` to port 443 of an address. -/
  dial : Fprint → Nat → Bytes → Addr → Except Bytes π
  /-- `ApplyPreset`, with the server name in the preset. -/
  applyPreset : Nat → π → Bytes → Option Bytes
  handshake : Fprint → Nat → π → Bytes → Option Bytes

/-- A TLS connection over a plain one. -/
structure Conn (π : Type) where
  fprint : Fprint
  plain : π
deriving DecidableEq

abbrev Dialed (π : Type) := Option (Conn π) × Option DialError

namespace Network

variable {π : Type} (net : Network π)

/-- `makeTLSHelloPacketWithSNICurve`. -/
def makeTLSHelloPacketWithSNICurve (n : Nat) (plainConn : π) (sni : Bytes) : Dialed π :=
  match net.applyPreset n plainConn sni with
  | some err => (none, some (.attempt (str "uTlsConn.Handshake() error: " ++ err)))
  | none =>
    match net.handshake .curve n plainConn sni with
    | some err => (none, some (.attempt (str "uTlsConn.Handshake() error: " ++ err)))
    | none => (some ⟨.curve, plainConn⟩, none)

/-- `dialCurve`. -/
def dialCurve (n : Nat) (network : Bytes) (ip : Addr) (sni : Bytes) : Dialed π :=
  match net.dial .curve n network ip with
  | .error err => (none, some (.attempt err))
  | .ok plainConn =>
    match net.makeTLSHelloPacketWithSNICurve n plainConn sni with
    | (_, some handshakeErr) => (none, some handshakeErr)
    | (tlsConn, none) => (tlsConn, none)

/-- `dial2` and `dial3`, which differ in the client that makes the handshake. -/
def dialPlain (fprint : Fprint) (n : Nat) (network : Bytes) (ip : Addr) (sni : Bytes) : Dialed π :=
  match net.dial fprint n network ip with
  | .error err => (none, some (.attempt err))
  | .ok plainConn =>
    match net.handshake fprint n plainConn sni with
    | some err => (none, some (.attempt err))
    | none => (some ⟨fprint, plainConn⟩, none)

/-- `dial2`. -/
def dial2 : Nat → Bytes → Addr → Bytes → Dialed π := net.dialPlain .tls

/-- `dial3`. -/
def dial3 : Nat → Bytes → Addr → Bytes → Dialed π := net.dialPlain .chrome

def dialWith : Fprint → Nat → Bytes → Addr → Bytes → Dialed π
  | .curve => net.dialCurve
  | .tls => net.dial2
  | .chrome => net.dial3

end Network

/-- The variables that the attempts share, and what the attempts returned so far. -/
structure Vars (π : Type) where
  tlsConn : Option (Conn π)
  err : Option DialError
  made : List (Dialed π)

def attempt {π : Type} (dialed : Dialed π) (v : Vars π) : Vars π × Option DialError :=
  (⟨dialed.1, dialed.2, v.made ++ [dialed]⟩, dialed.2)

/-- The type of `retry.Do`, for attempts that share the variables. -/
abbrev RetryDo (π : Type) :=
  (Nat → Vars π → Vars π × Option DialError) → Vars π → Vars π × Option DialError

/-- `err = retry.Do(...)`. -/
def retryDial {π : Type} (retryDo : RetryDo π) (dial : Nat → Dialed π) (v : Vars π) : Vars π :=
  let (v, err) := retryDo (fun n ↦ attempt (dial n)) v
  { v with err := err }

def apiPrefix : Prefix := mustParsePrefix "141.101.113.0/24"

/-- The three stages of `TLSDial`. -/
def stages {π : Type} (retryDo : RetryDo π) (net : Network π) (network : Bytes) (ip : Addr)
    (sni : Bytes) : Vars π :=
  let v := retryDial retryDo (net.dialCurve · network ip sni) ⟨none, none, []⟩
  let v := if v.err.isSome then retryDial retryDo (net.dial2 · network ip sni) v else v
  if v.err.isSome then retryDial retryDo (net.dial3 · network ip sni) v else v

/-- `TLSDial`, with the random number for the address; `none` is a panic.  Beside what is returned
there is what the attempts returned that were made. -/
def tlsDial {π : Type} (retryDo : RetryDo π) (net : Network π) (network addr : Bytes)
    (randInt : Nat) : Option (Dialed π × List (Dialed π)) :=
  match splitHostPort addr with
  | none => some ((none, some .splitHostPort), [])
  | some (sni, _) =>
    (randomIPFromPrefix apiPrefix (randInt % randMax apiPrefix)).map fun
      | .error err => ((none, some (.randomIP err)), [])
      | .ok ip =>
        let v := stages retryDo net network ip sni
        -- not `v.err`
        ((v.tlsConn, none), v.made)

/-- What the caller relies on: there is no error if and only if some attempt succeeded, the
connection is the one of that attempt, and it is there if there is no error. -/
structure Reports {π : Type} (out : Dialed π × List (Dialed π)) : Prop where
  err_eq_none_iff : out.1.2 = none ↔ ∃ dialed ∈ out.2, dialed.2 = none
  conn_eq : ∀ dialed ∈ out.2, dialed.2 = none → out.1.1 = dialed.1
  conn_isSome : out.1.2 = none → out.1.1.isSome

section Attempts

variable {π : Type} {dial : Nat → Dialed π} {v : Vars π}

/-- A function for dialing returns a connection or an error. -/
def Dialed.Exclusive (dialed : Dialed π) : Prop := dialed.1 = none ↔ dialed.2.isSome

structure Vars.Failed (v : Vars π) : Prop where
  tlsConn : v.tlsConn = none
  made : ∀ dialed ∈ v.made, dialed.2.isSome

/-- The last attempt succeeded, and only this one. -/
structure Vars.Succeeded (v : Vars π) : Prop where
  tlsConn : v.tlsConn.isSome
  made : ∃ failed, (∀ dialed ∈ failed, dialed.2.isSome) ∧ v.made = failed ++ [(v.tlsConn, none)]

theorem attempt_ends {dialed : Dialed π} (hd : dialed.Exclusive) (hv : v.Failed) :
    Ends Vars.Failed Vars.Succeeded (attempt dialed v) := by
  obtain ⟨conn, _ | err⟩ := dialed
  · refine ⟨fun _ ↦ ⟨?_, v.made, hv.made, rfl⟩, nofun⟩
    rw [← Option.ne_none_iff_isSome]
    exact fun hnone ↦ nomatch hd.mp hnone
  · refine ⟨nofun, fun _ ↦ ⟨hd.mpr rfl, fun dialed hmem ↦ ?_⟩⟩
    rcases List.mem_append.mp hmem with hmem | hmem
    · exact hv.made dialed hmem
    · rw [List.mem_singleton.mp hmem]
      rfl

/-- The variable for the error says what the others hold. -/
def Vars.Told (v : Vars π) : Prop := Ends Vars.Failed Vars.Succeeded (v, v.err)

section Retry

variable {retryDo : RetryDo π} (hretry : Retries 3 retryDo)
include hretry

theorem retryDial_told (hd : ∀ n, (dial n).Exclusive) (hv : v.Failed) :
    (retryDial retryDo dial v).Told := by
  have hends : Ends Vars.Failed Vars.Succeeded (retryDo (fun n ↦ attempt (dial n)) v) :=
    hretry.ends (fun n _ hv ↦ attempt_ends (hd n) hv) hv
  constructor
  · intro hnone
    have hpost := hends.post hnone
    exact ⟨hpost.tlsConn, hpost.made⟩
  · intro hsome
    have hinv := hends.inv hsome
    exact ⟨hinv.tlsConn, hinv.made⟩

theorem retryDial_err_eq_none_iff :
    (retryDial retryDo dial v).err = none ↔ ∃ n < 3, (dial n).2 = none := by
  have hok (n : Nat) (v : Vars π) : (attempt (dial n) v).2 = none ↔ (dial n).2 = none := Iff.rfl
  exact hretry.err_eq_none_iff hok v

end Retry

end Attempts

section Stages

variable {π : Type} {retryDo : RetryDo π} (net : Network π) (network : Bytes) (ip : Addr)
  (sni : Bytes)

theorem dialPlain_exclusive (fprint : Fprint) (n : Nat) :
    (net.dialPlain fprint n network ip sni).Exclusive := by
  unfold Network.dialPlain
  split
  · exact iff_of_true rfl rfl
  · split
    · exact iff_of_true rfl rfl
    · exact iff_of_false nofun nofun

theorem makeTLSHelloPacketWithSNICurve_exclusive (n : Nat) (plainConn : π) :
    (net.makeTLSHelloPacketWithSNICurve n plainConn sni).Exclusive := by
  unfold Network.makeTLSHelloPacketWithSNICurve
  split
  · exact iff_of_true rfl rfl
  · split
    · exact iff_of_true rfl rfl
    · exact iff_of_false nofun nofun

theorem dialCurve_exclusive (n : Nat) : (net.dialCurve n network ip sni).Exclusive := by
  unfold Network.dialCurve
  split
  · exact iff_of_true rfl rfl
  · rename_i plainConn _
    have hmake := makeTLSHelloPacketWithSNICurve_exclusive net sni n plainConn
    split
    · exact iff_of_true rfl rfl
    · rename_i heq
      rwa [heq] at hmake

theorem stage_spec (hretry : Retries 3 retryDo) {dial : Nat → Dialed π} {v : Vars π}
    (hd : ∀ n, (dial n).Exclusive) (hv : v.Told) :
    let v' := if v.err.isSome then retryDial retryDo dial v else v
    v'.Told ∧ (v'.err = none ↔ v.err = none ∨ ∃ n < 3, (dial n).2 = none) := by
  intro v'
  rcases herr : v.err with _ | err
  · have hv' : v' = v := if_neg (by rw [herr]; exact Bool.false_ne_true)
    rw [hv', herr]
    exact ⟨hv, iff_of_true rfl (.inl rfl)⟩
  · have hsome : v.err.isSome := by rw [herr]; rfl
    have hv' : v' = retryDial retryDo dial v := if_pos hsome
    rw [hv']
    exact ⟨retryDial_told hretry hd (hv.inv hsome),
      (retryDial_err_eq_none_iff hretry).trans (or_iff_right nofun).symm⟩

/-- After the stages the error says what the variables hold, and whether some attempt could
succeed. -/
theorem stages_spec (hretry : Retries 3 retryDo) :
    (stages retryDo net network ip sni).Told ∧ ((stages retryDo net network ip sni).err = none ↔
      ∃ fprint, ∃ n < 3, (net.dialWith fprint n network ip sni).2 = none) := by
  have hv₁ : (retryDial retryDo (net.dialCurve · network ip sni) ⟨none, none, []⟩).Told :=
    retryDial_told hretry (dialCurve_exclusive net network ip sni) ⟨rfl, nofun⟩
  obtain ⟨hv₂, herr₂⟩ := stage_spec hretry (dialPlain_exclusive net network ip sni .tls) hv₁
  obtain ⟨hv₃, herr₃⟩ := stage_spec hretry (dialPlain_exclusive net network ip sni .chrome) hv₂
  refine ⟨hv₃, herr₃.trans ?_⟩
  rw [herr₂, retryDial_err_eq_none_iff hretry]
  constructor
  · rintro ((hcurve | htls) | hchrome)
    · exact ⟨.curve, hcurve⟩
    · exact ⟨.tls, htls⟩
    · exact ⟨.chrome, hchrome⟩
  · rintro ⟨_ | _ | _, hsome⟩
    · exact .inl (.inl hsome)
    · exact .inl (.inr hsome)
    · exact .inr hsome

end Stages

theorem exists_apiIP (randInt : Nat) :
    ∃ ip, randomIPFromPrefix apiPrefix (randInt % randMax apiPrefix) = some (.ok ip) := by
  have haccepted : Accepted apiPrefix := by
    constructor <;> decide +kernel
  exact ⟨_, haccepted.randomIPFromPrefix_eq (Nat.mod_lt _ (Nat.two_pow_pos _))⟩

/-- After a success the result of `TLSDial` is right. -/
theorem Vars.Succeeded.reports {π : Type} {v : Vars π} (hv : v.Succeeded) :
    Reports ((v.tlsConn, none), v.made) := by
  obtain ⟨failed, hfailed, hmade⟩ := hv.made
  have hlast : (v.tlsConn, none) ∈ v.made := by
    rw [hmade]
    exact List.mem_append_right _ (List.mem_singleton.mpr rfl)
  refine ⟨iff_of_true rfl ⟨_, hlast, rfl⟩, fun dialed hmem hnone ↦ ?_, fun _ ↦ hv.tlsConn⟩
  rw [hmade, List.mem_append, List.mem_singleton] at hmem
  rcases hmem with hmem | rfl
  · have hsome := hfailed dialed hmem
    rw [hnone] at hsome
    exact absurd hsome nofun
  · rfl

/-- `TLSDial` reports what happened unless the address can be split and all attempts fail. -/
theorem tlsDial_reports_iff {π : Type} (retryDo : RetryDo π) (hretry : Retries 3 retryDo)
    (net : Network π) (network addr : Bytes) (randInt : Nat) :
    ∃ ip out, randomIPFromPrefix apiPrefix (randInt % randMax apiPrefix) = some (.ok ip) ∧
      tlsDial retryDo net network addr randInt = some out ∧
      (Reports out ↔ ∀ sni port, splitHostPort addr = some (sni, port) →
        ∃ fprint, ∃ n < 3, (net.dialWith fprint n network ip sni).2 = none) := by
  obtain ⟨ip, hip⟩ := exists_apiIP randInt
  rcases hsplit : splitHostPort addr with _ | ⟨sni, port⟩
  · refine ⟨ip, _, hip, by rw [tlsDial, hsplit], iff_of_true ?_ nofun⟩
    exact ⟨iff_of_false nofun nofun, nofun, nofun⟩
  · obtain ⟨htold, hiff⟩ := stages_spec net network ip sni hretry
    have hdial : tlsDial retryDo net network addr randInt =
        some (((stages retryDo net network ip sni).tlsConn, none),
          (stages retryDo net network ip sni).made) := by
      rw [tlsDial, hsplit, hip]
      rfl
    refine ⟨ip, _, hip, hdial, ?_⟩
    have hcond : (∀ sni' port', some (sni, port) = some (sni', port') →
        ∃ fprint, ∃ n < 3, (net.dialWith fprint n network ip sni').2 = none) ↔
        (stages retryDo net network ip sni).err = none := by
      rw [hiff]
      constructor
      · exact fun hall ↦ hall sni port rfl
      · rintro hsome sni' port' heq
        cases heq
        exact hsome
    rw [hcond]
    refine ⟨fun hreports ↦ ?_, fun hnone ↦ (htold.post hnone).reports⟩
    by_contra hne
    have hnil := (htold.inv (Option.ne_none_iff_isSome.mp hne)).tlsConn
    have hconn := hreports.conn_isSome rfl
    rw [hnil] at hconn
    exact absurd hconn nofun

/-- The `retry.Do` that returns the errors of all attempts. -/
def retryThree {π : Type} : RetryDo π := retry 3 .retry

/-- The second fingerprint gets through in its second attempt. -/
def slowRoute : Network Nat where
  dial fprint n _ _ :=
    if fprint = .tls ∧ n = 1 then .ok n else .error (str "connect: connection refused")
  applyPreset _ _ _ := none
  handshake _ _ _ _ := none

/-- Four attempts fail before one succeeds, whose connection is returned. -/
theorem tlsDial_fifth_attempt :
    ∃ out, tlsDial retryThree slowRoute (str "tcp") (str "api.cloudflareclient.com:443") 0 =
      some out ∧
      Reports out ∧ out.2.length = 5 ∧ out.1.1 = some ⟨.tls, 1⟩ := by
  obtain ⟨ip, out, -, hout, hiff⟩ := tlsDial_reports_iff retryThree (retries_retry 3 _) slowRoute
    (str "tcp") (str "api.cloudflareclient.com:443") 0
  have hrun : (tlsDial retryThree slowRoute (str "tcp") (str "api.cloudflareclient.com:443") 0).any
      fun out ↦ out.2.length = 5 && out.1.1 = some ⟨.tls, 1⟩ := by
    decide +kernel
  rw [hout, Option.any_some, Bool.and_eq_true, decide_eq_true_eq, decide_eq_true_eq] at hrun
  exact ⟨out, hout, hiff.mpr fun _ _ _ ↦ ⟨.tls, 1, by decide, rfl⟩, hrun⟩

def noRoute : Network Empty where
  dial _ _ _ _ := .error (str "connect: network is unreachable")
  applyPreset _ conn _ := nomatch conn
  handshake _ _ conn _ := nomatch conn

/-- All nine attempts fail, and there is neither a connection nor an error. -/
theorem tlsDial_nil_nil :
    ∃ out, tlsDial retryThree noRoute (str "tcp") (str "api.cloudflareclient.com:443") 0 =
      some out ∧
      out.2.length = 9 ∧ (∀ dialed ∈ out.2, dialed.2.isSome) ∧ out.1.1 = none ∧ out.1.2 = none ∧
      ¬ Reports out := by
  have hrun :
      (tlsDial retryThree noRoute (str "tcp") (str "api.cloudflareclient.com:443") 0).any fun out ↦
      out.2.length = 9 && out.2.all (·.2.isSome) && out.1.1.isNone && out.1.2.isNone := by
    decide +kernel
  obtain ⟨out, hout, hall⟩ := (Option.any_eq_true _ _).mp hrun
  simp only [Bool.and_eq_true, decide_eq_true_eq, List.all_eq_true,
    Option.isNone_iff_eq_none] at hall
  obtain ⟨⟨⟨hlength, hmade⟩, hconn⟩, herr⟩ := hall
  refine ⟨out, hout, hlength, hmade, hconn, herr, fun hreports ↦ ?_⟩
  have hsome := hreports.conn_isSome herr
  rw [hconn] at hsome
  exact absurd hsome nofun

end Vwarp.Warp
