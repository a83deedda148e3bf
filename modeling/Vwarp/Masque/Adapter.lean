import Vwarp.Go.Strings
import Vwarp.Lib.Handles

/-!
# `NewMasqueAdapter` and the sockets it opens

`NewMasqueAdapter` prepares the keys and the endpoint and then calls `ConnectTunnelWithNoize` or
`ConnectTunnelOptimized`.  Either opens a UDP socket, dials QUIC over it and asks for an IP
tunnel.  `quic.Dial` does not own the socket it is given, so the socket is open until `Close` is
called on it.  Both functions return the socket beside the error when one of the two dials fails.

`newMasqueAdapter_outcome` is everything that a call can do to the sockets: one of its error
returns leaves the new socket open.

The outcome of each call into the network is given by an `Attempt`.  The noise that
`ConnectTunnelWithNoize` wraps the socket with does not open or close it.
-/

namespace Vwarp.Masque

open Vwarp.Go Vwarp.Lib

/-- The status of an `http.Response`. -/
structure Response where
  statusCode : Int
  status : Bytes

/-- What the calls of one `NewMasqueAdapter` return; an error is its text. -/
structure Attempt where
  /-- The error of what comes before the tunnel: configuration, keys and the test of the
  endpoint. -/
  setup : Option Bytes
  /-- The error of `net.ListenUDP`. -/
  listenUDP : Option Bytes
  /-- The error of `quic.Dial`. -/
  quicDial : Option Bytes
  /-- The result of `connectip.Dial`. -/
  connectIP : Except Bytes (Option Response)

/-- What `ConnectTunnelWithNoize` and `ConnectTunnelOptimized` return. -/
structure Tunnel where
  conn : Option Nat
  /-- There is an `http3.Transport`. -/
  transport : Bool
  rsp : Option Response
  err : Option Bytes

/-- The error of `connectip.Dial` that is reported as a failed login. -/
def accessDenied : Bytes := str "CRYPTO_ERROR 0x131 (remote): tls: access denied"

def loginFailed : Bytes :=
  str "login failed! Please double-check if your tls key and cert is enrolled in the Cloudflare Access service"

/-- The error that is returned for an error of `connectip.Dial`. -/
def connectIPError (err : Bytes) : Bytes :=
  if err = accessDenied then loginFailed else str "failed to dial connect-ip: " ++ err

/-- The body that `ConnectTunnelWithNoize` and `ConnectTunnelOptimized` share. -/
def connectTunnel (attempt : Attempt) (sockets : Handles) : Handles × Tunnel :=
  match attempt.listenUDP with
  | some err => (sockets, ⟨none, false, none, some err⟩)
  | none =>
    let udpConn := sockets.next
    let sockets := sockets.alloc
    match attempt.quicDial with
    | some err => (sockets, ⟨some udpConn, false, none, some err⟩)
    | none =>
      match attempt.connectIP with
      | .error err =>
        (sockets, ⟨some udpConn, false, none, some (connectIPError err)⟩)
      | .ok rsp => (sockets, ⟨some udpConn, true, rsp, none⟩)

/-- `ConnectTunnelWithNoize`. -/
def connectTunnelWithNoize (attempt : Attempt) (sockets : Handles) : Handles × Tunnel :=
  connectTunnel attempt sockets

/-- `ConnectTunnelOptimized`. -/
def connectTunnelOptimized (attempt : Attempt) (sockets : Handles) : Handles × Tunnel :=
  connectTunnel attempt sockets

/-- The connection that an adapter keeps to close it. -/
inductive ActualConn
  | /-- A `*net.UDPConn`. -/
    udp (socket : Nat)
  | /-- An `*http3.Transport`. -/
    transport
deriving DecidableEq

/-- `MasqueAdapter`, as far as `Close` looks at it. -/
structure MasqueAdapter where
  conn : Option ActualConn
deriving DecidableEq

def Tunnel.adapter (tunnel : Tunnel) : MasqueAdapter :=
  match tunnel.conn with
  | some conn => ⟨some (.udp conn)⟩
  | none => if tunnel.transport then ⟨some .transport⟩ else ⟨none⟩

/-- `NewMasqueAdapter`, with or without a configuration of the noise. -/
def newMasqueAdapter (noize : Bool) (attempt : Attempt) (sockets : Handles) :
    Handles × Except Bytes MasqueAdapter :=
  match attempt.setup with
  | some err => (sockets, .error err)
  | none =>
    let (sockets, tunnel) :=
      if noize then connectTunnelWithNoize attempt sockets
      else connectTunnelOptimized attempt sockets
    match tunnel.err with
    | some err => (sockets, .error (str "failed to establish MASQUE tunnel: " ++ err))
    | none =>
      match tunnel.rsp with
      | none => (sockets, .ok tunnel.adapter)
      | some rsp =>
        if rsp.statusCode ≠ 200 then
          (sockets.closeHeld tunnel.conn,
            .error (str "MASQUE tunnel connection failed: " ++ rsp.status))
        else (sockets, .ok tunnel.adapter)

def MasqueAdapter.socket (adapter : MasqueAdapter) : Option Nat :=
  match adapter.conn with
  | some (.udp socket) => some socket
  | _ => none

/-- `MasqueAdapter.Close`: a transport has no socket of its own. -/
def MasqueAdapter.close (adapter : MasqueAdapter) (sockets : Handles) : Handles :=
  sockets.closeHeld adapter.socket

/-! ## What a call does to the sockets -/

def Attempt.Clean (attempt : Attempt) : Prop :=
  attempt.setup = none → attempt.listenUDP = none →
    attempt.quicDial = none ∧ ∃ rsp, attempt.connectIP = .ok rsp

/-- The outcomes of `NewMasqueAdapter`, from a table of sockets. -/
inductive Outcome (attempt : Attempt) (sockets : Handles) :
    Handles × Except Bytes MasqueAdapter → Prop
  | /-- It fails before there is a socket. -/
    unopened (err : Bytes) : attempt.Clean → Outcome attempt sockets (sockets, .error err)
  | /-- A dial fails, and the socket stays open. -/
    leaked (err : Bytes) : ¬ attempt.Clean → Outcome attempt sockets (sockets.alloc, .error err)
  | /-- The tunnel is rejected, and the socket is closed. -/
    rejected (err : Bytes) : attempt.Clean →
      Outcome attempt sockets (sockets.alloc.close sockets.next, .error err)
  | /-- There is an adapter for the socket. -/
    connected : attempt.Clean →
      Outcome attempt sockets (sockets.alloc, .ok ⟨some (.udp sockets.next)⟩)

/-- Every call has one of the outcomes. -/
theorem newMasqueAdapter_outcome (noize : Bool) (attempt : Attempt) (sockets : Handles) :
    Outcome attempt sockets (newMasqueAdapter noize attempt sockets) := by
  -- the choice of the function makes no difference
  have hconnect : (if noize then connectTunnelWithNoize attempt sockets
      else connectTunnelOptimized attempt sockets) = connectTunnel attempt sockets := ite_self _
  rw [newMasqueAdapter, hconnect]
  cases hsetup : attempt.setup with
  | some err =>
    refine .unopened err fun hnone ↦ ?_
    cases hsetup.symm.trans hnone
  | none =>
    dsimp only
    rw [connectTunnel]
    cases hlisten : attempt.listenUDP with
    | some err =>
      refine .unopened _ fun _ hnone ↦ ?_
      cases hlisten.symm.trans hnone
    | none =>
      dsimp only
      cases hquic : attempt.quicDial with
      | some err =>
        refine .leaked _ fun hclean ↦ ?_
        have hnone := (hclean hsetup hlisten).1
        cases hquic.symm.trans hnone
      | none =>
        dsimp only
        cases hip : attempt.connectIP with
        | error err =>
          refine .leaked _ fun hclean ↦ ?_
          obtain ⟨rsp, hok⟩ := (hclean hsetup hlisten).2
          cases hip.symm.trans hok
        | ok rsp =>
          have hclean : attempt.Clean := fun _ _ ↦ ⟨hquic, rsp, hip⟩
          cases rsp with
          | none => exact .connected hclean
          | some rsp =>
            dsimp only
            split
            · exact .rejected _ hclean
            · exact .connected hclean

/-- An error return leaves no socket open that the call opened. -/
def Closes (noize : Bool) (attempt : Attempt) : Prop :=
  ∀ (sockets : Handles) (err : Bytes), (newMasqueAdapter noize attempt sockets).2 = .error err →
    ∀ i, (newMasqueAdapter noize attempt sockets).1.IsOpen i → sockets.IsOpen i

/-- A call closes what it opened when it fails exactly if it is clean. -/
theorem closes_iff (noize : Bool) (attempt : Attempt) : Closes noize attempt ↔ attempt.Clean := by
  constructor
  · intro hcloses
    have hcloses := hcloses .empty
    have houtcome := newMasqueAdapter_outcome noize attempt .empty
    generalize newMasqueAdapter noize attempt .empty = result at hcloses houtcome
    cases houtcome with
    | unopened err hclean | rejected err hclean | connected hclean => exact hclean
    | leaked err hleaks => cases hcloses err rfl 0 rfl
  · intro hclean sockets err herr i hopen
    have houtcome := newMasqueAdapter_outcome noize attempt sockets
    generalize newMasqueAdapter noize attempt sockets = result at herr hopen houtcome
    cases houtcome with
    | unopened err' _ => exact hopen
    | leaked err' hleaks => exact absurd hclean hleaks
    | rejected err' _ =>
      obtain ⟨hopen, hne⟩ := Handles.isOpen_close.mp hopen
      exact (Handles.isOpen_alloc.mp hopen).resolve_right hne
    | connected _ => cases herr

/-- A clean call made while nothing is open leaves at most the socket of its adapter open. -/
theorem Attempt.Clean.held {noize : Bool} {attempt : Attempt} {sockets : Handles}
    (hclean : attempt.Clean) (hnone : ∀ i, ¬ sockets.IsOpen i) (i : Nat)
    (hopen : (newMasqueAdapter noize attempt sockets).1.IsOpen i) :
    ∃ adapter, (newMasqueAdapter noize attempt sockets).2 = .ok adapter ∧
      adapter.socket = some i := by
  have houtcome := newMasqueAdapter_outcome noize attempt sockets
  generalize newMasqueAdapter noize attempt sockets = result at hopen houtcome ⊢
  cases houtcome with
  | unopened err _ => exact absurd hopen (hnone i)
  | leaked err hleaks => exact absurd hclean hleaks
  | rejected err _ => exact absurd hopen (Handles.not_isOpen_close_alloc hnone i)
  | connected _ =>
    refine ⟨_, rfl, ?_⟩
    rw [Handles.eq_next_of_isOpen_alloc hnone hopen]
    rfl

end Vwarp.Masque
