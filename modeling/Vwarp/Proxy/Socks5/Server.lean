import Vwarp.Proxy.Socks5.Common

/-!
# `Server.ServeConn`: greeting, request and handler

The server reads a greeting and a request off the connection and then calls a handler.
The model follows `ServeConn` and `handle` over any reader, up to the call: what was
written before it, and what is called with which rest of the connection.

On a source the handler is called exactly for the streams that begin with a greeting
and a request as `Requests` describes them: `serveConn_of_requests` and
`requests_of_serveConn`.  What is written before depends on the stream only
(`Same.serveConn`).
-/

namespace Vwarp.Proxy.Socks5

open Vwarp.Go
open Source (Ready Serves content serves_of_le)

universe u

/-- `noAuth`. -/
def noAuth : UInt8 := 0x00

/-- `noAcceptable`. -/
def noAcceptable : UInt8 := 0xff

/-- `ConnectCommand`. -/
def connectCommand : UInt8 := 0x01

/-- `AssociateCommand`. -/
def associateCommand : UInt8 := 0x03

/-- `successReply`. -/
def successReply : UInt8 := 0x00

/-- `commandNotSupported`. -/
def commandNotSupported : UInt8 := 0x07

/-- `addrTypeNotSupported`. -/
def addrTypeNotSupported : UInt8 := 0x08

def ReadError.error : ReadError → Error
  | io err => err
  | unrecognizedAddrType => .text (str "unrecognized address type")

/-- `Command.String`. -/
def commandString (cmd : UInt8) : Bytes :=
  if cmd = connectCommand then str "socks connect"
  else if cmd = associateCommand then str "socks associate"
  else str "socks " ++ itoa cmd.toNat

/-- `statute.ProxyRequest`, without the connection. -/
structure ProxyRequest where
  network : Bytes
  destination : Bytes
  destHost : Bytes
  destPort : Nat
deriving DecidableEq, Repr

/-- What `handle` calls. -/
inductive Call
  | /-- `UserConnectHandle`, after the reply. -/
    userConnect (req : ProxyRequest)
  | /-- `embedHandleConnect`, which dials before it replies. -/
    embedConnect (dest : Address)
  | /-- `handleAssociate`, which opens a packet connection before it replies. -/
    associate (dest : Address)
deriving DecidableEq, Repr

/-- What serving a connection comes to: everything written, and then a call with the rest
of the connection or an error. -/
structure Served (ρ : Type u) where
  written : Bytes
  result : Except Error (Call × ρ)

/-- The part of `Server` that decides what is called. -/
structure Server where
  /-- Whether `UserConnectHandle` is set. -/
  userConnectHandle : Bool

section Serve

variable {ρ : Type u} {α : Type}

def Served.error (err : Error) : Served ρ := ⟨[], .error err⟩

def Served.afterRead (x : Except ReadError (α × ρ)) (next : α → ρ → Served ρ) : Served ρ :=
  match x with
  | .error err => .error err.error
  | .ok (a, conn) => next a conn

/-- Go on after a write, or return its error, wrapped or not; `write` is what writing the
bytes returns. -/
def Served.afterWrite (write : Bytes → Option Error) (wrap : Error → Error) (bs : Bytes)
    (next : Served ρ) : Served ρ :=
  match write bs with
  | some err => .error (wrap err)
  | none => { next with written := bs ++ next.written }

/-- Go on after `sendReply` without an address. -/
def Served.afterReply (write : Bytes → Option Error) (wrap : Error → Error) (resp : UInt8)
    (next : Served ρ) : Served ρ :=
  match sendReply resp none with
  | some bs => .afterWrite write wrap bs next
  | none => .error (wrap (.text (str "string too long")))

def errorText : Error → Bytes
  | .eof => str "EOF"
  | .unexpectedEOF => str "unexpected EOF"
  | .text msg => msg

/-- `fmt.Errorf("failed to send reply: %v", err)`. -/
def failedToSend (err : Error) : Error := .text (str "failed to send reply: " ++ errorText err)

/-- The request that `handleConnect` makes for the user's handler. -/
def proxyRequest (dest : Address) : ProxyRequest where
  network := str "tcp"
  destination := dest.string
  destHost := if dest.name ≠ [] then dest.name else ipString dest.ip
  destPort := dest.port

/-- `Server.handle`. -/
def handle (s : Server) (write : Bytes → Option Error) (cmd : UInt8) (dest : Address) (conn : ρ) :
    Served ρ :=
  if cmd = connectCommand then
    if s.userConnectHandle then
      .afterReply write failedToSend successReply
        ⟨[], .ok (.userConnect (proxyRequest dest), conn)⟩
    else ⟨[], .ok (.embedConnect dest, conn)⟩
  else if cmd = associateCommand then ⟨[], .ok (.associate dest, conn)⟩
  else
    .afterReply write id commandNotSupported
      (.error (.text (str "unsupported Command: " ++ commandString cmd)))

/-- `ServeConn` after the greeting. -/
def serveRequest [Reader ρ] (s : Server) (write : Bytes → Option Error) (conn : ρ) : Served ρ :=
  .afterRead (readN conn 3) fun header conn ↦
    if header.getD 0 0 ≠ socks5Version then
      .error (.text (str "unsupported Command version: " ++ itoa (header.getD 0 0).toNat))
    else
      match readAddr conn with
      | .error .unrecognizedAddrType =>
        .afterReply write id addrTypeNotSupported (.error (ReadError.error .unrecognizedAddrType))
      | x => .afterRead x fun dest conn ↦ handle s write (header.getD 1 0) dest conn

/-- `Server.ServeConn`. -/
def serveConn [Reader ρ] (s : Server) (write : Bytes → Option Error) (conn : ρ) : Served ρ :=
  .afterRead (readByte conn) fun version conn ↦
    if version ≠ socks5Version then
      .error (.text (str "unsupported SOCKS version: " ++ itoa version.toNat))
    else
      .afterRead (readBytes conn) fun methods conn ↦
        if noAuth ∈ methods then
          .afterWrite write id [socks5Version, noAuth] (serveRequest s write conn)
        else
          .afterWrite write id [socks5Version, noAcceptable]
            (.error (.text (str "no supported authentication mechanism")))

end Serve

/-! ## Which streams are served -/

/-- The stream is a greeting of version 5 that offers no authentication, a request of
version 5 to connect or to associate with an address, and `rest`. -/
inductive Requests : Bytes → UInt8 → Address → Bytes → Prop
  | /-- The bytes of a greeting and of a request. -/
    mk {nmethods cmd rsv : UInt8} {methods enc : Bytes} {dest : Address} {rest : Bytes} :
      nmethods.toNat = methods.length → noAuth ∈ methods →
      cmd = connectCommand ∨ cmd = associateCommand → Encodes enc dest →
      Requests
        (socks5Version :: nmethods :: (methods ++ socks5Version :: cmd :: rsv :: (enc ++ rest)))
        cmd dest rest

def Server.call (s : Server) (cmd : UInt8) (dest : Address) : Call :=
  if cmd = associateCommand then .associate dest
  else if s.userConnectHandle then .userConnect (proxyRequest dest)
  else .embedConnect dest

section Source

variable {ρ : Type} {r : ρ} {s : Server} {write : Bytes → Option Error} {α : Type}

theorem result_afterWrite (hw : ∀ bs, write bs = none) (wrap : Error → Error) (bs : Bytes)
    (next : Served ρ) : (Served.afterWrite write wrap bs next).result = next.result := by
  rw [Served.afterWrite, hw]

theorem result_afterReply (hw : ∀ bs, write bs = none) (wrap : Error → Error) (resp : UInt8)
    (next : Served ρ) : (Served.afterReply write wrap resp next).result = next.result :=
  result_afterWrite hw wrap _ next

variable {call : Call × ρ} {cmd : UInt8}

theorem afterRead_ok {x : Except ReadError (α × ρ)} {next : α → ρ → Served ρ}
    (h : (Served.afterRead x next).result = .ok call) :
    ∃ a r', x = .ok (a, r') ∧ (next a r').result = .ok call := by
  unfold Served.afterRead at h
  split at h
  · cases h
  · exact ⟨_, _, rfl, h⟩

/-- `handle` calls for two commands. -/
theorem handle_ok (hw : ∀ bs, write bs = none) {dest : Address}
    (h : (handle s write cmd dest r).result = .ok call) :
    (cmd = connectCommand ∨ cmd = associateCommand) ∧ call = (s.call cmd dest, r) := by
  unfold handle at h
  unfold Server.call
  split at h
  · rename_i hconnect
    refine ⟨.inl hconnect, ?_⟩
    rw [hconnect, if_neg (by decide)]
    split_ifs at h with huser
    · rw [result_afterReply hw] at h
      rw [if_pos huser, Except.ok.inj h]
    · rw [if_neg huser, Except.ok.inj h]
  · split_ifs at h with hassociate
    · refine ⟨.inr hassociate, ?_⟩
      rw [if_pos hassociate, Except.ok.inj h]
    · rw [result_afterReply hw] at h
      cases h

theorem handle_of_command (hw : ∀ bs, write bs = none)
    (hcmd : cmd = connectCommand ∨ cmd = associateCommand) (dest : Address) :
    (handle s write cmd dest r).result = .ok (s.call cmd dest, r) := by
  have hne : connectCommand ≠ associateCommand := by decide
  unfold handle Server.call
  rcases hcmd with rfl | rfl
  · rw [if_pos rfl, if_neg hne]
    split_ifs
    · rw [result_afterReply hw]
    · rfl
  · rw [if_neg hne.symm, if_pos rfl, if_pos rfl]

variable [Source ρ] (hs : Serves ρ 255)

include hs

theorem serveRequest_ok (hw : ∀ bs, write bs = none) (hr : Ready r)
    (h : (serveRequest s write r).result = .ok call) :
    ∃ cmd rsv enc dest, (cmd = connectCommand ∨ cmd = associateCommand) ∧ Encodes enc dest ∧
      content r = socks5Version :: cmd :: rsv :: (enc ++ content call.2) ∧
      call.1 = s.call cmd dest ∧ Ready call.2 := by
  obtain ⟨header, r₁, h₁, h⟩ := afterRead_ok h
  obtain ⟨hlen, hcont₁, hafter₁⟩ := readN_ok hr (serves_of_le (by decide) hs) h₁
  obtain ⟨version, cmd, rsv, rfl⟩ := List.length_eq_three.mp hlen
  simp only [List.getD_cons_zero, List.getD_cons_succ] at h
  split_ifs at h with hversion
  · cases h
  · split at h
    · rw [result_afterReply hw] at h
      cases h
    · obtain ⟨dest, r₂, h₂, h⟩ := afterRead_ok h
      obtain ⟨enc, henc, hcont₂, hafter₂⟩ := encodes_of_readAddr hafter₁.ready hs h₂
      obtain ⟨hcmd, rfl⟩ := handle_ok hw h
      refine ⟨cmd, rsv, enc, dest, hcmd, henc, ?_, rfl, hafter₂.ready⟩
      rw [hcont₁, hcont₂, not_not.mp hversion]
      rfl

theorem requests_of_serveConn (hw : ∀ bs, write bs = none) (hr : Ready r) {call : Call}
    {conn : ρ} (h : (serveConn s write r).result = .ok (call, conn)) :
    ∃ cmd dest, Requests (content r) cmd dest (content conn) := by
  obtain ⟨version, r₁, h₁, h⟩ := afterRead_ok h
  obtain ⟨hcont₁, hafter₁⟩ := readByte_ok hr (serves_of_le (by decide) hs) h₁
  split_ifs at h with hversion
  · cases h
  · obtain ⟨methods, r₂, h₂, h⟩ := afterRead_ok h
    obtain ⟨nmethods, hlen, hcont₂, hready₂⟩ := readBytes_ok hafter₁.ready hs h₂
    split_ifs at h with hauth
    · rw [result_afterWrite hw] at h
      obtain ⟨cmd, rsv, enc, dest, hcmd, henc, hcont₃, -, -⟩ := serveRequest_ok hs hw hready₂ h
      refine ⟨cmd, dest, ?_⟩
      rw [hcont₁, hcont₂, hcont₃, not_not.mp hversion]
      exact .mk hlen hauth hcmd henc
    · rw [result_afterWrite hw] at h
      cases h

/-- A request is handled, with the rest of the stream. -/
theorem serveConn_of_requests (hw : ∀ bs, write bs = none) (hr : Ready r)
    {dest : Address} {rest : Bytes} (h : Requests (content r) cmd dest rest) :
    ∃ conn, (serveConn s write r).result = .ok (s.call cmd dest, conn) ∧
      Ready conn ∧ content conn = rest := by
  generalize hstream : content r = stream at h
  obtain @⟨nmethods, _, rsv, methods, enc, _, _, hlen, hauth, hcmd, henc⟩ := h
  obtain ⟨r₁, h₁, hafter₁⟩ := readByte_cons hr (serves_of_le (by decide) hs) hstream
  have hc₁ : content r₁ =
      nmethods :: (methods ++ socks5Version :: cmd :: rsv :: (enc ++ rest)) := by
    rw [hafter₁.content, hstream]
    rfl
  obtain ⟨r₂, h₂, hready₂, hc₂⟩ := readBytes_of_content hafter₁.ready hs hlen hc₁
  obtain ⟨r₃, h₃, hafter₃⟩ := readN_of_le hready₂ (n := 3) (serves_of_le (by decide) hs)
    (by rw [hc₂]; simp)
  have hc₃ : content r₃ = enc ++ rest := by
    rw [hafter₃.content, hc₂]
    rfl
  obtain ⟨r₄, h₄, hafter₄⟩ := readAddr_of_encodes hafter₃.ready hs henc hc₃
  refine ⟨r₄, ?_, hafter₄.ready, by rw [hafter₄.content, hc₃, List.drop_left]⟩
  rw [hc₂] at h₃
  simp only [serveConn, h₁, Served.afterRead, h₂, ne_eq, not_true, if_false, hauth, if_true,
    result_afterWrite hw, serveRequest, h₃, h₄, List.take_succ_cons, List.getD_cons_zero,
    List.getD_cons_succ, handle_of_command hw hcmd]

end Source

/-! ## What is written -/

section Segmentation

variable {ρ σ : Type} {α : Type} {write : Bytes → Option Error} {wrap : Error → Error}

theorem written_afterWrite (bs : Bytes) {next : Served ρ} {next' : Served σ}
    (h : next.written = next'.written) :
    (Served.afterWrite write wrap bs next).written =
      (Served.afterWrite write wrap bs next').written := by
  unfold Served.afterWrite
  cases write bs with
  | none => exact congrArg (bs ++ ·) h
  | some err => rfl

theorem written_afterReply (resp : UInt8) {next : Served ρ} {next' : Served σ}
    (h : next.written = next'.written) :
    (Served.afterReply write wrap resp next).written =
      (Served.afterReply write wrap resp next').written :=
  written_afterWrite _ h

/-- `handle` reads nothing. -/
theorem written_handle (s : Server) (cmd : UInt8) (dest : Address) (r : ρ) (r' : σ) :
    (handle s write cmd dest r).written = (handle s write cmd dest r').written := by
  unfold handle
  split
  · split
    · exact written_afterReply _ rfl
    · rfl
  · split
    · rfl
    · exact written_afterReply _ rfl

variable [Source ρ] [Source σ]

theorem ReadAlike.afterRead {x : Except ReadError (α × ρ)} {y : Except ReadError (α × σ)}
    {next : α → ρ → Served ρ} {next' : α → σ → Served σ} (h : ReadAlike x y)
    (hnext : ∀ a r r', Same r r' → (next a r).written = (next' a r').written) :
    (Served.afterRead x next).written = (Served.afterRead y next').written := by
  cases h with
  | ok hsame => exact hnext _ _ _ hsame
  | io | unrecognizedAddrType => rfl

variable (hs : Serves ρ 255) (hs' : Serves σ 255)

include hs hs'

theorem Same.serveRequest (s : Server) {r : ρ} {r' : σ} (h : Same r r') :
    (Socks5.serveRequest s write r).written = (Socks5.serveRequest s write r').written := by
  refine (h.readN (serves_of_le (by decide) hs)
    (serves_of_le (by decide) hs')).afterRead ?_
  intro header r r' h
  split
  · rfl
  · have haddr := h.readAddr hs hs'
    generalize hx : Socks5.readAddr r = x at haddr
    generalize hy : Socks5.readAddr r' = y at haddr
    cases haddr with
    | ok hsame => exact written_handle s _ _ _ _
    | io => rfl
    | unrecognizedAddrType => exact written_afterReply _ rfl

theorem Same.serveConn (s : Server) {r : ρ} {r' : σ} (h : Same r r') :
    (Socks5.serveConn s write r).written = (Socks5.serveConn s write r').written := by
  refine (h.readByte (serves_of_le (by decide) hs)
    (serves_of_le (by decide) hs')).afterRead ?_
  intro version r r' h
  split
  · rfl
  · refine (h.readBytes hs hs').afterRead ?_
    intro methods r r' h
    split
    · exact written_afterWrite _ (h.serveRequest hs hs' s)
    · exact written_afterWrite _ rfl

end Segmentation

end Vwarp.Proxy.Socks5
