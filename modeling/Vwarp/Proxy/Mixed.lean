import Vwarp.Go.Bufio
import Vwarp.Proxy.Socks4.Server

/-!
# The mixed proxy

`Proxy.handleConnection` puts a buffered reader in front of the connection, looks at the
first byte and hands the connection to the server for SOCKS5, SOCKS4 or HTTP.  The peeked
byte stays in the buffer, so the server reads the stream from its first byte.

`socks5_request_exact` says for which streams the SOCKS5 server calls its handler, with
which destination and which rest of the stream, however the stream is cut into reads, and
`socks4_request_exact` the same of the requests that the SOCKS4 server recognises.
-/

namespace Vwarp.Proxy.Mixed

open Vwarp.Go Vwarp.Proxy.Socks5

/-- The size of the buffer of a `SwitchConn`. -/
def switchSize : Nat := 2048

/-- `SwitchConn`. -/
abbrev SwitchConn := BufReader switchSize

/-- `NewSwitchConn`. -/
def newSwitchConn (conn : Conn) : SwitchConn := .new switchSize conn

/-- What becomes of a connection. -/
inductive Dispatch
  | error (err : Error)
  | socks5 (served : Served SwitchConn)
  | socks4 (conn : SwitchConn)
  | http (conn : SwitchConn)

/-- `Proxy.handleConnection`. -/
def handleConnection (s : Server) (write : Bytes → Option Error) (conn : Conn) : Dispatch :=
  match (newSwitchConn conn).peek 1 with
  | ((_, some err), _) => .error err
  | ((buf, none), switchConn) =>
    if buf.headD 0 = 5 then .socks5 (serveConn s write switchConn)
    else if buf.headD 0 = 4 then .socks4 switchConn
    else .http switchConn

namespace Dispatch

/-- The call of a SOCKS5 handler, with the connection it is given. -/
def call? : Dispatch → Option (Call × SwitchConn)
  | socks5 ⟨_, .ok call⟩ => some call
  | _ => none

def written : Dispatch → Bytes
  | socks5 served => served.written
  | _ => []

end Dispatch

variable {s : Server} {write : Bytes → Option Error} {c : Conn}

theorem switchSize_pos : 0 < switchSize := by decide

theorem serves_switchConn : Source.Serves SwitchConn 255 :=
  show 255 < switchSize by decide

/-- A new `SwitchConn` is a source of what the connection receives. -/
theorem newSwitchConn_spec (hc : c.Progress) :
    (newSwitchConn c).Ready ∧ (newSwitchConn c).content = c.received :=
  ⟨fun _ ↦ hc, rfl⟩

theorem handleConnection_socks5 (s : Server) (write : Bytes → Option Error) (hc : c.Progress)
    {cs : Bytes} (h : c.received = socks5Version :: cs) :
    ∃ switchConn : SwitchConn, handleConnection s write c = .socks5 (serveConn s write switchConn) ∧
      switchConn.Ready ∧ switchConn.content = c.received := by
  obtain ⟨hready, hcontent⟩ := newSwitchConn_spec hc
  obtain ⟨switchConn, hpeek, hafter⟩ :=
    BufReader.peek_one_cons hready switchSize_pos (hcontent.trans h)
  refine ⟨switchConn, ?_, hafter.ready, hafter.content.trans hcontent⟩
  rw [handleConnection, hpeek]
  rfl

/-- A stream that begins otherwise is not, and nothing is written. -/
theorem handleConnection_other (hc : c.Progress) (h : ∀ cs, c.received ≠ socks5Version :: cs) :
    (handleConnection s write c).call? = none ∧ (handleConnection s write c).written = [] := by
  obtain ⟨hready, hcontent⟩ := newSwitchConn_spec hc
  cases hrec : c.received with
  | nil =>
    have hpeek := BufReader.peek_one_nil hready switchSize_pos (hcontent.trans hrec)
    have herror : handleConnection s write c = .error (newSwitchConn c).final := by
      rw [handleConnection]
      generalize (newSwitchConn c).peek 1 = x at hpeek
      obtain ⟨⟨buf, err⟩, b⟩ := x
      obtain ⟨rfl, rfl⟩ : buf = [] ∧ err = some _ := by simpa using hpeek
      rfl
    rw [herror]
    exact ⟨rfl, rfl⟩
  | cons b bs =>
    obtain ⟨switchConn, hpeek, -⟩ :=
      BufReader.peek_one_cons hready switchSize_pos (hcontent.trans hrec)
    have hb : b ≠ 5 := fun hb ↦ h bs (by rw [hrec, hb]; rfl)
    have hdispatch : handleConnection s write c =
        if b = 5 then .socks5 (serveConn s write switchConn)
        else if b = 4 then .socks4 switchConn else .http switchConn := by
      rw [handleConnection, hpeek]
      rfl
    rw [hdispatch, if_neg hb]
    split
    all_goals exact ⟨rfl, rfl⟩

/-- What the SOCKS5 server writes does not depend on the segmentation. -/
theorem written_eq {c' : Conn} (hc : c.Progress) (hc' : c'.Progress)
    (h : c.received = c'.received) :
    (handleConnection s write c).written = (handleConnection s write c').written := by
  by_cases hfirst : ∃ cs, c.received = socks5Version :: cs
  · obtain ⟨cs, hcs⟩ := hfirst
    obtain ⟨conn, hd, hready, hcontent⟩ := handleConnection_socks5 s write hc hcs
    obtain ⟨conn', hd', hready', hcontent'⟩ :=
      handleConnection_socks5 s write hc' (h ▸ hcs)
    rw [hd, hd']
    have hsame : Same conn conn' := ⟨hready, hready', hcontent.trans (h.trans hcontent'.symm)⟩
    exact hsame.serveConn serves_switchConn serves_switchConn s
  · have hother := not_exists.mp hfirst
    rw [(handleConnection_other hc hother).2, (handleConnection_other hc' (h ▸ hother)).2]

theorem cons_of_requests {stream : Bytes} {cmd : UInt8} {dest : Address} {rest : Bytes}
    (h : Requests stream cmd dest rest) : ∃ cs, stream = socks5Version :: cs := by
  cases h
  exact ⟨_, rfl⟩

/-- The call is made for the address: an IP, or a name that is not empty, and the port. -/
def Targets (dest : Address) : Call → Prop
  | .userConnect req => req.destPort = dest.port ∧
      (dest.ip ≠ [] → req.destHost = ipString dest.ip ∧
        req.destination = joinHostPort (ipString dest.ip) (itoa dest.port)) ∧
      (dest.name ≠ [] → req.destHost = dest.name ∧
        req.destination = joinHostPort dest.name (itoa dest.port))
  | .embedConnect a => a = dest
  | .associate a => a = dest

theorem targets_call {enc : Bytes} {dest : Address} (h : Encodes enc dest) (cmd : UInt8) :
    Targets dest (s.call cmd dest) := by
  have hexclusive : dest.ip = [] ∨ dest.name = [] := by
    cases h with
    | mk hhost _ =>
      cases hhost with
      | ipv4 _ | ipv6 _ => exact .inr rfl
      | fqdn _ => exact .inl rfl
  unfold Server.call
  split
  · rfl
  · split
    · refine ⟨rfl, ?_, ?_⟩
      · intro hip
        have hname := hexclusive.resolve_left hip
        exact ⟨if_neg (not_not.mpr hname), if_pos hip⟩
      · intro hname
        have hip := hexclusive.resolve_right hname
        exact ⟨if_pos hname, if_neg (not_not.mpr hip)⟩
    · rfl

/-- **SOCKS5 requests are parsed exactly, however the stream is cut into reads.**  A handler
is called exactly for the streams that begin with a greeting and a request; it is called
for the address that the request encodes, and it reads on with the first byte after the
request.  What was written before depends on the stream only. -/
theorem socks5_request_exact (s : Server) (write : Bytes → Option Error)
    (hw : ∀ bs, write bs = none) (c : Conn) (hc : c.Progress) :
    ((∃ call conn, (handleConnection s write c).call? = some (call, conn)) ↔
      ∃ cmd dest rest, Requests c.received cmd dest rest) ∧
    (∀ cmd dest rest, Requests c.received cmd dest rest →
      ∃ conn, (handleConnection s write c).call? = some (s.call cmd dest, conn) ∧
        Targets dest (s.call cmd dest) ∧ conn.content = rest ∧
        ∀ p, p ≠ [] → rest ≠ [] → ∃ n, 0 < n ∧ (conn.read p).1.data = rest.take n) ∧
    ∀ c' : Conn, c'.Progress → c'.received = c.received →
      (handleConnection s write c').written = (handleConnection s write c).written := by
  -- what is called for a request also gives the second half of the equivalence
  refine (fun hcall ↦ ⟨⟨?_, ?_⟩, hcall, fun c' hc' h ↦ written_eq hc' hc h⟩)
    fun cmd dest rest hreq ↦ ?_
  · obtain ⟨cs, hcs⟩ := cons_of_requests hreq
    obtain ⟨switchConn, hd, hready, hcontent⟩ :=
      handleConnection_socks5 s write hc hcs
    have hreq' : Requests (Source.content switchConn) cmd dest rest :=
      (congrArg (Requests · cmd dest rest) hcontent).mpr hreq
    obtain ⟨conn, hresult, hready', hrest⟩ :=
      serveConn_of_requests (s := s) serves_switchConn hw hready hreq'
    have htargets : Targets dest (s.call cmd dest) := by
      generalize c.received = stream at hreq
      cases hreq with
      | mk _ _ _ henc => exact targets_call henc cmd
    have hrest : conn.content = rest := hrest
    refine ⟨conn, ?_, htargets, hrest, ?_⟩
    · rw [hd]
      generalize serveConn s write switchConn = served at hresult
      obtain ⟨written, result⟩ := served
      obtain rfl : result = _ := hresult
      rfl
    · intro p hp hne
      obtain ⟨n, hpos, -, hdata⟩ := BufReader.read_data hready' hp (hrest ▸ hne)
      exact ⟨n, hpos, hrest ▸ hdata⟩
  · rintro ⟨call, conn, h⟩
    by_cases hfirst : ∃ cs, c.received = socks5Version :: cs
    · obtain ⟨cs, hcs⟩ := hfirst
      obtain ⟨switchConn, hd, hready, hcontent⟩ :=
        handleConnection_socks5 s write hc hcs
      have hresult : (serveConn s write switchConn).result = .ok (call, conn) := by
        rw [hd] at h
        generalize serveConn s write switchConn = served at h
        obtain ⟨written, result⟩ := served
        cases result with
        | error err => cases h
        | ok x => exact congrArg Except.ok (Option.some.inj h)
      obtain ⟨cmd, dest, hreq⟩ := requests_of_serveConn serves_switchConn hw hready hresult
      exact ⟨cmd, dest, _, (congrArg (Requests · cmd dest _) hcontent).mp hreq⟩
    · rw [(handleConnection_other hc (not_exists.mp hfirst)).1] at h
      cases h
  · rintro ⟨cmd, dest, rest, hreq⟩
    obtain ⟨conn, hconn, -⟩ := hcall cmd dest rest hreq
    exact ⟨_, conn, hconn⟩

/-- A client that sends a request to connect to `1.2.3.4:80` and one more byte, each byte in
a segment of its own. -/
def bytewise : Conn where
  reads := [5, 1, 0, 5, 1, 0, 1, 1, 2, 3, 4, 0, 80, 0xaa].map fun b ↦ ([b], none)
  final := .eof

/-- The handler is called for `1.2.3.4:80`, and the byte after the request is left. -/
theorem socks5_request_bytewise :
    ∃ conn, (handleConnection ⟨true⟩ (fun _ ↦ none) bytewise).call? =
        some (.userConnect ⟨str "tcp", str "1.2.3.4:80", str "1.2.3.4", 80⟩, conn) ∧
      conn.content = [0xaa] := by
  have hreq : Requests bytewise.received connectCommand ⟨[], [1, 2, 3, 4], 80⟩ [0xaa] :=
    @Requests.mk 1 connectCommand 0 [0] [1, 1, 2, 3, 4, 0, 80] _ [0xaa] rfl (by decide) (.inl rfl)
      (@Encodes.mk ipv4Address [1, 2, 3, 4] [0, 80] ⟨[], [1, 2, 3, 4], 0⟩ (.ipv4 rfl) rfl)
  obtain ⟨conn, hcall, -, hrest, -⟩ :=
    (socks5_request_exact ⟨true⟩ (fun _ ↦ none) (fun _ ↦ rfl) bytewise
      (by unfold Conn.Progress; decide)).2.1 _ _ _ hreq
  have hcallee : Server.call ⟨true⟩ connectCommand ⟨[], [1, 2, 3, 4], 80⟩ =
      .userConnect ⟨str "tcp", str "1.2.3.4:80", str "1.2.3.4", 80⟩ := by decide +kernel
  exact ⟨conn, hcallee ▸ hcall, hrest⟩

/-- **SOCKS4 requests that are recognised are served exactly, however the stream is cut into
reads**: the SOCKS4 server is given the whole stream, and its handler what is meant by the request
and the stream from the first byte after it. -/
theorem socks4_request_exact (s₄ : Socks4.Server) (hw : ∀ bs, write bs = none) (hc : c.Progress)
    {req : Socks4.Request} {rest : Bytes} (hvalid : req.Valid) (hrecognised : req.Recognised)
    (h : c.received = Socks4.socks4Version :: Socks4.connectCommand :: (req.encode ++ rest)) :
    ∃ switchConn conn : SwitchConn, handleConnection s write c = .socks4 switchConn ∧
      (Socks4.serveConn s₄ write switchConn).result =
        .ok (if s₄.userConnectHandle then .userConnect (Socks4.proxyRequest req.meaning.address)
          else .embedConnect req.meaning.address, conn) ∧
      conn.content = rest := by
  obtain ⟨hready, hcontent⟩ := newSwitchConn_spec hc
  obtain ⟨switchConn, hpeek, hafter⟩ :=
    BufReader.peek_one_cons hready switchSize_pos (hcontent.trans h)
  obtain ⟨conn, hrest, hresult⟩ := Socks4.serveConn_of_recognised (s := s₄)
    (Source.serves_of_le (by decide) serves_switchConn) hafter.ready hw hvalid hrecognised
    (hafter.content.trans (hcontent.trans h))
  refine ⟨switchConn, conn, ?_, hresult, hrest⟩
  rw [handleConnection, hpeek]
  rfl

/-- The same request in SOCKS4, in two segments. -/
def halved : Conn := ⟨[([4, 1, 0, 80, 1, 2], none), ([3, 4, 0, 0xaa], none)], .eof⟩

theorem socks4_request_halved :
    ∃ switchConn conn : SwitchConn,
      handleConnection ⟨true⟩ (fun _ ↦ none) halved = .socks4 switchConn ∧
      (Socks4.serveConn ⟨false⟩ (fun _ ↦ none) switchConn).result =
        .ok (.embedConnect ⟨[], [1, 2, 3, 4], 80⟩, conn) ∧ conn.content = [0xaa] := by
  have hvalid : Socks4.Request.Valid (.socks4 80 [1, 2, 3, 4] []) := ⟨rfl, by simp, by simp⟩
  exact socks4_request_exact ⟨false⟩ (fun _ ↦ rfl)
    (by unfold Conn.Progress; decide) hvalid trivial rfl

end Vwarp.Proxy.Mixed
