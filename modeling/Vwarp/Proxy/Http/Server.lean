import Vwarp.Go.Bufio.Parse
import Vwarp.Go.Net
import Vwarp.Go.Strconv
import Vwarp.Proxy.Http.CustomConn

/-!
# The HTTP proxy

`Server.ServeConn` reads the request through a buffered reader, and hands the connection, not the
reader, to the handler of the user or to a tunnel of its own.  What the reader had read beyond
the request is then lost.

`http.ReadRequest` is not part of the repository.  It enters as a function on the reader, and what
is assumed of it is that it parses the head: it takes exactly the head from its reader and does not
read on once it has all of it (`ParsesHead`).  `connect_lossless_iff` says for which reads of the
client a `CONNECT` request loses nothing.

What the client is written, the dial and the serialised request enter with their outcomes.
-/

namespace Vwarp.Proxy.Http

open Vwarp.Go

/-- The size of the buffer of `bufio.NewReader`. -/
def defaultBufSize : Nat := 4096

/-- `http.Request`, as far as the server uses it, and what `Request.Write` makes of it. -/
structure Request where
  method : Bytes
  scheme : Bytes
  host : Bytes
  write : Except Error Bytes
deriving DecidableEq, Repr

/-- `http.MethodConnect`. -/
def methodConnect : Bytes := str "CONNECT"

/-- The client as a handler reads from it. -/
inductive Client
  | conn (c : Conn)
  | customConn (c : CustomConn)
deriving DecidableEq, Repr

/-- `statute.ProxyRequest`, whose `Conn`, `Reader` and `Writer` are the same. -/
structure ProxyRequest where
  client : Client
  network : Bytes
  destination : Bytes
  destHost : Bytes
  destPort : Int32
deriving DecidableEq, Repr

/-- What the server has and meets: whether there is a handler of the user, the error of writing a
text to the client, and the error of `ProxyDial` for an address. -/
structure Env where
  userConnectHandle : Bool
  connWrite : Bytes → Option Error
  proxyDial : Bytes → Option Error

/-- The answer to a `CONNECT` request. -/
def connectionEstablished : Bytes := str "HTTP/1.1 200 Connection Established\r\n\r\n"

/-- The errors of `ServeConn` before a handler is called. -/
inductive Failure
  | error (err : Error)
  | /-- `strconv.Atoi` rejects the port. -/
    port (portStr : Bytes)
deriving DecidableEq, Repr

/-- What becomes of a connection. -/
inductive Served
  | failed (failure : Failure)
  | user (req : ProxyRequest)
  | /-- `statute.Tunnel` is called for the target, to which something has been written. -/
    tunnel (targetAddr written : Bytes) (client : Client)
deriving DecidableEq, Repr

/-- The host and the port of a request, with the default port if there is none. -/
def hostPort (req : Request) (isConnectMethod : Bool) : Bytes × Bytes :=
  match splitHostPort req.host with
  | some (host, portStr) => (host, portStr)
  | none =>
    (req.host, if req.scheme = str "https" ∨ isConnectMethod = true then str "443" else str "80")

/-- `Server.embedHandleHTTP`. -/
def embedHandleHTTP (env : Env) (conn : Conn) (req : Request) (isConnectMethod : Bool) : Served :=
  let (host, portStr) := hostPort req isConnectMethod
  let targetAddr := joinHostPort host portStr
  match env.proxyDial targetAddr with
  | some err => .failed (.error err)
  | none =>
    if isConnectMethod then
      match env.connWrite connectionEstablished with
      | some err => .failed (.error err)
      | none => .tunnel targetAddr [] (.conn conn)
    else
      match req.write with
      | .error err => .failed (.error err)
      | .ok written => .tunnel targetAddr written (.conn conn)

/-- The end of `Server.handleHTTP`, which calls the handler of the user. -/
def callUser (client : Client) (req : Request) (isConnectMethod : Bool) : Served :=
  let (host, portStr) := hostPort req isConnectMethod
  let targetAddr :=
    match splitHostPort req.host with
    | some _ => req.host
    | none => joinHostPort host portStr
  match atoi portStr with
  | none => .failed (.port portStr)
  | some portInt => .user ⟨client, str "tcp", targetAddr, host, Int32.ofInt portInt⟩

/-- `Server.handleHTTP`. -/
def handleHTTP (env : Env) (conn : Conn) (req : Request) (isConnectMethod : Bool) : Served :=
  if env.userConnectHandle = false then embedHandleHTTP env conn req isConnectMethod
  else if isConnectMethod then
    match env.connWrite connectionEstablished with
    | some err => .failed (.error err)
    | none => callUser (.conn conn) req isConnectMethod
  else callUser (.customConn (.new conn req.write)) req isConnectMethod

/-- `http.ReadRequest`. -/
abbrev ReadRequest := BufReader defaultBufSize → Except Error Request × BufReader defaultBufSize

/-- `Server.ServeConn`: the reader is given up, and the connection is as the reader has left it. -/
def serveConn (env : Env) (readRequest : ReadRequest) (conn : Conn) : Served :=
  match readRequest (.new defaultBufSize conn) with
  | (.error err, _) => .failed (.error err)
  | (.ok req, reader) => handleHTTP env reader.rd req (req.method = methodConnect)

/-! ## What a handler reads -/

/-- Reads of a connection into the given buffers. -/
def readMany (c : Conn) : List Bytes → List ReadResult × Conn
  | [] => ([], c)
  | p :: ps =>
    let (r, c) := c.read p
    let (rs, c) := readMany c ps
    (r :: rs, c)

namespace Client

/-- What reads into the given buffers deliver, and what is left in the connection. -/
def reads (client : Client) (bufs : List Bytes) : Bytes × Bytes :=
  match client with
  | conn c => (CustomConn.delivered (readMany c bufs).1, (readMany c bufs).2.stream)
  | customConn c => (CustomConn.delivered (c.reads bufs).1, (c.reads bufs).2.conn.stream)

/-- The bytes that are read from the client are these, however they are read. -/
def Delivers (client : Client) (d : Bytes) : Prop :=
  ∀ bufs, (client.reads bufs).1 ++ (client.reads bufs).2 = d

end Client

theorem readMany_spec (c : Conn) (bufs : List Bytes) :
    CustomConn.delivered (readMany c bufs).1 ++ (readMany c bufs).2.stream = c.stream := by
  induction bufs generalizing c with
  | nil => rfl
  | cons p ps ih =>
    rw [readMany, CustomConn.delivered, List.flatMap_cons, List.append_assoc, c.stream_read p]
    exact congrArg _ (ih _)

theorem delivers_conn_iff {c : Conn} {d : Bytes} : (Client.conn c).Delivers d ↔ c.stream = d := by
  constructor
  · intro h
    exact h []
  · rintro rfl bufs
    exact readMany_spec c bufs

def Served.client? : Served → Option Client
  | failed _ => none
  | user req => some req.client
  | tunnel _ _ client => some client

theorem client_callUser {client client' : Client} {req : Request} {isConnectMethod : Bool}
    (h : (callUser client req isConnectMethod).client? = some client') : client' = client := by
  simp only [callUser] at h
  split at h
  · cases h
  · exact (Option.some.inj h).symm

theorem client_embedHandleHTTP {env : Env} {conn : Conn} {req : Request} {isConnectMethod : Bool}
    {client : Client} (h : (embedHandleHTTP env conn req isConnectMethod).client? = some client) :
    client = .conn conn := by
  simp only [embedHandleHTTP] at h
  split at h
  · cases h
  · split at h
    all_goals
      split at h
      · cases h
      · exact (Option.some.inj h).symm

/-- For a `CONNECT` request the client is the connection. -/
theorem client_handleHTTP {env : Env} {conn : Conn} {req : Request} {client : Client}
    (h : (handleHTTP env conn req true).client? = some client) : client = .conn conn := by
  simp only [handleHTTP, if_true] at h
  split at h
  · exact client_embedHandleHTTP h
  · split at h
    · cases h
    · exact client_callUser h

/-- `http.ReadRequest` parses the head of the stream. -/
def ParsesHead (readRequest : ReadRequest) (conn : Conn) (head : Bytes) (req : Request) : Prop :=
  ∃ reader, readRequest (.new defaultBufSize conn) = (.ok req, reader) ∧
    reader.Parsing conn head.length

/-- A handler of a `CONNECT` request reads exactly what follows the head from the client if and
only if one of the reads of the client ends with the head. -/
theorem connect_lossless_iff {env : Env} {readRequest : ReadRequest} {conn : Conn}
    {head d : Bytes} {req : Request} {client : Client} (hstream : conn.stream = head ++ d)
    (hparses : ParsesHead readRequest conn head req) (hconnect : req.method = methodConnect)
    (hclient : (serveConn env readRequest conn).client? = some client) :
    client.Delivers d ↔ ∃ k, conn.front k = head := by
  obtain ⟨reader, hread, hparsing⟩ := hparses
  have hhandled : client = .conn reader.rd := by
    unfold serveConn at hclient
    rw [hread] at hclient
    simp only [hconnect, decide_true] at hclient
    exact client_handleHTTP hclient
  -- what follows the head is what is left in the reader and in the connection
  have hrest : d = reader.buf ++ reader.rd.stream := by
    obtain ⟨taken, hlen, hsplit⟩ := hparsing.stream_eq
    exact (List.append_inj (hstream.symm.trans hsplit) hlen.symm).2
  have hfront {k : Nat} : conn.front k = head ↔ (conn.front k).length = head.length := by
    refine ⟨congrArg _, fun hlen ↦ ?_⟩
    exact (List.append_inj ((conn.front_append_drop k).symm.trans hstream) hlen).1
  rw [hhandled, delivers_conn_iff, hrest, List.self_eq_append_left]
  simp only [hfront]
  exact hparsing.buf_eq_nil_iff

/-! ## A client that does not wait -/

def connectHead : Bytes := str "CONNECT example.com:443 HTTP/1.1\r\n\r\n"

/-- The first bytes of a TLS `ClientHello`. -/
def clientHello : Bytes := [22, 3, 1]

def connectRequest : Request := ⟨methodConnect, [], str "example.com:443", .ok connectHead⟩

def readConnect : ReadRequest :=
  fun reader ↦ (.ok connectRequest, reader.discard connectHead.length)

/-- Nothing fails, and the handler is the user's. -/
def userEnv : Env := ⟨true, fun _ ↦ none, fun _ ↦ none⟩

def waiting : Conn := ⟨[(connectHead, none), (clientHello, none)], .eof⟩

def eager : Conn := ⟨[(connectHead ++ clientHello, none)], .eof⟩

/-- A client that waits for the answer loses nothing. -/
theorem waiting_lossless :
    (serveConn userEnv readConnect waiting).client? = some (.conn ⟨[(clientHello, none)], .eof⟩) ∧
      (Client.conn ⟨[(clientHello, none)], .eof⟩).Delivers clientHello := by
  have hclient : (serveConn userEnv readConnect waiting).client? =
      some (.conn ⟨[(clientHello, none)], .eof⟩) := by
    decide +kernel
  have hparses : ParsesHead readConnect waiting connectHead connectRequest :=
    ⟨_, rfl, BufReader.parsing_discard (by decide) (by decide)⟩
  exact ⟨hclient, (connect_lossless_iff rfl hparses rfl hclient).mpr ⟨1, rfl⟩⟩

/-- A client that sends more with the head loses it, whether the handler is the user's or the
embedded tunnel. -/
theorem eager_loses :
    eager.stream = connectHead ++ clientHello ∧
      ParsesHead readConnect eager connectHead connectRequest ∧
      (serveConn userEnv readConnect eager).client? = some (.conn ⟨[], .eof⟩) ∧
      (serveConn { userEnv with userConnectHandle := false } readConnect eager).client? =
        some (.conn ⟨[], .eof⟩) ∧
      ¬(Client.conn ⟨[], .eof⟩).Delivers clientHello := by
  refine ⟨by decide, ⟨_, rfl, BufReader.parsing_discard (by decide) (by decide)⟩,
    by decide +kernel, by decide +kernel, ?_⟩
  intro h
  exact absurd (delivers_conn_iff.mp h) (by decide)

end Vwarp.Proxy.Http
