import Vwarp.Proxy.Socks5.Server

/-!
# SOCKS4 and SOCKS4a

A SOCKS4 request has a port, an IPv4 address and a user, which ends with a zero byte.  A SOCKS4a
request has an address `0.0.0.x` with `x` not zero instead, and after the user the name of the host,
which ends with a zero byte as well.  `readAddrAndUser` knows only one of the 255 addresses of
SOCKS4a, `0.0.0.1`: a request with another is taken for a SOCKS4 request to that address, and the
name of the host is left for the tunnel.

`request_read_iff` says which requests are read as they were meant, over any source and whatever
follows the request, and `serveConn_of_recognised` what the server then calls.
-/

namespace Vwarp.Proxy.Socks4

open Vwarp.Go
open Source (Ready Serves content serves_of_le)
open Vwarp.Proxy.Socks5 (ReadError ProxyRequest failedToSend readN readN_of_le readByte_cons)

universe u

/-- `isSocks4a`. -/
def isSocks4a : Bytes := [0, 0, 0, 1]

/-- `isNone`. -/
def isNone : Bytes := [0, 0, 0, 0]

/-- `socks4Version`. -/
def socks4Version : UInt8 := 0x04

/-- `ConnectCommand`. -/
def connectCommand : UInt8 := 0x01

/-- `grantedReply`. -/
def grantedReply : UInt8 := 0x5a

/-- `rejectedReply`. -/
def rejectedReply : UInt8 := 0x5b

/-- `Command.String`. -/
def commandString (cmd : UInt8) : Bytes :=
  if cmd = connectCommand then str "socks connect" else str "socks " ++ itoa cmd.toNat

/-- `address`; a `nil` IP is the empty one. -/
structure Address where
  name : Bytes
  ip : Bytes
  port : Nat
deriving DecidableEq, Repr

/-- `address.Address`, which is also `address.String`. -/
def Address.string (a : Address) : Bytes :=
  if a.name ≠ [] then joinHostPort a.name (itoa a.port)
  else joinHostPort (ipString a.ip) (itoa a.port)

/-- `AddrAnfUser`. -/
structure AddrAndUser where
  address : Address
  username : Bytes
deriving DecidableEq, Repr

/-! ## Reading -/

section Read

variable {ρ : Type u} [Reader ρ]

/-- `readByte`, which is the one of SOCKS5. -/
def readByte (r : ρ) : Except ReadError (UInt8 × ρ) := Socks5.readByte r

/-- The loop of `readBytes`: the byte that was read last, and those before it. -/
def readBytesLoop : Nat → ρ → UInt8 → Bytes → Except ReadError (Bytes × ρ)
  | 0, r, _, buf => .ok (buf, r)
  | fuel + 1, r, data, buf =>
    match Reader.read r [data] with
    | (res, r) =>
      match res.err with
      | some err => .error (.io err)
      | none =>
        let data := res.buf.headD 0
        if data = 0 then .ok (buf, r) else readBytesLoop fuel r data (buf ++ [data])

/-- `readBytes`: everything up to a zero byte. -/
def readBytes (r : ρ) : Except ReadError (Bytes × ρ) := readBytesLoop (Reader.size r + 1) r 0 []

/-- `readAddrAndUser`. -/
def readAddrAndUser (r : ρ) : Except ReadError (AddrAndUser × ρ) := do
  let (port, r) ← readN r 2
  let (ip, r) ← readN r 4
  let (username, r) ← readBytes r
  if ip = isSocks4a then
    let (hostname, r) ← readBytes r
    .ok (⟨⟨hostname, [], (uint16 port).toNat⟩, username⟩, r)
  else .ok (⟨⟨[], ip, (uint16 port).toNat⟩, username⟩, r)

end Read

/-! ## Serving -/

/-- `writeAddr`: everything it writes. -/
def writeAddr (addr : Option Address) : Bytes :=
  let ip := addr.bind fun a ↦ to4 a.ip
  let port := (addr.map fun a ↦ UInt16.ofNat a.port).getD 0
  putUint16 port ++ ip.getD isNone

/-- `sendReply`: everything it writes. -/
def sendReply (resp : UInt8) (addr : Option Address) : Bytes := [0, resp] ++ writeAddr addr

/-- What `handle` calls. -/
inductive Call
  | /-- `UserConnectHandle`, after the reply. -/
    userConnect (req : ProxyRequest)
  | /-- `embedHandleConnect`, which dials before it replies. -/
    embedConnect (dest : Address)
deriving DecidableEq, Repr

/-- What serving a connection comes to: everything written, and then a call with the rest of the
connection or an error. -/
structure Served (ρ : Type u) where
  written : Bytes
  result : Except Error (Call × ρ)

/-- The part of `Server` that decides what is called. -/
structure Server where
  /-- Whether `UserConnectHandle` is set. -/
  userConnectHandle : Bool

/-- The request that `handleConnect` makes for the user's handler. -/
def proxyRequest (dest : Address) : ProxyRequest where
  network := str "tcp"
  destination := dest.string
  destHost := if dest.name ≠ [] then dest.name else ipString dest.ip
  destPort := dest.port

section Serve

variable {ρ : Type u}

/-- Go on after `sendReply` without an address, or return its error, wrapped or not. -/
def Served.afterReply (write : Bytes → Option Error) (wrap : Error → Error) (resp : UInt8)
    (next : Except Error (Call × ρ)) : Served ρ :=
  match write (sendReply resp none) with
  | some err => ⟨[], .error (wrap err)⟩
  | none => ⟨sendReply resp none, next⟩

/-- `Server.handle`. -/
def handle (s : Server) (write : Bytes → Option Error) (cmd : UInt8) (dest : Address) (conn : ρ) :
    Served ρ :=
  if cmd = connectCommand then
    if s.userConnectHandle then
      .afterReply write failedToSend grantedReply (.ok (.userConnect (proxyRequest dest), conn))
    else ⟨[], .ok (.embedConnect dest, conn)⟩
  else
    .afterReply write id rejectedReply
      (.error (.text (str "unsupported Command: " ++ commandString cmd)))

/-- `Server.ServeConn`. -/
def serveConn [Reader ρ] (s : Server) (write : Bytes → Option Error) (conn : ρ) : Served ρ :=
  match readByte conn with
  | .error err => ⟨[], .error err.error⟩
  | .ok (version, conn) =>
    if version ≠ socks4Version then
      ⟨[], .error (.text (str "unsupported SOCKS version: " ++ itoa version.toNat))⟩
    else
      match readByte conn with
      | .error err => ⟨[], .error err.error⟩
      | .ok (cmd, conn) =>
        match readAddrAndUser conn with
        | .error err => .afterReply write failedToSend rejectedReply (.error err.error)
        | .ok (addr, conn) => handle s write cmd addr.address conn

end Serve

/-! ## Requests -/

/-- A request of SOCKS4 or of SOCKS4a. -/
inductive Request
  | socks4 (port : UInt16) (ip : Bytes) (user : Bytes)
  | socks4a (port : UInt16) (x : UInt8) (user name : Bytes)
deriving DecidableEq, Repr

namespace Request

/-- A request as it may be sent: the address of SOCKS4 is not one of SOCKS4a, and the texts have no
zero byte. -/
def Valid : Request → Prop
  | socks4 _ ip user => ip.length = 4 ∧ ¬(∃ x : UInt8, x ≠ 0 ∧ ip = [0, 0, 0, x]) ∧ 0 ∉ user
  | socks4a _ x user name => x ≠ 0 ∧ 0 ∉ user ∧ 0 ∉ name

/-- The bytes of a request, without the version and the command. -/
def encode : Request → Bytes
  | socks4 port ip user => putUint16 port ++ (ip ++ (user ++ [0]))
  | socks4a port x user name => putUint16 port ++ ([0, 0, 0, x] ++ (user ++ 0 :: (name ++ [0])))

def meaning : Request → AddrAndUser
  | socks4 port ip user => ⟨⟨[], ip, port.toNat⟩, user⟩
  | socks4a port _ user name => ⟨⟨name, [], port.toNat⟩, user⟩

/-- The requests that `isSocks4a` is right about. -/
def Recognised : Request → Prop
  | socks4 _ _ _ => True
  | socks4a _ x _ _ => x = 1

end Request

section Source

variable {ρ : Type u} [Source ρ] {r : ρ}

variable {bs rest : Bytes}

theorem readBytesLoop_of_content {fuel : Nat} (hs : Serves ρ 1)
    (hr : Ready r) (hfuel : Reader.size r < fuel) (hbs : 0 ∉ bs)
    (h : content r = bs ++ 0 :: rest) (data : UInt8) (buf : Bytes) :
    ∃ r', readBytesLoop fuel r data buf = .ok (buf ++ bs, r') ∧ After r (bs.length + 1) r' := by
  -- each round takes a byte; the reader gets smaller with it, so that the fuel lasts
  induction bs generalizing fuel r data buf with
  | nil =>
    obtain ⟨fuel, rfl⟩ := Nat.exists_eq_succ_of_ne_zero (Nat.ne_of_gt (Nat.zero_lt_of_lt hfuel))
    obtain ⟨r', hread, hafter⟩ := read_one hr hs h data
    refine ⟨r', ?_, hafter⟩
    simp [readBytesLoop, hread]
  | cons b bs ih =>
    obtain ⟨fuel, rfl⟩ := Nat.exists_eq_succ_of_ne_zero (Nat.ne_of_gt (Nat.zero_lt_of_lt hfuel))
    obtain ⟨hb, hbs⟩ := not_or.mp (mt List.mem_cons.mpr hbs)
    obtain ⟨r₁, hread, hafter₁⟩ := read_one hr hs h data
    have hsize : Reader.size r₁ < fuel := by
      have hlt := Reader.size_read_lt r (p := [data]) (by simp) (by rw [hread])
      rw [hread] at hlt
      exact Nat.lt_of_lt_of_le hlt (Nat.le_of_lt_succ hfuel)
    have hcontent : content r₁ = bs ++ 0 :: rest := by
      rw [hafter₁.content, h]
      rfl
    obtain ⟨r₂, hloop, hafter₂⟩ := ih hafter₁.ready hsize hbs hcontent b (buf ++ [b])
    refine ⟨r₂, ?_, ?_⟩
    · simp only [readBytesLoop, hread, List.headD_cons, if_neg (Ne.symm hb), hloop,
        List.append_assoc, List.singleton_append]
    · rw [List.length_cons, Nat.add_comm bs.length 1, Nat.add_assoc]
      exact hafter₁.trans hafter₂

/-- `readBytes` takes a text and the zero byte at its end. -/
theorem readBytes_of_content (hs : Serves ρ 1) (hr : Ready r)
    (hbs : 0 ∉ bs) (h : content r = bs ++ 0 :: rest) :
    ∃ r', readBytes r = .ok (bs, r') ∧ Ready r' ∧ content r' = rest := by
  obtain ⟨r', hloop, hafter⟩ := readBytesLoop_of_content hs hr (Nat.lt_succ_self _) hbs h 0 []
  refine ⟨r', hloop, hafter.ready, ?_⟩
  rw [hafter.content, h, ← List.drop_drop, List.drop_left]
  rfl

/-- What `readAddrAndUser` makes of a request up to the end of the user. -/
theorem readAddrAndUser_of_content {port : UInt16} {ip user : Bytes} (hs : Serves ρ 4)
    (hr : Ready r) (hip : ip.length = 4) (huser : 0 ∉ user)
    (h : content r = putUint16 port ++ (ip ++ (user ++ 0 :: rest))) :
    ∃ r', Ready r' ∧ content r' = rest ∧
      readAddrAndUser r =
        if ip = isSocks4a then do
          let (hostname, r) ← readBytes r'
          .ok (⟨⟨hostname, [], port.toNat⟩, user⟩, r)
        else .ok (⟨⟨[], ip, port.toNat⟩, user⟩, r') := by
  have hs₂ : Serves ρ 2 := serves_of_le (by decide) hs
  obtain ⟨r₁, h₁, hafter₁⟩ := readN_of_le hr hs₂ (by simp [h])
  rw [h, List.take_left' (length_putUint16 port)] at h₁
  have hc₁ : content r₁ = ip ++ (user ++ 0 :: rest) := by
    rw [hafter₁.content, h, List.drop_left' (length_putUint16 port)]
  obtain ⟨r₂, h₂, hafter₂⟩ := readN_of_le hafter₁.ready hs (by simp [hc₁, hip])
  rw [hc₁, List.take_left' hip] at h₂
  have hc₂ : content r₂ = user ++ 0 :: rest := by
    rw [hafter₂.content, hc₁, List.drop_left' hip]
  obtain ⟨r₃, h₃, hready, hc₃⟩ :=
    readBytes_of_content (serves_of_le (by decide) hs) hafter₂.ready huser hc₂
  have hport : uint16 (putUint16 port) = port := by
    simpa using uint16_putUint16 port []
  refine ⟨r₃, hready, hc₃, ?_⟩
  simp only [readAddrAndUser, h₁, h₂, h₃, bind, Except.bind, hport]

/-- A request that is recognised is read as it was meant, and exactly. -/
theorem readAddrAndUser_of_recognised {req : Request} (hs : Serves ρ 4) (hr : Ready r)
    (hvalid : req.Valid) (h : content r = req.encode ++ rest) (hrecognised : req.Recognised) :
    ∃ r', readAddrAndUser r = .ok (req.meaning, r') ∧ content r' = rest := by
  cases req with
  | socks4 port ip user =>
    obtain ⟨hip, hnot4a, huser⟩ := hvalid
    have hother : ip ≠ isSocks4a := fun heq ↦ hnot4a ⟨1, by decide, heq⟩
    have hc : content r = putUint16 port ++ (ip ++ (user ++ 0 :: rest)) := by
      simp [h, Request.encode]
    obtain ⟨r', -, hrest, hread⟩ := readAddrAndUser_of_content hs hr hip huser hc
    refine ⟨r', ?_, hrest⟩
    rw [hread, if_neg hother]
    rfl
  | socks4a port x user name =>
    obtain ⟨-, huser, hname⟩ := hvalid
    have hc : content r =
        putUint16 port ++ ([0, 0, 0, x] ++ (user ++ 0 :: (name ++ 0 :: rest))) := by
      simp [h, Request.encode]
    obtain ⟨r', hready, hc', hread⟩ := readAddrAndUser_of_content hs hr rfl huser hc
    obtain ⟨r'', hbytes, -, hrest⟩ :=
      readBytes_of_content (serves_of_le (by decide) hs) hready hname hc'
    have hip : [0, 0, 0, x] = isSocks4a := congrArg (fun x ↦ [0, 0, 0, x]) hrecognised
    refine ⟨r'', ?_, hrest⟩
    rw [hread, if_pos hip, hbytes]
    rfl

/-- A request is read as it was meant, and exactly, if and only if it is one of SOCKS4 or has the
address `0.0.0.1`. -/
theorem request_read_iff {req : Request} {rest : Bytes} (hs : Serves ρ 4)
    (hr : Ready r) (hvalid : req.Valid) (h : content r = req.encode ++ rest) :
    (∃ r', readAddrAndUser r = .ok (req.meaning, r') ∧ content r' = rest) ↔
      req.Recognised := by
  refine ⟨?_, readAddrAndUser_of_recognised hs hr hvalid h⟩
  rintro ⟨r'', hresult, -⟩
  cases req with
  | socks4 port ip user => trivial
  | socks4a port x user name =>
    obtain ⟨-, huser, -⟩ := hvalid
    have hc : content r =
        putUint16 port ++ ([0, 0, 0, x] ++ (user ++ 0 :: (name ++ 0 :: rest))) := by
      simp [h, Request.encode]
    obtain ⟨r', -, -, hread⟩ := readAddrAndUser_of_content hs hr rfl huser hc
    rw [hread] at hresult
    split_ifs at hresult with hip
    · have hx : x = 1 := by simpa [isSocks4a] using hip
      exact hx
    · -- the address is returned instead of a name
      cases hresult

/-- The SOCKS4a request for `example.com:80` with the address `0.0.0.1`, and a byte for the
tunnel. -/
theorem request_read_common :
    ∃ r', readAddrAndUser
        (⟨[0, 80, 0, 0, 0, 1, 0] ++ str "example.com" ++ [0, 7]⟩ : Buffer) =
          .ok (⟨⟨str "example.com", [], 80⟩, []⟩, r') ∧ r'.bytes = [7] := by
  have hvalid : Request.Valid (.socks4a 80 1 [] (str "example.com")) :=
    ⟨by decide, by decide, by decide +kernel⟩
  have hcontent : content (⟨[0, 80, 0, 0, 0, 1, 0] ++ str "example.com" ++ [0, 7]⟩ : Buffer) =
      Request.encode (.socks4a 80 1 [] (str "example.com")) ++ [7] := by
    decide +kernel
  exact (request_read_iff trivial trivial hvalid hcontent).mpr rfl

/-- The same request with the address `0.0.0.2`: the server would dial that address, and the name
is left for the tunnel. -/
theorem request_misread :
    Request.Valid (.socks4a 80 2 [] (str "example.com")) ∧
      readAddrAndUser (⟨Request.encode (.socks4a 80 2 [] (str "example.com")) ++ [7]⟩ : Buffer) =
        .ok (⟨⟨[], [0, 0, 0, 2], 80⟩, []⟩, ⟨str "example.com" ++ [0, 7]⟩) :=
  ⟨⟨by decide, by decide, by decide +kernel⟩, rfl⟩

/-- The server calls its handler for what is meant by a request that is recognised, with what
follows the request. -/
theorem serveConn_of_recognised {s : Server} {write : Bytes → Option Error} {req : Request}
    (hs : Serves ρ 4) (hr : Ready r) (hw : ∀ bs, write bs = none)
    (hvalid : req.Valid) (hrecognised : req.Recognised)
    (h : content r = socks4Version :: connectCommand :: (req.encode ++ rest)) :
    ∃ r', content r' = rest ∧ (serveConn s write r).result =
      .ok (if s.userConnectHandle then .userConnect (proxyRequest req.meaning.address)
        else .embedConnect req.meaning.address, r') := by
  have hs₁ : Serves ρ 1 := serves_of_le (by decide) hs
  obtain ⟨r₁, h₁, hafter₁⟩ := readByte_cons hr hs₁ h
  have hc₁ : content r₁ = connectCommand :: (req.encode ++ rest) := by
    rw [hafter₁.content, h]
    rfl
  obtain ⟨r₂, h₂, hafter₂⟩ := readByte_cons hafter₁.ready hs₁ hc₁
  have hc₂ : content r₂ = req.encode ++ rest := by
    rw [hafter₂.content, hc₁]
    rfl
  obtain ⟨r₃, h₃, hrest⟩ := readAddrAndUser_of_recognised hs hafter₂.ready hvalid hc₂ hrecognised
  refine ⟨r₃, hrest, ?_⟩
  simp only [serveConn, readByte, h₁, h₂, h₃, ne_eq, not_true_eq_false, if_false, handle, if_true,
    Served.afterReply, hw]
  split <;> rfl

end Source

end Vwarp.Proxy.Socks4
