import Vwarp.Lib.Machine
import Vwarp.Proxy.Socks5.Common

/-!
# The two SOCKS5 UDP associations

A UDP association is served by one of two loops.  `embedHandleAssociate` reads the
datagrams on the association's socket itself; with a user handler,
`asyncReadPackets` reads them in a goroutine of its own and passes them to
`udpCustomConn.Read` over unbuffered channels.

The first is a function of the datagrams.  The second is a machine with two
processes: the goroutine, and the caller, who waits for the first packet on `frc`
and then calls `Read` again and again.  A send blocks until the other side
receives.  What `Read` receives is a slice of the goroutine's one buffer, so the
goroutine's next `ReadFrom` may overwrite it before `Read` has copied it out; the
copy is a step of its own.

The loops differ in what they do with a datagram they do not want: the first
skips it, the second hands an error (or an empty payload) to `Read` and stops, and
never looks at where a datagram comes from.  `associate_agree_iff` says exactly
which sequences of datagrams the two serve alike.
-/

namespace Vwarp.Proxy.Socks5

open Vwarp.Go Vwarp.Lib

/-- A datagram on the association's socket.  Of its source only the `String` is used. -/
structure Datagram where
  source : Bytes
  bytes : Bytes
deriving DecidableEq, Repr

/-- What `ReadFrom` leaves of a datagram in a buffer of `maxUdpPacket` bytes. -/
def Datagram.read (d : Datagram) : Bytes := d.bytes.take maxUdpPacket

/-! ## `embedHandleAssociate` -/

/-- What the loop writes to the socket, and to whom. -/
inductive Write
  | toTarget (payload : Bytes) (target : UDPAddr)
  | toSource (packet : Bytes) (source : Bytes)
deriving DecidableEq, Repr

/-- How a step of the loop ends. -/
inductive Flow
  | continue
  | return
  | panic
deriving DecidableEq, Repr

/-- The variables of `embedHandleAssociate` that outlive an iteration. -/
structure Embed where
  sourceAddr : Option Bytes
  targetAddr : Option UDPAddr
  replyPrefix : Option Bytes
deriving DecidableEq, Repr

def Embed.init : Embed := ⟨none, none, none⟩

def writeOrReturn (writeTo : Write → Option Error) (w : Write) (e : Embed) :
    Embed × List Write × Flow :=
  (e, [w], if writeTo w = none then .continue else .return)

/-- The branch of an iteration for a datagram of the association's source. -/
def embedFromSource (writeTo : Write → Option Error) (e : Embed) (d : Datagram) :
    Embed × List Write × Flow :=
  if d.read.length < 3 then (e, [], .continue)
  else match readAddr (Buffer.mk (d.read.drop 3)) with
    | .error _ => (e, [], .continue)
    | .ok (addr, reader) =>
      let targetAddr := e.targetAddr.getD ⟨addr.ip, addr.port⟩
      let e := { e with targetAddr := some targetAddr }
      if addr.string ≠ targetAddr.string then (e, [], .continue)
      else writeOrReturn writeTo (.toTarget reader.bytes targetAddr) e

/-- The branch of an iteration for a datagram of the target: it goes back to the source
behind the address it came from.  The buffer it is shifted in has `maxUdpPacket` bytes. -/
def embedFromTarget (writeTo : Write → Option Error) (e : Embed) (d : Datagram)
    (source : Bytes) (target : UDPAddr) : Embed × List Write × Flow :=
  match e.replyPrefix.or (writeAddrWithStr target.string |>.map ([0, 0, 0] ++ ·)) with
  | none => (e, [], .return)
  | some replyPrefix =>
    let e := { e with replyPrefix := some replyPrefix }
    if maxUdpPacket < replyPrefix.length + d.read.length then (e, [], .panic)
    else writeOrReturn writeTo (.toSource (replyPrefix ++ d.read) source) e

/-- One iteration of `embedHandleAssociate`. -/
def embedStep (writeTo : Write → Option Error) (e : Embed) (d : Datagram) :
    Embed × List Write × Flow :=
  let sourceAddr := e.sourceAddr.getD d.source
  let e := { e with sourceAddr := some sourceAddr }
  if sourceAddr = d.source then embedFromSource writeTo e d
  else match e.targetAddr with
    | some target =>
      if target.string = d.source then embedFromTarget writeTo e d sourceAddr target
      else (e, [], .continue)
    | none => (e, [], .continue)

/-- `embedHandleAssociate` on the datagrams that arrive before the socket is closed, if it
is: everything it writes, the variables at the end, and whether it is then still
reading. -/
def embedHandleAssociate (writeTo : Write → Option Error) (closed : Option Error) :
    Embed → List Datagram → Embed × List Write × Flow
  | e, [] => (e, [], if closed = none then .continue else .return)
  | e, d :: ds =>
    match embedStep writeTo e d with
    | (e, ws, .continue) =>
      let rest := embedHandleAssociate writeTo closed e ds
      (rest.1, ws ++ rest.2.1, rest.2.2)
    | (e, ws, flow) => (e, ws, flow)

/-- The payloads among the writes: what goes to the target. -/
def payloads (ws : List Write) : List Bytes :=
  ws.filterMap fun
    | .toTarget payload _ => some payload
    | .toSource _ _ => none

/-! ## `udpCustomConn` -/

/-- The errors that reach `Read` through the queue. -/
inductive QueueError
  | readFrom (err : Error)
  | readAddr (err : ReadError)
  | nonTarget (addr : Bytes)
deriving DecidableEq, Repr

/-- `readStruct`: the data is a slice of the goroutine's buffer. -/
structure ReadStruct where
  lo : Nat
  hi : Nat
  err : Option QueueError
deriving DecidableEq, Repr

/-- A `readStruct` without data. -/
def ReadStruct.noData (err : Option QueueError) : ReadStruct := ⟨0, 0, err⟩

def ReadStruct.slice (r : ReadStruct) (buf : Bytes) : Bytes := (buf.take r.hi).drop r.lo

/-- Where the goroutine of `asyncReadPackets` stands: at its `ReadFrom`, at the send on
`frc` or at a send on `packetQueue` (with what follows it), or past its `break`. -/
inductive ReaderPc
  | readFrom
  | frc (item : ReadStruct)
  | queue (item : ReadStruct) (last : Bool)
  | stopped
deriving DecidableEq, Repr

/-- Where the caller stands: at the receive from `frc`, at the receive in `Read`, or
before the `copy` in `Read`. -/
inductive HandlerPc
  | waitFrc
  | receive
  | copy (item : ReadStruct)
deriving DecidableEq, Repr

/-- A `udpCustomConn` with its goroutine, its caller, and the datagrams to come. -/
structure UdpCustomConn where
  incoming : List Datagram
  /-- The error of `ReadFrom` once the socket has been closed. -/
  closed : Option Error
  tempBuf : Bytes
  sourceAddr : Option Bytes
  targetAddr : Option UDPAddr
  firstRead : Bool
  reader : ReaderPc
  handler : HandlerPc
  /-- What the calls of `Read` have returned. -/
  results : List (Except QueueError Bytes)

/-- The body of the goroutine's loop after `ReadFrom` has returned `n` bytes. -/
def UdpCustomConn.process (s : UdpCustomConn) (n : Nat) (addr : Bytes) : UdpCustomConn :=
  if n < 3 then { s with reader := .queue (.noData none) true }
  else
    let s := { s with sourceAddr := some (s.sourceAddr.getD addr) }
    match readAddr (Buffer.mk ((s.tempBuf.take n).drop 3)) with
    | .error err => { s with reader := .queue (.noData (some (.readAddr err))) true }
    | .ok (targetAddr, reader) =>
      let want := s.targetAddr.getD ⟨targetAddr.ip, targetAddr.port⟩
      let s := { s with targetAddr := some want }
      if targetAddr.string ≠ want.string then
        { s with reader := .queue (.noData (some (.nonTarget targetAddr.string))) true }
      else
        let item : ReadStruct := ⟨n - reader.bytes.length, n, none⟩
        { s with reader := if s.firstRead then .queue item false else .frc item }

/-- `ReadFrom`, and the goroutine up to its next blocking operation. -/
def UdpCustomConn.readFrom (s : UdpCustomConn) : Option UdpCustomConn :=
  match s.reader, s.incoming with
  | .readFrom, [] =>
    s.closed.map fun err ↦ { s with reader := .queue (.noData (some (.readFrom err))) true }
  | .readFrom, d :: ds =>
    some <| { s with
      incoming := ds
      tempBuf := copyInto s.tempBuf d.bytes }.process (min s.tempBuf.length d.bytes.length) d.source
  | _, _ => none

/-- The rendezvous on `frc`. -/
def UdpCustomConn.first (s : UdpCustomConn) : Option UdpCustomConn :=
  match s.reader, s.handler with
  | .frc item, .waitFrc =>
    some { s with reader := .queue item false, firstRead := true, handler := .receive }
  | _, _ => none

/-- The rendezvous on `packetQueue`. -/
def UdpCustomConn.handOver (s : UdpCustomConn) : Option UdpCustomConn :=
  match s.reader, s.handler with
  | .queue item last, .receive =>
    some { s with reader := if last then .stopped else .readFrom, handler := .copy item }
  | _, _ => none

/-- The rest of `Read` into the buffer `b`: the caller gets as much of `b` as the returned
count says. -/
def UdpCustomConn.copy (b : Bytes) (s : UdpCustomConn) : Option UdpCustomConn :=
  match s.handler with
  | .copy item =>
    let data := item.slice s.tempBuf
    let result := match item.err with
      | some err => .error err
      | none => .ok ((copyInto b data).take data.length)
    some { s with handler := .receive, results := s.results ++ [result] }
  | _ => none

inductive Act
  | readFrom
  | first
  | handOver
  | copy
deriving DecidableEq, Repr

/-- One step of an association whose caller reads into the buffer `b`. -/
def UdpCustomConn.next (b : Bytes) (s : UdpCustomConn) : Act → Option UdpCustomConn
  | .readFrom => s.readFrom
  | .first => s.first
  | .handOver => s.handOver
  | .copy => s.copy b

/-- The association as `handleAssociate` sets it up, with the datagrams to come. -/
def UdpCustomConn.init (closed : Option Error) (ds : List Datagram) : UdpCustomConn where
  incoming := ds
  closed := closed
  tempBuf := List.replicate maxUdpPacket 0
  sourceAddr := none
  targetAddr := none
  firstRead := false
  reader := .readFrom
  handler := .waitFrc
  results := []

/-- The association with a user handler, as a machine. -/
def association (closed : Option Error) (ds : List Datagram) (b : Bytes) :
    Machine UdpCustomConn Act where
  start s := s = .init closed ds
  next := UdpCustomConn.next b

end Vwarp.Proxy.Socks5
