import Vwarp.Go.Net
import Vwarp.Lib.Handles
import Vwarp.Wireguard.Conn.ProxyBind

/-!
# `establishUDPAssociation`, `Open` and `Close`

A `ProxyBind` asks a SOCKS5 proxy for a UDP association before it is used.  What the network
and the proxy do during one association is a `Network`: which calls fail, and the bytes that the
proxy sends before the connection ends.

The TCP connections and UDP sockets of the process are handles, so that a field of the bind can
name a socket that was closed.

An association has three outcomes.  It can fail before the UDP socket is opened, it can fail
after that, and it can be granted.  `establishUDPAssociation_early`, `_late` and `_granted` say
what each of them leaves behind, and the first two differ: a late failure closes the socket that
it has already stored in `udpConn`.
-/

namespace Vwarp.Wireguard.Conn

open Vwarp.Go Vwarp.Lib

/-- The outcome of the calls of one association. -/
structure Network where
  /-- `net.DialTimeout` succeeds. -/
  dial : Bool
  writeGreeting : Bool
  /-- What the proxy sends. -/
  incoming : Bytes
  /-- `net.ListenUDP` succeeds, with this local port. -/
  listenUDP : Option UInt16
  writeRequest : Bool
  /-- The text of the error of the call that fails. -/
  err : Bytes

/-- No call fails, and the proxy sends these bytes. -/
def Network.answering (port : UInt16) (incoming : Bytes) : Network :=
  ⟨true, true, incoming, some port, true, []⟩

/-- An association that a proxy granted. -/
structure Association where
  /-- The UDP socket that it is for. -/
  udpConn : Nat
  /-- The connection that it was asked for on. -/
  proxyConn : Nat
  relayAddr : UDPAddr
deriving DecidableEq

/-- A `ProxyBind`, with the handles of the process. -/
structure ProxyBind where
  proxyAddr : Bytes
  proxyConn : Option Nat
  udpConn : Option Nat
  udpRelayAddr : Option UDPAddr
  conns : Handles
  sockets : Handles
  /-- The local port of each UDP socket; a closed socket keeps it. -/
  localPort : Nat → UInt16
  associations : List Association
  /-- What the proxy sent on the last association that it granted and was not read. -/
  unread : Bytes
  /-- How often the proxy was dialled. -/
  dials : Nat

/-- The bind that `NewProxyBind` makes for the address of a proxy. -/
def newProxyBind (proxyAddress : Bytes) : ProxyBind :=
  ⟨proxyAddress, none, none, none, .empty, .empty, fun _ ↦ 0, [], [], 0⟩

/-- `io.ReadFull` of `n` bytes from what a connection gives: the bytes, and the rest. -/
def readFullFrom (incoming : Bytes) (n : Nat) : Option (Bytes × Bytes) :=
  if n ≤ incoming.length then some (incoming.take n, incoming.drop n) else none

/-- `IP.IsUnspecified`. -/
def isUnspecified (ip : Bytes) : Bool :=
  ip = List.replicate 4 0 ∨ ip = netIPv4 0 0 0 0 ∨ ip = List.replicate 16 0

/-- The host of the proxy as an IP, if it is one. -/
def proxyIP (proxyAddr : Bytes) : Option Bytes :=
  let proxyHost := ((Go.splitHostPort proxyAddr).map Prod.fst).getD []
  parseIP proxyHost

/-- The relay that a reply names; the IP is `nil`, which is empty, if the proxy leaves it open
and its own host is not an IP. -/
def relayAddr (proxyAddr response : Bytes) : UDPAddr :=
  let relayIP := netIPv4 (response.getD 4 0) (response.getD 5 0) (response.getD 6 0)
    (response.getD 7 0)
  let relayPort := uint16 ((response.take 10).drop 8)
  ⟨if isUnspecified relayIP then (proxyIP proxyAddr).getD [] else relayIP, relayPort.toNat⟩

/-- A reply does not begin with the version and the code of success. -/
def refused (reply : Bytes) : Bool := reply.getD 0 0 ≠ 0x05 ∨ reply.getD 1 0 ≠ 0x00

namespace ProxyBind

/-- `conn.Close()` in an association that fails. -/
def closeConn (s : ProxyBind) (conn : Nat) : ProxyBind := { s with conns := s.conns.close conn }

/-- `conn.Close()` and `udpConn.Close()` in an association that fails. -/
def closeBoth (s : ProxyBind) (conn udpConn : Nat) : ProxyBind :=
  { s with conns := s.conns.close conn, sockets := s.sockets.close udpConn }

/-- `establishUDPAssociation` from the request on. -/
def requestAssociation (s : ProxyBind) (net : Network) (conn udpConn : Nat) (incoming : Bytes) :
    ProxyBind × Option Bytes :=
  if !net.writeRequest then (s.closeBoth conn udpConn, some net.err)
  else
    match readFullFrom incoming 10 with
    | none => (s.closeBoth conn udpConn, some net.err)
    | some (response, unread) =>
      if refused response then
        (s.closeBoth conn udpConn, some (str "UDP ASSOCIATE failed"))
      else
        let relay := relayAddr s.proxyAddr response
        ({ s with
            udpRelayAddr := some relay
            associations := ⟨udpConn, conn, relay⟩ :: s.associations
            unread := unread }, none)

/-- `establishUDPAssociation` from the UDP socket on. -/
def listenAndRequest (s : ProxyBind) (net : Network) (conn : Nat) (incoming : Bytes) :
    ProxyBind × Option Bytes :=
  match net.listenUDP with
  | none => (s.closeConn conn, some net.err)
  | some port =>
    let udpConn := s.sockets.next
    let s := { s with
      sockets := s.sockets.alloc
      localPort := fun i ↦ if i = udpConn then port else s.localPort i
      udpConn := some udpConn }
    s.requestAssociation net conn udpConn incoming

/-- `establishUDPAssociation`; the second part is the error. -/
def establishUDPAssociation (s : ProxyBind) (net : Network) : ProxyBind × Option Bytes :=
  let s := { s with dials := s.dials + 1 }
  if !net.dial then (s, some net.err)
  else
    let conn := s.conns.next
    let s := { s with conns := s.conns.alloc, proxyConn := some conn }
    if !net.writeGreeting then (s.closeConn conn, some net.err)
    else
      match readFullFrom net.incoming 2 with
      | none => (s.closeConn conn, some net.err)
      | some (buf, incoming) =>
        if refused buf then (s.closeConn conn, some (str "auth failed"))
        else s.listenAndRequest net conn incoming

/-- `Open`: the local port, or an error. -/
def openBind (s : ProxyBind) (net : Network) : ProxyBind × Except Bytes UInt16 :=
  match s.udpConn with
  | some udpConn => (s, .ok (s.localPort udpConn))
  | none =>
    match s.establishUDPAssociation net with
    | (t, some err) => (t, .error (str "proxy initialization failed: " ++ err))
    | (t, none) => (t, .ok ((t.udpConn.map t.localPort).getD 0))

/-- `Close`. -/
def close (s : ProxyBind) : ProxyBind where
  proxyAddr := s.proxyAddr
  proxyConn := none
  udpConn := none
  udpRelayAddr := s.udpRelayAddr
  conns := s.conns.closeHeld s.proxyConn
  sockets := s.sockets.closeHeld s.udpConn
  localPort := s.localPort
  associations := s.associations
  unread := s.unread
  dials := s.dials

/-- `Send`, for what the network does with a datagram that an open socket sends to a relay;
`none` is `EINVAL`. -/
def send (s : ProxyBind) (write : Nat → UDPAddr → Bytes → Option Error) (bufs : List Bytes)
    (ep : Endpoint) : Option (List Bytes × Option SendError) :=
  match s.udpConn, s.udpRelayAddr with
  | some udpConn, some relayAddr =>
    let writeToUDP (packet : Bytes) : Option Error :=
      if s.sockets.IsOpen udpConn then write udpConn relayAddr packet
      else some (.text (str "use of closed network connection"))
    some (Conn.send writeToUDP bufs ep)
  | _, _ => none

end ProxyBind

/-! ## The outcomes of an association -/

/-- The proxy takes the greeting and the UDP socket is opened. -/
structure Network.Greets (net : Network) : Prop where
  dial : net.dial = true
  writeGreeting : net.writeGreeting = true
  long : 2 ≤ net.incoming.length
  accepted : refused (net.incoming.take 2) = false
  listenUDP : net.listenUDP.isSome = true

/-- The proxy answers the request with a reply of success. -/
structure Network.Grants (net : Network) : Prop where
  writeRequest : net.writeRequest = true
  long : 10 ≤ (net.incoming.drop 2).length
  accepted : refused ((net.incoming.drop 2).take 10) = false

/-- The association fails after the UDP socket was opened. -/
def Network.FailsLate (net : Network) : Prop := net.Greets ∧ ¬ net.Grants

theorem readFullFrom_of_le {incoming : Bytes} {n : Nat} (h : n ≤ incoming.length) :
    readFullFrom incoming n = some (incoming.take n, incoming.drop n) := if_pos h

theorem readFullFrom_eq_some {incoming : Bytes} {n : Nat} {r : Bytes × Bytes}
    (h : readFullFrom incoming n = some r) :
    n ≤ incoming.length ∧ r = (incoming.take n, incoming.drop n) := by
  obtain ⟨hle, heq⟩ := Option.ite_none_right_eq_some.mp h
  exact ⟨hle, (Option.some.inj heq).symm⟩

namespace ProxyBind

variable {s : ProxyBind} {net : Network}

def dialled (s : ProxyBind) : ProxyBind :=
  { s with
    dials := s.dials + 1
    conns := s.conns.alloc
    proxyConn := some s.conns.next }

def listening (s : ProxyBind) (port : UInt16) : ProxyBind :=
  { s.dialled with
    sockets := s.sockets.alloc
    localPort := fun i ↦ if i = s.sockets.next then port else s.localPort i
    udpConn := some s.sockets.next }

/-- The bind after the association was granted, with the reply. -/
def associated (s : ProxyBind) (port : UInt16) (response unread : Bytes) : ProxyBind :=
  { s.listening port with
    udpRelayAddr := some (relayAddr s.proxyAddr response)
    associations := ⟨s.sockets.next, s.conns.next, relayAddr s.proxyAddr response⟩ ::
      s.associations
    unread := unread }

theorem establishUDPAssociation_of_greets (h : net.Greets) :
    ∃ port, net.listenUDP = some port ∧
      s.establishUDPAssociation net = (s.listening port).requestAssociation net s.conns.next
        s.sockets.next (net.incoming.drop 2) := by
  obtain ⟨port, hport⟩ := Option.isSome_iff_exists.mp h.listenUDP
  refine ⟨port, hport, ?_⟩
  simp only [establishUDPAssociation, h.dial, h.writeGreeting, Bool.not_true, Bool.false_eq_true,
    if_false, readFullFrom_of_le h.long, h.accepted, listenAndRequest, hport]
  rfl

theorem establishUDPAssociation_granted (h : net.Greets) (h' : net.Grants) :
    ∃ port, net.listenUDP = some port ∧
      s.establishUDPAssociation net =
        (s.associated port ((net.incoming.drop 2).take 10) ((net.incoming.drop 2).drop 10),
          none) := by
  obtain ⟨port, hport, heq⟩ := establishUDPAssociation_of_greets (s := s) h
  refine ⟨port, hport, heq.trans ?_⟩
  simp only [requestAssociation, h'.writeRequest, Bool.not_true, Bool.false_eq_true, if_false,
    readFullFrom_of_le h'.long, h'.accepted]
  rfl

theorem establishUDPAssociation_late (h : net.FailsLate) :
    ∃ port err, s.establishUDPAssociation net =
      ((s.listening port).closeBoth s.conns.next s.sockets.next, some err) := by
  obtain ⟨port, -, heq⟩ := establishUDPAssociation_of_greets (s := s) h.1
  rw [heq, requestAssociation]
  split_ifs with hwrite
  · exact ⟨port, _, rfl⟩
  · split
    · exact ⟨port, _, rfl⟩
    · rename_i response unread hread
      obtain ⟨hlong, heq⟩ := readFullFrom_eq_some hread
      cases heq
      split_ifs with haccepted
      · exact ⟨port, _, rfl⟩
      · refine absurd ⟨?_, hlong, ?_⟩ h.2
        · simpa using hwrite
        · simpa using haccepted

/-- An early failure closes the connection that it opened, if it opened one, and there is no
socket yet. -/
theorem establishUDPAssociation_early (h : ¬ net.Greets) :
    ∃ err, s.establishUDPAssociation net = ({ s with dials := s.dials + 1 }, some err) ∨
      s.establishUDPAssociation net = (s.dialled.closeConn s.conns.next, some err) := by
  rw [establishUDPAssociation]
  dsimp only
  split
  · exact ⟨_, .inl rfl⟩
  · rename_i hdial
    split_ifs with hwrite
    · exact ⟨_, .inr rfl⟩
    · split
      · exact ⟨_, .inr rfl⟩
      · rename_i buf incoming hread
        obtain ⟨hlong, heq⟩ := readFullFrom_eq_some hread
        cases heq
        split_ifs with haccepted
        · exact ⟨_, .inr rfl⟩
        · rw [listenAndRequest]
          split
          · exact ⟨_, .inr rfl⟩
          · rename_i port hport
            refine absurd ⟨?_, ?_, hlong, ?_, ?_⟩ h
            · simpa using hdial
            · simpa using hwrite
            · simpa using haccepted
            · rw [hport]
              rfl

end ProxyBind

end Vwarp.Wireguard.Conn
