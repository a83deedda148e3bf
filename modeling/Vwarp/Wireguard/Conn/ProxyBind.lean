import Vwarp.Go.Io
import Vwarp.Go.Netip

/-!
# `ProxyBind`: WireGuard datagrams through a SOCKS5 relay

`ProxyBind.Send` puts a SOCKS5 UDP header in front of each datagram and
`ProxyBind.receiveIPv4` takes it off again.  Received datagrams name the endpoint
they come from, and `Peer.SetEndpointFromPacket` makes that endpoint the one the
next `Send` is given.

The framing is meant to be a round trip.  It is one for an IPv6 endpoint without a
zone.  An IPv4 endpoint is decoded through `net.IPv4`, whose 16-byte form
`AddrFromSlice` turns into an IPv4-*mapped IPv6* address, so the endpoint that comes
back is not the one that went in, and after the first received datagram `Send`
writes an IPv6 header for the same host.  `proxyBind_roundtrip_iff` is the exact
statement.

The bind is taken to be open (`udpConn` and `udpRelayAddr` set); the datagrams are
those handed to `WriteToUDP`.
-/

namespace Vwarp.Wireguard.Conn

open Vwarp.Go Vwarp.Lib

/-- `conn.Endpoint`: the standard endpoint, or another implementation. -/
inductive Endpoint
  | std (addrPort : AddrPort)
  | other
deriving DecidableEq, Repr

/-- The errors of `Send` on an open bind. -/
inductive SendError
  | wrongEndpointType
  | invalidIPAddress
  | write (err : Error)
deriving DecidableEq, Repr

/-- The address type and address bytes `Send` writes, if the address is valid. -/
def atypAddr (addr : Addr) : Option Bytes :=
  if addr.is4 then some (0x01 :: addr.asSlice)
  else if addr.is6 then some (0x04 :: addr.asSlice)
  else none

/-- The SOCKS5 UDP header `Send` builds for an endpoint. -/
def header (ep : AddrPort) : Option Bytes :=
  (atypAddr ep.addr).map fun a ↦ [0x00, 0x00, 0x00] ++ a ++ putUint16 ep.port

/-- The write loop of `Send`: the datagrams handed to the socket, up to and including
the first that fails. -/
def writeAll (write : Bytes → Option Error) (hdr : Bytes) :
    List Bytes → List Bytes × Option SendError
  | [] => ([], none)
  | buf :: bufs =>
    let packet := hdr ++ buf
    match write packet with
    | some err => ([packet], some (.write err))
    | none =>
      let (packets, err) := writeAll write hdr bufs
      (packet :: packets, err)

/-- `ProxyBind.Send` on an open bind. -/
def send (write : Bytes → Option Error) (bufs : List Bytes) (ep : Endpoint) :
    List Bytes × Option SendError :=
  match ep with
  | .other => ([], some .wrongEndpointType)
  | .std ep =>
    match header ep with
    | none => ([], some .invalidIPAddress)
    | some hdr => writeAll write hdr bufs

/-- What `receiveIPv4` leaves in `packets[0]`, `sizes[0]` and `eps[0]`. -/
structure Received where
  packet : Bytes
  size : Nat
  ep : Endpoint
deriving DecidableEq, Repr

/-- The size of the buffer `receiveIPv4` reads a datagram into. -/
def recvBufLen : Nat := 65535

/-- `ProxyBind.receiveIPv4` on an open bind, for a datagram the socket delivers and a
caller whose first packet buffer is `packet0`; `none` when it returns no packet. -/
def receiveIPv4 (datagram packet0 : Bytes) : Option Received :=
  let buf := datagram.take recvBufLen
  let size := buf.length
  let decoded (destIP : Bytes) (port : Bytes) (headerLen : Nat) : Received :=
    let destAddr := (addrFromSlice destIP).getD .invalid
    let payloadSize := min (size - headerLen) packet0.length
    { packet := copyInto packet0 ((buf.drop headerLen).take payloadSize)
      size := payloadSize
      ep := .std ⟨destAddr, uint16 port⟩ }
  let atyp := buf.getD 3 0
  if size < 10 then none
  else if atyp = 0x01 then
    some (decoded (netIPv4 (buf.getD 4 0) (buf.getD 5 0) (buf.getD 6 0) (buf.getD 7 0))
      (buf.drop 8) 10)
  else if atyp = 0x04 then
    if size < 22 then none else some (decoded ((buf.drop 4).take 16) (buf.drop 20) 22)
  else none

/-- The payload the caller finds: the first `size` bytes of its packet buffer. -/
def Received.payload (r : Received) : Bytes := r.packet.take r.size

/-! ## Peers and roaming -/

/-- The part of a `Peer` that remembers where to send. -/
structure Peer where
  endpoint : Endpoint
  disableRoaming : Bool
deriving DecidableEq, Repr

/-- `Peer.SetEndpointFromPacket`. -/
def Peer.setEndpointFromPacket (peer : Peer) (endpoint : Endpoint) : Peer :=
  if peer.disableRoaming then peer else { peer with endpoint := endpoint }

/-- The address type and address bytes at the front of a framed datagram's header. -/
def frontOf (datagram : Bytes) : Bytes :=
  if datagram.getD 3 0 = 0x01 then (datagram.drop 3).take 5 else (datagram.drop 3).take 17

/-- An alternating run of receive and send steps with one remote host.  Each step
receives the host's datagram with payload `r`, framed for the host as `Send` frames
it, moves the peer to the endpoint it names, and sends `b`; the fronts of the
datagrams sent are collected. -/
def roam (host : AddrPort) (peer : Peer) : List (Bytes × Bytes) → List Bytes
  | [] => []
  | (r, b) :: steps =>
    let incoming := (send (fun _ ↦ none) [r] (.std host)).1
    let peer := match incoming.head?.bind fun d ↦ receiveIPv4 d (List.replicate recvBufLen 0) with
      | some rcv => peer.setEndpointFromPacket rcv.ep
      | none => peer
    (send (fun _ ↦ none) [b] peer.endpoint).1.map frontOf ++ roam host peer steps

/-! ## What `Send` writes -/

variable {hdr pay port : Bytes}

/-- `Send` of one payload writes one datagram, if the endpoint's address is valid. -/
theorem send_singleton {ep : AddrPort} (h : header ep = some hdr) (b : Bytes) :
    send (fun _ ↦ none) [b] (.std ep) = ([hdr ++ b], none) := by
  simp [send, h, writeAll]

theorem header_v4 (a : BitVec 32) (port : UInt16) :
    header ⟨.v4 a, port⟩ = some ([0, 0, 0, 1] ++ ((Addr.v4 a).asSlice ++ putUint16 port)) := rfl

theorem header_v6 (a : BitVec 128) (z : Bytes) (port : UInt16) :
    header ⟨.v6 a z, port⟩ = some ([0, 0, 0, 4] ++ ((Addr.v6 a z).asSlice ++ putUint16 port)) := rfl

theorem frontOf_header {ep : AddrPort} (h : header ep = some hdr) (b : Bytes) :
    some (frontOf (hdr ++ b)) = atypAddr ep.addr := by
  obtain ⟨addr, port⟩ := ep
  cases addr with
  | invalid => simp [header, atypAddr, Addr.is4, Addr.is6] at h
  | v4 a =>
    obtain rfl := Option.some.inj ((header_v4 a port).symm.trans h)
    simp [frontOf, atypAddr, Addr.is4]
  | v6 a z =>
    obtain rfl := Option.some.inj ((header_v6 a z port).symm.trans h)
    simp [frontOf, atypAddr, Addr.is4, Addr.is6]

/-! ## What `receiveIPv4` makes of it -/

/-- `receiveIPv4` sees no more of a datagram than its buffer holds. -/
theorem receiveIPv4_take (d packet0 : Bytes) :
    receiveIPv4 (d.take recvBufLen) packet0 = receiveIPv4 d packet0 := by
  simp only [receiveIPv4, List.take_take, Nat.min_self]

theorem receiveIPv4_atyp4 {ip : Bytes} (hip : ip.length = 16) (hport : port.length = 2)
    (hlen : 22 + pay.length ≤ recvBufLen) (packet0 : Bytes) :
    receiveIPv4 ([0, 0, 0, 4] ++ (ip ++ port) ++ pay) packet0 =
      some ⟨copyInto packet0 (pay.take (min pay.length packet0.length)),
        min pay.length packet0.length, .std ⟨(addrFromSlice ip).getD .invalid, uint16 port⟩⟩ := by
  have hsize : ([0, 0, 0, 4] ++ (ip ++ port) ++ pay).length = 22 + pay.length := by simp; omega
  have hdrop : ip.drop 18 = [] := List.drop_of_length_le (by omega)
  have htake : port.take 2 = port := List.take_of_length_le (by omega)
  unfold receiveIPv4
  simp only [List.take_of_length_le (Nat.le_trans (Nat.le_of_eq hsize) hlen), hsize,
    Nat.add_sub_cancel_left]
  rw [if_neg (by omega), if_neg (by simp), if_pos (by simp), if_neg (by omega)]
  simp [List.drop_append, hip, hport, uint16, hdrop, htake]

theorem receiveIPv4_atyp1 (a b c d : UInt8) (hport : port.length = 2)
    (hlen : 10 + pay.length ≤ recvBufLen) (packet0 : Bytes) :
    receiveIPv4 ([0, 0, 0, 1] ++ ([a, b, c, d] ++ port) ++ pay) packet0 =
      some ⟨copyInto packet0 (pay.take (min pay.length packet0.length)),
        min pay.length packet0.length,
        .std ⟨(addrFromSlice (netIPv4 a b c d)).getD .invalid, uint16 port⟩⟩ := by
  have hsize : ([0, 0, 0, 1] ++ ([a, b, c, d] ++ port) ++ pay).length = 10 + pay.length := by
    simp; omega
  have htake : port.take 2 = port := List.take_of_length_le (by omega)
  unfold receiveIPv4
  simp only [List.take_of_length_le (Nat.le_trans (Nat.le_of_eq hsize) hlen), hsize,
    Nat.add_sub_cancel_left]
  rw [if_neg (by omega), if_pos (by simp)]
  simp [List.drop_append, hport, uint16, htake]

theorem payload_copyInto (packet0 pay : Bytes) (ep : Endpoint) :
    (Received.mk (copyInto packet0 (pay.take (min pay.length packet0.length)))
      (min pay.length packet0.length) ep).payload = pay.take packet0.length := by
  have hlen :
      (pay.take (min pay.length packet0.length)).length = min pay.length packet0.length := by
    simp
  have hfit : (pay.take (min pay.length packet0.length)).length ≤ packet0.length := by omega
  have hcopy := take_copyInto hfit
  rw [hlen] at hcopy
  rw [Received.payload, hcopy, Nat.min_comm, ← List.take_take, List.take_length]

theorem take_framed (h : hdr.length ≤ recvBufLen) (b : Bytes) :
    (hdr ++ b).take recvBufLen = hdr ++ b.take (recvBufLen - hdr.length) := by
  rw [List.take_append, List.take_of_length_le h]

/-- A datagram framed for an IPv6 endpoint is decoded to that endpoint without its
zone, and to as much of the payload as the two buffers hold. -/
theorem receive_header_v6 (a : BitVec 128) (z : Bytes) (port : UInt16)
    (h : header ⟨.v6 a z, port⟩ = some hdr) (b packet0 : Bytes) :
    ∃ r, receiveIPv4 (hdr ++ b) packet0 = some r ∧ r.ep = .std ⟨.v6 a [], port⟩ ∧
      r.payload = (b.take (recvBufLen - 22)).take packet0.length := by
  obtain rfl := Option.some.inj ((header_v6 a z port).symm.trans h)
  have hlen : ([0, 0, 0, 4] ++ ((Addr.v6 a z).asSlice ++ putUint16 port)).length = 22 := by simp
  have hfit : 22 + (b.take (recvBufLen - 22)).length ≤ recvBufLen := by
    simp only [List.length_take, recvBufLen]; omega
  have hport : uint16 (putUint16 port) = port := by simpa using uint16_putUint16 port []
  have hr := receiveIPv4_atyp4 (length_asSlice_v6 a z) (length_putUint16 port) hfit packet0
  rw [addrFromSlice_asSlice_v6, Option.getD_some, hport] at hr
  rw [← receiveIPv4_take, take_framed (by rw [hlen]; decide), hlen]
  exact ⟨_, hr, rfl, payload_copyInto _ _ _⟩

/-- A datagram framed for an IPv4 endpoint is decoded to an IPv6 endpoint. -/
theorem receive_header_v4 (a : BitVec 32) (port : UInt16)
    (h : header ⟨.v4 a, port⟩ = some hdr) (b packet0 : Bytes) :
    ∃ r v, receiveIPv4 (hdr ++ b) packet0 = some r ∧ r.ep = .std ⟨.v6 v [], port⟩ := by
  obtain rfl := Option.some.inj ((header_v4 a port).symm.trans h)
  have hlen : ([0, 0, 0, 1] ++ ((Addr.v4 a).asSlice ++ putUint16 port)).length = 10 := by simp
  have hfit : 10 + (b.take (recvBufLen - 10)).length ≤ recvBufLen := by
    simp only [List.length_take, recvBufLen]; omega
  have hport : uint16 (putUint16 port) = port := by simpa using uint16_putUint16 port []
  obtain ⟨i, j, k, l, hip⟩ : ∃ i j k l, (Addr.v4 a).asSlice = [i, j, k, l] :=
    List.length_eq_four.mp (length_asSlice_v4 a)
  obtain ⟨v, hv⟩ := addrFromSlice_netIPv4 i j k l
  have hr := receiveIPv4_atyp1 i j k l (length_putUint16 port) hfit packet0
  rw [hv, Option.getD_some, hport] at hr
  rw [← receiveIPv4_take, take_framed (by rw [hlen]; decide), hlen, hip]
  exact ⟨_, v, hr, rfl⟩

/-! ## The round trip -/

/-- The datagram `Send` builds for `b` and `ep` is decoded to exactly `b` and `ep`. -/
def RoundTrip (ep : AddrPort) (b packet0 : Bytes) : Prop :=
  ∃ d, send (fun _ ↦ none) [b] (.std ep) = ([d], none) ∧
    ∃ r, receiveIPv4 d packet0 = some r ∧ r.payload = b ∧ r.ep = .std ep

/-- However often the peer's endpoint is replaced by the received one, `Send` keeps
writing the address type and the address of the host. -/
def FrontStable (host : AddrPort) : Prop :=
  ∀ steps, ∀ front ∈ roam host ⟨.std host, false⟩ steps, some front = atypAddr host.addr

/-- One step of a run: the peer moves to the endpoint decoded from the host's datagram,
and that is where the next datagram goes. -/
theorem roam_cons {host : AddrPort} (hh : header host = some hdr) (e : Endpoint)
    {step : Bytes × Bytes} {r : Received} {addrPort : AddrPort} {hdr' : Bytes}
    (hr : receiveIPv4 (hdr ++ step.1) (List.replicate recvBufLen 0) = some r)
    (hep : r.ep = .std addrPort) (hh' : header addrPort = some hdr')
    (steps : List (Bytes × Bytes)) :
    roam host ⟨e, false⟩ (step :: steps) =
      frontOf (hdr' ++ step.2) :: roam host ⟨.std addrPort, false⟩ steps := by
  simp only [roam, send_singleton hh, List.head?_cons, Option.bind_some, hr,
    Peer.setEndpointFromPacket, Bool.false_eq_true, if_false, hep, send_singleton hh',
    List.map_cons, List.map_nil, List.singleton_append]

theorem frontStable_v6 (a : BitVec 128) (port : UInt16) : FrontStable ⟨.v6 a [], port⟩ := by
  obtain ⟨hdr, hh⟩ : ∃ hdr, header ⟨.v6 a [], port⟩ = some hdr := ⟨_, header_v6 a [] port⟩
  intro steps
  induction steps with
  | nil => simp [roam]
  | cons step steps ih =>
    obtain ⟨r, hr, hep, -⟩ := receive_header_v6 a [] port hh step.1 (List.replicate recvBufLen 0)
    intro front hf
    rw [roam_cons hh _ hr hep hh, List.mem_cons] at hf
    rcases hf with rfl | hf
    · exact frontOf_header hh _
    · exact ih front hf

theorem not_frontStable_v4 (a : BitVec 32) (port : UInt16) : ¬ FrontStable ⟨.v4 a, port⟩ := by
  intro h
  obtain ⟨hdr, hh⟩ : ∃ hdr, header ⟨.v4 a, port⟩ = some hdr := ⟨_, header_v4 a port⟩
  obtain ⟨r, v, hr, hep⟩ := receive_header_v4 a port hh [] (List.replicate recvBufLen 0)
  obtain ⟨hdr', hh'⟩ : ∃ hdr, header ⟨.v6 v [], port⟩ = some hdr := ⟨_, header_v6 v [] port⟩
  have hfront := h [([], [])] (frontOf (hdr' ++ []))
    (by rw [roam_cons hh _ hr hep hh']; exact List.mem_cons_self ..)
  rw [frontOf_header hh'] at hfront
  simp [atypAddr, Addr.is4, Addr.is6] at hfront

theorem not_roundTrip_v4 (a : BitVec 32) (port : UInt16) (b packet0 : Bytes) :
    ¬ RoundTrip ⟨.v4 a, port⟩ b packet0 := by
  rintro ⟨d, hd, r, hr, -, hep⟩
  have hh := header_v4 a port
  obtain ⟨r', v, hr', hep'⟩ := receive_header_v4 a port hh b packet0
  obtain rfl : _ = d := by simpa [send_singleton hh] using hd
  obtain rfl : r' = r := Option.some.inj (hr'.symm.trans hr)
  simp [hep'] at hep

/-- The framing is a round trip, and stays one under roaming, exactly for the IPv6
endpoints without a zone and the payloads that fit the read buffer with their header. -/
theorem proxyBind_roundtrip_iff (ep : AddrPort) (b packet0 : Bytes)
    (hfit : b.length ≤ packet0.length) :
    RoundTrip ep b packet0 ∧ FrontStable ep ↔
      (∃ a, ep.addr = .v6 a []) ∧ b.length + 22 ≤ recvBufLen := by
  obtain ⟨addr, port⟩ := ep
  cases addr with
  | invalid =>
    refine ⟨fun h ↦ ?_, fun h ↦ by obtain ⟨⟨a, ha⟩, -⟩ := h; cases ha⟩
    obtain ⟨⟨d, hd, -⟩, -⟩ := h
    simp [send, header, atypAddr, Addr.is4, Addr.is6] at hd
  | v4 a =>
    exact ⟨fun h ↦ absurd h.1 (not_roundTrip_v4 a port b packet0),
      fun h ↦ by obtain ⟨⟨a, ha⟩, -⟩ := h; cases ha⟩
  | v6 a z =>
    have hh := header_v6 a z port
    obtain ⟨r', hr', hep', hpay'⟩ := receive_header_v6 a z port hh b packet0
    constructor
    · rintro ⟨⟨d, hd, r, hr, hpay, hep⟩, -⟩
      obtain rfl : _ = d := by simpa [send_singleton hh] using hd
      obtain rfl : r' = r := Option.some.inj (hr'.symm.trans hr)
      have hz : z = [] := by simpa [hep', eq_comm] using hep
      have hlen := congrArg List.length (hpay'.symm.trans hpay)
      simp only [List.length_take, recvBufLen] at hlen
      exact ⟨⟨a, by rw [hz]⟩, by simp only [recvBufLen]; omega⟩
    · rintro ⟨⟨a', ha⟩, hlen⟩
      obtain ⟨rfl, rfl⟩ : a = a' ∧ z = [] := by simpa using ha
      have hb : (b.take (recvBufLen - 22)).take packet0.length = b := by
        rw [List.take_of_length_le (by omega : b.length ≤ recvBufLen - 22),
          List.take_of_length_le hfit]
      exact ⟨⟨_, send_singleton hh b, r', hr', hpay'.trans hb, hep'⟩, frontStable_v6 a port⟩

/-- A WireGuard endpoint written as an IPv6 address makes the round trip. -/
theorem proxyBind_roundtrip_v6_endpoint :
    RoundTrip ⟨.v6 0x26064700d00000000000000000000001 [], 2408⟩ [4, 0, 0, 0] [0, 0, 0, 0, 0] ∧
      FrontStable ⟨.v6 0x26064700d00000000000000000000001 [], 2408⟩ :=
  (proxyBind_roundtrip_iff _ [4, 0, 0, 0] [0, 0, 0, 0, 0] (by decide)).mpr
    ⟨⟨_, rfl⟩, by decide⟩

/-- The WARP endpoint `162.159.192.1:2408` comes back as `[::ffff:162.159.192.1]:2408`, and
the next datagram sent to it carries an IPv6 header. -/
theorem proxyBind_v4_drifts :
    ¬ RoundTrip ⟨.v4 0xa29fc001, 2408⟩ [4, 0, 0, 0] [0, 0, 0, 0, 0] ∧
      receiveIPv4 [0, 0, 0, 1, 162, 159, 192, 1, 9, 104, 4, 0, 0, 0] [0, 0, 0, 0, 0] =
        some ⟨[4, 0, 0, 0, 0], 4, .std ⟨.v6 0xffffa29fc001 [], 2408⟩⟩ ∧
      ¬ FrontStable ⟨.v4 0xa29fc001, 2408⟩ :=
  ⟨not_roundTrip_v4 _ _ _ _, by decide, not_frontStable_v4 _ _⟩

end Vwarp.Wireguard.Conn
