import Vwarp.Go.NetText
import Vwarp.Proxy.Socks5.Server
import Vwarp.Wireguard.Conn.ProxyBind.Associate

/-!
# The reply to `UDP ASSOCIATE`: `ProxyBind` against `socks5.Server`

`handleAssociate` answers a client with the address it forwards packets on, written by
`writeAddr`: an IPv4 address takes ten bytes of reply, and an IPv6 address twenty-two.
`establishUDPAssociation` reads ten bytes, takes an IPv4 address out of them whatever their address
type is, and puts the host of the proxy in the place of an address that is left open.

So the two agree on IPv4 addresses, in either form of `net.IP`, and on the address that is left
open when the host of the proxy is itself an IP: `reply_agrees_iff`.
-/

namespace Vwarp.Wireguard.Conn.ProxyBind

open Vwarp.Go Vwarp.Lib Vwarp.Proxy

/-- The success reply of `handleAssociate` with the address that `PacketForwardAddress` gives. -/
def associateReply (ip : Bytes) (port : UInt16) : Option Bytes :=
  Socks5.sendReply Socks5.successReply (some ⟨[], ip, port.toNat⟩)

/-- What a client sees that a server without authentication answers: its choice of method, the
reply, and whatever comes after it. -/
def answer (reply rest : Bytes) : Bytes := [Socks5.socks5Version, Socks5.noAuth] ++ reply ++ rest

/-- The address that the relay of an association has: the one in the reply, or that of the proxy
when it is left open. -/
def relayIP (proxyAddr ip : Bytes) : Option Bytes :=
  if isUnspecified ip then proxyIP proxyAddr else to16 ip

/-- The association succeeds, the client has read the reply and nothing else, and its relay is
the address and port of the reply. -/
structure Decodes (s : ProxyBind) (ip : Bytes) (port : UInt16) (reply rest : Bytes)
    (localPort : UInt16) : Prop where
  succeeds : (s.establishUDPAssociation (.answering localPort (answer reply rest))).2 = none
  unread : (s.establishUDPAssociation (.answering localPort (answer reply rest))).1.unread = rest
  relay : ∃ addr, relayIP s.proxyAddr ip = some addr ∧
    (s.establishUDPAssociation (.answering localPort (answer reply rest))).1.udpRelayAddr =
      some ⟨addr, port.toNat⟩

/-- The client reads the reply of the server for an address as that address. -/
def Agrees (s : ProxyBind) (ip : Bytes) (port : UInt16) : Prop :=
  ∃ reply, associateReply ip port = some reply ∧
    ∀ rest localPort, s.Decodes ip port reply rest localPort

/-! ## Reading a reply -/

variable {s : ProxyBind} {ip : Bytes} {port : UInt16}

/-- The client reads the first ten bytes of a reply of success. -/
theorem establishUDPAssociation_answering {reply : Bytes} (hlong : 10 ≤ reply.length)
    (haccepted : refused (reply.take 10) = false) (rest : Bytes) (localPort : UInt16) :
    s.establishUDPAssociation (.answering localPort (answer reply rest)) =
      (s.associated localPort (reply.take 10) (reply.drop 10 ++ rest), none) := by
  have hdrop : (answer reply rest).drop 2 = reply ++ rest := rfl
  have htake : (reply ++ rest).take 10 = reply.take 10 := List.take_append_of_le_length hlong
  have hgreets : (Network.answering localPort (answer reply rest)).Greets := by
    refine ⟨rfl, rfl, ?_, rfl, rfl⟩
    show 2 ≤ (reply ++ rest).length + 2
    exact Nat.le_add_left _ _
  have hgrants : (Network.answering localPort (answer reply rest)).Grants := by
    refine ⟨rfl, ?_, ?_⟩
    · show 10 ≤ ((answer reply rest).drop 2).length
      rw [hdrop, List.length_append]
      exact Nat.le_add_right_of_le hlong
    · show refused (((answer reply rest).drop 2).take 10) = false
      rw [hdrop, htake]
      exact haccepted
  obtain ⟨p, hp, heq⟩ := establishUDPAssociation_granted (s := s) hgreets hgrants
  cases hp
  rw [heq]
  show (s.associated localPort (((answer reply rest).drop 2).take 10)
    (((answer reply rest).drop 2).drop 10), none) = _
  rw [hdrop, htake, List.drop_append_of_le_length hlong]

/-! ## IPv4 -/

theorem isUnspecified_of_forms {a b c d : UInt8} (h : ip = [a, b, c, d] ∨ ip = netIPv4 a b c d) :
    isUnspecified (netIPv4 a b c d) = isUnspecified ip := by
  rcases h with rfl | rfl
  · simp [isUnspecified, netIPv4, v4InV6Prefix, List.replicate]
  · rfl

theorem associateReply_of_forms {a b c d : UInt8} (h : ip = [a, b, c, d] ∨ ip = netIPv4 a b c d)
    (port : UInt16) :
    associateReply ip port = some ([0x05, 0x00, 0x00, 0x01, a, b, c, d] ++ putUint16 port) := by
  have hport : UInt16.ofNat port.toNat = port := UInt16.ofNat_toNat
  rcases h with rfl | rfl
  all_goals
    show some ([0x05, 0x00, 0x00, 0x01, a, b, c, d] ++ putUint16 (UInt16.ofNat port.toNat)) = _
    rw [hport]

theorem relayAddr_ipv4 (proxyAddr : Bytes) (a b c d : UInt8) (port : UInt16) :
    relayAddr proxyAddr ([0x05, 0x00, 0x00, 0x01, a, b, c, d] ++ putUint16 port) =
      ⟨if isUnspecified (netIPv4 a b c d) then (proxyIP proxyAddr).getD [] else netIPv4 a b c d,
        port.toNat⟩ := by
  have hport : uint16 (putUint16 port) = port := by
    have h := uint16_putUint16 port []
    rwa [List.append_nil] at h
  rw [relayAddr]
  show (⟨_, (uint16 (putUint16 port)).toNat⟩ : UDPAddr) = _
  rw [hport]
  rfl

theorem establishUDPAssociation_ipv4 (s : ProxyBind) (a b c d : UInt8) (port : UInt16)
    (rest : Bytes) (localPort : UInt16) :
    s.establishUDPAssociation (.answering localPort
        (answer ([0x05, 0x00, 0x00, 0x01, a, b, c, d] ++ putUint16 port) rest)) =
      (s.associated localPort ([0x05, 0x00, 0x00, 0x01, a, b, c, d] ++ putUint16 port) rest,
        none) := by
  have hlen : ([0x05, 0x00, 0x00, 0x01, a, b, c, d] ++ putUint16 port).length = 10 := by
    rw [List.length_append, length_putUint16]
    rfl
  rw [establishUDPAssociation_answering (Nat.le_of_eq hlen.symm) rfl,
    List.take_of_length_le (Nat.le_of_eq hlen), List.drop_of_length_le (Nat.le_of_eq hlen),
    List.nil_append]

/-- The server and the client agree on an IPv4 address, unless it is left open and the proxy has
a name. -/
theorem agrees_ipv4_iff {a b c d : UInt8} (h : ip = [a, b, c, d] ∨ ip = netIPv4 a b c d) :
    s.Agrees ip port ↔ (isUnspecified ip = true → (proxyIP s.proxyAddr).isSome = true) := by
  constructor
  · rintro ⟨reply, -, hdecodes⟩ hopen
    obtain ⟨addr, haddr, -⟩ := (hdecodes [] 0).relay
    rw [relayIP, if_pos hopen] at haddr
    exact Option.isSome_of_eq_some haddr
  · intro hhost
    refine ⟨_, associateReply_of_forms h port, fun rest localPort ↦ ?_⟩
    have hassoc := establishUDPAssociation_ipv4 s a b c d port rest localPort
    refine ⟨?_, ?_, ?_⟩
    · rw [hassoc]
    · rw [hassoc]
      rfl
    · rw [hassoc]
      show ∃ addr, relayIP s.proxyAddr ip = some addr ∧
        some (relayAddr s.proxyAddr _) = some ⟨addr, port.toNat⟩
      rw [relayAddr_ipv4, isUnspecified_of_forms h, relayIP]
      split_ifs with hopen
      · obtain ⟨addr, haddr⟩ := Option.isSome_iff_exists.mp (hhost hopen)
        rw [haddr]
        exact ⟨addr, rfl, rfl⟩
      · exact ⟨_, to16_of_forms h, rfl⟩

/-! ## IPv6 -/

theorem associateReply_ipv6 (hlen : ip.length = 16) (h : to4 ip = none) (port : UInt16) :
    associateReply ip port = some ([0x05, 0x00, 0x00, 0x04] ++ ip ++ putUint16 port) := by
  have hne : ip ≠ [] := List.ne_nil_of_length_pos (by omega)
  rw [associateReply, Socks5.sendReply, Socks5.writeAddr, Socks5.writeHost, if_pos hne, h]
  dsimp only
  rw [if_pos hlen, Option.map_some, Option.map_some, UInt16.ofNat_toNat]
  rfl

theorem not_agrees_ipv6 (hlen : ip.length = 16) (h : to4 ip = none) : ¬ s.Agrees ip port := by
  rintro ⟨reply, hreply, hdecodes⟩
  rw [associateReply_ipv6 hlen h] at hreply
  cases hreply
  have hreply : ([0x05, 0x00, 0x00, 0x04] ++ ip ++ putUint16 port).length = 22 := by
    rw [List.length_append, List.length_append, hlen, length_putUint16]
    rfl
  have hunread := (hdecodes [] 0).unread
  rw [establishUDPAssociation_answering (by omega) rfl] at hunread
  have hrest : ([0x05, 0x00, 0x00, 0x04] ++ ip ++ putUint16 port).drop 10 ++ [] = [] := hunread
  have hlength := congrArg List.length hrest
  rw [List.append_nil, List.length_drop, hreply] at hlength
  cases hlength

/-! ## Agreement -/

/-- The server and the client agree on the reply for an address exactly if it is an IPv4 address
and, when it is left open, the host of the proxy is an IP. -/
theorem reply_agrees_iff (s : ProxyBind) {ip : Bytes} (hip : ip.length = 4 ∨ ip.length = 16)
    (port : UInt16) :
    s.Agrees ip port ↔ (to4 ip).isSome = true ∧
      (isUnspecified ip = true → (proxyIP s.proxyAddr).isSome = true) := by
  cases hto4 : to4 ip with
  | some ip4 =>
    obtain ⟨a, b, c, d, -, hforms⟩ := exists_of_to4 hto4
    rw [agrees_ipv4_iff hforms]
    exact (and_iff_right rfl).symm
  | none =>
    have hlen : ip.length = 16 := by
      refine hip.resolve_left fun hlen ↦ ?_
      rw [to4, if_pos hlen] at hto4
      cases hto4
    exact iff_of_false (not_agrees_ipv6 hlen hto4) fun hsome ↦ by cases hsome.1

/-- The address of a server on the same host. -/
theorem reply_agrees_loopback : (newProxyBind (str "127.0.0.1:1080")).Agrees [127, 0, 0, 1] 40000 :=
  (reply_agrees_iff (newProxyBind (str "127.0.0.1:1080")) (.inl rfl) 40000).mpr
    ⟨rfl, fun hopen ↦ nomatch hopen⟩

/-- A server that is reached on `::1` answers with `[::1]:40000`, and the client sends to
`[::1]:0` and leaves twelve bytes of the reply.  A proxy with a name that leaves its address open
is not reached at all. -/
theorem ipv6_reply_misread :
    (∃ reply, associateReply (List.replicate 15 0 ++ [1]) 40000 = some reply ∧
      ((newProxyBind (str "[::1]:1080")).establishUDPAssociation
        (.answering 50000 (answer reply []))).1.udpRelayAddr =
          some ⟨List.replicate 15 0 ++ [1], 0⟩ ∧
      ((newProxyBind (str "[::1]:1080")).establishUDPAssociation
        (.answering 50000 (answer reply []))).1.unread =
          List.replicate 9 0 ++ [1, 0x9c, 0x40]) ∧
    (∃ reply, associateReply [0, 0, 0, 0] 40000 = some reply ∧
      ((newProxyBind (str "proxy.local:1080")).establishUDPAssociation
        (.answering 50000 (answer reply []))).1.udpRelayAddr = some ⟨[], 40000⟩) ∧
    ¬ (newProxyBind (str "[::1]:1080")).Agrees (List.replicate 15 0 ++ [1]) 40000 ∧
    ¬ (newProxyBind (str "proxy.local:1080")).Agrees [0, 0, 0, 0] 40000 := by
  refine ⟨⟨_, rfl, by decide, by decide⟩, ⟨_, rfl, by decide⟩, ?_, ?_⟩
  · exact not_agrees_ipv6 rfl rfl
  · rw [agrees_ipv4_iff (.inl rfl)]
    intro hhost
    exact absurd (hhost rfl) (by decide)

end Vwarp.Wireguard.Conn.ProxyBind
