import Vwarp.Go.PrefixText
import Vwarp.Go.Scanner

/-!
# The configuration protocol of a WireGuard device

`IpcSetOperation` reads lines `key=value`.  Up to the first `public_key` they configure the device;
each `public_key` selects a peer, which is created if there is none with that key, and the lines
after it configure that peer.  A line that cannot be used ends the operation with an error; what the
lines before it did stays.

The device is down, as `NewDevice` leaves it: it has no sockets and no running peers, so setting a
mark or finishing a peer does no more than to change its fields.  A `*Peer` is the key under which
the device has it, and an update goes to the entry of that key.  `AllowedIPs` is a map from masked
prefixes to peers.  The endpoint type and what lies outside (the curve and the bind) are parameters.
-/

namespace Vwarp.Wireguard.Uapi

open Vwarp.Go

/-! ## Keys -/

/-- A key of 32 bytes: `NoisePublicKey`, `NoisePrivateKey` or `NoisePresharedKey`. -/
abbrev Key := { bytes : Bytes // bytes.length = 32 }

def zeroKey : Key := ⟨List.replicate 32 0, rfl⟩

/-- `hex.DecodeString`. -/
def hexDecode : Bytes → Option Bytes
  | [] => some []
  | [_] => none
  | a :: b :: s =>
    (hexDigit? a).bind fun x ↦ (hexDigit? b).bind fun y ↦
      (hexDecode s).map ((x * 16 + y).toUInt8 :: ·)

/-- `loadExactHex` into a key. -/
def loadExactHex (src : Bytes) : Option Key :=
  (hexDecode src).bind fun slice ↦ if h : slice.length = 32 then some ⟨slice, h⟩ else none

/-- `NoisePrivateKey.clamp`. -/
def clamp (sk : Key) : Key :=
  ⟨(sk.1.modify 0 (· &&& 248)).modify 31 fun b ↦ (b &&& 127) ||| 64, by
    rw [List.length_modify, List.length_modify, sk.2]⟩

/-- `NoisePrivateKey.FromMaybeZeroHex`. -/
def fromMaybeZeroHex (src : Bytes) : Option Key :=
  (loadExactHex src).map fun key ↦ if key = zeroKey then key else clamp key

/-! ## The device -/

/-- What the operation changes of a `Peer`. -/
structure Peer (E : Type) where
  /-- `handshake.remoteStatic`. -/
  publicKey : Key
  presharedKey : Key
  endpoint : Option E
  disableRoaming : Bool
  persistentKeepaliveInterval : Nat
  trick : Bytes
  reserved : UInt8 × UInt8 × UInt8

/-- What the operation changes of a `Device`. -/
structure Device (E : Type) where
  privateKey : Key
  publicKey : Key
  port : Nat
  fwmark : Nat
  brokenRoaming : Bool
  /-- `peers.keyMap`, in the order of insertion. -/
  peers : List (Peer E)
  allowedips : Prefix → Option Key

/-- What lies outside of the device: `NoisePrivateKey.publicKey`, and `ParseEndpoint` and the error
of `Close` of the bind. -/
structure Outside (E : Type) where
  publicKey : Key → Key
  parseEndpoint : Bytes → Option E
  closeError : Bool

variable {E : Type}

/-- `NewDevice`. -/
def newDevice : Device E := ⟨zeroKey, zeroKey, 0, 0, false, [], fun _ ↦ none⟩

/-- The zero value of a `Peer` with its key. -/
def Peer.new (pk : Key) : Peer E := ⟨pk, zeroKey, none, false, 0, [], (0, 0, 0)⟩

/-- `MaxPeers`. -/
def maxPeers : Nat := 65536

namespace Device

/-- `LookupPeer`. -/
def lookupPeer (d : Device E) (pk : Key) : Option (Peer E) :=
  d.peers.find? fun p ↦ p.publicKey = pk

/-- An assignment to fields of the peer with this key. -/
def updatePeer (d : Device E) (pk : Key) (f : Peer E → Peer E) : Device E :=
  { d with peers := d.peers.map fun p ↦ if p.publicKey = pk then f p else p }

/-- `AllowedIPs.RemoveByPeer`. -/
def removeAllowedIPs (d : Device E) (pk : Key) : Device E :=
  { d with allowedips := fun p ↦ if d.allowedips p = some pk then none else d.allowedips p }

/-- `RemovePeer`. -/
def removePeer (d : Device E) (pk : Key) : Device E :=
  let d := d.removeAllowedIPs pk
  { d with peers := d.peers.filter fun p ↦ p.publicKey ≠ pk }

/-- `RemoveAllPeers`. -/
def removeAllPeers (d : Device E) : Device E :=
  { d with peers := [], allowedips := (d.peers.foldl (·.removePeer ·.publicKey) d).allowedips }

/-- `AllowedIPs.Insert`, on a map from masked prefixes. -/
def insert (d : Device E) (cidr : Prefix) (pk : Key) : Device E :=
  { d with allowedips := fun p ↦ if p = cidr.masked then some pk else d.allowedips p }

/-- `SetPrivateKey`. -/
def setPrivateKey (out : Outside E) (d : Device E) (sk : Key) : Device E :=
  if sk = d.privateKey then d
  else { d.removePeer (out.publicKey sk) with privateKey := sk, publicKey := out.publicKey sk }

/-- `BindSetMark` on a device that is down. -/
def bindSetMark (d : Device E) (mark : Nat) : Device E := { d with fwmark := mark }

end Device

/-! ## Errors -/

/-- The codes of package `ipc` that the operation uses. -/
inductive IpcErrorCode
  | io | protocol | invalid | portInUse
deriving DecidableEq, Repr

/-- `IPCError`.  Of a message that wraps another one, the part before it. -/
structure IPCError where
  code : IpcErrorCode
  message : Bytes
deriving DecidableEq, Repr

/-- An error with the code for a value that cannot be used. -/
def invalid (message : Bytes) : IPCError := ⟨.invalid, message⟩

/-! ## The lines -/

/-- `NewPeer`. -/
def newPeer (d : Device E) (pk : Key) : Except IPCError (Device E) :=
  if maxPeers ≤ d.peers.length then
    .error (invalid (str "failed to create new peer: too many peers"))
  else if (d.lookupPeer pk).isSome then
    .error (invalid (str "failed to create new peer: adding existing peer"))
  else .ok { d with peers := d.peers ++ [.new pk] }

/-- `handleDeviceLine`: the device afterwards, and the error. -/
def handleDeviceLine (out : Outside E) (d : Device E) (key value : Bytes) :
    Device E × Option IPCError :=
  if key = str "private_key" then
    match fromMaybeZeroHex value with
    | none => (d, some (invalid (str "failed to set private_key")))
    | some sk => (d.setPrivateKey out sk, none)
  else if key = str "listen_port" then
    match parseUint value 16 with
    | none => (d, some (invalid (str "failed to parse listen_port")))
    | some port =>
      let d := { d with port := port }
      if out.closeError then (d, some ⟨.portInUse, str "failed to set listen_port"⟩) else (d, none)
  else if key = str "fwmark" then
    match parseUint value 32 with
    | none => (d, some (invalid (str "invalid fwmark")))
    | some mark => (d.bindSetMark mark, none)
  else if key = str "replace_peers" then
    if value ≠ str "true" then
      (d, some (invalid (str "failed to set replace_peers, invalid value: " ++ value)))
    else (d.removeAllPeers, none)
  else (d, some (invalid (str "invalid UAPI device key: " ++ key)))

/-- `ipcSetPeer`: the peer that is being configured. -/
structure IpcSetPeer where
  /-- The key of the peer; no key before the first `public_key`. -/
  peer : Option Key
  dummy : Bool
  created : Bool
deriving DecidableEq, Repr

/-- An assignment to fields of the peer that is being configured; a dummy is nowhere seen. -/
def IpcSetPeer.update (peer : IpcSetPeer) (d : Device E) (f : Peer E → Peer E) : Device E :=
  match peer.peer with
  | none => d
  | some pk => if peer.dummy then d else d.updatePeer pk f

/-- `handlePostConfig` on a device that is down. -/
def handlePostConfig (peer : IpcSetPeer) (d : Device E) : Device E :=
  if peer.created then
    peer.update d fun p ↦ { p with disableRoaming := d.brokenRoaming && p.endpoint.isSome }
  else d

/-- `handlePublicKeyLine`. -/
def handlePublicKeyLine (d : Device E) (value : Bytes) : Except IPCError (Device E × IpcSetPeer) :=
  match loadExactHex value with
  | none => .error (invalid (str "failed to get peer by public key"))
  | some pk =>
    -- a peer with the key of the device is ignored
    if d.publicKey = pk then .ok (d, ⟨some pk, true, false⟩)
    else if (d.lookupPeer pk).isSome then .ok (d, ⟨some pk, false, false⟩)
    else (newPeer d pk).map fun d ↦ (d, ⟨some pk, false, true⟩)

/-- The three numbers of a `reserved` line. -/
def parseReserved (value : Bytes) : Option (UInt8 × UInt8 × UInt8) :=
  let byte (val : Bytes) : Option UInt8 :=
    (atoi val).bind fun parsed ↦ if parsed < 0 ∨ parsed > 0xff then none
      else some parsed.toNat.toUInt8
  match split (ch ',') value with
  | [a, b, c] => (byte a).bind fun a ↦ (byte b).bind fun b ↦ (byte c).map fun c ↦ (a, b, c)
  | _ => none

/-- The state after a peer line that only changes fields of the peer. -/
def updated (peer : IpcSetPeer) (d : Device E) (f : Peer E → Peer E) :
    (Device E × IpcSetPeer) × Option IPCError :=
  ((peer.update d f, peer), none)

/-- `handlePeerLine`: the device and the selected peer afterwards, and the error. -/
def handlePeerLine (out : Outside E) (d : Device E) (peer : IpcSetPeer) (key value : Bytes) :
    (Device E × IpcSetPeer) × Option IPCError :=
  let fail (err : IPCError) : (Device E × IpcSetPeer) × Option IPCError := ((d, peer), some err)
  if key = str "update_only" then
    if value ≠ str "true" then
      fail (invalid (str "failed to set update only, invalid value: " ++ value))
    else if peer.created ∧ ¬ peer.dummy then
      ((d.removePeer (peer.peer.getD zeroKey), { peer with dummy := true }), none)
    else ((d, peer), none)
  else if key = str "remove" then
    if value ≠ str "true" then
      fail (invalid (str "failed to set remove, invalid value: " ++ value))
    else
      let d := if peer.dummy then d else d.removePeer (peer.peer.getD zeroKey)
      ((d, { peer with dummy := true }), none)
  else if key = str "preshared_key" then
    match loadExactHex value with
    | none => fail (invalid (str "failed to set preshared key"))
    | some psk => updated peer d fun p ↦ { p with presharedKey := psk }
  else if key = str "endpoint" then
    match out.parseEndpoint value with
    | none => fail (invalid (str "failed to set endpoint " ++ value))
    | some endpoint => updated peer d fun p ↦ { p with endpoint := some endpoint }
  else if key = str "persistent_keepalive_interval" then
    match parseUint value 16 with
    | none => fail (invalid (str "failed to set persistent keepalive interval"))
    | some secs => updated peer d fun p ↦ { p with persistentKeepaliveInterval := secs }
  else if key = str "replace_allowed_ips" then
    if value ≠ str "true" then
      fail (invalid (str "failed to replace allowedips, invalid value: " ++ value))
    else if peer.dummy then ((d, peer), none)
    else ((d.removeAllowedIPs (peer.peer.getD zeroKey), peer), none)
  else if key = str "allowed_ip" then
    match parsePrefix value with
    | none => fail (invalid (str "failed to set allowed ip"))
    | some cidr =>
      if peer.dummy then ((d, peer), none)
      else ((d.insert cidr (peer.peer.getD zeroKey), peer), none)
  else if key = str "protocol_version" then
    if value ≠ str "1" then fail (invalid (str "invalid protocol version: " ++ value))
    else ((d, peer), none)
  else if key = str "trick" then updated peer d fun p ↦ { p with trick := value }
  else if key = str "reserved" then
    match parseReserved value with
    | none => fail (invalid (str "invalid reserved value: " ++ value))
    | some reserved => updated peer d fun p ↦ { p with reserved := reserved }
  else fail (invalid (str "invalid UAPI peer key: " ++ key))

/-! ## The operation -/

/-- The loop of `IpcSetOperation` over the lines that the scanner gives, with the error of the
scanner after the last one. -/
def ipcSetLines (out : Outside E) (scanErr : Option ScanError) (d : Device E) (peer : IpcSetPeer)
    (deviceConfig : Bool) : List Bytes → Device E × Option IPCError
  | [] => (handlePostConfig peer d, scanErr.map fun _ ↦ ⟨.io, str "failed to read input"⟩)
  | line :: lines =>
    if line = [] then (handlePostConfig peer d, none)
    else match cut (ch '=') line with
      | none => (d, some ⟨.protocol, str "failed to parse line " ++ line⟩)
      | some (key, value) =>
        if key = str "public_key" then
          let d := handlePostConfig peer d
          match handlePublicKeyLine d value with
          | .error err => (d, some err)
          | .ok (d, peer) => ipcSetLines out scanErr d peer false lines
        else if deviceConfig then
          match handleDeviceLine out d key value with
          | (d, some err) => (d, some err)
          | (d, none) => ipcSetLines out scanErr d peer true lines
        else
          match handlePeerLine out d peer key value with
          | ((d, _), some err) => (d, some err)
          | ((d, peer), none) => ipcSetLines out scanErr d peer false lines

/-- `IpcSetOperation`: the device afterwards, and the error. -/
def ipcSetOperation (out : Outside E) (d : Device E) (request : Bytes) :
    Device E × Option IPCError :=
  let scanned := scanLines request
  ipcSetLines out scanned.2 d ⟨none, false, false⟩ true scanned.1

/-! ## What a line does -/

section Lines

variable (out : Outside E) (scanErr : Option ScanError) (d : Device E) (peer : IpcSetPeer)
  (value : Bytes) (lines : List Bytes)

theorem cut_line {key : Bytes} (hkey : ch '=' ∉ key) :
    key ++ ch '=' :: value ≠ [] ∧ cut (ch '=') (key ++ ch '=' :: value) = some (key, value) :=
  ⟨List.append_ne_nil_of_right_ne_nil _ (List.cons_ne_nil _ _), cut_append hkey value⟩

/-- A `public_key` line ends the section before it and selects a peer. -/
theorem ipcSetLines_publicKey (deviceConfig : Bool) :
    ipcSetLines out scanErr d peer deviceConfig ((str "public_key" ++ ch '=' :: value) :: lines) =
      match handlePublicKeyLine (handlePostConfig peer d) value with
      | .error err => (handlePostConfig peer d, some err)
      | .ok (d, peer) => ipcSetLines out scanErr d peer false lines := by
  obtain ⟨hne, hcut⟩ := cut_line value (show ch '=' ∉ str "public_key" by decide)
  rw [ipcSetLines, if_neg hne, hcut]
  exact if_pos rfl

/-- Another line before the first `public_key` configures the device. -/
theorem ipcSetLines_device {key : Bytes} (hkey : ch '=' ∉ key) (hne : key ≠ str "public_key") :
    ipcSetLines out scanErr d peer true ((key ++ ch '=' :: value) :: lines) =
      match handleDeviceLine out d key value with
      | (d, some err) => (d, some err)
      | (d, none) => ipcSetLines out scanErr d peer true lines := by
  obtain ⟨hline, hcut⟩ := cut_line value hkey
  rw [ipcSetLines, if_neg hline, hcut]
  dsimp only
  rw [if_neg hne, if_pos rfl]

theorem ipcSetLines_peer {key : Bytes} (hkey : ch '=' ∉ key) (hne : key ≠ str "public_key") :
    ipcSetLines out scanErr d peer false ((key ++ ch '=' :: value) :: lines) =
      match handlePeerLine out d peer key value with
      | ((d, _), some err) => (d, some err)
      | ((d, peer), none) => ipcSetLines out scanErr d peer false lines := by
  obtain ⟨hline, hcut⟩ := cut_line value hkey
  rw [ipcSetLines, if_neg hline, hcut]
  dsimp only
  rw [if_neg hne, if_neg Bool.false_ne_true]

/-! The peer lines that change a field, by the value that was read. -/

theorem handlePeerLine_presharedKey {psk : Key} (h : loadExactHex value = some psk) :
    handlePeerLine out d peer (str "preshared_key") value =
      updated peer d fun p ↦ { p with presharedKey := psk } := by
  rw [handlePeerLine, h]
  rfl

theorem handlePeerLine_endpoint {endpoint : E} (h : out.parseEndpoint value = some endpoint) :
    handlePeerLine out d peer (str "endpoint") value =
      updated peer d fun p ↦ { p with endpoint := some endpoint } := by
  rw [handlePeerLine, h]
  rfl

theorem handlePeerLine_keepalive {secs : Nat} (h : parseUint value 16 = some secs) :
    handlePeerLine out d peer (str "persistent_keepalive_interval") value =
      updated peer d fun p ↦ { p with persistentKeepaliveInterval := secs } := by
  rw [handlePeerLine, h]
  rfl

theorem handlePeerLine_trick :
    handlePeerLine out d peer (str "trick") value =
      updated peer d fun p ↦ { p with trick := value } := by
  rfl

theorem handlePeerLine_reserved {reserved : UInt8 × UInt8 × UInt8}
    (h : parseReserved value = some reserved) :
    handlePeerLine out d peer (str "reserved") value =
      updated peer d fun p ↦ { p with reserved := reserved } := by
  rw [handlePeerLine, h]
  rfl

theorem handlePeerLine_allowedIP (pk : Key) (created : Bool) {cidr : Prefix}
    (h : parsePrefix value = some cidr) :
    handlePeerLine out d ⟨some pk, false, created⟩ (str "allowed_ip") value =
      ((d.insert cidr pk, ⟨some pk, false, created⟩), none) := by
  rw [handlePeerLine, h]
  rfl

end Lines

/-! ## The peer at the end of the list -/

def Device.withPeer (d : Device E) (p : Peer E) : Device E := { d with peers := d.peers ++ [p] }

def Device.Lacks (d : Device E) (pk : Key) : Prop := ∀ q ∈ d.peers, q.publicKey ≠ pk

/-- No peer has its roaming disabled, and none will. -/
structure Device.Roams (d : Device E) : Prop where
  device : d.brokenRoaming = false
  peers : ∀ p ∈ d.peers, p.disableRoaming = false

variable {d : Device E} {pk : Key}

theorem Device.lookupPeer_of_lacks (h : d.Lacks pk) : d.lookupPeer pk = none := by
  rw [lookupPeer, List.find?_eq_none]
  intro q hq
  simpa using h q hq

theorem update_withPeer (h : d.Lacks pk) {p : Peer E} (hp : p.publicKey = pk) (created : Bool)
    (f : Peer E → Peer E) :
    (IpcSetPeer.mk (some pk) false created).update (d.withPeer p) f = d.withPeer (f p) := by
  have hothers : d.peers.map (fun q ↦ if q.publicKey = pk then f q else q) = d.peers :=
    (List.map_congr_left fun q hq ↦ if_neg (h q hq)).trans (List.map_id' d.peers)
  rw [IpcSetPeer.update]
  dsimp only
  rw [if_neg Bool.false_ne_true, Device.updatePeer, Device.withPeer, Device.withPeer]
  dsimp only
  rw [List.map_append, hothers, List.map_singleton, if_pos hp]

theorem handlePostConfig_of_roams (h : d.Roams) (peer : IpcSetPeer) :
    handlePostConfig peer d = d := by
  have hsame :
      ∀ p ∈ d.peers, { p with disableRoaming := d.brokenRoaming && p.endpoint.isSome } = p := by
    intro p hp
    rw [h.device, Bool.false_and, ← h.peers p hp]
  unfold handlePostConfig IpcSetPeer.update
  split
  · split
    · rfl
    · split
      · rfl
      · rename_i pk _ _
        have hmap : (d.peers.map fun p ↦ if p.publicKey = pk then
            { p with disableRoaming := d.brokenRoaming && p.endpoint.isSome } else p) =
              d.peers := by
          refine (List.map_congr_left fun p hp ↦ ?_).trans (List.map_id' d.peers)
          split
          · exact hsame p hp
          · rfl
        rw [Device.updatePeer, hmap]
  · rfl

theorem handlePublicKeyLine_new {value : Bytes} (hvalue : loadExactHex value = some pk)
    (hown : d.publicKey ≠ pk) (hlacks : d.Lacks pk) (hroom : d.peers.length < maxPeers) :
    handlePublicKeyLine d value = .ok (d.withPeer (.new pk), ⟨some pk, false, true⟩) := by
  have hlookup := d.lookupPeer_of_lacks hlacks
  rw [handlePublicKeyLine, hvalue]
  dsimp only
  rw [if_neg hown, hlookup, Option.isSome_none, if_neg Bool.false_ne_true, newPeer,
    if_neg (Nat.not_le.mpr hroom), hlookup, Option.isSome_none, if_neg Bool.false_ne_true]
  rfl

/-- All prefixes of a peer, inserted in their order. -/
def Device.insertAll (d : Device E) (pk : Key) (cidrs : List Prefix) : Device E :=
  cidrs.foldl (fun d cidr ↦ d.insert cidr pk) d

theorem Device.allowedips_insertAll (d : Device E) (pk : Key) (cidrs : List Prefix) (p : Prefix) :
    (d.insertAll pk cidrs).allowedips p =
      if p ∈ cidrs.map Prefix.masked then some pk else d.allowedips p := by
  induction cidrs generalizing d with
  | nil => rfl
  | cons cidr cidrs ih =>
    rw [insertAll, List.foldl_cons, ← insertAll, ih, List.map_cons]
    by_cases hrest : p ∈ cidrs.map Prefix.masked
    · rw [if_pos hrest, if_pos (List.mem_cons_of_mem _ hrest)]
    · rw [if_neg hrest]
      simp only [List.mem_cons, hrest, or_false]
      rfl

theorem Device.insertAll_eq (d : Device E) (pk : Key) (cidrs : List Prefix) :
    d.insertAll pk cidrs = { d with allowedips := (d.insertAll pk cidrs).allowedips } := by
  induction cidrs generalizing d with
  | nil => rfl
  | cons cidr cidrs ih => exact ih (d.insert cidr pk)

/-! ## Texts that are read back -/

/-- The hexadecimal text of a key. -/
structure IsKeyText (s : Bytes) : Prop where
  length : s.length = 64
  digits : ∀ c ∈ s, (hexDigit? c).isSome

theorem hexDecode_of_digits (n : Nat) {s : Bytes} (hlen : s.length = 2 * n)
    (h : ∀ c ∈ s, (hexDigit? c).isSome) : ∃ bytes, hexDecode s = some bytes ∧ bytes.length = n := by
  induction n generalizing s with
  | zero =>
    rw [List.length_eq_zero_iff.mp hlen]
    exact ⟨[], rfl, rfl⟩
  | succ n ih =>
    match s, hlen with
    | a :: b :: s, hlen =>
      have hlen' : s.length = 2 * n := by
        simp only [List.length_cons] at hlen
        omega
      obtain ⟨x, hx⟩ := Option.isSome_iff_exists.mp (h a List.mem_cons_self)
      obtain ⟨y, hy⟩ :=
        Option.isSome_iff_exists.mp (h b (List.mem_cons_of_mem a List.mem_cons_self))
      obtain ⟨bytes, hbytes, hn⟩ := ih hlen' fun c hc ↦
        h c (List.mem_cons_of_mem a (List.mem_cons_of_mem b hc))
      refine ⟨(x * 16 + y).toUInt8 :: bytes, ?_, congrArg Nat.succ hn⟩
      rw [hexDecode, hx, Option.bind_some, hy, Option.bind_some, hbytes, Option.map_some]

theorem IsKeyText.load {s : Bytes} (h : IsKeyText s) : ∃ key, loadExactHex s = some key := by
  obtain ⟨bytes, hbytes, hlen⟩ := hexDecode_of_digits 32 h.length h.digits
  exact ⟨⟨bytes, hlen⟩, by rw [loadExactHex, hbytes, Option.bind_some, dif_pos hlen]⟩

end Vwarp.Wireguard.Uapi
