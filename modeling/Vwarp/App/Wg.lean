import Vwarp.Wireguard.Device.Uapi

/-!
# The request of `establishWireguard`

`establishWireguard` writes a configuration as lines of the configuration protocol and has a new
device read them.  The two agree: the device takes the lines of each peer as a section of its own,
and has exactly the configured peers afterwards, with a prefix going to the last peer that lists it
(`request_configures`).

What the request cannot carry is a value that is not a line.  The scanner ends a line at a line
break, drops a carriage return before it, and gives up on lines that do not fit its buffer, so the
endpoint and the trick have to fit a line (`Fits`, `request_not_carried`).
-/

namespace Vwarp.App.Wg

open Vwarp.Go Vwarp.Wireguard.Uapi

/-! ## The request -/

/-- What the request has of a `wiresocks.PeerConfig`. -/
structure PeerConfig where
  publicKey : Bytes
  preSharedKey : Bytes
  endpoint : Bytes
  keepAlive : Int64
  allowedIPs : List Prefix
  reserved : UInt8 × UInt8 × UInt8

/-- What the request has of a `wiresocks.Configuration`. -/
structure Configuration where
  /-- `Interface.PrivateKey`. -/
  privateKey : Bytes
  peers : List PeerConfig

def setting (key : String) (value : Bytes) : Bytes := str key ++ ch '=' :: value

/-- Three bytes as `%d,%d,%d`. -/
def formatReserved (reserved : UInt8 × UInt8 × UInt8) : Bytes :=
  itoa reserved.1.toNat ++ ch ',' :: (itoa reserved.2.1.toNat ++ ch ',' :: itoa reserved.2.2.toNat)

/-- The trick of the request: none while AtomicNoize is in use. -/
def trickOf (t : Bytes) (atomicNoize : Bool) : Bytes := if atomicNoize then str "t0" else t

def peerLines (t : Bytes) (atomicNoize : Bool) (peer : PeerConfig) : List Bytes :=
  [ setting "public_key" peer.publicKey,
    setting "persistent_keepalive_interval" (formatInt peer.keepAlive),
    setting "preshared_key" peer.preSharedKey,
    setting "endpoint" peer.endpoint,
    setting "trick" (trickOf t atomicNoize),
    setting "reserved" (formatReserved peer.reserved) ] ++
  peer.allowedIPs.map fun cidr ↦ setting "allowed_ip" cidr.string

def requestLines (conf : Configuration) (fwmark : UInt32) (t : Bytes) (atomicNoize : Bool) :
    List Bytes :=
  setting "private_key" conf.privateKey ::
    ((if fwmark ≠ 0 then [setting "fwmark" (itoa fwmark.toNat)] else []) ++
      conf.peers.flatMap (peerLines t atomicNoize))

/-- The request of `establishWireguard`. -/
def request (conf : Configuration) (fwmark : UInt32) (t : Bytes) (atomicNoize : Bool) : Bytes :=
  unlines (requestLines conf fwmark t atomicNoize)

/-! ## Values that are read back -/

variable {E : Type} {out : Outside E}

theorem formatInt_of_nonneg {n : Int64} (h : 0 ≤ n.toInt) : formatInt n = itoa n.toInt.toNat := by
  have hneg : ¬ n < 0 := by
    rw [Int64.lt_iff_toInt_lt]
    exact Int.not_lt.mpr h
  rw [formatInt, if_neg hneg]
  congr 1
  omega

theorem parseReserved_formatReserved (reserved : UInt8 × UInt8 × UInt8) :
    parseReserved (formatReserved reserved) = some reserved := by
  obtain ⟨a, b, c⟩ := reserved
  have hcomma (x : UInt8) : ch ',' ∉ itoa x.toNat := not_mem_itoa (by decide)
  have hbyte (x : UInt8) : ((atoi (itoa x.toNat)).bind fun parsed ↦
      if parsed < 0 ∨ parsed > 0xff then none else some parsed.toNat.toUInt8) = some x := by
    have hlt := x.toNat_lt
    rw [atoi_itoa (Nat.lt_trans hlt (by decide)), Option.bind_some, if_neg (by omega),
      Int.toNat_natCast]
    exact congrArg some UInt8.ofNat_toNat
  rw [parseReserved, formatReserved, split_append (hcomma a), split_append (hcomma b),
    split_of_not_mem (hcomma c)]
  dsimp only
  rw [hbyte, hbyte, hbyte]
  rfl

/-! ## The lines fit -/

/-- The text has neither a line break nor a carriage return. -/
def Printable (s : Bytes) : Prop := ∀ c ∈ s, c ≠ 0x0a ∧ c ≠ 0x0d

variable {line s t value : Bytes}

theorem printable_of_all (h : s.all (fun c ↦ c != 0x0a && c != 0x0d) = true) : Printable s := by
  intro c hc
  have hboth := List.all_eq_true.mp h c hc
  rw [Bool.and_eq_true] at hboth
  exact ⟨bne_iff_ne.mp hboth.1, bne_iff_ne.mp hboth.2⟩

theorem printable_of_forall {P : UInt8 → Prop} (h : ∀ c ∈ s, P c) (hbreak : ¬ P 0x0a)
    (hreturn : ¬ P 0x0d) : Printable s := by
  intro c hc
  have hP := h c hc
  refine ⟨?_, ?_⟩
  · rintro rfl
    exact hbreak hP
  · rintro rfl
    exact hreturn hP

theorem printable_of_digits (h : ∀ c ∈ s, (hexDigit? c).isSome) : Printable s :=
  printable_of_forall h (by decide) (by decide)

theorem printable_itoa (n : Nat) : Printable (itoa n) :=
  printable_of_forall (fun _ hc ↦ digit?_of_mem_itoa hc) (by decide) (by decide)

theorem printable_append (hs : Printable s) (ht : Printable t) : Printable (s ++ t) :=
  List.forall_mem_append.mpr ⟨hs, ht⟩

theorem printable_cons {c : UInt8} (hc : c ≠ 0x0a ∧ c ≠ 0x0d) (hs : Printable s) :
    Printable (c :: s) :=
  List.forall_mem_cons.mpr ⟨hc, hs⟩

theorem printable_formatReserved (reserved : UInt8 × UInt8 × UInt8) :
    Printable (formatReserved reserved) := by
  have hcomma : ch ',' ≠ 0x0a ∧ ch ',' ≠ 0x0d := by decide
  exact printable_append (printable_itoa _) (printable_cons hcomma
    (printable_append (printable_itoa _) (printable_cons hcomma (printable_itoa _))))

theorem printable_string {cidr : Prefix} (h : cidr.isValid = true) : Printable cidr.string :=
  printable_of_forall (fun _ hc ↦ cidr.mem_string h hc) (by decide) (by decide)

theorem fits_of_printable (h : Printable line) (hlen : line.length < maxScanTokenSize) :
    FitsLine line where
  lineBreak := fun hmem ↦ (h _ hmem).1 rfl
  carriageReturn := fun hlast ↦ (h _ (List.mem_of_getLast? hlast)).2 rfl
  length := hlen

theorem fits_of_all (h : line.all (fun c ↦ c != 0x0a && c != 0x0d) = true)
    (hlen : line.length < maxScanTokenSize) : FitsLine line :=
  fits_of_printable (printable_of_all h) hlen

theorem fits_setting {key : String} (hkey : Printable (setting key []))
    (hvalue : Printable value) (hlen : (setting key []).length + value.length < maxScanTokenSize) :
    FitsLine (setting key value) := by
  have hline : setting key value = setting key [] ++ value := by
    rw [setting, setting, List.append_assoc, List.singleton_append]
  rw [hline]
  apply fits_of_printable (printable_append hkey hvalue)
  rwa [List.length_append]

theorem length_formatReserved_le (reserved : UInt8 × UInt8 × UInt8) :
    (formatReserved reserved).length ≤ 11 := by
  have hlen (x : UInt8) : (itoa x.toNat).length ≤ 3 :=
    length_itoa_le (by decide) (Nat.lt_trans x.toNat_lt (by decide))
  have ha := hlen reserved.1
  have hb := hlen reserved.2.1
  have hc := hlen reserved.2.2
  rw [formatReserved, List.length_append, List.length_cons, List.length_append, List.length_cons]
  omega

/-! ## Configurations -/

/-- The key that a device with this private key takes for its own. -/
def ownKey (out : Outside E) (privateKey : Bytes) : Option Key :=
  (fromMaybeZeroHex privateKey).map fun sk ↦ (newDevice.setPrivateKey out sk).publicKey

/-- The text is written on a line of its own and comes back. -/
def Fits (key : String) (value : Bytes) : Prop := FitsLine (setting key value)

/-- What a peer must be for its lines to be read. -/
structure PeerConfig.Usable (out : Outside E) (peer : PeerConfig) : Prop where
  publicKey : IsKeyText peer.publicKey
  preSharedKey : IsKeyText peer.preSharedKey
  endpoint : (out.parseEndpoint peer.endpoint).isSome
  endpointLine : Fits "endpoint" peer.endpoint
  keepAlive : 0 ≤ peer.keepAlive.toInt ∧ peer.keepAlive.toInt ≤ 65535
  allowedIPs : ∀ cidr ∈ peer.allowedIPs, cidr.isValid = true

theorem fits_peerLines {peer : PeerConfig} (h : peer.Usable out) {atomicNoize : Bool}
    (ht : Fits "trick" (trickOf t atomicNoize)) (hline : line ∈ peerLines t atomicNoize peer) :
    FitsLine line := by
  have hsmall {key : String} (hkey : (setting key []).all (fun c ↦ c != 0x0a && c != 0x0d) = true ∧
      (setting key []).length ≤ 30) {value : Bytes} (hvalue : Printable value)
      (hlen : value.length ≤ 64) : FitsLine (setting key value) := by
    apply fits_setting (printable_of_all hkey.1) hvalue
    rw [maxScanTokenSize]
    omega
  rcases List.mem_append.mp hline with hfixed | hallowed
  · simp only [List.mem_cons, List.not_mem_nil, or_false] at hfixed
    rcases hfixed with rfl | rfl | rfl | rfl | rfl | rfl
    · exact hsmall (by decide) (printable_of_digits h.publicKey.digits)
        (Nat.le_of_eq h.publicKey.length)
    · obtain ⟨hpos, hle⟩ := h.keepAlive
      rw [formatInt_of_nonneg hpos]
      refine hsmall (by decide) (printable_itoa _)
        (Nat.le_trans (length_itoa_le (k := 5) (by decide) ?_) (by decide))
      omega
    · exact hsmall (by decide) (printable_of_digits h.preSharedKey.digits)
        (Nat.le_of_eq h.preSharedKey.length)
    · exact h.endpointLine
    · exact ht
    · exact hsmall (by decide) (printable_formatReserved _)
        (Nat.le_trans (length_formatReserved_le _) (by decide))
  · obtain ⟨cidr, hcidr, rfl⟩ := List.mem_map.mp hallowed
    have hvalid := h.allowedIPs cidr hcidr
    exact hsmall (by decide) (printable_string hvalid)
      (Nat.le_trans (cidr.length_string_le hvalid) (by decide))

/-! ## The section of a peer -/

/-- The peer that the lines of a configuration make. -/
def configured (t : Bytes) (atomicNoize : Bool) (peer : PeerConfig) (pk psk : Key) (endpoint : E) :
    Peer E where
  publicKey := pk
  presharedKey := psk
  endpoint := some endpoint
  disableRoaming := false
  persistentKeepaliveInterval := peer.keepAlive.toInt.toNat
  trick := trickOf t atomicNoize
  reserved := peer.reserved

variable {scanErr : Option ScanError} {d : Device E} {pk : Key}

theorem ipcSetLines_field (hlacks : d.Lacks pk) {p : Peer E} (hp : p.publicKey = pk) {key : String}
    (hkey : ch '=' ∉ str key) (hne : str key ≠ str "public_key")
    {f : Peer E → Peer E}
    (hline : handlePeerLine out (d.withPeer p) ⟨some pk, false, true⟩ (str key) value =
      updated ⟨some pk, false, true⟩ (d.withPeer p) f) (lines : List Bytes) :
    ipcSetLines out scanErr (d.withPeer p) ⟨some pk, false, true⟩ false
        (setting key value :: lines) =
      ipcSetLines out scanErr (d.withPeer (f p)) ⟨some pk, false, true⟩ false lines := by
  rw [setting, ipcSetLines_peer out scanErr _ _ value lines hkey hne, hline, updated,
    update_withPeer hlacks hp]

theorem ipcSetLines_allowedIPs {cidrs : List Prefix} (hvalid : ∀ cidr ∈ cidrs, cidr.isValid = true)
    (d : Device E) (p : Peer E) (lines : List Bytes) :
    ipcSetLines out scanErr (d.withPeer p) ⟨some pk, false, true⟩ false
        (cidrs.map (fun cidr ↦ setting "allowed_ip" cidr.string) ++ lines) =
      ipcSetLines out scanErr ((d.insertAll pk cidrs).withPeer p) ⟨some pk, false, true⟩ false
        lines := by
  induction cidrs generalizing d with
  | nil => rfl
  | cons cidr cidrs ih =>
    have hread := parsePrefix_string (hvalid cidr List.mem_cons_self)
    rw [List.map_cons, List.cons_append, setting,
      ipcSetLines_peer out scanErr _ _ _ _ (by decide) (by decide),
      handlePeerLine_allowedIP out _ _ pk true hread]
    exact ih (fun c hc ↦ hvalid c (List.mem_cons_of_mem cidr hc)) (d.insert cidr pk)

/-- The lines of a peer that the device does not have add this peer and its prefixes. -/
theorem ipcSetLines_peerLines {c : PeerConfig} (h : c.Usable out) {psk : Key} {endpoint : E}
    (hpk : loadExactHex c.publicKey = some pk) (hpsk : loadExactHex c.preSharedKey = some psk)
    (hendpoint : out.parseEndpoint c.endpoint = some endpoint) (hroams : d.Roams)
    (hown : d.publicKey ≠ pk) (hlacks : d.Lacks pk) (hroom : d.peers.length < maxPeers) (t : Bytes)
    (atomicNoize : Bool) (peer : IpcSetPeer) (deviceConfig : Bool) (lines : List Bytes) :
    ipcSetLines out scanErr d peer deviceConfig (peerLines t atomicNoize c ++ lines) =
      ipcSetLines out scanErr
        ((d.insertAll pk c.allowedIPs).withPeer (configured t atomicNoize c pk psk endpoint))
        ⟨some pk, false, true⟩ false lines := by
  obtain ⟨hpos, hle⟩ := h.keepAlive
  have hkeepalive : parseUint (formatInt c.keepAlive) 16 = some c.keepAlive.toInt.toNat := by
    rw [formatInt_of_nonneg hpos]
    exact parseUint_itoa (by omega)
  rw [peerLines, List.append_assoc, List.cons_append]
  nth_rewrite 1 [setting]
  rw [ipcSetLines_publicKey, handlePostConfig_of_roams hroams,
    handlePublicKeyLine_new hpk hown hlacks hroom]
  dsimp only [List.cons_append, List.nil_append]
  rw [ipcSetLines_field hlacks rfl (by decide) (by decide)
      (handlePeerLine_keepalive out _ _ _ hkeepalive),
    ipcSetLines_field hlacks rfl (by decide) (by decide)
      (handlePeerLine_presharedKey out _ _ _ hpsk),
    ipcSetLines_field hlacks rfl (by decide) (by decide)
      (handlePeerLine_endpoint out _ _ _ hendpoint),
    ipcSetLines_field hlacks rfl (by decide) (by decide) (handlePeerLine_trick out _ _ _),
    ipcSetLines_field hlacks rfl (by decide) (by decide)
      (handlePeerLine_reserved out _ _ _ (parseReserved_formatReserved c.reserved)),
    ipcSetLines_allowedIPs h.allowedIPs]
  rfl

/-! ## The whole request -/

/-- The peer of the device is the configured one. -/
structure Holds (out : Outside E) (t : Bytes) (atomicNoize : Bool) (c : PeerConfig) (p : Peer E) :
    Prop where
  publicKey : loadExactHex c.publicKey = some p.publicKey
  presharedKey : loadExactHex c.preSharedKey = some p.presharedKey
  endpoint : p.endpoint = out.parseEndpoint c.endpoint
  keepAlive : (p.persistentKeepaliveInterval : Int) = c.keepAlive.toInt
  trick : p.trick = trickOf t atomicNoize
  reserved : p.reserved = c.reserved

def owner (peers : List PeerConfig) (p : Prefix) : Option Key :=
  (peers.reverse.find? fun c ↦ p ∈ c.allowedIPs.map Prefix.masked).bind fun c ↦
    loadExactHex c.publicKey

/-- A peer owns what no later peer lists. -/
theorem owner_cons {c : PeerConfig} {cs : List PeerConfig} (hcs : ∀ c ∈ cs, c.Usable out)
    (hpk : loadExactHex c.publicKey = some pk) (p : Prefix) :
    owner (c :: cs) p =
      (owner cs p).or (if p ∈ c.allowedIPs.map Prefix.masked then some pk else none) := by
  rw [owner, List.reverse_cons, List.find?_append, owner]
  cases hfind : cs.reverse.find? fun c ↦ p ∈ c.allowedIPs.map Prefix.masked with
  | some c' =>
    have hmem := List.mem_reverse.mp (List.mem_of_find?_eq_some hfind)
    obtain ⟨key, hkey⟩ := (hcs c' hmem).publicKey.load
    rw [Option.some_or, Option.bind_some, hkey, Option.some_or]
  | none =>
    rw [Option.none_or, Option.bind_none, Option.none_or, List.find?_singleton]
    by_cases hlists : p ∈ c.allowedIPs.map Prefix.masked
    · rw [if_pos (decide_eq_true hlists), if_pos hlists, Option.bind_some, hpk]
    · rw [if_neg (by simpa using hlists), if_neg hlists, Option.bind_none]

/-- The sections of usable peers with different keys add these peers. -/
theorem ipcSetLines_peers {cs : List PeerConfig} (husable : ∀ c ∈ cs, c.Usable out)
    (hnodup : (cs.map fun c ↦ loadExactHex c.publicKey).Nodup) (hroams : d.Roams)
    (hown : ∀ c ∈ cs, loadExactHex c.publicKey ≠ some d.publicKey)
    (hlacks : ∀ c ∈ cs, ∀ pk, loadExactHex c.publicKey = some pk → d.Lacks pk)
    (hroom : d.peers.length + cs.length ≤ maxPeers) (t : Bytes) (atomicNoize : Bool)
    (peer : IpcSetPeer) (deviceConfig : Bool) :
    ∃ ps table, ipcSetLines out none d peer deviceConfig (cs.flatMap (peerLines t atomicNoize)) =
        ({ d with peers := d.peers ++ ps, allowedips := table }, none) ∧
      List.Forall₂ (Holds out t atomicNoize) cs ps ∧
        ∀ p, table p = (owner cs p).or (d.allowedips p) := by
  induction cs generalizing d peer deviceConfig with
  | nil =>
    refine ⟨[], d.allowedips, ?_, .nil, fun p ↦ rfl⟩
    rw [List.flatMap_nil, ipcSetLines, handlePostConfig_of_roams hroams, List.append_nil]
    rfl
  | cons c cs ih =>
    have hc := husable c List.mem_cons_self
    have hcs : ∀ c' ∈ cs, c'.Usable out := fun c' hc' ↦ husable c' (List.mem_cons_of_mem c hc')
    obtain ⟨pk, hpk⟩ := hc.publicKey.load
    obtain ⟨psk, hpsk⟩ := hc.preSharedKey.load
    obtain ⟨endpoint, hendpoint⟩ := Option.isSome_iff_exists.mp hc.endpoint
    obtain ⟨q, hq⟩ : ∃ q, q = configured t atomicNoize c pk psk endpoint := ⟨_, rfl⟩
    have hholds : Holds out t atomicNoize c q := hq ▸
      ⟨hpk, hpsk, hendpoint.symm, Int.toNat_of_nonneg hc.keepAlive.1, rfl, rfl⟩
    obtain ⟨hfresh, hnodup'⟩ := List.nodup_cons.mp hnodup
    have hown' : d.publicKey ≠ pk := by
      intro heq
      exact hown c List.mem_cons_self (heq ▸ hpk)
    rw [List.length_cons] at hroom
    have hadded : (d.insertAll pk c.allowedIPs).withPeer q =
        { d with
          peers := d.peers ++ [q]
          allowedips := (d.insertAll pk c.allowedIPs).allowedips } := by
      rw [Device.insertAll_eq]
      rfl
    rw [List.flatMap_cons, ipcSetLines_peerLines hc hpk hpsk hendpoint hroams hown'
      (hlacks c List.mem_cons_self pk hpk) (by omega), ← hq, hadded]
    have hroams' : ∀ p ∈ d.peers ++ [q], p.disableRoaming = false :=
      List.forall_mem_append.mpr ⟨hroams.peers, List.forall_mem_singleton.mpr (hq ▸ rfl)⟩
    have hlacks' : ∀ c' ∈ cs, ∀ pk', loadExactHex c'.publicKey = some pk' →
        ∀ p ∈ d.peers ++ [q], p.publicKey ≠ pk' := by
      intro c' hc' pk' hpk'
      refine List.forall_mem_append.mpr
        ⟨hlacks c' (List.mem_cons_of_mem c hc') pk' hpk', List.forall_mem_singleton.mpr ?_⟩
      rintro rfl
      exact hfresh (List.mem_map.mpr ⟨c', hc', hpk'.trans hholds.publicKey.symm⟩)
    have hroom' : (d.peers ++ [q]).length + cs.length ≤ maxPeers := by
      rw [List.length_append, List.length_singleton]
      omega
    obtain ⟨ps, table, hrun, hrest, htable⟩ := ih hcs hnodup' (d := { d with
        peers := d.peers ++ [q]
        allowedips := (d.insertAll pk c.allowedIPs).allowedips })
      ⟨hroams.device, hroams'⟩ (fun c' hc' ↦ hown c' (List.mem_cons_of_mem c hc')) hlacks' hroom'
      ⟨some pk, false, true⟩ false
    refine ⟨q :: ps, table, ?_, .cons hholds hrest, ?_⟩
    · rw [hrun]
      dsimp only
      rw [List.append_assoc, List.singleton_append]
    · intro p
      rw [htable, d.allowedips_insertAll, owner_cons hcs hpk, Option.or_assoc]
      congr 1
      split <;> rfl

theorem ipcSetLines_device_section (conf : Configuration) (fwmark : UInt32) {sk : Key}
    (hsk : fromMaybeZeroHex conf.privateKey = some sk) (peer : IpcSetPeer) (lines : List Bytes) :
    ipcSetLines out none newDevice peer true
        (setting "private_key" conf.privateKey ::
          ((if fwmark ≠ 0 then [setting "fwmark" (itoa fwmark.toNat)] else []) ++ lines)) =
      ipcSetLines out none { newDevice.setPrivateKey out sk with fwmark := fwmark.toNat } peer true
        lines := by
  have hprivate : handleDeviceLine out newDevice (str "private_key") conf.privateKey =
      (newDevice.setPrivateKey out sk, none) := by
    rw [handleDeviceLine, if_pos rfl, hsk]
  have hmark (d : Device E) : handleDeviceLine out d (str "fwmark") (itoa fwmark.toNat) =
      (d.bindSetMark fwmark.toNat, none) := by
    rw [handleDeviceLine, if_neg (by decide), if_neg (by decide), if_pos rfl,
      parseUint_itoa fwmark.toNat_lt]
  rw [setting, ipcSetLines_device out none _ _ _ _ (by decide) (by decide), hprivate]
  dsimp only
  split_ifs with hzero
  · rw [List.singleton_append, setting, ipcSetLines_device out none _ _ _ _ (by decide) (by decide),
      hmark]
    rfl
  · have hunset : (newDevice.setPrivateKey out sk).fwmark = 0 := by
      unfold Device.setPrivateKey
      split <;> rfl
    rw [List.nil_append, not_not.mp hzero, show (0 : UInt32).toNat = 0 from rfl, ← hunset]

theorem setPrivateKey_newDevice (out : Outside E) (sk : Key) :
    (newDevice.setPrivateKey out sk).peers = [] ∧
      (newDevice.setPrivateKey out sk).brokenRoaming = false ∧
      (newDevice.setPrivateKey out sk).privateKey = sk ∧
      ∀ p, (newDevice.setPrivateKey out sk).allowedips p = none := by
  unfold Device.setPrivateKey
  split_ifs with hsame
  · exact ⟨rfl, rfl, hsame.symm, fun _ ↦ rfl⟩
  · exact ⟨rfl, rfl, rfl, fun _ ↦ rfl⟩

/-- The request for a configuration with usable peers of different keys is accepted by a new device,
which then has exactly these peers; a prefix belongs to the last peer that lists it. -/
theorem request_configures {conf : Configuration} {fwmark : UInt32} {t : Bytes} {atomicNoize : Bool}
    (hprivate : IsKeyText conf.privateKey) (husable : ∀ c ∈ conf.peers, c.Usable out)
    (hnodup : (conf.peers.map fun c ↦ loadExactHex c.publicKey).Nodup)
    (hown : ∀ c ∈ conf.peers, loadExactHex c.publicKey ≠ ownKey out conf.privateKey)
    (hcount : conf.peers.length ≤ maxPeers) (htrick : atomicNoize = false → Fits "trick" t) :
    ∃ d, ipcSetOperation out newDevice (request conf fwmark t atomicNoize) = (d, none) ∧
      List.Forall₂ (Holds out t atomicNoize) conf.peers d.peers ∧
      (∀ p, d.allowedips p = owner conf.peers p) ∧
      fromMaybeZeroHex conf.privateKey = some d.privateKey ∧ d.fwmark = fwmark.toNat := by
  obtain ⟨key, hkey⟩ := hprivate.load
  obtain ⟨sk, hsk⟩ : ∃ sk, fromMaybeZeroHex conf.privateKey = some sk :=
    ⟨_, by rw [fromMaybeZeroHex, hkey, Option.map_some]⟩
  have htrick' : Fits "trick" (trickOf t atomicNoize) := by
    cases atomicNoize with
    | false => exact htrick rfl
    | true =>
      show FitsLine (str "trick=t0")
      exact fits_of_all (by decide) (by decide)
  have hfits : ∀ line ∈ requestLines conf fwmark t atomicNoize, FitsLine line := by
    intro line hline
    rcases List.mem_cons.mp hline with rfl | hline
    · exact fits_setting (printable_of_all (by decide)) (printable_of_digits hprivate.digits)
        (by rw [hprivate.length]; decide)
    · rcases List.mem_append.mp hline with hmark | hpeer
      · obtain ⟨-, hmark⟩ := List.mem_ite_nil_right.mp hmark
        rw [List.mem_singleton.mp hmark]
        have hlen : (itoa fwmark.toNat).length ≤ 10 :=
          length_itoa_le (by decide) (Nat.lt_trans fwmark.toNat_lt (by decide))
        refine fits_setting (printable_of_all (by decide)) (printable_itoa _) ?_
        exact Nat.lt_of_le_of_lt (Nat.add_le_add_left hlen _) (by decide)
      · obtain ⟨c, hc, hline⟩ := List.mem_flatMap.mp hpeer
        exact fits_peerLines (husable c hc) htrick' hline
  obtain ⟨hpeers, hroaming, hprivateKey, hallowed⟩ := setPrivateKey_newDevice out sk
  have hown' : ∀ c ∈ conf.peers, loadExactHex c.publicKey ≠
      some (newDevice.setPrivateKey out sk).publicKey := by
    intro c hc
    have hne := hown c hc
    rwa [ownKey, hsk, Option.map_some] at hne
  obtain ⟨ps, table, hrun, hholds, htable⟩ := ipcSetLines_peers husable hnodup
    (d := { newDevice.setPrivateKey out sk with fwmark := fwmark.toNat })
    ⟨hroaming, by rw [hpeers]; exact nofun⟩ hown' (by
      intro c hc pk hpk q hq
      rw [hpeers] at hq
      cases hq) (by rw [hpeers, List.length_nil, Nat.zero_add]; exact hcount) t atomicNoize
    ⟨none, false, false⟩ true
  rw [hpeers, List.nil_append] at hrun
  have hdevice : ipcSetOperation out newDevice (request conf fwmark t atomicNoize) =
      ipcSetLines out none { newDevice.setPrivateKey out sk with fwmark := fwmark.toNat }
        ⟨none, false, false⟩ true (conf.peers.flatMap (peerLines t atomicNoize)) := by
    rw [ipcSetOperation, request, scanLines_unlines hfits, requestLines]
    exact ipcSetLines_device_section conf fwmark hsk _ _
  refine ⟨_, hdevice.trans hrun, hholds, ?_, ?_, rfl⟩
  · intro p
    have hnone : (owner conf.peers p).or ((newDevice.setPrivateKey out sk).allowedips p) =
        owner conf.peers p := by
      rw [hallowed, Option.or_none]
    exact (htable p).trans hnone
  · exact hsk.trans (congrArg some hprivateKey.symm)

/-- A bind that reads endpoints as `netip.ParseAddrPort` does, and some curve. -/
def stdBind : Outside AddrPort := ⟨id, parseAddrPort, false⟩

def warpPeer : PeerConfig where
  publicKey := List.replicate 64 (ch '2')
  preSharedKey := List.replicate 64 (ch '0')
  endpoint := str "192.0.2.1:2408"
  keepAlive := 5
  allowedIPs := [prefixFrom (.v4 0) 0]
  reserved := (1, 2, 3)

def warpConf : Configuration := ⟨List.replicate 64 (ch '1'), [warpPeer]⟩

theorem isKeyText_replicate {c : UInt8} (h : (hexDigit? c).isSome) :
    IsKeyText (List.replicate 64 c) :=
  ⟨List.length_replicate, fun x hx ↦ by rw [List.eq_of_mem_replicate hx]; exact h⟩

theorem usable_warpPeer : warpPeer.Usable stdBind where
  publicKey := isKeyText_replicate (by decide)
  preSharedKey := isKeyText_replicate (by decide)
  endpoint := by decide
  endpointLine := fits_of_all (by decide) (by decide)
  keepAlive := by decide
  allowedIPs := by decide

/-- A second peer, which lists the prefix of `warpPeer` and one of its own. -/
def backupPeer : PeerConfig := { warpPeer with
  publicKey := List.replicate 64 (ch '3')
  endpoint := str "[2001:db8::1]:500"
  allowedIPs := [prefixFrom (.v4 0) 0, prefixFrom (.v6 0 []) 0] }

theorem usable_backupPeer : backupPeer.Usable stdBind := { usable_warpPeer with
  publicKey := isKeyText_replicate (by decide)
  endpoint := by decide
  endpointLine := fits_of_all (by decide) (by decide)
  allowedIPs := by decide }

def sharedConf : Configuration := { warpConf with peers := [warpPeer, backupPeer] }

/-- Both peers are taken over with the trick `t1`, and the prefix that both list belongs to
the second. -/
theorem sharedConf_accepted : ∃ d, ipcSetOperation stdBind newDevice
    (request sharedConf 7 (str "t1") false) = (d, none) ∧
      List.Forall₂ (Holds stdBind (str "t1") false) sharedConf.peers d.peers ∧
      d.allowedips (prefixFrom (.v4 0) 0) = loadExactHex backupPeer.publicKey ∧ d.fwmark = 7 := by
  have husable : ∀ c ∈ sharedConf.peers, c.Usable stdBind :=
    List.forall_mem_cons.mpr ⟨usable_warpPeer, List.forall_mem_singleton.mpr usable_backupPeer⟩
  have htrick : Fits "trick" (str "t1") :=
    fits_of_all (by decide) (by decide)
  obtain ⟨d, hop, hpeers, hallowed, -, hmark⟩ :=
    @request_configures AddrPort stdBind sharedConf 7 (str "t1") false
      (isKeyText_replicate (by decide)) husable (by decide) (by decide) (by decide) fun _ ↦ htrick
  exact ⟨d, hop, hpeers, hallowed _, hmark⟩

def linesBeforeTrick : List Bytes :=
  setting "private_key" warpConf.privateKey :: (peerLines [] false warpPeer).take 4

/-- A long trick does not fit the buffer of the scanner. -/
theorem scanLines_long_trick (hbreak : (0x0a : UInt8) ∉ t) (hlen : maxScanTokenSize ≤ t.length) :
    scanLines (request warpConf 0 t false) = (linesBeforeTrick, some .tooLong) := by
  have hfits : ∀ line ∈ linesBeforeTrick, FitsLine line := by
    intro line hline
    rcases List.mem_cons.mp hline with rfl | hline
    · exact fits_of_all (by decide) (by decide)
    · have hshort : Fits "trick" (trickOf [] false) :=
        fits_of_all (by decide) (by decide)
      exact fits_peerLines usable_warpPeer hshort (List.mem_of_mem_take hline)
  have hline : (0x0a : UInt8) ∉ setting "trick" t := by
    intro hmem
    rcases List.mem_append.mp hmem with hkey | hvalue
    · exact absurd hkey (by decide)
    · rcases List.mem_cons.mp hvalue with heq | hvalue
      · cases heq
      · exact hbreak hvalue
  have hlong : maxScanTokenSize ≤ (setting "trick" t).length := by
    rw [setting, List.length_append, List.length_cons]
    omega
  have hrequest : request warpConf 0 t false = unlines linesBeforeTrick ++
      (setting "trick" t ++ 0x0a :: unlines ((peerLines t false warpPeer).drop 5)) := by
    simp [request, requestLines, linesBeforeTrick, peerLines, warpConf, unlines, trickOf]
  rw [hrequest]
  exact scanLines_tooLong hfits hline hlong _

/-- The same peer with this endpoint and these prefixes. -/
def warpPeerWith (endpoint : Bytes) (cidrs : List Prefix) : PeerConfig :=
  { warpPeer with endpoint := endpoint, allowedIPs := cidrs }

def brokenZone : Bytes := str "[fe80::1%a" ++ 0x0a :: str "b]:2408"

/-- A carriage return at the end of a trick is lost, a trick of 64 KiB is refused, and so are an
endpoint with a line break in its zone and a prefix that is not valid. -/
theorem request_not_carried :
    ((0x0a : UInt8) ∉ str "t1" ++ [0x0d] ∧ warpPeer.Usable stdBind ∧
      loadExactHex warpPeer.publicKey ≠ ownKey stdBind warpConf.privateKey ∧
      (ipcSetOperation stdBind newDevice (request warpConf 0 (str "t1" ++ [0x0d]) false)).2 = none ∧
      (ipcSetOperation stdBind newDevice
        (request warpConf 0 (str "t1" ++ [0x0d]) false)).1.peers.map Peer.trick = [str "t1"]) ∧
    (ipcSetOperation stdBind newDevice
      (request warpConf 0 (List.replicate maxScanTokenSize (ch 't')) false)).2.isSome = true ∧
    ((stdBind.parseEndpoint brokenZone).isSome = true ∧
      (ipcSetOperation stdBind newDevice (request
        ⟨warpConf.privateKey, [warpPeerWith brokenZone []]⟩ 0 (str "t1") false)).2.isSome = true) ∧
    (ipcSetOperation stdBind newDevice (request
      ⟨warpConf.privateKey, [warpPeerWith warpPeer.endpoint [default]]⟩ 0
        (str "t1") false)).2.isSome =
        true := by
  refine ⟨⟨by decide, usable_warpPeer, by decide, ?_⟩, ?_, ⟨?_, ?_⟩, ?_⟩
  · decide +kernel
  · have hlong := scanLines_long_trick (t := List.replicate maxScanTokenSize (ch 't'))
      (fun hmem ↦ absurd (List.eq_of_mem_replicate hmem) (by decide))
      (Nat.le_of_eq List.length_replicate.symm)
    rw [ipcSetOperation, hlong]
    decide +kernel
  all_goals decide +kernel

end Vwarp.App.Wg
