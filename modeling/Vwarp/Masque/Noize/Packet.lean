import Vwarp.Cps

/-!
# The packets of the MASQUE noise layer

The configuration of `masque/noize` and what its helpers make of it: padding, protocol
wrappers, junk, signature packets, fragments and delays.  They are programs that draw.  A
range that cannot be drawn from, a size that cannot be allocated and a negative size panic,
and `int` and `time.Duration` wrap.
-/

namespace Vwarp.Masque.Noize

open Vwarp.Go Vwarp.Lib Vwarp.Cps

/-- `NoizeConfig`.  `FakeLoss` is a `float32`, given by its bits. -/
structure NoizeConfig where
  i1 : Bytes
  i2 : Bytes
  i3 : Bytes
  i4 : Bytes
  i5 : Bytes
  fragmentSize : Int64
  fragmentInitial : Bool
  fragmentDelay : Int64
  paddingMin : Int64
  paddingMax : Int64
  randomPadding : Bool
  jc : Int64
  jmin : Int64
  jmax : Int64
  jcBeforeHS : Int64
  jcAfterI1 : Int64
  jcDuringHS : Int64
  jcAfterHS : Int64
  junkInterval : Int64
  junkRandom : Bool
  mimicProtocol : Bytes
  customWrapper : Bool
  handshakeDelay : Int64
  packetDelay : Int64
  randomDelay : Bool
  delayMin : Int64
  delayMax : Int64
  sniFragmentation : Bool
  sniFragment : Int64
  fakeALPN : List Bytes
  reversedOrder : Bool
  duplicatePackets : Bool
  allowZeroSize : Bool
  useTimestamp : Bool
  useNonce : Bool
  randomizeInitial : Bool
  fakeLoss : BitVec 32
deriving DecidableEq

/-- The zero `NoizeConfig`. -/
instance : Inhabited NoizeConfig where
  default :=
    { i1 := [], i2 := [], i3 := [], i4 := [], i5 := [], fragmentSize := 0
      fragmentInitial := false, fragmentDelay := 0, paddingMin := 0, paddingMax := 0
      randomPadding := false, jc := 0, jmin := 0, jmax := 0, jcBeforeHS := 0, jcAfterI1 := 0
      jcDuringHS := 0, jcAfterHS := 0, junkInterval := 0, junkRandom := false
      mimicProtocol := [], customWrapper := false, handshakeDelay := 0, packetDelay := 0
      randomDelay := false, delayMin := 0, delayMax := 0, sniFragmentation := false
      sniFragment := 0, fakeALPN := [], reversedOrder := false, duplicatePackets := false
      allowZeroSize := false, useTimestamp := false, useNonce := false
      randomizeInitial := false, fakeLoss := 0 }

/-- A number of milliseconds, as a `time.Duration`. -/
def milliseconds (n : Nat) : Int64 := Int64.ofNat (n * 1000000)

/-- `DefaultConfig`. -/
def defaultConfig : NoizeConfig :=
  { (default : NoizeConfig) with
    i1 := str "<b 0d0a0d0a><t><r 16>"
    fragmentSize := 512, fragmentInitial := true, fragmentDelay := milliseconds 2
    paddingMin := 16, paddingMax := 64, randomPadding := true
    jc := 5, jmin := 64, jmax := 256
    jcBeforeHS := 2, jcAfterI1 := 1, jcDuringHS := 1, jcAfterHS := 1
    junkInterval := milliseconds 5, junkRandom := true
    mimicProtocol := str "h3"
    handshakeDelay := milliseconds 10, randomDelay := true
    delayMin := milliseconds 1, delayMax := milliseconds 10
    sniFragmentation := true, sniFragment := 32
    useTimestamp := true, useNonce := true, randomizeInitial := true }

/-! ## QUIC packets -/

/-- `QUICPacketType`. -/
inductive QUICPacketType
  | initial
  | handshake
  | zeroRTT
  | oneRTT
  | retry
  | versionNegotiation
  | unknown
deriving DecidableEq

/-- `detectQUICPacketType`. -/
def detectQUICPacketType (packet : Bytes) : QUICPacketType :=
  match packet with
  | [] => .unknown
  | headerByte :: _ =>
    if headerByte &&& 0x80 ≠ 0 then
      if packet.length < 5 then .unknown
      else
        let packetType := (headerByte >>> 4) &&& 0x03
        if packetType = 0x00 then .initial
        else if packetType = 0x01 then .zeroRTT
        else if packetType = 0x02 then .handshake
        else .retry
    else .oneRTT

/-! ## Signature packets -/

/-- The value that `strconv.Atoi` returns beside its error: 0 if the text is no number, and
the nearest `int` if the number is out of range. -/
def atoiValue (s : Bytes) : Int :=
  match s with
  | [] => 0
  | c :: cs =>
    let neg := c = ch '-'
    let digits := if neg ∨ c = ch '+' then cs else s
    match decimal digits with
    | none => 0
    | some n =>
      if neg then if n ≤ 2 ^ 63 then -n else -(2 ^ 63)
      else if n < 2 ^ 63 then n else 2 ^ 63 - 1

/-- Where `Atoi` has no error, its value is the number. -/
theorem atoiValue_of_atoi {s : Bytes} {n : Int} (h : atoi s = some n) : atoiValue s = n := by
  unfold atoi at h
  unfold atoiValue
  split at h
  · cases h
  · rename_i c cs
    dsimp only at h ⊢
    obtain ⟨m, hm, hrange⟩ := Option.bind_eq_some_iff.mp h
    rw [hm]
    dsimp only
    split at hrange
    · rename_i hneg
      obtain ⟨hle, hn⟩ := Option.ite_none_right_eq_some.mp hrange
      rw [if_pos hneg, if_pos hle]
      exact Option.some.inj hn
    · rename_i hneg
      obtain ⟨hlt, hn⟩ := Option.ite_none_right_eq_some.mp hrange
      rw [if_neg hneg, if_pos hlt]
      exact Option.some.inj hn

/-- What a tag of `parseCPSPacket` makes of the bytes before it; `none` is an error. -/
def parseTag (result : Bytes) (tag : Tag) : Draw (Option Bytes) :=
  let tagData := trimSpace tag.2
  if tag.1 = ch 'b' then
    if tagData = [] then pure (some result)
    else
      let tagData := removeSpaces (trimPrefix (trimPrefix tagData (str "0x")) (str "0X"))
      pure ((hexDecodeString tagData).map (result ++ ·))
  else if tag.1 = ch 'c' then do
    let now ← unixNow
    pure (some (result ++ toBE 4 (now % 0xffffffff)))
  else if tag.1 = ch 't' then do
    let now ← unixNow
    pure (some (result ++ toBE 4 (now % 2 ^ 32)))
  else if tag.1 = ch 'r' then
    if tagData = [] then pure (some result)
    else
      let length := atoiValue tagData
      let length := if 1000 < length then 1000 else length
      if 0 < length then do
        let bytes ← randRead length.toNat
        pure (some (result ++ bytes))
      else pure (some result)
  else if tag.1 = ch 'n' then do
    let nonce ← unixNow
    pure (some (result ++ toBE 8 nonce))
  else if tagData = [] then pure (some result)
  else
    let key := UInt8.ofNat (atoiValue tagData % 256).toNat
    pure (some (result.map (· ^^^ key)))

section Tags

variable (result data : Bytes)

theorem parseTag_b : parseTag result (ch 'b', data) =
    if trimSpace data = [] then pure (some result)
    else pure ((hexDecodeString
      (removeSpaces (trimPrefix (trimPrefix (trimSpace data) (str "0x")) (str "0X")))).map
        (result ++ ·)) := rfl

theorem parseTag_c : parseTag result (ch 'c', data) =
    unixNow >>= fun now ↦ pure (some (result ++ toBE 4 (now % 0xffffffff))) := rfl

theorem parseTag_t : parseTag result (ch 't', data) =
    unixNow >>= fun now ↦ pure (some (result ++ toBE 4 (now % 2 ^ 32))) := rfl

theorem parseTag_r : parseTag result (ch 'r', data) =
    if trimSpace data = [] then pure (some result)
    else if 0 < atoiValue (trimSpace data) then
      randRead (min (atoiValue (trimSpace data)) 1000).toNat >>= fun bytes ↦
        pure (some (result ++ bytes))
    else pure (some result) := by
  rw [parseTag, if_neg (show ch 'r' ≠ ch 'b' by decide), if_neg (show ch 'r' ≠ ch 'c' by decide),
    if_neg (show ch 'r' ≠ ch 't' by decide), if_pos rfl]
  simp only [ite_cap, zero_lt_cap]

theorem parseTag_x : parseTag result (ch 'x', data) =
    if trimSpace data = [] then pure (some result)
    else pure (some (result.map (· ^^^ UInt8.ofNat (atoiValue (trimSpace data) % 256).toNat))) :=
  rfl

end Tags

/-- The loop of `parseCPSPacket`. -/
def parseTags : Bytes → List Tag → Draw (Option Bytes)
  | result, [] => pure (some result)
  | result, tag :: tags => do
      match ← parseTag result tag with
      | none => pure none
      | some result => parseTags result tags

/-- `parseCPSPacket`. -/
def parseCPSPacket (cps : Bytes) : Draw (Option Bytes) :=
  parseTags [] (findTags (str "btcrnx") cps)

/-! ## Protocol wrappers -/

/-- The length of a slice, as an `int`. -/
def len (bs : Bytes) : Int64 := Int64.ofNat bs.length

/-- `uint16(len(packet))`, big endian. -/
def len16 (packet : Bytes) : Bytes := toBE 2 (packet.length % 2 ^ 16)

/-- `wrapDNS`. -/
def wrapDNS (packet : Bytes) : Draw Bytes := do
  let transactionID ← intn 65536
  pure (toBE 2 transactionID ++ [0x01, 0x00, 0x00, 0x01, 0, 0, 0, 0, 0, 0] ++ packet)

/-- `wrapHTTPS`. -/
def wrapHTTPS (packet : Bytes) : Draw Bytes := pure ([0x17, 0x03, 0x03] ++ len16 packet ++ packet)

/-- `wrapDTLS`. -/
def wrapDTLS (packet : Bytes) : Draw Bytes := do
  let epoch ← intn 65536
  pure ([0x17, 0xfe, 0xfd] ++ toBE 2 epoch ++ [0, 0, 0, 0, 0, 0] ++ len16 packet ++ packet)

/-- `wrapSTUN`. -/
def wrapSTUN (packet : Bytes) : Draw Bytes := do
  let transactionID ← randRead 12
  pure ([0x00, 0x01] ++ len16 packet ++ [0x21, 0x12, 0xa4, 0x42] ++ transactionID ++ packet)

/-- `wrapProtocol`, which does not look at the packet type. -/
def wrapProtocol (config : NoizeConfig) (packet : Bytes) : Draw Bytes :=
  if config.mimicProtocol = str "dns" then wrapDNS packet
  else if config.mimicProtocol = str "https" ∨ config.mimicProtocol = str "h3" then
    wrapHTTPS packet
  else if config.mimicProtocol = str "dtls" then wrapDTLS packet
  else if config.mimicProtocol = str "stun" then wrapSTUN packet
  else pure packet

/-! ## Padding, junk and delays -/

/-- `addPadding`. -/
def addPadding (config : NoizeConfig) (packet : Bytes) : Draw Bytes :=
  if config.paddingMax = 0 then pure packet
  else if packet.length < 16 then pure packet
  else if config.randomPadding then do
    let n ← intn (config.paddingMax - config.paddingMin + 1)
    padBy (config.paddingMin + Int64.ofNat n)
  else padBy config.paddingMax
where
  /-- The rest of `addPadding`, from the test of `paddingSize` on. -/
  padBy (paddingSize : Int64) : Draw Bytes :=
    if paddingSize ≤ 0 then pure packet
    else if len packet + paddingSize > 1200 then
      if 1200 - len packet ≤ 0 then pure packet else append (1200 - len packet)
    else append paddingSize
  append (paddingSize : Int64) : Draw Bytes := do
    let padding ← randomBytes paddingSize
    pure (packet ++ padding)

/-- `applyProtocolMimic`. -/
def applyProtocolMimic (config : NoizeConfig) (junk : Bytes) : Draw Bytes :=
  if config.mimicProtocol = str "dns" then
    if 12 ≤ junk.length then do
      let transactionID ← intn 65536
      pure (toBE 2 transactionID ++ [0x01, 0x00] ++ junk.drop 4)
    else pure junk
  else if config.mimicProtocol = str "https" ∨ config.mimicProtocol = str "h3" then
    pure (if 5 ≤ junk.length then [0x17, 0x03, 0x03] ++ junk.drop 3 else junk)
  else if config.mimicProtocol = str "stun" then
    pure (if 20 ≤ junk.length then
      [0x00, 0x01] ++ (junk.drop 2).take 2 ++ [0x21, 0x12, 0xa4, 0x42] ++ junk.drop 8 else junk)
  else pure junk

/-- The least and the greatest size of `generateJunkPacket`, unless it returns at once. -/
def junkSizes (config : NoizeConfig) : Int64 × Int64 :=
  let sizes := if config.jmin = 0 ∧ config.jmax = 0 then (40, 90) else (config.jmin, config.jmax)
  (if !config.allowZeroSize ∧ sizes.1 < 1 then 1 else sizes.1, sizes.2)

/-- `generateJunkPacket`. -/
def generateJunkPacket (config : NoizeConfig) : Draw Bytes :=
  if config.jmin = 0 ∧ config.jmax = 0 ∧ config.allowZeroSize then pure []
  else
    let sizes := junkSizes config
    if sizes.1 < sizes.2 then do
      let n ← intn (sizes.2 - sizes.1 + 1)
      junkOfSize (sizes.1 + Int64.ofNat n)
    else junkOfSize sizes.1
where
  junkOfSize (size : Int64) : Draw Bytes :=
    if size = 0 ∧ config.allowZeroSize then pure []
    else do
      let junk ← randomBytes size
      if config.mimicProtocol ≠ [] ∧ 10 < size then applyProtocolMimic config junk else pure junk

/-- `applyDelay`: how long it sleeps, if it does. -/
def applyDelay (config : NoizeConfig) : Draw (Option Int64) :=
  if config.randomDelay then
    if config.delayMin < config.delayMax then do
      let n ← intn (config.delayMax - config.delayMin)
      pure (some (config.delayMin + Int64.ofNat n))
    else pure none
  else pure (if 0 < config.packetDelay then some config.packetDelay else none)

/-- `applyJunkDelay`: how long it sleeps, if it does. -/
def applyJunkDelay (config : NoizeConfig) : Draw (Option Int64) :=
  if config.junkRandom then
    if 0 < config.junkInterval then do
      let maxDelay := config.junkInterval * 2
      let n ← intn maxDelay
      pure (some (Int64.ofNat n))
    else pure none
  else pure (if 0 < config.junkInterval then some config.junkInterval else none)

/-! ## Fragments -/

/-- The loop of `fragmentInitialPacket` from an offset on; `fuel` bounds the number of rounds,
and it would be a fault if it ran out. -/
def fragmentLoop (packet : Bytes) (fragmentSize : Int64) : Nat → Int64 → Draw (List Bytes)
  | 0, _ => .fault
  | fuel + 1, offset =>
    if offset < len packet then do
      let stop := offset + fragmentSize
      let stop := if len packet < stop then len packet else stop
      let fragment ← slice packet offset stop
      let fragments ← fragmentLoop packet fragmentSize fuel (offset + fragmentSize)
      pure (fragment :: fragments)
    else pure []

/-- `fragmentInitialPacket`: what it returns, and the fragments that its goroutine sends. -/
def fragmentInitialPacket (config : NoizeConfig) (packet : Bytes) : Draw (Bytes × List Bytes) :=
  if config.fragmentSize ≤ 0 ∨ len packet ≤ config.fragmentSize then pure (packet, [])
  else do
    let fragments ← fragmentLoop packet config.fragmentSize packet.length config.fragmentSize
    let first ← slice packet 0 config.fragmentSize
    pure (first, fragments)

/-- The fragments from an offset on; `fuel` bounds their number, and the offset goes up by at
least one. -/
def fragmentsFrom (packet : Bytes) (fragmentSize : Nat) : Nat → Nat → List Bytes
  | 0, _ => []
  | fuel + 1, offset =>
    if offset < packet.length then
      ((packet.drop offset).take fragmentSize) ::
        fragmentsFrom packet fragmentSize fuel (offset + fragmentSize)
    else []

/-- The fragments that the goroutine of `fragmentInitialPacket` sends. -/
def delayedFragments (packet : Bytes) (fragmentSize : Nat) : List Bytes :=
  fragmentsFrom packet fragmentSize packet.length fragmentSize

def fragments (config : NoizeConfig) (packet : Bytes) : Bool :=
  detectQUICPacketType packet = .initial ∧ config.fragmentInitial ∧ 0 < config.fragmentSize ∧
    config.fragmentSize < len packet

end Vwarp.Masque.Noize
