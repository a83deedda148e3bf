import Vwarp.Cps

/-!
# The packets of a preflight

The configuration of AtomicNoize and the packets that `preflightbind` makes from it:
signature packets from their text, the IKEv2 header around the first of them, and junk.
They are programs that draw; a junk packet whose size range cannot be drawn from, or
whose size cannot be allocated, panics.
-/

namespace Vwarp.Wireguard.PreflightBind

open Vwarp.Go Vwarp.Lib Vwarp.Cps

/-- `AtomicNoizeConfig`. -/
structure AtomicNoizeConfig where
  i1 : Bytes
  i2 : Bytes
  i3 : Bytes
  i4 : Bytes
  i5 : Bytes
  s1 : Int64
  s2 : Int64
  jc : Int64
  jmin : Int64
  jmax : Int64
  jcAfterI1 : Int64
  jcBeforeHS : Int64
  jcAfterHS : Int64
  junkInterval : Int64
  allowZeroSize : Bool
  handshakeDelay : Int64
deriving DecidableEq

/-- The zero `AtomicNoizeConfig`. -/
instance : Inhabited AtomicNoizeConfig :=
  ⟨⟨[], [], [], [], [], 0, 0, 0, 0, 0, 0, 0, 0, 0, false, 0⟩⟩

/-- `device.MessageInitiationSize`. -/
def messageInitiationSize : Nat := 148

/-- `device.MessageInitiationType`. -/
def messageInitiationType : UInt8 := 1

/-- `handshakeInitiation`. -/
def handshakeInitiation (buf : Bytes) : Bool :=
  if buf.length < messageInitiationSize then false
  else buf.headD 0 = messageInitiationType ∧ messageInitiationSize ≤ buf.length

/-! ## Signature packets -/

/-- What a tag of `parseCPSPacket` appends; `none` is an error. -/
def parseTag (tag : Tag) : Draw (Option Bytes) :=
  let tagData := trimSpace tag.2
  if tag.1 = ch 'b' then
    if tagData = [] then pure (some [])
    else
      let tagData :=
        if (str "0x").isPrefixOf tagData ∨ (str "0X").isPrefixOf tagData then tagData.drop 2
        else tagData
      pure (hexDecodeString (removeSpaces tagData))
  else if tag.1 = ch 'c' then do
    let now ← unixNow
    pure (some (toBE 4 (now % 0xffffffff)))
  else if tag.1 = ch 't' then do
    let now ← unixNow
    pure (some (toBE 4 (now % 2 ^ 32)))
  else if tagData = [] then pure (some [])
  else
    match atoi tagData with
    | none => pure none
    | some length =>
      let length := if 1000 < length then 1000 else length
      if 0 < length then do
        let bytes ← randRead length.toNat
        pure (some bytes)
      else pure (some [])

section Tags

variable (data : Bytes)

theorem parseTag_b : parseTag (ch 'b', data) =
    if trimSpace data = [] then pure (some [])
    else pure (hexDecodeString (removeSpaces
      (if (str "0x").isPrefixOf (trimSpace data) ∨ (str "0X").isPrefixOf (trimSpace data) then
        (trimSpace data).drop 2 else trimSpace data))) := rfl

theorem parseTag_c : parseTag (ch 'c', data) =
    unixNow >>= fun now ↦ pure (some (toBE 4 (now % 0xffffffff))) := rfl

theorem parseTag_t : parseTag (ch 't', data) =
    unixNow >>= fun now ↦ pure (some (toBE 4 (now % 2 ^ 32))) := rfl

theorem parseTag_r : parseTag (ch 'r', data) =
    if trimSpace data = [] then pure (some [])
    else match atoi (trimSpace data) with
      | none => pure none
      | some length =>
        if 0 < length then
          randRead (min length 1000).toNat >>= fun bytes ↦ pure (some bytes)
        else pure (some []) := by
  rw [parseTag, if_neg (show ch 'r' ≠ ch 'b' by decide), if_neg (show ch 'r' ≠ ch 'c' by decide),
    if_neg (show ch 'r' ≠ ch 't' by decide)]
  simp only [ite_cap, zero_lt_cap]

end Tags

/-- The loop of `parseCPSPacket`. -/
def parseTags : Bytes → List Tag → Draw (Option Bytes)
  | result, [] => pure (some result)
  | result, tag :: tags => do
      match ← parseTag tag with
      | none => pure none
      | some bytes => parseTags (result ++ bytes) tags

/-- `parseCPSPacket`. -/
def parseCPSPacket (cps : Bytes) : Draw (Option Bytes) :=
  parseTags [] (findTags (str "btcr") cps)

/-- `wrapInIKEv2Header`. -/
def wrapInIKEv2Header (payload : Bytes) : Draw Bytes :=
  if payload = [] then pure payload
  else do
    let initiatorSPI ← if 8 ≤ payload.length then pure (payload.take 8) else randRead 8
    let responderSPI ← randRead 8
    let totalLength := 28 + 24 + payload.length
    let saPayloadLength := 24 + payload.length
    pure (initiatorSPI ++ responderSPI ++ [0x21, 0x20, 0x22, 0x08, 0, 0, 0, 0] ++
      toBE 4 totalLength ++ [0, 0] ++ toBE 2 saPayloadLength ++
      [0x00, 0x00, 0x00, 0x14, 0x01, 0x01, 0x00, 0x04, 0x03, 0x00, 0x00, 0x08,
        0x01, 0x00, 0x00, 0x0c, 0x00, 0x00, 0x00, 0x00] ++ payload)

/-! ### What a signature packet depends on -/

variable {F : Prop}

/-- A tag appends the same number of bytes whatever is drawn, or is wrong whatever is
drawn. -/
theorem parseTag_length (tag : Tag) :
    ∃ n : Option Nat, (parseTag tag).Ensures F fun bytes ↦ bytes.map List.length = n := by
  have hclock : 0 < 2 ^ 63 := by decide
  -- a counter and a timestamp are both made from the clock
  have hnow (f : Nat → Nat) : (unixNow >>= fun now ↦ pure (some (toBE 4 (f now)))).Ensures F
      fun bytes ↦ bytes.map List.length = some 4 := by
    simp only [Draw.ensures_bind, unixNow, ensures_anyBelow hclock, Draw.ensures_pure]
    intro now _
    rw [Option.map_some, length_toBE]
  unfold parseTag
  dsimp only
  split
  · split
    · exact ⟨some 0, rfl⟩
    · exact ⟨_, rfl⟩
  · split
    · exact ⟨some 4, hnow (· % 0xffffffff)⟩
    · split
      · exact ⟨some 4, hnow (· % 2 ^ 32)⟩
      · split
        · exact ⟨some 0, rfl⟩
        · split
          · exact ⟨none, rfl⟩
          · rename_i length _
            generalize (if 1000 < length then 1000 else length) = size
            split
            · refine ⟨some size.toNat, ?_⟩
              simp only [Draw.ensures_bind, ensures_randRead, Draw.ensures_pure]
              intro bytes hbytes
              rw [Option.map_some, hbytes]
            · exact ⟨some 0, rfl⟩

theorem parseTags_length (tags : List Tag) :
    ∃ n : Option Nat, ∀ result : Bytes, (parseTags result tags).Ensures F fun bytes ↦
      bytes.map List.length = n.map (result.length + ·) := by
  induction tags with
  | nil => exact ⟨some 0, fun result ↦ rfl⟩
  | cons tag tags ih =>
    obtain ⟨n, hn⟩ := ih
    obtain ⟨m, hm⟩ := parseTag_length (F := F) tag
    refine ⟨m.bind fun m ↦ n.map (m + ·), fun result ↦ ?_⟩
    rw [parseTags, Draw.ensures_bind]
    refine Draw.Ensures.mono hm ?_
    intro bytes hbytes
    cases bytes with
    | none =>
      rw [← hbytes]
      rfl
    | some bytes =>
      rw [← hbytes]
      refine Draw.Ensures.mono (hn (result ++ bytes)) ?_
      intro packet hpacket
      rw [hpacket, List.length_append]
      cases n with
      | none => rfl
      | some n => exact congrArg some (Nat.add_assoc _ _ _)

theorem parseCPSPacket_length (cps : Bytes) :
    ∃ n : Option Nat, (parseCPSPacket cps).Ensures F fun bytes ↦ bytes.map List.length = n := by
  obtain ⟨n, hn⟩ := parseTags_length (F := F) (findTags (str "btcr") cps)
  refine ⟨n.map (0 + ·), ?_⟩
  exact hn []

theorem wrapInIKEv2Header_returns (payload : Bytes) :
    (wrapInIKEv2Header payload).Ensures False fun _ ↦ True := by
  unfold wrapInIKEv2Header
  split
  · trivial
  · dsimp only
    split
    all_goals simp only [Draw.ensures_pure, Draw.ensures_bind, ensures_randRead, implies_true]

/-! ## Junk packets -/

/-- The least and the greatest size of `generateJunkPacket`, unless both are configured to
be zero. -/
def junkSizes (config : AtomicNoizeConfig) : Int64 × Int64 :=
  let minSize := config.jmin
  let maxSize := config.jmax
  let maxSize := if minSize = 0 ∧ maxSize = 0 ∧ !config.allowZeroSize then 1 else maxSize
  let minSize := if minSize = 0 ∧ !config.allowZeroSize then 1 else minSize
  if !config.allowZeroSize then
    let minSize := if minSize < 1 then 1 else minSize
    (minSize, if maxSize < minSize then minSize else maxSize)
  else (minSize, maxSize)

/-- `Bind.generateJunkPacket`, for a configuration that is not `nil`.  If `crypto/rand`
fails, the packet is filled by `math/rand`, with any bytes too. -/
def generateJunkPacket (config : AtomicNoizeConfig) : Draw Bytes :=
  if config.jmin = 0 ∧ config.jmax = 0 then pure (if config.allowZeroSize then [] else [0x00])
  else
    let sizes := junkSizes config
    if sizes.1 < sizes.2 then do
      let n ← intn (sizes.2 - sizes.1 + 1)
      junkOfSize (sizes.1 + Int64.ofNat n)
    else junkOfSize sizes.1
where
  junkOfSize (size : Int64) : Draw Bytes :=
    if size = 0 then pure (if config.allowZeroSize then [] else [0x00]) else randomBytes size

end Vwarp.Wireguard.PreflightBind
