import Vwarp.Wireguard.PreflightBind.Packet
import Vwarp.Masque.Noize.Packet

/-!
# The validators of the noise configurations

A validator makes one check after the other and returns the text of the first that fails.
It is written as the list of its checks, so that what it accepts is one lemma,
`firstFailure_eq_none`.

There are the check of the unified configuration and the strict `ConfigValidator`.  How
`fmt` writes a `time.Duration` and a `float32` into a text is a parameter.
-/

namespace Vwarp.Config.Noize

open Vwarp.Go Vwarp.Wireguard.PreflightBind Vwarp.Masque.Noize

/-- Make the checks in order.  A check is what it looks for and the text of the error it
then returns. -/
def firstFailure : List (Bool × Bytes) → Option Bytes
  | [] => none
  | (failed, text) :: checks => if failed then some text else firstFailure checks

theorem firstFailure_eq_none {checks : List (Bool × Bytes)} :
    firstFailure checks = none ↔ ∀ check ∈ checks, check.1 = false := by
  induction checks with
  | nil => simp [firstFailure]
  | cons check checks ih =>
    rw [firstFailure, List.forall_mem_cons, ← ih]
    cases check.1 with
    | true | false => simp

/-- `UnifiedNoizeConfig.validateAtomicNoizeConfig`. -/
def validateAtomicNoizeConfig (config : AtomicNoizeConfig) : Option Bytes :=
  firstFailure [
    (config.jc < 0 ∨ config.jc > 128, str "junk packet count must be between 0 and 128"),
    (config.jmin < 0 ∨ config.jmax < config.jmin, str "invalid junk packet size range"),
    (config.jcAfterI1 < 0 ∨ config.jcBeforeHS < 0 ∨ config.jcAfterHS < 0,
      str "junk packet counts cannot be negative"),
    (config.jcAfterI1 + config.jcBeforeHS + config.jcAfterHS > config.jc,
      str "sum of specific junk packet counts exceeds total count")]

namespace ConfigValidator

/-! ## The strict validator -/

/-- A number of seconds, as a `time.Duration`. -/
def seconds (n : Nat) : Int64 := Int64.ofNat (n * 1000000000)

/-- The check that a number is not negative; the text ends with the number. -/
def notNegative (n : Int64) (text : String) : Bool × Bytes := (n < 0, str text ++ formatInt n)

/-- `validateSignaturePacket`.  What it looks at after the length is accepted either way. -/
def validateSignaturePacket (packet name : Bytes) : Option Bytes :=
  if packet = [] then none
  else if packet.length > 1000 then
    some (str "signature packet " ++ name ++ str " is too long (" ++ itoa packet.length ++
      str " chars), should be under 1000")
  else none

def validateSignatures (signatures : List Bytes) : Option Bytes :=
  signatures.zipIdx.findSome? fun sig ↦
    if sig.1 ≠ [] then validateSignaturePacket sig.1 (str "I" ++ itoa (sig.2 + 1)) else none

/-- The checks of the sizes of junk packets; `text` ends the one of the greatest size. -/
def junkSizeChecks (jmin jmax : Int64) (text : String) : List (Bool × Bytes) := [
  notNegative jmin "minimum junk packet size cannot be negative, got ",
  (jmax < jmin, str "maximum junk packet size (" ++ formatInt jmax ++
    str ") cannot be less than minimum (" ++ formatInt jmin ++ str ")"),
  (jmax > 1400, str "maximum junk packet size should not exceed 1400 bytes" ++ str text ++
    str ", got " ++ formatInt jmax)]

/-- The check that the counts do not exceed the total count. -/
def totalCheck (totalSpecific jc : Int64) : Bool × Bytes :=
  (totalSpecific > jc, str "sum of specific junk packet counts (" ++ formatInt totalSpecific ++
    str ") exceeds total count (" ++ formatInt jc ++ str ")")

/-- `ConfigValidator.ValidateAtomicNoizeConfig`. -/
def validateAtomicNoizeConfig (config : AtomicNoizeConfig) : Option Bytes :=
  (firstFailure ([(decide (config.jc < 0 ∨ config.jc > 128),
      str "junk packet count (Jc) must be between 0 and 128, got " ++ formatInt config.jc)] ++
    junkSizeChecks config.jmin config.jmax " to avoid fragmentation" ++ [
    notNegative config.jcAfterI1 "junk packets after I1 cannot be negative, got ",
    notNegative config.jcBeforeHS "junk packets before handshake cannot be negative, got ",
    notNegative config.jcAfterHS "junk packets after handshake cannot be negative, got ",
    totalCheck (config.jcAfterI1 + config.jcBeforeHS + config.jcAfterHS) config.jc,
    (config.junkInterval < 0, str "junk interval cannot be negative"),
    (config.junkInterval > seconds 5,
      str "junk interval should not exceed 5 seconds to maintain effectiveness"),
    (config.handshakeDelay < 0, str "handshake delay cannot be negative"),
    (config.handshakeDelay > seconds 10,
      str "handshake delay should not exceed 10 seconds to avoid timeouts")])).or
  ((validateSignatures [config.i1, config.i2, config.i3, config.i4, config.i5]).or
  (firstFailure [
    (config.s1 ≠ 0, str "S1 parameter should be 0 for WARP compatibility"),
    (config.s2 ≠ 0, str "S2 parameter should be 0 for WARP compatibility")]))

/-- A `float32` is below zero. -/
def float32Negative (x : BitVec 32) : Bool :=
  x.msb ∧ 0 < x.toNat % 2 ^ 31 ∧ x.toNat % 2 ^ 31 ≤ 0x7f800000

/-- A `float32` is above one. -/
def float32AboveOne (x : BitVec 32) : Bool :=
  !x.msb ∧ 0x3f800000 < x.toNat ∧ x.toNat ≤ 0x7f800000

/-- The protocols of `ValidateNoizeConfig`. -/
def validProtocols : List Bytes :=
  [str "quic", str "dns", str "https", str "h3", str "dtls", str "stun"]

/-- `ConfigValidator.ValidateNoizeConfig`. -/
def validateNoizeConfig (formatDuration : Int64 → Bytes) (formatFloat : BitVec 32 → Bytes)
    (config : NoizeConfig) : Option Bytes :=
  (firstFailure ([(decide (config.jc < 0 ∨ config.jc > 20),
      str "MASQUE junk packet count (Jc) must be between 0 and 20, got " ++ formatInt config.jc)] ++
    junkSizeChecks config.jmin config.jmax "" ++ [
    notNegative config.jcBeforeHS "junk packets before handshake cannot be negative, got ",
    notNegative config.jcAfterI1 "junk packets after I1 cannot be negative, got ",
    notNegative config.jcDuringHS "junk packets during handshake cannot be negative, got ",
    notNegative config.jcAfterHS "junk packets after handshake cannot be negative, got ",
    totalCheck
      (config.jcBeforeHS + config.jcAfterI1 + config.jcDuringHS + config.jcAfterHS) config.jc,
    notNegative config.fragmentSize "fragment size cannot be negative, got ",
    (config.fragmentSize > 0 ∧ config.fragmentSize < 64,
      str "fragment size should be at least 64 bytes if enabled, got " ++
        formatInt config.fragmentSize),
    (config.fragmentDelay < 0, str "fragment delay cannot be negative"),
    notNegative config.paddingMin "minimum padding cannot be negative, got ",
    (config.paddingMax < config.paddingMin,
      str "maximum padding (" ++ formatInt config.paddingMax ++
      str ") cannot be less than minimum (" ++ formatInt config.paddingMin ++ str ")"),
    (config.paddingMax > 500,
      str "maximum padding should not exceed 500 bytes to avoid overhead, got " ++
      formatInt config.paddingMax),
    (config.junkInterval < 0, str "junk interval cannot be negative"),
    (config.junkInterval > seconds 5, str "junk interval should not exceed 5 seconds"),
    (config.handshakeDelay < 0, str "handshake delay cannot be negative"),
    (config.handshakeDelay > seconds 10, str "handshake delay should not exceed 10 seconds"),
    (config.packetDelay < 0, str "packet delay cannot be negative"),
    (config.delayMin < 0 ∨ config.delayMax < config.delayMin, str "invalid delay range: min=" ++
      formatDuration config.delayMin ++ str ", max=" ++ formatDuration config.delayMax),
    (config.mimicProtocol ≠ [] ∧ config.mimicProtocol ∉ validProtocols,
      str "invalid mimic protocol " ++
      config.mimicProtocol ++ str ", must be one of: [quic dns https h3 dtls stun]"),
    (config.sniFragment < 0, str "SNI fragment size cannot be negative"),
    (config.sniFragment > 0 ∧ config.sniFragment < 8,
      str "SNI fragment size should be at least 8 bytes if enabled"),
    (float32Negative config.fakeLoss ∨ float32AboveOne config.fakeLoss,
      str "fake loss ratio must be between 0.0 and 1.0, got " ++ formatFloat config.fakeLoss)])).or
  (validateSignatures [config.i1, config.i2, config.i3, config.i4, config.i5])

/-! ## What it accepts -/

/-- The sizes of junk packets that are accepted. -/
structure JunkBounds (jmin jmax : Int64) : Prop where
  nonneg : 0 ≤ jmin.toInt
  le : jmin.toInt ≤ jmax.toInt
  small : jmax.toInt ≤ 1400

/-- What the data path needs of a MASQUE configuration that is accepted. -/
structure NoizeBounds (config : NoizeConfig) : Prop where
  junk : JunkBounds config.jmin config.jmax
  padding_nonneg : 0 ≤ config.paddingMin.toInt
  padding_le : config.paddingMin.toInt ≤ config.paddingMax.toInt
  padding_small : config.paddingMax.toInt ≤ 500
  interval_nonneg : 0 ≤ config.junkInterval.toInt
  interval_small : config.junkInterval.toInt ≤ 5000000000
  delay_nonneg : 0 ≤ config.delayMin.toInt
  delay_le : config.delayMin.toInt ≤ config.delayMax.toInt

theorem notNegative_eq_false {n : Int64} {text : String} :
    (notNegative n text).1 = false ↔ 0 ≤ n.toInt := by
  rw [notNegative, decide_eq_false_iff_not, Int64.not_lt]
  exact Int64.le_iff_toInt_le

theorem junkBounds_of_checks {jmin jmax : Int64} {text : String}
    (h : ∀ check ∈ junkSizeChecks jmin jmax text, check.1 = false) : JunkBounds jmin jmax := by
  simp only [junkSizeChecks, List.forall_mem_cons, notNegative_eq_false,
    decide_eq_false_iff_not, gt_iff_lt, Int64.not_lt, Int64.le_iff_toInt_le] at h
  exact ⟨h.1, h.2.1, h.2.2.1⟩

theorem junkBounds_of_validate {config : AtomicNoizeConfig}
    (h : validateAtomicNoizeConfig config = none) : JunkBounds config.jmin config.jmax := by
  rw [validateAtomicNoizeConfig, Option.or_eq_none_iff, firstFailure_eq_none] at h
  apply junkBounds_of_checks
  intro check hcheck
  exact h.1 check (List.mem_append_left _ (List.mem_append_right _ hcheck))

theorem noizeBounds_of_validate {formatDuration : Int64 → Bytes} {formatFloat : BitVec 32 → Bytes}
    {config : NoizeConfig} (h : validateNoizeConfig formatDuration formatFloat config = none) :
    NoizeBounds config := by
  rw [validateNoizeConfig, Option.or_eq_none_iff, firstFailure_eq_none] at h
  obtain ⟨h, -⟩ := h
  have hrest := fun check hcheck ↦ h check (List.mem_append_right _ hcheck)
  simp only [List.forall_mem_cons, notNegative_eq_false, decide_eq_false_iff_not, not_or,
    gt_iff_lt, Int64.not_lt, Int64.le_iff_toInt_le] at hrest
  obtain ⟨-, -, -, -, -, -, -, -, hpadding, hpadding', hpadding'', hinterval, hinterval', -, -, -,
    ⟨hdelay, hdelay'⟩, -⟩ := hrest
  refine ⟨?_, hpadding, hpadding', hpadding'', hinterval, hinterval', hdelay, hdelay'⟩
  apply junkBounds_of_checks
  intro check hcheck
  exact h check (List.mem_append_left _ (List.mem_append_right _ hcheck))

end ConfigValidator

end Vwarp.Config.Noize
