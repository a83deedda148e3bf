import Vwarp.Config.Noize.Validator
import Vwarp.Masque.Noize.Crash
import Vwarp.Wireguard.PreflightBind.Safety

/-!
# The strict validator and the data path

What `ConfigValidator` accepts is safe to use: no helper of either noise layer panics, no
duration wraps, and junk packets have the sizes that were configured.  It follows that no value
ends the process in a run of either layer.  This is said of runs in which the draws are
serialised, as they are in the model: the layers draw from one `rng` without a lock, and
`math/rand` promises nothing to goroutines that draw from it at the same time.
-/

namespace Vwarp.Config.Noize

open Vwarp.Go Vwarp.Lib Vwarp.Wireguard Vwarp.Masque.Noize

/-! ## MASQUE -/

section Masque

variable {config : NoizeConfig}

/-- The sizes of junk packets, with the defaults, of bounds that are accepted. -/
theorem junkSizes_of_bounds (h : ConfigValidator.JunkBounds config.jmin config.jmax) :
    0 ≤ (junkSizes config).1.toInt ∧ (junkSizes config).1.toInt ≤ max config.jmax.toInt 90 ∧
      (junkSizes config).2.toInt ≤ max config.jmax.toInt 90 := by
  obtain ⟨hnonneg, hle, -⟩ := h
  have hone : (1 : Int64).toInt = 1 := rfl
  have h40 : (40 : Int64).toInt = 40 := rfl
  have h90 : (90 : Int64).toInt = 90 := rfl
  have hpair : ∀ sizes : Int64 × Int64,
      0 ≤ sizes.1.toInt → sizes.1.toInt ≤ max config.jmax.toInt 90 →
      sizes.2.toInt ≤ max config.jmax.toInt 90 →
      0 ≤ (if !config.allowZeroSize ∧ sizes.1 < 1 then 1 else sizes.1).toInt ∧
        (if !config.allowZeroSize ∧ sizes.1 < 1 then 1 else sizes.1).toInt ≤
          max config.jmax.toInt 90 ∧
        sizes.2.toInt ≤ max config.jmax.toInt 90 := by
    intro sizes hlo hlo' hhi
    split
    · refine ⟨?_, ?_, hhi⟩
      · rw [hone]
        decide
      · rw [hone]
        omega
    · exact ⟨hlo, hlo', hhi⟩
  unfold junkSizes
  dsimp only
  apply hpair
  · split
    · rw [h40]
      decide
    · exact hnonneg
  · split
    · rw [h40]
      omega
    · show config.jmin.toInt ≤ _
      omega
  · split
    · rw [h90]
      omega
    · show config.jmax.toInt ≤ _
      omega

namespace ConfigValidator.NoizeBounds

variable (h : ConfigValidator.NoizeBounds config)
include h

theorem junkFits : JunkFits config := by
  have hmax : maxAlloc = 2 ^ 48 := rfl
  have hsmall := h.junk.small
  obtain ⟨hlo, hlo', hhi⟩ := junkSizes_of_bounds h.junk
  exact ⟨hlo, by omega, by omega⟩

theorem junkDelayFits : JunkDelayFits config := by
  intro _
  have hinterval := h.interval_small
  omega

theorem delayFits : DelayFits config := by
  intro _ _
  have hmin := h.delay_nonneg
  have hmax := config.delayMax.toInt_lt
  omega

theorem paddingFits : PaddingFits config := by
  have hmax : maxAlloc = 2 ^ 48 := rfl
  have hnonneg := h.padding_nonneg
  have hsmall := h.padding_small
  exact .inr ⟨by omega, fun _ ↦ ⟨h.padding_le, by omega⟩⟩

theorem fits : Fits config :=
  ⟨h.paddingFits, h.delayFits, fun _ ↦ h.junkFits, fun _ ↦ h.junkDelayFits⟩

end ConfigValidator.NoizeBounds

/-- No helper of the layer panics, whatever packet it is given and whatever is drawn.  A packet
is a slice that exists, so that it is not longer than what can be allocated. -/
structure HelpersSafe (config : NoizeConfig) : Prop where
  addPadding (packet : Bytes) : (packet.length : Int) ≤ maxAlloc → (addPadding config packet).Safe
  generateJunkPacket : (generateJunkPacket config).Safe
  applyDelay : (applyDelay config).Safe
  applyJunkDelay : (applyJunkDelay config).Safe
  fragmentInitialPacket (packet : Bytes) :
    (packet.length : Int) ≤ maxAlloc → (fragmentInitialPacket config packet).Safe
  parseCPSPacket (cps : Bytes) : (parseCPSPacket cps).Safe
  wrapProtocol (packet : Bytes) : (wrapProtocol config packet).Safe

/-- The arithmetic of the helpers on configured numbers is that of the integers. -/
structure NoOverflow (config : NoizeConfig) : Prop where
  padding : (config.paddingMax - config.paddingMin + 1).toInt =
    config.paddingMax.toInt - config.paddingMin.toInt + 1
  /-- `maxDelay` of `applyJunkDelay`. -/
  maxDelay : (config.junkInterval * 2).toInt = config.junkInterval.toInt * 2
  /-- The width of the range of `applyDelay`. -/
  width : (config.delayMax - config.delayMin).toInt = config.delayMax.toInt - config.delayMin.toInt
  /-- The delay of `applyDelay`. -/
  delay (n : Nat) : (n : Int) < config.delayMax.toInt - config.delayMin.toInt →
    (config.delayMin + Int64.ofNat n).toInt = config.delayMin.toInt + n

theorem helpersSafe_of_fits (hfits : PaddingFits config) (hjunk : JunkFits config)
    (hdelay : DelayFits config) (hjunkDelay : JunkDelayFits config) : HelpersSafe config where
  addPadding _ hlen := safe_addPadding hfits hlen
  generateJunkPacket := safe_generateJunkPacket.mpr hjunk
  applyDelay := safe_applyDelay.mpr hdelay
  applyJunkDelay := safe_applyJunkDelay.mpr hjunkDelay
  fragmentInitialPacket _ hlen := by
    rw [fragmentInitialPacket_eq hlen]
    exact Draw.safe_pure _
  parseCPSPacket := safe_parseCPSPacket
  wrapProtocol := safe_wrapProtocol

theorem noOverflow_of_bounds (h : ConfigValidator.NoizeBounds config) : NoOverflow config := by
  have htwo : (2 : Int64).toInt = 2 := rfl
  have hlt := config.delayMax.toInt_lt
  obtain ⟨-, hpad, hpad', hpad'', hinterval, hinterval', hdelay, hdelay'⟩ := h
  refine ⟨?_, ?_, ?_, ?_⟩
  · rcases toInt_count hpad' with ⟨hcount, -⟩ | ⟨-, hcount⟩
    · exact hcount
    · omega
  · rw [Int64.toInt_mul, htwo]
    exact Int.bmod_eq_of_le (by omega) (by omega)
  · exact toInt_sub_of_fits (by omega) (by omega)
  · intro n hn
    exact toInt_add_ofNat (by omega)

end Masque

/-! ## WireGuard -/

section WireGuard

open PreflightBind

variable {config : AtomicNoizeConfig}

def leastSize (config : AtomicNoizeConfig) : Int :=
  max config.jmin.toInt (if config.allowZeroSize then 0 else 1)

/-- The sizes of junk packets of bounds that are accepted, unless both are zero. -/
theorem atomicSizes_of_bounds (h : ConfigValidator.JunkBounds config.jmin config.jmax)
    (hzero : ¬ (config.jmin = 0 ∧ config.jmax = 0)) :
    (PreflightBind.junkSizes config).1.toInt = leastSize config ∧
      (PreflightBind.junkSizes config).2.toInt = config.jmax.toInt ∧ 1 ≤ config.jmax.toInt := by
  obtain ⟨hnonneg, hle, -⟩ := h
  have hone : (1 : Int64).toInt = 1 := rfl
  have hz : (0 : Int64).toInt = 0 := rfl
  have hjmin : config.jmin = 0 ↔ config.jmin.toInt = 0 := by rw [← Int64.toInt_inj, hz]
  have hjmax : config.jmax = 0 ↔ config.jmax.toInt = 0 := by rw [← Int64.toInt_inj, hz]
  have hpos : 1 ≤ config.jmax.toInt := by
    rw [hjmin, hjmax] at hzero
    omega
  have hmax : ¬ (config.jmin = 0 ∧ config.jmax = 0 ∧ (!config.allowZeroSize) = true) :=
    fun hboth ↦ hzero ⟨hboth.1, hboth.2.1⟩
  refine ⟨?_, ?_, hpos⟩
  · unfold PreflightBind.junkSizes leastSize
    dsimp only
    cases config.allowZeroSize with
    | true =>
      simp only [Bool.not_true, Bool.false_eq_true, and_false, if_false, if_true]
      omega
    | false =>
      simp only [Bool.not_false, and_true, if_true, Bool.false_eq_true, if_false]
      by_cases hmin : config.jmin = 0
      · rw [if_pos hmin, if_neg (by decide), hone]
        rw [hjmin] at hmin
        omega
      · have hge : ¬ config.jmin < 1 := by
          rw [Int64.lt_iff_toInt_lt, hone]
          rw [hjmin] at hmin
          omega
        rw [if_neg hmin, if_neg hge]
        rw [hjmin] at hmin
        omega
  · unfold PreflightBind.junkSizes
    dsimp only
    rw [if_neg hmax]
    have hfloor : ∀ {minSize : Int64}, minSize.toInt ≤ config.jmax.toInt →
        (if config.jmax < minSize then minSize else config.jmax).toInt = config.jmax.toInt := by
      intro minSize hminSize
      rw [if_neg]
      rw [Int64.lt_iff_toInt_lt]
      exact Int.not_lt.mpr hminSize
    have hceil : ∀ {c : Prop} [Decidable c] {minSize : Int64}, minSize.toInt ≤ config.jmax.toInt →
        (if c then 1 else minSize).toInt ≤ config.jmax.toInt := by
      intro c _ minSize hminSize
      split
      · exact hpos
      · exact hminSize
    cases (!config.allowZeroSize) with
    | true => exact hfloor (hceil (hceil hle))
    | false => rfl

theorem ensures_atomicJunk (h : ConfigValidator.JunkBounds config.jmin config.jmax) :
    (PreflightBind.generateJunkPacket config).Ensures False fun junk ↦
      leastSize config ≤ junk.length ∧ (junk.length : Int) ≤ max config.jmax.toInt 1 := by
  have hmax : maxAlloc = 2 ^ 48 := rfl
  have hz : (0 : Int64).toInt = 0 := rfl
  have hsmall := h.small
  unfold PreflightBind.generateJunkPacket
  split
  · rename_i hzero
    unfold leastSize
    rw [Draw.ensures_pure, hzero.1, hzero.2]
    cases config.allowZeroSize with
    | true | false => decide
  · rename_i hzero
    obtain ⟨hlo, hhi, hpos⟩ := atomicSizes_of_bounds h hzero
    have hle : leastSize config ≤ config.jmax.toInt := by
      have hjmin := h.le
      unfold leastSize
      split
      · omega
      · omega
    have hnonneg : 0 ≤ leastSize config := Int.le_trans h.nonneg (Int.le_max_left _ _)
    refine ensures_size (by omega) fun size hsize hsize' ↦ ?_
    have hsize'' : leastSize config ≤ size.toInt ∧ size.toInt ≤ config.jmax.toInt := by
      rw [Int64.le_iff_toInt_le] at hsize
      rcases hsize' with hsize' | rfl
      · rw [Int64.le_iff_toInt_le] at hsize'
        omega
      · omega
    unfold PreflightBind.generateJunkPacket.junkOfSize
    split
    · -- a size of zero can only be drawn if it is allowed
      rename_i hnull
      have hallow : config.allowZeroSize = true := by
        rw [hnull, hz] at hsize''
        by_contra hallow
        have hone : (1 : Int) ≤ leastSize config := by
          unfold leastSize
          rw [if_neg hallow]
          exact Int.le_max_right _ _
        omega
      rw [hnull, hz] at hsize''
      rw [if_pos hallow, Draw.ensures_pure, List.length_nil]
      omega
    · rw [ensures_randomBytes, if_pos ⟨by omega, by omega⟩]
      intro junk hjunk
      omega

theorem safe_atomicSignature (cps : Bytes) : (PreflightBind.parseCPSPacket cps).Safe := by
  obtain ⟨n, hn⟩ := parseCPSPacket_length (F := False) cps
  exact hn.safe

end WireGuard

/-! ## What is accepted is safe -/

/-- The strict validator is sufficient for the data path. -/
theorem accepted_is_safe (formatDuration : Int64 → Bytes) (formatFloat : BitVec 32 → Bytes) :
    (∀ config, ConfigValidator.validateNoizeConfig formatDuration formatFloat config = none →
      HelpersSafe config ∧ NoOverflow config ∧
      (generateJunkPacket config).Ensures False fun junk ↦
        (junk.length : Int) ≤ max config.jmax.toInt 90) ∧
    (∀ config, ConfigValidator.validateAtomicNoizeConfig config = none →
      (∀ cps, (PreflightBind.parseCPSPacket cps).Safe) ∧
      (PreflightBind.generateJunkPacket config).Ensures False fun junk ↦
        max config.jmin.toInt (if config.allowZeroSize then 0 else 1) ≤ junk.length ∧
          (junk.length : Int) ≤ max config.jmax.toInt 1) := by
  constructor
  · intro config hvalid
    have hbounds := ConfigValidator.noizeBounds_of_validate hvalid
    refine ⟨?_, noOverflow_of_bounds hbounds, ?_⟩
    · exact helpersSafe_of_fits hbounds.paddingFits hbounds.junkFits hbounds.delayFits
        hbounds.junkDelayFits
    · obtain ⟨-, hlo, hhi⟩ := junkSizes_of_bounds hbounds.junk
      refine (ensures_generateJunkPacket hbounds.junkFits).mono fun junk hjunk ↦ ?_
      omega
  · intro config hvalid
    have hbounds := ConfigValidator.junkBounds_of_validate hvalid
    exact ⟨safe_atomicSignature, ensures_atomicJunk hbounds⟩

def zeroSizeJunk : PreflightBind.AtomicNoizeConfig :=
  { (default : PreflightBind.AtomicNoizeConfig) with
    jc := 4, jmax := 90, jcBeforeHS := 2, allowZeroSize := true }

/-- The default of MASQUE, and junk packets of any size up to 90 bytes. -/
theorem accepted_is_safe_default :
    HelpersSafe defaultConfig ∧
      (PreflightBind.generateJunkPacket zeroSizeJunk).Ensures False fun junk ↦
        0 ≤ (junk.length : Int) ∧ (junk.length : Int) ≤ 90 := by
  have haccepted := accepted_is_safe (fun _ ↦ []) (fun _ ↦ [])
  exact ⟨(haccepted.1 defaultConfig (by decide)).1, (haccepted.2 zeroSizeJunk (by decide)).2⟩

/-- **If draws are serialised, a configuration that is accepted never ends the process**, whatever
is written and drawn and however the calls and their goroutines interleave. -/
theorem accepted_never_crashes (formatDuration : Int64 → Bytes) (formatFloat : BitVec 32 → Bytes) :
    (∀ config, ConfigValidator.validateNoizeConfig formatDuration formatFloat config = none →
      NoCrash config) ∧
    ∀ config, ConfigValidator.validateAtomicNoizeConfig config = none →
      PreflightBind.NoCrash (some config) := by
  refine ⟨fun config h ↦ noCrash_iff.mpr (ConfigValidator.noizeBounds_of_validate h).fits, ?_⟩
  intro config h
  rw [PreflightBind.noCrash_iff]
  rintro c ⟨⟩ -
  have hsafe := (ensures_atomicJunk (ConfigValidator.junkBounds_of_validate h)).safe
  exact PreflightBind.safe_generateJunkPacket.mp hsafe

theorem accepted_never_crashes_default :
    NoCrash defaultConfig ∧ PreflightBind.NoCrash (some zeroSizeJunk) :=
  have h := accepted_never_crashes (fun _ ↦ []) fun _ ↦ []
  ⟨h.1 _ (by decide), h.2 _ (by decide)⟩

end Vwarp.Config.Noize
