import Mathlib.Data.BitVec
import Mathlib.Data.Fin.Basic
import Mathlib.Data.List.Basic
import Mathlib.Logic.Function.Basic

/-!
# The replay filter

A keypair keeps one bit for each of the last counters it received, in a ring of blocks, and
`Reset` clears the first block only.  `run_eq_accepts` says that none of this can be observed:
whatever the calls, a counter is accepted exactly if it is below the limit, was not accepted
since the last `Reset`, and is not behind the window of one that was.
-/

namespace Vwarp.Wireguard.Replay

abbrev blockBits : Nat := 64

abbrev ringBlocks : Nat := 128

abbrev windowSize : Nat := (ringBlocks - 1) * blockBits

abbrev Ring := Fin ringBlocks → BitVec blockBits

/-- The index `i & blockMask`. -/
def slot (i : Nat) : Fin ringBlocks := ⟨i % ringBlocks, Nat.mod_lt _ (by decide)⟩

theorem slot_eq_iff {i j : Nat} : slot i = slot j ↔ i % 128 = j % 128 := Fin.mk.injEq .. ▸ .rfl

/-- `Filter`.  Counters are numbers: nothing here overflows. -/
structure Filter where
  last : Nat
  ring : Ring

namespace Filter

def zero : Filter := ⟨0, fun _ ↦ 0⟩

/-- `Filter.Reset`. -/
def reset (f : Filter) : Filter := ⟨0, Function.update f.ring 0 0⟩

/-- The loop of `ValidateCounter` over the `n` blocks from `i` on that the window moves to. -/
def clear (ring : Ring) (i : Nat) : Nat → Ring
  | 0 => ring
  | n + 1 => Function.update (clear ring i n) (slot (i + n)) 0

/-- The end of `ValidateCounter`: check and set the bit. -/
def checkAndSet (f : Filter) (counter : Nat) : Bool × Filter :=
  let indexBlock := slot (counter / blockBits)
  let old := f.ring indexBlock
  let new := old ||| 1#64 <<< (counter % blockBits)
  (old != new, { f with ring := Function.update f.ring indexBlock new })

/-- `Filter.ValidateCounter`. -/
def validateCounter (f : Filter) (counter limit : Nat) : Bool × Filter :=
  if limit ≤ counter then (false, f)
  else if f.last < counter then
    let current := f.last / blockBits
    let diff := min (counter / blockBits - current) ringBlocks
    checkAndSet ⟨counter, clear f.ring (current + 1) diff⟩ counter
  else if windowSize < f.last - counter then (false, f)
  else checkAndSet f counter

end Filter

/-- A call. -/
inductive Call
  | reset
  | validate (counter limit : Nat)

/-- The answers to the calls of `ValidateCounter`. -/
def Filter.run (f : Filter) : List Call → List Bool
  | [] => []
  | .reset :: calls => f.reset.run calls
  | .validate counter limit :: calls =>
    (f.validateCounter counter limit).1 :: (f.validateCounter counter limit).2.run calls

/-! ## What it is for -/

/-- The counter is to be accepted after those in `seen`. -/
def Fresh (seen : List Nat) (counter limit : Nat) : Prop :=
  counter < limit ∧ counter ∉ seen ∧ ∀ c ∈ seen, c ≤ counter + windowSize

instance (seen : List Nat) (counter limit : Nat) : Decidable (Fresh seen counter limit) :=
  inferInstanceAs (Decidable (_ ∧ _))

/-- The answers of a filter that keeps every counter it accepted since the last `Reset`. -/
def accepts (seen : List Nat) : List Call → List Bool
  | [] => []
  | .reset :: calls => accepts [] calls
  | .validate counter limit :: calls =>
    if Fresh seen counter limit then true :: accepts (counter :: seen) calls
    else false :: accepts seen calls

/-! ## The ring holds the window -/

/-- The bit of a counter. -/
def bit (ring : Ring) (c : Nat) : Bool := (ring (slot (c / 64))).getLsbD (c % 64)

theorem clear_eq (ring : Ring) (i n : Nat) (j : Fin ringBlocks) :
    Filter.clear ring i n j = if ∃ k < n, slot (i + k) = j then 0 else ring j := by
  induction n with
  | zero => simp [Filter.clear]
  | succ n ih =>
    rw [Filter.clear, Function.update_apply, ih]
    simp only [Nat.lt_succ_iff_lt_or_eq, or_and_right, exists_or, exists_eq_left, eq_comm (a := j)]
    by_cases hj : slot (i + n) = j <;> simp [hj]

theorem getLsbD_shift (c j : Nat) : (1#64 <<< (c % 64)).getLsbD j = decide (j = c % 64) := by
  have hc : c % 64 < 64 := Nat.mod_lt _ (by decide)
  rw [← BitVec.twoPow_eq, BitVec.getLsbD_twoPow]
  simp only [hc, decide_true, Bool.true_and, eq_comm]

/-- The bit is checked: it was set exactly if setting it changes nothing. -/
theorem checkAndSet_fst (f : Filter) (counter : Nat) :
    (f.checkAndSet counter).1 = !bit f.ring counter := by
  rw [Filter.checkAndSet, bit]
  generalize f.ring (slot (counter / 64)) = x
  have heq : x = x ||| 1#64 <<< (counter % 64) ↔ x.getLsbD (counter % 64) = true := by
    refine ⟨fun h ↦ ?_, fun h ↦ BitVec.eq_of_getLsbD_eq fun j _ ↦ ?_⟩
    · rw [h, BitVec.getLsbD_or, getLsbD_shift]
      simp only [decide_true, Bool.or_true]
    · rw [BitVec.getLsbD_or, getLsbD_shift]
      by_cases hj : j = counter % 64 <;> simp [hj, h]
  rw [Bool.eq_iff_iff, bne_iff_ne, Ne, heq, Bool.not_eq_true', Bool.not_eq_true]

/-- The bit is set, and no other. -/
theorem bit_checkAndSet (f : Filter) (counter c : Nat)
    (hwindow : c / 64 % 128 = counter / 64 % 128 → c / 64 = counter / 64) :
    bit (f.checkAndSet counter).2.ring c = (bit f.ring c || decide (c = counter)) := by
  simp only [bit, Filter.checkAndSet]
  by_cases hslot : slot (c / 64) = slot (counter / 64)
  · have hblock := hwindow (slot_eq_iff.mp hslot)
    have hc : c = counter ↔ c % 64 = counter % 64 := by omega
    rw [hslot, Function.update_self, BitVec.getLsbD_or, getLsbD_shift, decide_eq_decide.mpr hc]
  · have hc : c ≠ counter := by rintro rfl; exact hslot rfl
    rw [Function.update_of_ne hslot, decide_eq_false hc, Bool.or_false]

/-- `last` is the largest counter in `seen`, and the ring has the bits of the blocks up to its
own. -/
structure Tracks (f : Filter) (seen : List Nat) : Prop where
  le : ∀ c ∈ seen, c ≤ f.last
  last : f.last = 0 ∨ f.last ∈ seen
  bits (c : Nat) : c / 64 ≤ f.last / 64 → f.last / 64 ≤ c / 64 + 127 →
    bit f.ring c = decide (c ∈ seen)

namespace Tracks

variable {f : Filter} {seen : List Nat} {counter : Nat}

theorem zero : Tracks .zero [] := ⟨by simp, .inl rfl, fun _ _ _ ↦ by simp [bit, Filter.zero]⟩

-- a block that is left as it was is cleared before the window moves to it
theorem reset (f : Filter) : Tracks f.reset [] := by
  refine ⟨by simp, .inl rfl, fun c hc _ ↦ ?_⟩
  have hblock : c / 64 = 0 := by simpa [Filter.reset] using hc
  have hslot : slot (c / 64) = 0 := by rw [hblock]; rfl
  simp [bit, Filter.reset, hslot]

/-- The window moves forward. -/
theorem bit_clear (h : Tracks f seen) (hlast : f.last < counter) {c : Nat}
    (hle : c / 64 ≤ counter / 64) (hwindow : counter / 64 ≤ c / 64 + 127) :
    bit (Filter.clear f.ring (f.last / 64 + 1) (min (counter / 64 - f.last / 64) 128)) c =
      decide (c ∈ seen) := by
  rw [bit, clear_eq]
  by_cases hold : c / 64 ≤ f.last / 64
  · -- an old block of the window has the slot of no new one
    rw [if_neg, ← bit]
    · exact h.bits c hold (by omega)
    · rintro ⟨k, hk, hslot⟩
      rw [slot_eq_iff] at hslot
      omega
  · have hnot : c ∉ seen := fun hc ↦ by have := h.le c hc; omega
    rw [if_pos, decide_eq_false hnot, BitVec.ofNat_eq_ofNat, BitVec.getLsbD_zero]
    -- the block is among the new ones, or the whole ring is cleared
    refine ⟨(c / 64 - (f.last / 64 + 1)) % 128, by omega, ?_⟩
    rw [slot_eq_iff]
    omega

/-- A counter of the window is accepted if it was not seen, and is seen from then on. -/
theorem checkAndSet {seen' : List Nat} (hle : counter ≤ f.last) (hwindow : f.last ≤ counter + 8128)
    (hbits : ∀ c, c / 64 ≤ f.last / 64 → f.last / 64 ≤ c / 64 + 127 →
      bit f.ring c = decide (c ∈ seen)) (hseen' : ∀ c, c ∈ seen' ↔ c ∈ seen ∨ c = counter)
    (hmax : ∀ c ∈ seen, c ≤ f.last) (hlast : f.last = 0 ∨ f.last ∈ seen') :
    (f.checkAndSet counter).1 = decide (counter ∉ seen) ∧
      Tracks (f.checkAndSet counter).2 seen' := by
  have hbit := hbits counter (Nat.div_le_div_right hle) (by omega)
  refine ⟨by rw [checkAndSet_fst, hbit, decide_not], fun c hc ↦ ?_, hlast, ?_⟩
  · exact ((hseen' c).mp hc).elim (hmax c) (· ▸ hle)
  · intro c (hc : c / 64 ≤ f.last / 64) (hc' : f.last / 64 ≤ c / 64 + 127)
    rw [bit_checkAndSet f counter c (by omega), hbits c hc hc', ← Bool.decide_or]
    exact decide_eq_decide.mpr (hseen' c).symm

/-- One call of `ValidateCounter`. -/
theorem validateCounter (h : Tracks f seen) (counter limit : Nat) :
    (f.validateCounter counter limit).1 = decide (Fresh seen counter limit) ∧
      Tracks (f.validateCounter counter limit).2
        (if Fresh seen counter limit then counter :: seen else seen) := by
  have hmax := h.le
  have hlast := h.last
  rw [Filter.validateCounter]
  by_cases hlimit : limit ≤ counter
  · have hnot : ¬ Fresh seen counter limit := by grind [Fresh]
    simpa only [if_pos hlimit, if_neg hnot, decide_eq_false hnot, true_and] using h
  rw [if_neg hlimit]
  by_cases hahead : f.last < counter
  · have hfresh : Fresh seen counter limit := by grind [Fresh]
    rw [if_pos hahead, if_pos hfresh, decide_eq_true hfresh, ← decide_eq_true hfresh.2.1]
    -- the window moves, and the counter is accepted
    exact checkAndSet le_rfl (Nat.le_add_right ..) (fun c ↦ h.bit_clear hahead) (by simp [or_comm])
      (fun c hc ↦ (hmax c hc).trans hahead.le) (.inr List.mem_cons_self)
  rw [if_neg hahead]
  by_cases hbehind : windowSize < f.last - counter
  · have hnot : ¬ Fresh seen counter limit := by grind [Fresh]
    simpa only [if_pos hbehind, if_neg hnot, decide_eq_false hnot, true_and] using h
  · have hfresh : Fresh seen counter limit ↔ counter ∉ seen := by grind [Fresh]
    rw [if_neg hbehind, decide_eq_decide.mpr hfresh]
    exact checkAndSet (not_lt.mp hahead) (Nat.sub_le_iff_le_add'.mp (not_lt.mp hbehind)) h.bits
      (by grind) hmax (by grind)

end Tracks

theorem run_eq {f : Filter} {seen : List Nat} (h : Tracks f seen) (calls : List Call) :
    f.run calls = accepts seen calls := by
  induction calls generalizing f seen with
  | nil => rfl
  | cons call calls ih =>
    cases call with
    | reset => exact ih (.reset f)
    | validate counter limit =>
      obtain ⟨hok, hnext⟩ := h.validateCounter counter limit
      rw [Filter.run, accepts, hok, ih hnext]
      split <;> simp [*]

/-- **The filter is the set of the counters it accepted.** -/
theorem run_eq_accepts (calls : List Call) : Filter.zero.run calls = accepts [] calls :=
  run_eq .zero calls

end Vwarp.Wireguard.Replay
