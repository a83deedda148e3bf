import Vwarp.Masque.Noize.Obfuscate

/-!
# When the noise layer cannot panic

Each helper of the layer has an exact condition on the configuration under which it returns
whatever is drawn: the bounds of ranges are in order and their width is an `int`, sizes are
not negative and can be allocated, and no sum with the length of a packet wraps.

`noCrash_iff` puts them together: a process with the layer in it stays alive in every run
exactly if the conditions of the helpers hold that its configuration gets to use.
-/

namespace Vwarp.Masque.Noize

open Vwarp.Go Vwarp.Lib Vwarp.Cps

variable {config : NoizeConfig}

/-! ## Signatures and wrappers -/

theorem safe_parseTag (result : Bytes) (tag : Tag) : (parseTag result tag).Safe := by
  have hclock : unixNow.Safe := (ensures_anyBelow (by decide)).mpr fun _ _ ↦ trivial
  have hread : ∀ n, (randRead n).Safe := fun n ↦ ensures_randRead.mpr fun _ _ ↦ trivial
  unfold parseTag
  dsimp only
  split
  · split
    all_goals exact Draw.safe_pure _
  · split
    · exact hclock.bind fun _ ↦ Draw.safe_pure _
    · split
      · exact hclock.bind fun _ ↦ Draw.safe_pure _
      · split
        · split
          · exact Draw.safe_pure _
          · generalize (if 1000 < atoiValue (trimSpace tag.2) then 1000
              else atoiValue (trimSpace tag.2)) = length
            split
            · exact (hread _).bind fun _ ↦ Draw.safe_pure _
            · exact Draw.safe_pure _
        · split
          · exact hclock.bind fun _ ↦ Draw.safe_pure _
          · split
            all_goals exact Draw.safe_pure _

theorem safe_parseCPSPacket (cps : Bytes) : (parseCPSPacket cps).Safe := by
  unfold parseCPSPacket
  generalize ([] : Bytes) = result
  induction findTags (str "btcrnx") cps generalizing result with
  | nil => exact Draw.safe_pure _
  | cons tag tags ih =>
    rw [parseTags]
    refine (safe_parseTag result tag).bind fun bytes ↦ ?_
    cases bytes with
    | none => exact Draw.safe_pure _
    | some result => exact ih result

theorem safe_intn_65536 : (intn 65536).Safe := safe_intn.mpr (by decide)

theorem safe_wrapProtocol (packet : Bytes) : (wrapProtocol config packet).Safe := by
  unfold wrapProtocol
  split
  · exact safe_intn_65536.bind fun _ ↦ Draw.safe_pure _
  · split
    · exact Draw.safe_pure _
    · split
      · exact safe_intn_65536.bind fun _ ↦ Draw.safe_pure _
      · split
        · refine Draw.Safe.bind ?_ fun _ ↦ Draw.safe_pure _
          exact ensures_randRead.mpr fun _ _ ↦ trivial
        · exact Draw.safe_pure _

/-! ## Padding -/

variable {packet : Bytes}

/-- A size that `addPadding` can draw. -/
def DrawnPadding (config : NoizeConfig) (size : Int64) : Prop :=
  config.paddingMax ≠ 0 ∧
    if config.randomPadding then
      ∃ n : Nat, (n : Int) < (config.paddingMax - config.paddingMin + 1).toInt ∧
        size = config.paddingMin + Int64.ofNat n
    else size = config.paddingMax

def limitedPadding (len : Nat) (size : Int64) : Int64 :=
  if Int64.ofNat len + size > 1200 then 1200 - Int64.ofNat len else size

/-- Padding is configured so that it cannot panic: there is none, or the greatest padding can
be added to the length of a packet, and if it is random, the bounds are in order and the
number of sizes is an `int`. -/
def PaddingFits (config : NoizeConfig) : Prop :=
  config.paddingMax = 0 ∨ config.paddingMax.toInt + maxAlloc < 2 ^ 63 ∧
    (config.randomPadding = true → config.paddingMin.toInt ≤ config.paddingMax.toInt ∧
      config.paddingMax.toInt - config.paddingMin.toInt + 1 < 2 ^ 63)

instance : DecidablePred PaddingFits := fun _ ↦ inferInstanceAs (Decidable (_ ∨ _))

section General

variable {α : Type} {len : Nat} {whole : α} {append : Int64 → Draw α}

/-- `addPadding` from the test of `paddingSize` on, for whatever stands for the packet. -/
def padBy (len : Nat) (whole : α) (append : Int64 → Draw α) (size : Int64) : Draw α :=
  if 0 < size ∧ 0 < limitedPadding len size then append (limitedPadding len size) else pure whole

/-- `addPadding`, for whatever stands for the packet. -/
def pad (config : NoizeConfig) (len : Nat) (whole : α) (append : Int64 → Draw α) : Draw α :=
  if config.paddingMax = 0 then pure whole
  else if len < 16 then pure whole
  else if config.randomPadding then do
    let n ← intn (config.paddingMax - config.paddingMin + 1)
    padBy len whole append (config.paddingMin + Int64.ofNat n)
  else padBy len whole append config.paddingMax

theorem padBy_eq (size : Int64) :
    padBy len whole append size =
      if size ≤ 0 then pure whole
      else if Int64.ofNat len + size > 1200 then
        if 1200 - Int64.ofNat len ≤ 0 then pure whole else append (1200 - Int64.ofNat len)
      else append size := by
  unfold padBy limitedPadding
  simp only [← Int64.not_lt]
  split_ifs
  all_goals simp_all

theorem ensures_pad {F : Prop} {Q : α → Prop} :
    (pad config len whole append).Ensures F Q ↔
      if config.paddingMax = 0 ∨ len < 16 then Q whole
      else (config.randomPadding = true → ¬ 0 < config.paddingMax - config.paddingMin + 1 → F) ∧
        ∀ size, DrawnPadding config size → (padBy len whole append size).Ensures F Q := by
  unfold pad DrawnPadding
  by_cases hmax : config.paddingMax = 0
  · rw [if_pos hmax, if_pos (.inl hmax)]
    rfl
  by_cases hshort : len < 16
  · rw [if_neg hmax, if_pos hshort, if_pos (.inr hshort)]
    rfl
  rw [if_neg hmax, if_neg hshort, if_neg (not_or.mpr ⟨hmax, hshort⟩)]
  cases hrandom : config.randomPadding with
  | false => simp [hmax]
  | true =>
    simp only [if_true, Draw.ensures_bind, ensures_intn, true_implies]
    split_ifs with hrange
    · refine ⟨fun h ↦ ⟨fun hempty ↦ absurd hrange hempty, ?_⟩, fun h n hn ↦
        h.2 _ ⟨hmax, n, hn, rfl⟩⟩
      rintro _ ⟨-, n, hn, rfl⟩
      exact h n hn
    · refine ⟨fun h ↦ ⟨fun _ ↦ h, ?_⟩, fun h ↦ h.1 hrange⟩
      rintro size ⟨-, n, hn, -⟩
      have hempty : (config.paddingMax - config.paddingMin + 1).toInt ≤ 0 :=
        Int64.le_iff_toInt_le.mp (Int64.not_lt.mp hrange)
      omega

/-- Padding that fits is done with a size between the bounds. -/
theorem ensures_pad_of_fits {F : Prop} {Q : α → Prop} (h : PaddingFits config)
    (hwhole : config.paddingMax = 0 ∨ len < 16 → Q whole)
    (hpad : config.paddingMax ≠ 0 → 16 ≤ len →
      ∀ size : Int64, size.toInt ≤ config.paddingMax.toInt →
      (config.randomPadding = true → config.paddingMin.toInt ≤ size.toInt) →
      (config.randomPadding = false → size = config.paddingMax) →
      (padBy len whole append size).Ensures F Q) :
    (pad config len whole append).Ensures F Q := by
  unfold pad
  split_ifs with hmax hshort hrandom
  · exact hwhole (.inl hmax)
  · exact hwhole (.inr hshort)
  · obtain ⟨hle, hfits⟩ := (h.resolve_left hmax).2 hrandom
    rw [ensures_between (Int64.le_iff_toInt_le.mpr hle), if_pos hfits]
    intro size hlo hhi
    rw [Int64.le_iff_toInt_le] at hlo hhi
    exact hpad hmax (Nat.not_lt.mp hshort) size hhi (fun _ ↦ hlo) fun hfixed ↦
      absurd (hrandom.symm.trans hfixed) nofun
  · exact hpad hmax (Nat.not_lt.mp hshort) _ (Int.le_refl _)
      (fun hrandom' ↦ absurd hrandom' hrandom) fun _ ↦ rfl

end General

theorem addPadding_eq (config : NoizeConfig) (packet : Bytes) :
    addPadding config packet = pad config packet.length packet (addPadding.append packet) := by
  simp only [pad, padBy_eq]
  rfl

/-- The length of a packet, as an `int`. -/
theorem toInt_len (hlen : (packet.length : Int) ≤ maxAlloc) :
    (len packet).toInt = packet.length := by
  have hmax : maxAlloc = 2 ^ 48 := rfl
  exact Int64.toInt_ofNat_of_lt (by omega)

theorem safe_append (size : Int64) : (addPadding.append packet size).Safe ↔ Allocatable size := by
  constructor
  · intro h
    exact safe_randomBytes.mp h.of_bind
  · intro h
    exact (safe_randomBytes.mpr h).bind fun _ ↦ Draw.safe_pure _

theorem ensures_padBy (hlen : (packet.length : Int) ≤ maxAlloc) {size : Int64}
    (hfits : size.toInt + packet.length < 2 ^ 63) :
    (padBy packet.length packet (addPadding.append packet) size).Ensures False fun padded ↦
      ∃ pad, padded = packet ++ pad ∧
        pad.length = (min size.toInt (1200 - packet.length)).toNat := by
  have hmax : maxAlloc = 2 ^ 48 := rfl
  have hl : (Int64.ofNat packet.length).toInt = packet.length := toInt_len hlen
  have hsize := size.le_toInt
  have hzero : (0 : Int64).toInt = 0 := rfl
  have h1200 : (1200 : Int64).toInt = 1200 := rfl
  have hsum : (Int64.ofNat packet.length + size).toInt = packet.length + size.toInt := by
    rw [toInt_add_of_fits (by omega) (by omega), hl]
  have hlimited :
      (limitedPadding packet.length size).toInt = min size.toInt (1200 - packet.length) := by
    unfold limitedPadding
    split_ifs with hbig
    all_goals rw [gt_iff_lt, Int64.lt_iff_toInt_lt, hsum, h1200] at hbig
    · rw [toInt_sub_of_fits (by omega) (by omega), hl, h1200]
      omega
    · omega
  unfold padBy
  split_ifs with hpos
  all_goals rw [Int64.lt_iff_toInt_lt, Int64.lt_iff_toInt_lt, hzero] at hpos
  · rw [addPadding.append, Draw.ensures_bind, ensures_randomBytes, if_pos ⟨by omega, by omega⟩]
    intro pad hpad
    exact ⟨pad, rfl, by omega⟩
  · refine ⟨[], (List.append_nil packet).symm, ?_⟩
    rw [List.length_nil]
    omega

/-- Padding by a size is safe exactly if the length of the padded packet is an `int`. -/
theorem safe_padBy (hlen : (packet.length : Int) ≤ maxAlloc) (size : Int64) :
    (padBy packet.length packet (addPadding.append packet) size).Safe ↔
      size.toInt + packet.length < 2 ^ 63 := by
  by_cases hfits : size.toInt + packet.length < 2 ^ 63
  · exact iff_of_true (ensures_padBy hlen hfits).safe hfits
  -- the sum wraps to a negative number, and the size is too large for `make`
  have hmax : maxAlloc = 2 ^ 48 := rfl
  have hl : (Int64.ofNat packet.length).toInt = packet.length := toInt_len hlen
  have hlt := size.toInt_lt
  have hzero : (0 : Int64).toInt = 0 := rfl
  have h1200 : (1200 : Int64).toInt = 1200 := rfl
  have hpos : 0 < size := by
    rw [Int64.lt_iff_toInt_lt, hzero]
    omega
  have hsum : (Int64.ofNat packet.length + size).toInt = packet.length + size.toInt - 2 ^ 64 := by
    rw [Int64.toInt_add, hl]
    simp only [Int.bmod]
    omega
  have hlimited : limitedPadding packet.length size = size := by
    refine if_neg ?_
    rw [gt_iff_lt, Int64.lt_iff_toInt_lt, hsum, h1200]
    omega
  rw [padBy, hlimited, if_pos ⟨hpos, hpos⟩, safe_append]
  refine iff_of_false ?_ hfits
  rintro ⟨-, halloc⟩
  omega

theorem safe_addPadding (h : PaddingFits config)
    (hlen : (packet.length : Int) ≤ maxAlloc) : (addPadding config packet).Safe := by
  rw [addPadding_eq]
  refine ensures_pad_of_fits h (fun _ ↦ trivial) fun hmax _ size hsize _ _ ↦ ?_
  have hfits := (h.resolve_left hmax).1
  exact (safe_padBy hlen size).mpr (by omega)

/-- A range with its bounds the wrong way round panics: it is empty, or wraps and contains
the greatest `int`. -/
theorem not_safe_reversed {lo hi : Int64} (hlt : hi.toInt < lo.toInt)
    (hlen : (packet.length : Int) ≤ maxAlloc) (hpos : 0 < packet.length) :
    ¬ (intn (hi - lo + 1) >>= fun n ↦ 
      padBy packet.length packet (addPadding.append packet) (lo + Int64.ofNat n)).Safe := by
  have hlo := lo.toInt_lt
  have hhi := hi.le_toInt
  have hone : (1 : Int64).toInt = 1 := rfl
  have hzero : (0 : Int64).toInt = 0 := rfl
  rw [Draw.Safe, Draw.ensures_bind, ensures_intn]
  split_ifs with hcount
  · rw [Int64.lt_iff_toInt_lt, hzero] at hcount
    intro hall
    have hwrap : (hi - lo + 1).toInt = hi.toInt - lo.toInt + 1 + 2 ^ 64 := by
      rw [Int64.toInt_add, Int64.toInt_sub, hone] at hcount ⊢
      simp only [Int.bmod] at hcount ⊢
      omega
    have hlt63 := (hi - lo + 1).toInt_lt
    obtain ⟨m, hm⟩ := Int.eq_ofNat_of_zero_le (show 0 ≤ 2 ^ 63 - 1 - lo.toInt by omega)
    have hn := hall m (by omega)
    have hpad := (safe_padBy hlen _).mp hn
    rw [toInt_add_ofNat (by omega)] at hpad
    omega
  · exact id

/-- If a packet as long as packets can be is padded without a panic, then padding fits. -/
theorem paddingFits_of_safe (hlen : (packet.length : Int) = maxAlloc)
    (h : (addPadding config packet).Safe) : PaddingFits config := by
  have hmax : maxAlloc = 2 ^ 48 := rfl
  rw [addPadding_eq] at h
  unfold pad at h
  split at h
  · rename_i hzero
    exact .inl hzero
  · right
    rw [if_neg (by omega)] at h
    split_ifs at h with hrandom
    · rcases Int.lt_or_le config.paddingMax.toInt config.paddingMin.toInt with hlt | hle
      · exact absurd h (not_safe_reversed hlt (by omega) (by omega))
      · rw [Draw.Safe, ensures_between (Int64.le_iff_toInt_le.mpr hle)] at h
        split at h
        · rename_i hfits
          have hpad := (safe_padBy (by omega) _).mp
            (h config.paddingMax (Int64.le_iff_toInt_le.mpr hle) (Int64.le_refl _))
          exact ⟨by omega, fun _ ↦ ⟨hle, hfits⟩⟩
        · exact h.elim
    · have hpad := (safe_padBy (by omega) _).mp h
      exact ⟨by omega, fun hrandom' ↦ absurd hrandom' hrandom⟩

/-! ## Delays -/

theorem safe_intn_bind {α : Type} {n : Int64} {f : Nat → α} :
    (intn n >>= fun v ↦ pure (f v)).Safe ↔ 0 < n.toInt := by
  constructor
  · intro h
    exact safe_intn.mp h.of_bind
  · intro h
    exact (safe_intn.mpr h).bind fun _ ↦ Draw.safe_pure _

/-- The width of the range of random delays is a `time.Duration`. -/
def DelayFits (config : NoizeConfig) : Prop :=
  config.randomDelay = true → config.delayMin.toInt < config.delayMax.toInt →
    config.delayMax.toInt - config.delayMin.toInt < 2 ^ 63

instance : DecidablePred DelayFits := fun _ ↦ inferInstanceAs (Decidable (_ → _))

/-- Twice the interval between junk packets is a `time.Duration`. -/
def JunkDelayFits (config : NoizeConfig) : Prop :=
  config.junkRandom = true → 2 * config.junkInterval.toInt < 2 ^ 63

instance : DecidablePred JunkDelayFits := fun _ ↦ inferInstanceAs (Decidable (_ → _))

theorem safe_applyDelay : (applyDelay config).Safe ↔ DelayFits config := by
  have hmin := config.delayMin.le_toInt
  have hmax := config.delayMax.toInt_lt
  unfold applyDelay DelayFits
  split
  · rename_i hrandom
    split
    · rename_i hlt
      rw [Int64.lt_iff_toInt_lt] at hlt
      rw [safe_intn_bind, Int64.toInt_sub]
      simp only [Int.bmod, hrandom, hlt, true_implies]
      omega
    · rename_i hge
      refine iff_of_true (Draw.safe_pure _) fun _ hlt ↦ ?_
      exact absurd (Int64.lt_iff_toInt_lt.mpr hlt) hge
  · rename_i hrandom
    exact iff_of_true (Draw.safe_pure _) fun hrandom' ↦ absurd hrandom' hrandom

/-- The delay after a junk packet does not panic exactly if its range fits. -/
theorem safe_applyJunkDelay : (applyJunkDelay config).Safe ↔ JunkDelayFits config := by
  have hlt := config.junkInterval.toInt_lt
  have htwo : (2 : Int64).toInt = 2 := rfl
  have hzero : (0 : Int64).toInt = 0 := rfl
  unfold applyJunkDelay JunkDelayFits
  split
  · rename_i hrandom
    split_ifs with hpos
    · rw [Int64.lt_iff_toInt_lt, hzero] at hpos
      rw [safe_intn_bind, Int64.toInt_mul, htwo]
      simp only [Int.bmod, hrandom, true_implies]
      omega
    · rw [Int64.lt_iff_toInt_lt, hzero] at hpos
      refine iff_of_true (Draw.safe_pure _) fun _ ↦ ?_
      omega
  · rename_i hrandom
    exact iff_of_true (Draw.safe_pure _) fun hrandom' ↦ absurd hrandom' hrandom

/-! ## Junk packets -/

theorem safe_applyProtocolMimic (junk : Bytes) : (applyProtocolMimic config junk).Safe := by
  unfold applyProtocolMimic
  split
  · split
    · exact safe_intn_65536.bind fun _ ↦ Draw.safe_pure _
    · exact Draw.safe_pure _
  · split
    · exact Draw.safe_pure _
    · split
      all_goals exact Draw.safe_pure _

theorem safe_junkOfSize (size : Int64) :
    (generateJunkPacket.junkOfSize config size).Safe ↔ Allocatable size := by
  unfold generateJunkPacket.junkOfSize
  split
  · rename_i hzero
    rw [hzero.1]
    exact iff_of_true (Draw.safe_pure _) (by decide)
  · constructor
    · intro h
      exact safe_randomBytes.mp h.of_bind
    · intro h
      refine (safe_randomBytes.mpr h).bind fun junk ↦ ?_
      split
      · exact safe_applyProtocolMimic junk
      · exact Draw.safe_pure _

/-- The sizes of junk packets are not negative and can be allocated. -/
def JunkFits (config : NoizeConfig) : Prop :=
  0 ≤ (junkSizes config).1.toInt ∧ (junkSizes config).1.toInt ≤ maxAlloc ∧
    (junkSizes config).2.toInt ≤ maxAlloc

instance : DecidablePred JunkFits := fun _ ↦ inferInstanceAs (Decidable (_ ∧ _))

theorem safe_generateJunkPacket : (generateJunkPacket config).Safe ↔ JunkFits config := by
  unfold generateJunkPacket
  split_ifs with hzero
  · obtain ⟨hjmin, hjmax, hallow⟩ := hzero
    refine iff_of_true (Draw.safe_pure _) ?_
    unfold JunkFits junkSizes
    rw [hjmin, hjmax, hallow]
    decide
  · exact safe_size fun size ↦ safe_junkOfSize size

/-! ### Their sizes -/

theorem ensures_applyProtocolMimic (junk : Bytes) :
    (applyProtocolMimic config junk).Ensures False fun bs ↦ bs.length = junk.length := by
  unfold applyProtocolMimic
  split
  · split_ifs with hlen
    · rw [Draw.ensures_bind]
      refine safe_intn_65536.mono fun transactionID _ ↦ ?_
      rw [Draw.ensures_pure, List.length_append, List.length_append, length_toBE, List.length_drop]
      show 2 + 2 + (junk.length - 4) = junk.length
      omega
    · exact rfl
  · split
    · show (if 5 ≤ junk.length then [0x17, 0x03, 0x03] ++ junk.drop 3 else junk).length =
        junk.length
      split
      · rw [List.length_append, List.length_drop]
        show 3 + (junk.length - 3) = junk.length
        omega
      · rfl
    · split
      · show (if 20 ≤ junk.length then [0x00, 0x01] ++ (junk.drop 2).take 2 ++
          [0x21, 0x12, 0xa4, 0x42] ++ junk.drop 8 else junk).length = junk.length
        split
        · simp only [List.length_append, List.length_take, List.length_drop, List.length_cons,
            List.length_nil]
          omega
        · rfl
      · exact rfl

theorem ensures_junkOfSize {size : Int64} (h : Allocatable size) :
    (generateJunkPacket.junkOfSize config size).Ensures False
      fun junk ↦ (junk.length : Int) = size.toInt := by
  unfold generateJunkPacket.junkOfSize
  split
  · rename_i hzero
    rw [hzero.1]
    exact rfl
  · rw [Draw.ensures_bind, ensures_randomBytes, if_pos h]
    intro junk hjunk
    split
    · refine (ensures_applyProtocolMimic junk).mono fun bs hbs ↦ ?_
      rw [hbs, hjunk]
    · exact hjunk

theorem ensures_generateJunkPacket (h : JunkFits config) :
    (generateJunkPacket config).Ensures False fun junk ↦
      (junk.length : Int) ≤ max (junkSizes config).1.toInt (junkSizes config).2.toInt := by
  obtain ⟨hlo, hlo', hhi⟩ := h
  have hmax : maxAlloc = 2 ^ 48 := rfl
  unfold generateJunkPacket
  split
  · rw [Draw.ensures_pure, List.length_nil]
    omega
  · refine ensures_size (by omega) fun size hsize hsize' ↦ ?_
    rw [Int64.le_iff_toInt_le] at hsize
    have hle : size.toInt ≤ max (junkSizes config).1.toInt (junkSizes config).2.toInt := by
      rcases hsize' with hsize' | rfl
      · rw [Int64.le_iff_toInt_le] at hsize'
        omega
      · omega
    refine (ensures_junkOfSize ⟨by omega, by omega⟩).mono fun junk hjunk ↦ ?_
    omega

/-! ## Fragments -/

/-- The loop of `fragmentInitialPacket` cuts the rest of the packet into fragments: no bound of
a slice is wrong, no sum wraps, and the loop ends. -/
theorem fragmentLoop_eq {fragmentSize offset : Int64} {size o : Nat}
    (hlen : (packet.length : Int) ≤ maxAlloc) (hsize : fragmentSize.toInt = size) (hpos : 0 < size)
    (hlt : size < packet.length) (hoffset : offset.toInt = o) (ho : o ≤ packet.length + size)
    {fuel : Nat} (hfuel : packet.length ≤ o + fuel) :
    fragmentLoop packet fragmentSize (fuel + 1) offset =
      pure (fragmentsFrom packet size (fuel + 1) o) := by
  have hmax : maxAlloc = 2 ^ 48 := rfl
  have hl := toInt_len hlen
  have hguard : ∀ {offset : Int64} {o : Nat}, offset.toInt = o →
      (offset < len packet ↔ o < packet.length) := by
    intro offset o hoffset
    rw [Int64.lt_iff_toInt_lt, hl, hoffset, Int.ofNat_lt]
  induction fuel generalizing offset o with
  | zero =>
    have hdone : ¬ o < packet.length := by omega
    rw [fragmentLoop, if_neg (fun h ↦ hdone ((hguard hoffset).mp h)), fragmentsFrom, if_neg hdone]
  | succ fuel ih =>
    rw [fragmentLoop, fragmentsFrom]
    by_cases hmore : o < packet.length
    · have hnext : (offset + fragmentSize).toInt = (o + size : Nat) := by
        rw [toInt_add_of_fits (by omega) (by omega), hoffset, hsize]
        omega
      have hstop : (if len packet < offset + fragmentSize then len packet
          else offset + fragmentSize).toInt = (min (o + size) packet.length : Nat) := by
        split_ifs with hover
        · rw [Int64.lt_iff_toInt_lt, hl, hnext] at hover
          rw [hl]
          omega
        · rw [Int64.lt_iff_toInt_lt, hl, hnext] at hover
          rw [hnext]
          omega
      have hslice : slice packet offset _ = pure _ :=
        slice_eq hoffset hstop (by omega) (by omega) (by omega)
      have hcut : (packet.take (min (o + size) packet.length)).drop o =
          (packet.drop o).take size := by
        have hwidth : min (o + size) packet.length - o = min size (packet.drop o).length := by
          rw [List.length_drop]
          omega
        rw [List.drop_take, hwidth]
        exact List.take_eq_take_iff.mpr (by omega)
      rw [if_pos ((hguard hoffset).mpr hmore), if_pos hmore]
      dsimp only
      rw [hslice, hcut, ih hnext (by omega) (by omega)]
      rfl
    · rw [if_neg (fun h ↦ hmore ((hguard hoffset).mp h)), if_neg hmore]

/-- A packet that is longer than the fragments is cut, and any other is returned. -/
theorem fragmentInitialPacket_eq (hlen : (packet.length : Int) ≤ maxAlloc) :
    fragmentInitialPacket config packet =
      pure (if 0 < config.fragmentSize ∧ config.fragmentSize < len packet then
        (packet.take config.fragmentSize.toNatClampNeg,
          delayedFragments packet config.fragmentSize.toNatClampNeg)
      else (packet, [])) := by
  have hmax : maxAlloc = 2 ^ 48 := rfl
  have hzero : (0 : Int64).toInt = 0 := rfl
  have hl := toInt_len hlen
  unfold fragmentInitialPacket
  by_cases hcut : 0 < config.fragmentSize ∧ config.fragmentSize < len packet
  · have hwhole : ¬ (config.fragmentSize ≤ 0 ∨ len packet ≤ config.fragmentSize) := by
      rw [not_or, Int64.not_le, Int64.not_le]
      exact hcut
    rw [if_neg hwhole, if_pos hcut]
    rw [Int64.lt_iff_toInt_lt, Int64.lt_iff_toInt_lt, hzero, hl] at hcut
    obtain ⟨size, hsize⟩ := Int.eq_ofNat_of_zero_le (Int.le_of_lt hcut.1)
    have hclamp : config.fragmentSize.toNatClampNeg = size := by
      show config.fragmentSize.toInt.toNat = size
      omega
    obtain ⟨fuel, hfuel⟩ : ∃ fuel, packet.length = fuel + 1 := ⟨packet.length - 1, by omega⟩
    have hloop := fragmentLoop_eq hlen hsize (by omega) (by omega) hsize (by omega)
      (show packet.length ≤ size + fuel by omega)
    have hfirst : slice packet 0 config.fragmentSize = pure (packet.take size) :=
      slice_eq (l := 0) hzero hsize (Nat.zero_le _) (by omega) (by omega)
    rw [hclamp, delayedFragments, hfuel, hloop, hfirst]
    rfl
  · have hwhole : config.fragmentSize ≤ 0 ∨ len packet ≤ config.fragmentSize := by
      rw [← Int64.not_lt, ← Int64.not_lt]
      exact not_and_or.mp hcut
    rw [if_pos hwhole, if_neg hcut]

/-! ## The end of `ObfuscateWrite` -/

/-- The end of `ObfuscateWrite` does not panic if padding and delay fit. -/
theorem safe_padAndWrap (hpadding : PaddingFits config) (hdelay : DelayFits config)
    (hlen : (packet.length : Int) ≤ maxAlloc) : (padAndWrap config packet).Safe := by
  have hrest : ∀ packet : Bytes, (applyDelay config >>= fun _ ↦ pure packet).Safe :=
    fun _ ↦ (safe_applyDelay.mpr hdelay).bind fun _ ↦ Draw.safe_pure _
  unfold padAndWrap
  refine (safe_addPadding hpadding hlen).bind fun padded ↦ ?_
  dsimp only
  split
  · exact (safe_wrapProtocol padded).bind hrest
  · exact (Draw.safe_pure padded).bind hrest

theorem safe_applyDelay_of_padAndWrap (h : (padAndWrap config packet).Safe) :
    (applyDelay config).Safe := by
  unfold padAndWrap at h
  rw [Draw.Safe, Draw.ensures_bind] at h
  refine (h.mono fun padded hpadded ↦ ?_).const
  dsimp only at hpadded
  split at hpadded
  · rw [Draw.ensures_bind] at hpadded
    exact (hpadded.mono fun _ hwrapped ↦ Draw.Safe.of_bind hwrapped).const
  · exact Draw.Safe.of_bind hpadded

end Vwarp.Masque.Noize
