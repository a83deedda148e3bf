import Vwarp.Masque.Noize.Safety

/-!
# Runs of the noise layer that panic

A panic of a call or of a goroutine ends the process.  `noCrash_iff` says for which
configurations no run does: padding and delay have to fit for every configuration, since
every packet gets to them, and junk packets and the delays after them for a configuration
that makes junk.
-/

namespace Vwarp.Masque.Noize

open Vwarp.Go Vwarp.Lib

variable {config : NoizeConfig}

/-! ## What the sequences do -/

/-- The configuration makes junk packets, before the handshake or after it. -/
def MakesJunk (config : NoizeConfig) : Prop :=
  0 < config.jcBeforeHS ∨ 0 < config.jcAfterI1 ∨ 0 < config.jcDuringHS ∨ 0 < config.jcAfterHS

instance : DecidablePred MakesJunk := fun _ ↦ inferInstanceAs (Decidable (_ ∨ _))

theorem mem_junks {act : Act} {zeroSize : Bool} {count : Int64} :
    act ∈ junks zeroSize count ↔ 0 < count ∧ (act = .junk zeroSize ∨ act = .delay) := by
  unfold junks
  rw [List.mem_flatten, ← toNatClampNeg_pos]
  constructor
  · rintro ⟨round, hround, hact⟩
    obtain ⟨hcount, rfl⟩ := List.mem_replicate.mp hround
    exact ⟨Nat.pos_iff_ne_zero.mpr hcount, by simpa using hact⟩
  · rintro ⟨hcount, hact⟩
    refine ⟨_, List.mem_replicate.mpr ⟨Nat.pos_iff_ne_zero.mp hcount, rfl⟩, ?_⟩
    simpa using hact

theorem mem_signatureAct {act : Act} {k : Fin 5} {cps : Bytes} :
    act ∈ signatureAct k cps ↔ cps ≠ [] ∧ act = .signature k cps := by
  unfold signatureAct
  split_ifs with hnil
  · exact iff_of_false List.not_mem_nil fun h ↦ h.1 hnil
  · rw [List.mem_singleton]
    exact (and_iff_right hnil).symm

/-- The sequences send signature packets, and junk packets with delays if the configuration
makes junk. -/
theorem mem_sequences {act : Act}
    (h : act ∈ preHandshakeActs config ∨ act ∈ postHandshakeActs config) :
    (∃ k cps, act = .signature k cps) ∨
      MakesJunk config ∧ ((∃ zeroSize, act = .junk zeroSize) ∨ act = .delay) := by
  have hjunks : ∀ {zeroSize : Bool} {count : Int64}, act ∈ junks zeroSize count →
      (0 < count → MakesJunk config) →
      MakesJunk config ∧ ((∃ zeroSize, act = .junk zeroSize) ∨ act = .delay) := by
    intro zeroSize count hact hmakes
    obtain ⟨hcount, hact⟩ := mem_junks.mp hact
    exact ⟨hmakes hcount, hact.imp_left fun hjunk ↦ ⟨zeroSize, hjunk⟩⟩
  have hsignature : ∀ {k : Fin 5} {cps : Bytes}, act ∈ signatureAct k cps →
      ∃ k cps, act = .signature k cps :=
    fun hact ↦ ⟨_, _, (mem_signatureAct.mp hact).2⟩
  rcases h with h | h
  · unfold preHandshakeActs at h
    simp only [List.mem_append] at h
    rcases h with ((((((h | h) | h) | h) | h) | h) | h) | h
    · exact .inr (hjunks h .inl)
    · exact .inl (hsignature h)
    · exact .inr (hjunks h fun hcount ↦ .inr (.inl hcount))
    · exact .inl (hsignature h)
    · exact .inl (hsignature h)
    · exact .inl (hsignature h)
    · exact .inl (hsignature h)
    · exact .inr (hjunks h fun hcount ↦ .inr (.inr (.inl hcount)))
  · exact .inr (hjunks h fun hcount ↦ .inr (.inr (.inr hcount)))

/-- A configuration that makes junk has a sequence with a junk packet and a delay in it. -/
theorem exists_sequence_of_makesJunk (h : MakesJunk config) :
    ∃ zeroSize, ∃ acts, (acts = preHandshakeActs config ∨ acts = postHandshakeActs config) ∧
      Act.junk zeroSize ∈ acts ∧ Act.delay ∈ acts := by
  have hjunk : ∀ zeroSize {count : Int64}, 0 < count → Act.junk zeroSize ∈ junks zeroSize count :=
    fun _ _ hcount ↦ mem_junks.mpr ⟨hcount, .inl rfl⟩
  have hdelay : ∀ zeroSize {count : Int64}, 0 < count → Act.delay ∈ junks zeroSize count :=
    fun _ _ hcount ↦ mem_junks.mpr ⟨hcount, .inr rfl⟩
  rcases h with h | h | h | h
  · refine ⟨false, _, .inl rfl, ?_, ?_⟩
    · simp only [preHandshakeActs, List.mem_append, hjunk false h, true_or]
    · simp only [preHandshakeActs, List.mem_append, hdelay false h, true_or]
  · refine ⟨false, _, .inl rfl, ?_, ?_⟩
    · simp only [preHandshakeActs, List.mem_append, hjunk false h, true_or, or_true]
    · simp only [preHandshakeActs, List.mem_append, hdelay false h, true_or, or_true]
  · refine ⟨false, _, .inl rfl, ?_, ?_⟩
    · simp only [preHandshakeActs, List.mem_append, hjunk false h, or_true]
    · simp only [preHandshakeActs, List.mem_append, hdelay false h, or_true]
  · exact ⟨true, _, .inr rfl, hjunk true h, hdelay true h⟩

/-! ## Configurations that fit -/

/-- Whatever the configuration gets to use fits. -/
structure Fits (config : NoizeConfig) : Prop where
  padding : PaddingFits config
  delay : DelayFits config
  junk : MakesJunk config → JunkFits config
  junkDelay : MakesJunk config → JunkDelayFits config

theorem fits_iff : Fits config ↔ PaddingFits config ∧ DelayFits config ∧
    (MakesJunk config → JunkFits config) ∧ (MakesJunk config → JunkDelayFits config) :=
  ⟨fun h ↦ ⟨h.padding, h.delay, h.junk, h.junkDelay⟩, fun ⟨h₁, h₂, h₃, h₄⟩ ↦ ⟨h₁, h₂, h₃, h₄⟩⟩

instance : DecidablePred Fits := fun _ ↦ decidable_of_iff' _ fits_iff

theorem Fits.safe_act (h : Fits config) {act : Act}
    (hact : act ∈ preHandshakeActs config ∨ act ∈ postHandshakeActs config) :
    (act.packet config).Safe := by
  rcases mem_sequences hact with ⟨k, cps, rfl⟩ | ⟨hmakes, ⟨zeroSize, rfl⟩ | rfl⟩
  · exact (safe_parseCPSPacket cps).bind fun _ ↦ Draw.safe_pure _
  · exact (safe_generateJunkPacket.mpr (h.junk hmakes)).bind fun _ ↦ Draw.safe_pure _
  · exact (safe_applyJunkDelay.mpr (h.junkDelay hmakes)).bind fun _ ↦ Draw.safe_pure _

section Runs

variable {δ : Type} {n : Layer} {s t : State δ} {a : Label}

/-- The process is alive, and nothing that is to be done panics. -/
structure Harmless (n : Layer) (s : State δ) : Prop where
  alive : s.crashed = false
  bufs : ∀ c ∈ s.calls, (c.buf.length : Int) ≤ maxAlloc
  tasks : ∀ g ∈ s.tasks, ∀ act ∈ g.acts, (act.packet n.config).Safe

namespace Harmless

theorem bufs_setPc (h : Harmless n s) {i : Nat} {c : Call δ} (hc : s.calls[i]? = some c)
    (pc : Pc δ) : ∀ d ∈ (s.setPc i c pc).calls, (d.buf.length : Int) ≤ maxAlloc := by
  intro d hd
  rcases List.mem_or_eq_of_mem_set hd with hd | rfl
  · exact h.bufs d hd
  · exact h.bufs c (List.mem_of_getElem? hc)

theorem tasks_go (h : Harmless n s) {acts : List Act}
    (hacts : ∀ act ∈ acts, (act.packet n.config).Safe) (addr : δ) :
    ∀ g ∈ s.tasks ++ [⟨addr, n.acts acts⟩], ∀ act ∈ g.acts, (act.packet n.config).Safe := by
  refine forall_mem_concat.mpr ⟨h.tasks, fun act hact ↦ ?_⟩
  unfold Layer.acts at hact
  split at hact
  · exact hacts act hact
  · exact absurd hact List.not_mem_nil

theorem tasks_set (h : Harmless n s) {k : Nat} {g : Task δ} (hg : s.tasks[k]? = some g)
    {act : Act} {acts : List Act} (hacts : g.acts = act :: acts) :
    ∀ d ∈ s.tasks.set k { g with acts := acts }, ∀ act ∈ d.acts, (act.packet n.config).Safe := by
  intro d hd act' hact'
  rcases List.mem_or_eq_of_mem_set hd with hd | rfl
  · exact h.tasks d hd act' hact'
  · refine h.tasks g (List.mem_of_getElem? hg) act' ?_
    rw [hacts]
    exact List.mem_cons_of_mem act hact'

variable [DecidableEq δ]

theorem step (hfits : Fits n.config) (h : Harmless n s) (hstep : Step n s a t) : Harmless n t := by
  cases hstep with
  | raw hc _ | goto hc _ | empty hc _ _ | again hc _ _ _ | plain hc _ | padded hc _ _
  | emit hc _ _ | ret hc _ _ => exact { h with bufs := h.bufs_setPc hc _ }
  | pre hc _ _ _ =>
    exact ⟨h.alive, h.bufs_setPc hc _, h.tasks_go (fun _ hact ↦ hfits.safe_act (.inl hact)) _⟩
  | fragment hc _ _ =>
    refine ⟨h.alive, h.bufs_setPc hc _, h.tasks_go (fun act hact ↦ ?_) _⟩
    obtain ⟨bytes, -, rfl⟩ := List.mem_map.mp hact
    exact Draw.safe_pure _
  | post hc _ _ _ =>
    exact ⟨h.alive, h.bufs_setPc hc _, h.tasks_go (fun _ hact ↦ hfits.safe_act (.inr hact)) _⟩
  | panic hc _ hrun =>
    have hsafe := safe_padAndWrap hfits.padding hfits.delay
      (h.bufs _ (List.mem_of_getElem? hc))
    exact absurd hrun (Draw.safe_iff_run.mp hsafe _)
  | crash hg hacts hrun =>
    have hsafe := h.tasks _ (List.mem_of_getElem? hg) _ (by rw [hacts]; exact List.mem_cons_self)
    exact absurd hrun (Draw.safe_iff_run.mp hsafe _)
  | skip hg hacts _ | send hg hacts _ => exact { h with tasks := h.tasks_set hg hacts }
  | disable => exact { h with }
  | enable => exact { h with }

theorem of_reach (hfits : Fits n.config) {reqs : List (Entry δ × Bytes)}
    (hbufs : ∀ r ∈ reqs, (r.2.length : Int) ≤ maxAlloc) (h : (machine n reqs).Reachable s) :
    Harmless n s := by
  refine Machine.Reach.invariant (I := Harmless n) ?_ ?_ h
  · rintro s rfl
    refine ⟨rfl, ?_, fun g hg ↦ absurd hg List.not_mem_nil⟩
    intro c hc
    obtain ⟨r, hr, rfl⟩ := List.mem_map.mp hc
    exact hbufs r hr
  · intro s a t hs _ hnext
    exact hs.step hfits (step_of_next hnext).2

end Harmless

/-! ## Runs that panic -/

variable [DecidableEq δ] {reqs : List (Entry δ × Bytes)}

theorem next_act_none {k : Nat} {g : Task δ} {act : Act} {acts : List Act}
    {draws : List (Option Nat)} (halive : s.crashed = false) (hg : s.tasks[k]? = some g)
    (hacts : g.acts = act :: acts) (hrun : (act.packet n.config).run draws = none) :
    s.next n (.act k draws) = some { s with crashed := true } := by
  simp only [State.next, halive, hg, hacts, hrun, Bool.false_eq_true, if_false, bind,
    Option.bind_some]

theorem next_act_some {k : Nat} {g : Task δ} {act : Act} {acts : List Act}
    {draws : List (Option Nat)} {out : Option Bytes} (halive : s.crashed = false)
    (hg : s.tasks[k]? = some g) (hacts : g.acts = act :: acts)
    (hrun : (act.packet n.config).run draws = some out) :
    ∃ t, s.next n (.act k draws) = some t ∧ t.crashed = false ∧ t.calls = s.calls ∧
      t.tasks[k]? = some { g with acts := acts } ∧ (out ≠ none → t.sent ≠ []) := by
  have hset := List.getElem?_set_self (a := { g with acts := acts })
    (List.getElem?_eq_some_iff.mp hg).1
  simp only [State.next, halive, hg, hacts, hrun, Bool.false_eq_true, if_false, bind,
    Option.bind_some]
  cases out with
  | none => exact ⟨_, rfl, rfl, rfl, hset, fun h ↦ absurd rfl h⟩
  | some packet => exact ⟨_, rfl, halive, rfl, hset, fun _ ↦ List.concat_ne_nil _ _⟩

/-- A goroutine that still has to do something that can panic can end the process. -/
theorem exists_crash_of_task {k : Nat} {g : Task δ} {act : Act} {acts : List Act}
    (hact : ¬ (act.packet n.config).Safe) (hmem : act ∈ acts) (h : (machine n reqs).Reachable s)
    (halive : s.crashed = false) (hg : s.tasks[k]? = some g) (hacts : g.acts = acts) :
    ∃ t, (machine n reqs).Reachable t ∧ t.crashed = true := by
  induction acts generalizing s g with
  | nil => exact absurd hmem List.not_mem_nil
  | cons first acts ih =>
    rcases List.mem_cons.mp hmem with rfl | hmem
    · rw [Draw.safe_iff_run] at hact
      obtain ⟨draws, hrun⟩ := not_forall_not.mp hact
      exact ⟨_, h.step (a := .act k draws) trivial (next_act_none halive hg hacts hrun), rfl⟩
    · -- what comes before it panics or is done
      cases hrun : (first.packet n.config).run [] with
      | none => exact ⟨_, h.step (a := .act k []) trivial (next_act_none halive hg hacts hrun), rfl⟩
      | some out =>
        obtain ⟨t, hnext, halive', -, hg', -⟩ := next_act_some halive hg hacts hrun
        exact ih hmem (h.step (a := .act k []) trivial hnext) halive' hg' rfl

end Runs

/-- A call of `ObfuscateWrite` with a packet with a short header gets to padding, after both
sequences were started. -/
theorem exists_pad (config : NoizeConfig) (rest : Bytes) :
    ∃ s : State Unit,
      (machine ⟨config, true⟩ [(.obfuscateWrite (), 0x40 :: rest)]).Reachable s ∧
      s.crashed = false ∧ s.calls[0]? = some ⟨.obfuscateWrite (), 0x40 :: rest, .pad ()⟩ ∧
      s.tasks = [⟨(), preHandshakeActs config⟩, ⟨(), postHandshakeActs config⟩] := by
  have hrun : (machine ⟨config, true⟩ [(Entry.obfuscateWrite (), 0x40 :: rest)]).run
      (.fresh [(.obfuscateWrite (), 0x40 :: rest)]) [.enter 0, .first 0, .second 0] =
      some ⟨true, Function.update (Function.update (fun _ ↦ none) () (some false)) () (some true),
        [⟨.obfuscateWrite (), 0x40 :: rest, .pad ()⟩],
        [⟨(), preHandshakeActs config⟩, ⟨(), postHandshakeActs config⟩], [], [(0, ())],
        [⟨.preHandshake, 0, ()⟩, ⟨.postHandshake, 0, ()⟩], false⟩ := rfl
  exact ⟨_, Machine.Reach.of_run (.start rfl) (fun _ _ _ ↦ trivial) hrun, rfl, rfl, rfl⟩

/-- A run in which the end of `ObfuscateWrite` panics. -/
theorem exists_crash_of_pad {rest : Bytes} (h : ¬ (padAndWrap config (0x40 :: rest)).Safe) :
    ∃ t : State Unit,
      (machine ⟨config, true⟩ [(.obfuscateWrite (), 0x40 :: rest)]).Reachable t ∧
      t.crashed = true := by
  obtain ⟨s, hreach, halive, hcall, -⟩ := exists_pad config rest
  rw [Draw.safe_iff_run] at h
  obtain ⟨draws, hrun⟩ := not_forall_not.mp h
  have hnext : s.next ⟨config, true⟩ (.finish 0 draws) = some { s with crashed := true } := by
    simp only [State.next, halive, hcall, hrun, Bool.false_eq_true, if_false, bind,
      Option.bind_some]
  exact ⟨_, hreach.step (a := .finish 0 draws) trivial hnext, rfl⟩

/-! ## The condition -/

/-- No layer with this configuration ends the process, whatever is written through it.  The
packets that are written are slices that exist. -/
def NoCrash (config : NoizeConfig) : Prop :=
  ∀ (δ : Type) [DecidableEq δ] (n : Layer), n.config = config →
    ∀ reqs : List (Entry δ × Bytes), (∀ r ∈ reqs, (r.2.length : Int) ≤ maxAlloc) →
      ∀ s, (machine n reqs).Reachable s → s.crashed = false

theorem NoCrash.not_exists (h : NoCrash config) {packet : Bytes}
    (hlen : (packet.length : Int) ≤ maxAlloc) :
    ¬ ∃ t : State Unit,
      (machine ⟨config, true⟩ [(.obfuscateWrite (), packet)]).Reachable t ∧
      t.crashed = true := by
  rintro ⟨t, hreach, hcrashed⟩
  have halive := h Unit ⟨config, true⟩ rfl _ (List.forall_mem_singleton.mpr hlen) t hreach
  cases halive.symm.trans hcrashed

/-- No packet that is passed to the layer makes it panic, exactly if the configuration
fits. -/
theorem noCrash_iff : NoCrash config ↔ Fits config := by
  constructor
  · intro hno
    have hlong : ((0x40 :: List.replicate (2 ^ 48 - 1) 0 : Bytes).length : Int) = maxAlloc := by
      rw [List.length_cons, List.length_replicate]
      rfl
    generalize List.replicate (2 ^ 48 - 1) (0 : UInt8) = rest at hlong
    have hsafe : (padAndWrap config (0x40 :: rest)).Safe := by
      by_contra hunsafe
      exact hno.not_exists (Int.le_of_eq hlong) (exists_crash_of_pad hunsafe)
    obtain ⟨s, hreach, halive, -, htasks⟩ := exists_pad config rest
    have hact : MakesJunk config → ∃ zeroSize, (Act.packet config (.junk zeroSize)).Safe ∧
        (Act.packet config .delay).Safe := by
      intro hmakes
      obtain ⟨zeroSize, acts, hacts, hjunk, hdelay⟩ := exists_sequence_of_makesJunk hmakes
      have htask : ∃ k : Nat, s.tasks[k]? = some ⟨(), acts⟩ := by
        rcases hacts with rfl | rfl
        · exact ⟨0, by rw [htasks]; rfl⟩
        · exact ⟨1, by rw [htasks]; rfl⟩
      obtain ⟨k, hg⟩ := htask
      have hall : ∀ act ∈ acts, (Act.packet config act).Safe := by
        intro act hmem
        by_contra hunsafe
        exact hno.not_exists (Int.le_of_eq hlong)
          (exists_crash_of_task (n := ⟨config, true⟩) hunsafe hmem hreach halive hg rfl)
      exact ⟨zeroSize, hall _ hjunk, hall _ hdelay⟩
    refine ⟨?_, ?_, ?_, ?_⟩
    · exact paddingFits_of_safe hlong hsafe.of_bind
    · exact safe_applyDelay.mp (safe_applyDelay_of_padAndWrap hsafe)
    · intro hmakes
      obtain ⟨zeroSize, hjunk, -⟩ := hact hmakes
      exact safe_generateJunkPacket.mp hjunk.of_bind
    · intro hmakes
      obtain ⟨zeroSize, -, hdelay⟩ := hact hmakes
      exact safe_applyJunkDelay.mp hdelay.of_bind
  · rintro hfits δ _ n rfl reqs hbufs s hreach
    exact (Harmless.of_reach hfits hbufs hreach).alive

end Vwarp.Masque.Noize
