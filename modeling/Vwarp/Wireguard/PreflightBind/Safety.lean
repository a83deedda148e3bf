import Vwarp.Wireguard.PreflightBind.Limit

/-!
# When `Send` cannot panic

The only packets of a preflight that can panic are junk packets, so that a process with a
`Bind` in it stays alive in every run exactly if its configuration makes no junk packets,
or makes them of sizes that are not negative and can be allocated: `noCrash_iff`.
-/

namespace Vwarp.Wireguard.PreflightBind

open Vwarp.Go Vwarp.Lib

variable {ε : Type} {b : Bind ε} {reqs : List (List Bytes × ε)} {s : State ε} {i : Nat}
  {c : Call ε}

/-! ## Junk packets -/

variable {config : AtomicNoizeConfig}

theorem safe_junkOfSize (size : Int64) :
    (generateJunkPacket.junkOfSize config size).Safe ↔ Allocatable size := by
  unfold generateJunkPacket.junkOfSize
  split
  · rename_i hzero
    rw [hzero]
    exact iff_of_true (Draw.safe_pure _) (by decide)
  · exact safe_randomBytes

/-- The sizes of junk packets are not negative and can be allocated. -/
def JunkFits (config : AtomicNoizeConfig) : Prop :=
  config.jmin = 0 ∧ config.jmax = 0 ∨
    0 ≤ (junkSizes config).1.toInt ∧ (junkSizes config).1.toInt ≤ maxAlloc ∧
      (junkSizes config).2.toInt ≤ maxAlloc

instance : DecidablePred JunkFits := fun _ ↦ inferInstanceAs (Decidable (_ ∨ _))

theorem safe_generateJunkPacket : (generateJunkPacket config).Safe ↔ JunkFits config := by
  unfold generateJunkPacket JunkFits
  split
  · rename_i hzero
    exact iff_of_true (Draw.safe_pure _) (.inl hzero)
  · rename_i hzero
    rw [or_iff_right hzero]
    exact safe_size fun size ↦ safe_junkOfSize size

/-! ## Runs -/

/-- The configuration makes junk packets: in a preflight, or in a goroutine after it. -/
def MakesJunk (config : AtomicNoizeConfig) : Prop :=
  0 < config.jcAfterI1 ∨ 0 < config.jcBeforeHS ∨ 0 < config.jc - config.jcBeforeHS

instance : DecidablePred MakesJunk := fun _ ↦ inferInstanceAs (Decidable (_ ∨ _))

theorem junk_mem_preflightActs (hconfig : b.config = some config) :
    Act.junk ∈ b.preflightActs ↔ 0 < config.jcAfterI1 ∨ 0 < config.jcBeforeHS := by
  unfold Bind.preflightActs
  rw [hconfig]
  dsimp only
  rw [List.mem_append, List.mem_append, List.mem_append, List.mem_replicate, List.mem_replicate,
    ← toNatClampNeg_pos, ← toNatClampNeg_pos, Nat.pos_iff_ne_zero, Nat.pos_iff_ne_zero]
  have hi1 : Act.junk ∉ (if config.i1 ≠ [] ∧ b.payload ≠ [] then [Act.i1] else []) := by
    split
    · exact fun h ↦ nomatch List.mem_singleton.mp h
    · exact List.not_mem_nil
  have hsignature : ∀ texts : List Bytes, Act.junk ∉ texts.map Act.signature := by
    intro texts h
    obtain ⟨text, -, h⟩ := List.mem_map.mp h
    cases h
  constructor
  · rintro (((h | ⟨h, -⟩) | ⟨h, -⟩) | h)
    · exact absurd h hi1
    · exact .inl h
    · exact .inr h
    · exact absurd h (hsignature _)
  · rintro (h | h)
    · exact .inl (.inl (.inr ⟨h, rfl⟩))
    · exact .inl (.inr ⟨h, rfl⟩)

/-- A goroutine is started only if there is junk left for it. -/
theorem junkers_nil (hconfig : b.config = some config)
    (hleft : ¬ 0 < config.jc - config.jcBeforeHS) (h : (machine b reqs).Reachable s) :
    s.junkers = [] := by
  refine Machine.Reach.invariant (I := fun s ↦ s.junkers = []) ?_ ?_ h
  · rintro s ⟨-, hjunkers, -⟩
    exact hjunkers
  · intro s a t hs _ hnext
    cases (step_of_next hnext).2 with
    | @spawn i c remaining hc hpc hremaining =>
      obtain ⟨config', hconfig', -, hsome⟩ := State.remainingJunk_eq_some hremaining
      cases hconfig.symm.trans hconfig'
      exact absurd (.inl (Int64.not_lt.mp hleft)) hsome
    | junk hg _ _ =>
      rw [hs] at hg
      cases hg
    | _ => exact hs

theorem makesJunk_of_crashed (hconfig : b.config = some config)
    (h : (machine b reqs).Reachable s) (hcrashed : s.crashed = true) : MakesJunk config := by
  obtain ⟨s₀, hreach, ⟨i, c, act, todo, draws, hc, hpc, hrun⟩ | ⟨k, g, draws, hg, hrun⟩⟩ :=
    crash_cases h hcrashed
  · obtain ⟨rfl, -⟩ := packet_fault hrun
    obtain ⟨-, acts, hacts, -⟩ := (told_of_reach hreach).phase_at hc hpc
    have hmem : Act.junk ∈ b.preflightActs := by
      rw [← hacts]
      exact List.mem_append_right _ List.mem_cons_self
    rcases (junk_mem_preflightActs hconfig).mp hmem with hafter | hbefore
    · exact .inl hafter
    · exact .inr (.inl hbefore)
  · refine .inr (.inr ?_)
    by_contra hleft
    rw [junkers_nil hconfig hleft hreach] at hg
    cases hg

variable {draws : List (Option Nat)}

/-- A preflight that still has to send junk can crash, if a junk packet can panic. -/
theorem exists_crash_of_todo
    (hfault : (generateJunkPacket (b.config.getD default)).run draws = none) {todo : List Act}
    (hjunk : Act.junk ∈ todo) (h : (machine b reqs).Reachable s) (hcrashed : s.crashed = false)
    (hc : s.calls[i]? = some c) (hpc : c.pc = .preflight todo) :
    ∃ t, (machine b reqs).Reachable t ∧ t.crashed = true := by
  induction todo generalizing s c with
  | nil => exact absurd hjunk List.not_mem_nil
  | cons act todo ih =>
    -- the acts before the first junk packet do what they do with no luck at all
    have hmove : ∀ {t : State ε}, Step b s (.act i [] none) t → t.crashed = false →
        t.calls[i]? = some { c with pc := .preflight todo } → Act.junk ∈ todo →
        ∃ t, (machine b reqs).Reachable t ∧ t.crashed = true := by
      intro t hstep ht hcalls hmem
      exact ih hmem (reachable_of_step h hcrashed hstep) ht hcalls rfl
    have hset : (s.setPc i c (.preflight todo)).calls[i]? =
        some { c with pc := .preflight todo } := by
      rw [s.get_setPc hc, if_pos rfl]
    rcases List.mem_cons.mp hjunk with rfl | hmem
    · have hrun : (b.packet .junk).run draws = none := Draw.run_bind_eq_none hfault
      exact ⟨_, reachable_of_step (a := .act i draws none) h hcrashed (.crash hc hpc hrun), rfl⟩
    · cases hrun : (b.packet act).run [] with
      | none =>
        exact ⟨_, reachable_of_step (a := .act i [] none) h hcrashed (.crash hc hpc hrun), rfl⟩
      | some packet =>
        cases packet with
        | none => exact hmove (.skip hc hpc hrun) hcrashed hset hmem
        | some packet => exact hmove (.send hc hpc hrun) hcrashed hset hmem

/-- A preflight can crash, if it has junk packets to send and they can panic. -/
theorem exists_crash_of_acts (ep : ε)
    (hfault : (generateJunkPacket (b.config.getD default)).run draws = none)
    (hjunk : Act.junk ∈ b.preflightActs) :
    ∃ t, (machine b [([List.replicate 148 1], ep)]).Reachable t ∧ t.crashed = true := by
  have hstart : (machine b [([List.replicate 148 1], ep)]).Reachable
      (.fresh [([List.replicate 148 1], ep)]) := .start (start_fresh _ _)
  have hinit : Call.initiates ⟨[List.replicate 148 1], ep, .start⟩ = true := by
    unfold Call.initiates
    rw [List.any_cons, show handshakeInitiation (List.replicate 148 1) = true by decide +kernel]
    rfl
  have hscan := reachable_of_step (a := .scan 0 0) hstart rfl (.clock rfl rfl hinit (Nat.le_refl 0))
  have hlock := reachable_of_step (a := .lock 0) hscan rfl (.permit rfl rfl trivial)
  exact exists_crash_of_todo (i := 0) hfault hjunk hlock rfl rfl rfl

/-- A goroutine can crash, if there is junk left for it and junk packets can panic. -/
theorem exists_crash_of_left (ep : ε)
    (hfault : (generateJunkPacket (b.config.getD default)).run draws = none)
    (hconfig : b.config = some config) (hleft : 0 < config.jc - config.jcBeforeHS) :
    ∃ t, (machine b [([[1]], ep)]).Reachable t ∧ t.crashed = true := by
  have hstart : (machine b [([[1]], ep)]).Reachable (.fresh [([[1]], ep)]) :=
    .start (start_fresh _ _)
  -- a buffer that is too short for an initiation asks for the junk after the handshake
  have hpass : Step b (.fresh [([[1]], ep)]) (.scan 0 0)
      (State.setPc (.fresh [([[1]], ep)]) 0 ⟨[[1]], ep, .start⟩ .post) := .pass rfl rfl rfl
  have hpost := reachable_of_step hstart rfl hpass
  have hremaining :
      State.remainingJunk b (State.setPc (.fresh [([[1]], ep)]) 0 ⟨[[1]], ep, .start⟩ .post)
      ⟨[[1]], ep, .post⟩ = some (config.jc - config.jcBeforeHS).toNatClampNeg := by
    unfold State.remainingJunk
    rw [hconfig]
    dsimp only
    rw [if_neg (Int64.not_le.mpr hleft)]
    rfl
  have hown := reachable_of_step (a := .post 0) hpost rfl (.spawn rfl rfl hremaining)
  obtain ⟨remaining, hcount⟩ := Nat.exists_eq_succ_of_ne_zero
    (Nat.pos_iff_ne_zero.mp (toNatClampNeg_pos.mpr hleft))
  exact ⟨_, reachable_of_step (a := .junk 0 draws none) hown rfl (.junkCrash rfl hcount hfault),
    rfl⟩

/-- Whatever the configuration gets to use fits. -/
def Fits (config : AtomicNoizeConfig) : Prop := MakesJunk config → JunkFits config

instance : DecidablePred Fits := fun _ ↦ inferInstanceAs (Decidable (_ → _))

/-- A `Bind` with this configuration, or without one, does not end the process, whatever is
sent. -/
def NoCrash (config : Option AtomicNoizeConfig) : Prop :=
  ∀ (ε : Type) (b : Bind ε), b.config = config →
    ∀ (reqs : List (List Bytes × ε)) (s : State ε), (machine b reqs).Reachable s → s.crashed = false

theorem NoCrash.fits (hno : NoCrash (some config)) : Fits config := by
  intro hmakes
  by_contra hfits
  rw [← safe_generateJunkPacket, Draw.safe_iff_run] at hfits
  obtain ⟨draws, hfault⟩ := not_forall_not.mp hfits
  have hcrash :
      ∃ reqs t, (machine (⟨fun _ ↦ .v4 0, some config, [], 0⟩ : Bind Unit) reqs).Reachable t ∧
      t.crashed = true := by
    by_cases hleft : 0 < config.jc - config.jcBeforeHS
    · exact ⟨_, exists_crash_of_left () hfault rfl hleft⟩
    · have hacts : Act.junk ∈ (⟨fun _ ↦ .v4 0, some config, [], 0⟩ : Bind Unit).preflightActs := by
        rw [junk_mem_preflightActs rfl]
        rcases hmakes with hafter | hbefore | hleft'
        · exact .inl hafter
        · exact .inr hbefore
        · exact absurd hleft' hleft
      exact ⟨_, exists_crash_of_acts () hfault hacts⟩
  obtain ⟨reqs, t, hreach, hcrashed⟩ := hcrash
  rw [hno Unit _ rfl reqs t hreach] at hcrashed
  cases hcrashed

/-- No buffer that is passed to `Send` makes it panic, exactly if there is no configuration or
it fits. -/
theorem noCrash_iff {config : Option AtomicNoizeConfig} :
    NoCrash config ↔ ∀ c, config = some c → Fits c := by
  constructor
  · rintro hno c rfl
    exact hno.fits
  · intro hfits ε b hconfig reqs s hreach
    by_contra hcrashed
    rw [Bool.not_eq_false] at hcrashed
    obtain ⟨draws, hfault⟩ := junk_fault_of_crashed hreach hcrashed
    have hjunk : JunkFits (b.config.getD default) := by
      cases hc : config with
      | none =>
        rw [hconfig, hc]
        exact .inl ⟨rfl, rfl⟩
      | some c =>
        have hsome := hconfig.trans hc
        rw [hsome]
        exact hfits c hc (makesJunk_of_crashed hsome hreach hcrashed)
    exact Draw.safe_iff_run.mp (safe_generateJunkPacket.mpr hjunk) draws hfault

end Vwarp.Wireguard.PreflightBind
