import Vwarp.App.MasqueTunnel.Step
import Vwarp.Lib.Doorbell

/-!
# Is a broken tunnel always noticed?

A forwarder or the failure monitor announces a broken connection by setting
`connectionBroken` and then posting to the one-slot channel `connectionDown`; the
recovery goroutine takes the signal and either clears the flag or posts again.
That is the protocol of `Vwarp.Lib.Doorbell`, and `toDoorbell` projects a tunnel
state onto it: the three parties that set the flag are the write forwarder, the
read forwarder and the failure monitor, and the health monitor only knocks.

`step_simulates` says that every step of the tunnel is a step of that protocol or
leaves its projection alone, so what the protocol guarantees carries over:
`noticed_of_reach` for the runs in which recovery's drain loop takes no signal
while the flag is set.  The drain loop of the source does not look at the flag,
and `drain_loses_signal` is a run in which it takes the signal of a forwarder
that broke the connection during the connectivity test.  From the state it
leaves nothing recovers (`wedged_of_run`).
-/

namespace Vwarp.App.MasqueTunnel

open Vwarp.Go Vwarp.Lib

/-! ## Projection to the protocol -/

/-- The goroutines that set `connectionBroken`. -/
inductive Party
  | writer | reader | failure
deriving DecidableEq, Repr

def Party.goroutine : Party → Goroutine
  | .writer => .writer
  | .reader => .reader
  | .failure => .failure

theorem Party.exists_iff {P : Party → Prop} : (∃ i, P i) ↔ P .writer ∨ P .reader ∨ P .failure := by
  constructor
  · rintro ⟨i, hi⟩
    cases i <;> simp [hi]
  · rintro (h | h | h) <;> exact ⟨_, h⟩

/-- The protocol phase of the recovery goroutine.  It serves a signal until it has
cleared the flag or posted again. -/
def RecoveryPc.phase : RecoveryPc → Doorbell.Phase
  | .idle => .idle
  | .settle | .backoff | .lock | .factory | .unlockFailed | .storeRead | .storeWrite | .unlock
  | .pause | .clear | .failed | .delay | .resend => .serving
  | .dnsTest | .httpTest | .storeRecovery | .resetFailures | .resetTime | .resetGlobal
  | .resetGlobalTime | .drain => .cleared

@[simp] theorem RecoveryPc.phase_idle : RecoveryPc.phase .idle = .idle := rfl

@[simp] theorem RecoveryPc.phase_drain : RecoveryPc.phase .drain = .cleared := rfl

/-- The goroutine has set the flag and its non-blocking send is next. -/
def State.sending (s : State) : Party → Bool
  | .writer => s.writer.pc = .send
  | .reader => s.reader.pc = .send
  | .failure => s.failure.pc = .send

/-- The goroutine has seen the flag clear, and sets it next. -/
def State.storing (s : State) : Party → Bool
  | .writer => s.writer.pc = .storeBroken
  | .reader => s.reader.pc = .storeBroken
  | .failure => s.failure.pc = .storeBroken

def toDoorbell (s : State) : Doorbell.State Party where
  flag := s.connectionBroken
  bell := s.connectionDown
  raised := s.sending
  phase := s.recovery.pc.phase

variable {s t : State}

theorem toDoorbell_congr (hf : t.connectionBroken = s.connectionBroken)
    (hb : t.connectionDown = s.connectionDown) (hs : ∀ i, t.sending i = s.sending i)
    (hp : t.recovery.pc.phase = s.recovery.pc.phase) : toDoorbell t = toDoorbell s :=
  Doorbell.State.ext hf hb (funext hs) hp

/-! ## What one step can do -/

/-- What a step of a goroutine that sets the flag does to the protocol state. -/
inductive Announces (i : Party) (s t : State) : Prop
  | quiet (flag : t.connectionBroken = s.connectionBroken)
      (bell : t.connectionDown = s.connectionDown) (self : t.sending i = s.sending i)
  | raise (before : s.storing i = true) (flag : t.connectionBroken = true)
      (bell : t.connectionDown = s.connectionDown) (self : t.sending i = true)
  | /-- The step posts the signal, or finds the slot taken. -/
    ring (before : s.sending i = true) (flag : t.connectionBroken = s.connectionBroken)
      (bell : t.connectionDown = true) (self : t.sending i = false)

/-- A step of a goroutine that sets the flag, and what it leaves alone. -/
structure PartyStep (i : Party) (s t : State) : Prop where
  announces : Announces i s t
  calm : s.connectionBroken = true → t.storing i = false
  health : t.health = s.health
  recovery : t.recovery = s.recovery
  writer : i ≠ .writer → t.writer = s.writer
  reader : i ≠ .reader → t.reader = s.reader
  failure : i ≠ .failure → t.failure = s.failure

variable {e : Env} {i j : Party}

theorem partyStep (i : Party) (h : next s (i.goroutine, e) = some t) : PartyStep i s t := by
  cases i
  all_goals
    simp only [next, Party.goroutine, stepWriter, stepReader, stepFailure] at h
    (repeat' split at h) <;> cases h
    all_goals
      refine ⟨?_, fun _ ↦ ?_, rfl, rfl, ?_, ?_, ?_⟩
      -- every branch stores, sends or does neither
      · first
        | exact .raise (by simp [State.storing, *]) rfl rfl rfl
        | exact .ring (by simp [State.sending, *]) rfl rfl rfl
        | exact .quiet rfl rfl (by simp [State.sending, *])
      · simp_all [State.storing]
      all_goals simp

theorem PartyStep.other (h : PartyStep i s t) (hj : j ≠ i) :
    t.sending j = s.sending j ∧ t.storing j = s.storing j := by
  cases j with
  | writer => simp only [State.sending, State.storing, h.writer hj.symm, and_self]
  | reader => simp only [State.sending, State.storing, h.reader hj.symm, and_self]
  | failure => simp only [State.sending, State.storing, h.failure hj.symm, and_self]

theorem stepHealth_cases (h : stepHealth e s = some t) :
    (∃ g, t = { s with health := g } ∧ s.health.pc ≠ .send) ∨
      (∃ g, t = { s with health := g, connectionDown := true } ∧ s.health.pc = .send) := by
  cases hpc : s.health.pc with
  | send =>
    simp only [stepHealth, hpc, Option.some.injEq] at h
    exact .inr ⟨_, h.symm, rfl⟩
  | check =>
    simp only [stepHealth, hpc] at h
    split at h <;> exact .inl ⟨_, (Option.some.inj h).symm, by decide⟩
  | _ =>
    simp only [stepHealth, hpc, Option.some.injEq] at h
    exact .inl ⟨_, h.symm, by decide⟩

/-- What a step of the recovery goroutine does to the protocol state. -/
inductive Recovers (s t : State) : Prop
  | quiet (flag : t.connectionBroken = s.connectionBroken)
      (bell : t.connectionDown = s.connectionDown)
      (phase : t.recovery.pc.phase = s.recovery.pc.phase)
  | /-- Recovery takes the signal it waited for. -/
    take (before : s.connectionDown = true) (idle : s.recovery.pc = .idle)
      (flag : t.connectionBroken = s.connectionBroken) (bell : t.connectionDown = false)
      (phase : t.recovery.pc.phase = .serving)
  | /-- Recovery has a new adapter and clears the flag. -/
    clear (before : s.recovery.pc.phase = .serving) (flag : t.connectionBroken = false)
      (bell : t.connectionDown = s.connectionDown) (phase : t.recovery.pc.phase = .cleared)
  | /-- All attempts failed and recovery posts the signal itself. -/
    giveUp (before : s.recovery.pc.phase = .serving)
      (flag : t.connectionBroken = s.connectionBroken) (bell : t.connectionDown = true)
      (phase : t.recovery.pc.phase = .idle)
  | drain (before : s.connectionDown = true) (draining : s.recovery.pc = .drain)
      (flag : t.connectionBroken = s.connectionBroken) (bell : t.connectionDown = false)
      (phase : t.recovery.pc.phase = .cleared)
  | /-- The drain loop finds the channel empty and recovery waits again. -/
    rest (before : s.connectionDown = false) (draining : s.recovery.pc = .drain)
      (flag : t.connectionBroken = s.connectionBroken) (bell : t.connectionDown = false)
      (phase : t.recovery.pc.phase = .idle)

/-- The recovery goroutine's step, and what it leaves alone. -/
theorem stepRecovery_recovers (h : stepRecovery e s = some t) :
    Recovers s t ∧ t.writer = s.writer ∧ t.reader = s.reader ∧ t.health = s.health ∧
      t.failure = s.failure := by
  cases hpc : s.recovery.pc with
  | idle =>
    simp only [stepRecovery, hpc, Option.ite_none_right_eq_some, Option.some.injEq] at h
    obtain ⟨hd, rfl⟩ := h
    exact ⟨.take hd hpc rfl rfl rfl, rfl, rfl, rfl, rfl⟩
  | clear =>
    simp only [stepRecovery, hpc, Option.some.injEq] at h
    subst h
    exact ⟨.clear (by rw [hpc]; rfl) rfl rfl rfl, rfl, rfl, rfl, rfl⟩
  | resend =>
    simp only [stepRecovery, hpc, Option.some.injEq] at h
    subst h
    exact ⟨.giveUp (by rw [hpc]; rfl) rfl rfl rfl, rfl, rfl, rfl, rfl⟩
  | drain =>
    simp only [stepRecovery, hpc] at h
    split_ifs at h with hd
    · cases h
      exact ⟨.drain hd hpc rfl rfl (by rw [hpc]; rfl), rfl, rfl, rfl, rfl⟩
    · cases h
      have hd : s.connectionDown = false := by simpa using hd
      exact ⟨.rest hd hpc rfl hd rfl, rfl, rfl, rfl, rfl⟩
  | _ =>
    simp only [stepRecovery, hpc] at h
    (repeat' split at h) <;> cases h
    all_goals exact ⟨.quiet rfl rfl (by rw [hpc]; rfl), rfl, rfl, rfl, rfl⟩

/-! ## The simulation -/

/-- A step of the tunnel is such a step of the protocol, or leaves its state alone. -/
def Simulated (s t : State) (guard : Doorbell.Act Party → Prop) : Prop :=
  toDoorbell t = toDoorbell s ∨ ∃ b, guard b ∧ Doorbell.next (toDoorbell s) b = some (toDoorbell t)

/-- A step of an announcer is a `raise`, a `ring` or no step of the protocol. -/
theorem PartyStep.simulates (h : PartyStep i s t) : Simulated s t (· ≠ .drain) := by
  have hupd : ∀ v, t.sending i = v → Function.update s.sending i v = t.sending := by
    intro v hv
    funext j
    by_cases hj : j = i
    · subst hj
      rw [Function.update_self, hv]
    · rw [Function.update_of_ne hj, (h.other hj).1]
  have hrec := h.recovery
  cases h.announces with
  | quiet flag bell self =>
    refine .inl (toDoorbell_congr flag bell (fun j ↦ ?_) (by rw [hrec]))
    by_cases hj : j = i
    · exact hj ▸ self
    · exact (h.other hj).1
  | raise _ flag bell self =>
    refine .inr ⟨.raise i, by simp, ?_⟩
    simp only [Doorbell.next, toDoorbell, hupd _ self, flag, bell, hrec]
  | ring before flag bell self =>
    refine .inr ⟨.ring i, by simp, ?_⟩
    simp only [Doorbell.next, toDoorbell, before, if_true, hupd _ self, flag, bell, hrec]

/-- The guard of a run in which no live signal is drained: recovery's drain loop
takes a signal only while the flag is clear, or while a goroutine that has set it
still has its send ahead of it. -/
def DrainsStale (s : State) (a : Goroutine × Env) : Prop :=
  a.1 = .recovery → s.recovery.pc = .drain → s.connectionDown = true →
    s.connectionBroken = true → ∃ i, s.sending i = true

/-- A step of the recovery goroutine is a step of the protocol's handler, and a
drain of a stale signal is a stale drain. -/
theorem Recovers.simulates (h : Recovers s t) (hs : t.sending = s.sending)
    (hg : s.recovery.pc = .drain → s.connectionDown = true →
      s.connectionBroken = true → ∃ i, s.sending i = true) :
    Simulated s t (Doorbell.DrainsStale (toDoorbell s)) := by
  cases h with
  | quiet flag bell phase => exact .inl (toDoorbell_congr flag bell (fun _ ↦ by rw [hs]) phase)
  | take before idle flag bell phase =>
    refine .inr ⟨.take, fun hb ↦ by simp at hb, ?_⟩
    simp [Doorbell.next, toDoorbell, before, idle, flag, bell, phase, hs]
  | clear before flag bell phase =>
    refine .inr ⟨.clear, fun hb ↦ by simp at hb, ?_⟩
    simp [Doorbell.next, toDoorbell, before, flag, bell, phase, hs]
  | giveUp before flag bell phase =>
    refine .inr ⟨.giveUp, fun hb ↦ by simp at hb, ?_⟩
    simp [Doorbell.next, toDoorbell, before, flag, bell, phase, hs]
  | drain before draining flag bell phase =>
    refine .inr ⟨.drain, fun _ hf ↦ hg draining before hf, ?_⟩
    simp [Doorbell.next, toDoorbell, before, draining, flag, bell, phase, hs]
  | rest before draining flag bell phase =>
    refine .inr ⟨.rest, fun hb ↦ by simp at hb, ?_⟩
    simp [Doorbell.next, toDoorbell, before, draining, flag, bell, phase, hs]

/-- Every guarded step of the tunnel is a guarded step of the protocol, or leaves
its state alone. -/
theorem step_simulates {a : Goroutine × Env} (hg : DrainsStale s a) (h : next s a = some t) :
    Simulated s t (Doorbell.DrainsStale (toDoorbell s)) := by
  obtain ⟨g, e⟩ := a
  have lift : Simulated s t (· ≠ .drain) → Simulated s t (Doorbell.DrainsStale (toDoorbell s)) :=
    Or.imp_right fun ⟨b, hb, hn⟩ ↦ ⟨b, fun hd ↦ absurd hd hb, hn⟩
  cases g with
  | writer => exact lift (partyStep .writer h).simulates
  | reader => exact lift (partyStep .reader h).simulates
  | failure => exact lift (partyStep .failure h).simulates
  | health =>
    rcases stepHealth_cases h with ⟨g, rfl, -⟩ | ⟨g, rfl, -⟩
    · exact .inl (toDoorbell_congr rfl rfl (fun j ↦ by cases j <;> rfl) rfl)
    · refine lift (.inr ⟨.knock, by simp, ?_⟩)
      simp only [Doorbell.next, toDoorbell, Option.some.injEq]
      exact Doorbell.State.ext rfl rfl (funext fun j ↦ by cases j <;> rfl) rfl
  | recovery =>
    obtain ⟨hrec, hw, hr, -, hf⟩ := stepRecovery_recovers h
    refine hrec.simulates (funext fun j ↦ ?_) (hg rfl)
    cases j <;> simp [State.sending, hw, hr, hf]

theorem doorbell_of_reach (h : machine.Reach DrainsStale s) :
    Doorbell.machine.Reach Doorbell.DrainsStale (toDoorbell s) := by
  refine h.simulate (H := Doorbell.DrainsStale) toDoorbell ?_ fun _ _ _ ↦ step_simulates
  rintro _ ⟨_, _, _, _, rfl⟩
  exact Doorbell.State.ext rfl rfl (funext fun i ↦ by cases i <;> rfl) rfl

/-! ## The guarantee, and the run that breaks it -/

/-- A broken connection is noticed: the channel holds a signal, or a goroutine that
set the flag has not yet executed its send, or recovery is not idle. -/
def Noticed (s : State) : Prop :=
  s.connectionBroken = true →
    s.connectionDown = true ∨ (∃ i, s.sending i = true) ∨ s.recovery.pc ≠ .idle

/-- In every run whose drain loop takes no signal while the flag is set and nobody
is about to send, a broken connection is noticed in every state. -/
theorem noticed_of_reach {s : State} (h : machine.Reach DrainsStale s) : Noticed s := by
  intro hb
  rcases Doorbell.heard_of_reach (doorbell_of_reach h) hb with hbell | hr | hp
  · exact .inl hbell
  · exact .inr (.inl hr)
  · refine .inr (.inr fun hidle ↦ ?_)
    simp [toDoorbell, hidle] at hp

/-- A connection error as the adapter reports it. -/
def brokenPipe : Env := ⟨0, .error (str "write: broken pipe")⟩

def succeeds : Env := ⟨0, .ok 1⟩

/-- The write forwarder reads a packet and fails to write it, up to its check of the
error count. -/
def failedWrite : List (Goroutine × Env) :=
  [(.writer, succeeds), (.writer, succeeds), (.writer, succeeds), (.writer, brokenPipe),
    (.writer, succeeds), (.writer, succeeds), (.writer, succeeds)]

/-- Three failed writes in a row: the flag is set and the signal posted. -/
def breakConnection : List (Goroutine × Env) :=
  failedWrite ++ failedWrite ++ failedWrite ++ [(.writer, succeeds), (.writer, succeeds)]

/-- Recovery takes the signal, gets a new adapter on the first attempt and clears
the flag. -/
def reconnect : List (Goroutine × Env) := List.replicate 10 (.recovery, succeeds)

/-- The connectivity test ends, the counters are reset, the drain loop takes one
signal and then finds the channel empty. -/
def finishRecovery : List (Goroutine × Env) := List.replicate 8 (.recovery, succeeds)

instance (s : State) (a : Goroutine × Env) : Decidable (DrainsStale s a) :=
  decidable_of_iff (a.1 = .recovery → s.recovery.pc = .drain → s.connectionDown = true →
    s.connectionBroken = true →
      s.sending .writer = true ∨ s.sending .reader = true ∨ s.sending .failure = true) <| by
    simp only [DrainsStale, Party.exists_iff]

/-- The health monitor loads its values from the broken connection and finds the flag
cleared, one more write fails and sets the flag, and the drain loop takes the signal of
the health monitor while that of the write forwarder is still to come. -/
def drainedInTime : List (Goroutine × Env) :=
  breakConnection ++ List.replicate 5 (.health, ⟨1000, .ok 1⟩) ++ reconnect ++
    List.replicate 2 (.health, succeeds) ++ failedWrite ++ [(.writer, succeeds)] ++ finishRecovery

theorem noticed_after_drain : ∃ s, machine.Reach DrainsStale s ∧ s.recovery.pc = .idle ∧
    s.connectionDown = false ∧ s.connectionBroken = true ∧ Noticed s := by
  have hr : machine.Reach DrainsStale (start 0 0 0 0) := .start ⟨0, 0, 0, 0, rfl⟩
  have hrun : machine.guardedRun DrainsStale (start 0 0 0 0) drainedInTime = some _ := rfl
  have hs := hr.of_guardedRun hrun
  exact ⟨_, hs, rfl, rfl, rfl, noticed_of_reach hs⟩

/-- The connection breaks, recovery replaces the adapter, one more write fails
while recovery tests connectivity, and recovery drains the new signal. -/
def lostSignal : List (Goroutine × Env) :=
  breakConnection ++ reconnect ++ failedWrite ++ [(.writer, succeeds), (.writer, succeeds)] ++
    finishRecovery

/-- The tunnel is wedged: the flag is set, nothing announces it, recovery waits, and
no goroutine is between its test of the flag and its send. -/
structure Wedged (s : State) : Prop where
  broken : s.connectionBroken = true
  silent : s.connectionDown = false
  idle : s.recovery.pc = .idle
  writer : s.writer.pc ≠ .storeBroken ∧ s.writer.pc ≠ .send
  reader : s.reader.pc ≠ .storeBroken ∧ s.reader.pc ≠ .send
  failure : s.failure.pc ≠ .storeBroken ∧ s.failure.pc ≠ .send
  health : s.health.pc ≠ .send

theorem Wedged.not_noticed (h : Wedged s) : ¬ Noticed s := by
  intro hn
  rcases hn h.broken with hd | ⟨i, hi⟩ | hp
  · simp [h.silent] at hd
  · cases i <;> simp [State.sending, h.writer, h.reader, h.failure] at hi
  · exact hp h.idle

/-- The run `lostSignal` wedges the tunnel. -/
theorem wedged_of_lostSignal : ∃ s, machine.Reachable s ∧ Wedged s := by
  have hr : machine.Reachable (start 0 0 0 0) := .start ⟨0, 0, 0, 0, rfl⟩
  obtain ⟨s, hs, hw⟩ : ∃ s, machine.run (start 0 0 0 0) lostSignal = some s ∧ Wedged s :=
    ⟨_, rfl, rfl, rfl, rfl, by decide, by decide, by decide, by decide⟩
  exact ⟨s, hr.of_run (fun _ _ _ ↦ trivial) hs, hw⟩

/-- Some interleaving leaves the flag set with no signal posted, nobody about to post
one and recovery waiting. -/
theorem drain_loses_signal : ¬ ∀ s, machine.Reachable s → Noticed s := by
  intro h
  obtain ⟨s, hr, hw⟩ := wedged_of_lostSignal
  exact hw.not_noticed (h s hr)

/-! ## A wedged tunnel stays wedged -/

/-- While the flag is set, a goroutine that would set it does not get past its check of it. -/
theorem Wedged.party (h : Wedged s) (hn : next s (i.goroutine, e) = some t) : Wedged t := by
  have hstep := partyStep i hn
  have hs (j : Party) : s.sending j = false ∧ s.storing j = false := by
    cases j <;> simp [State.sending, State.storing, h.writer, h.reader, h.failure]
  cases hstep.announces with
  | raise before => cases before.symm.trans (hs i).2
  | ring before => cases before.symm.trans (hs i).1
  | quiet flag bell self =>
    have ht (j : Party) : t.sending j = false ∧ t.storing j = false := by
      by_cases hj : j = i
      · subst hj
        exact ⟨self.trans (hs j).1, hstep.calm h.broken⟩
      · rw [(hstep.other hj).1, (hstep.other hj).2]
        exact hs j
    refine ⟨flag.trans h.broken, bell.trans h.silent, hstep.recovery ▸ h.idle, ?_, ?_, ?_,
      hstep.health ▸ h.health⟩
    · simpa [State.sending, State.storing, and_comm] using ht .writer
    · simpa [State.sending, State.storing, and_comm] using ht .reader
    · simpa [State.sending, State.storing, and_comm] using ht .failure

/-- Nothing a goroutine does un-wedges the tunnel: the forwarders only sleep, both
monitors act only on a clear flag, and recovery waits for a signal nobody posts. -/
theorem Wedged.step {a : Goroutine × Env} (h : Wedged s) (hn : next s a = some t) : Wedged t := by
  obtain ⟨g, e⟩ := a
  cases g with
  | writer => exact h.party (i := .writer) hn
  | reader => exact h.party (i := .reader) hn
  | failure => exact h.party (i := .failure) hn
  | health =>
    obtain ⟨hb, hd, hi, hw, hr, hf, hh⟩ := h
    cases hc : s.health.pc with
    | send => exact absurd hc hh
    | check =>
      simp only [next, stepHealth, hc, hb, not_true_eq_false, false_and, if_false,
        Option.some.injEq] at hn
      subst hn
      exact ⟨rfl, hd, hi, hw, hr, hf, by simp⟩
    | _ =>
      simp only [next, stepHealth, hc, Option.some.injEq] at hn
      subst hn
      exact ⟨hb, hd, hi, hw, hr, hf, by simp⟩
  | recovery => simp [next, stepRecovery, h.idle, h.silent] at hn

theorem wedged_of_run (h : Wedged s) {as : List (Goroutine × Env)}
    (hr : machine.run s as = some t) : Wedged t :=
  Machine.run_invariant (fun _ _ _ ↦ Wedged.step) hr h

theorem wedged_after_lostSignal :
    ∃ s, machine.Reachable s ∧ ∀ as t, machine.run s as = some t → Wedged t := by
  obtain ⟨s, hs, hwedged⟩ := wedged_of_lostSignal
  exact ⟨s, hs, fun _ _ hr ↦ wedged_of_run hwedged hr⟩

end Vwarp.App.MasqueTunnel
