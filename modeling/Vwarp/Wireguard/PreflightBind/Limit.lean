import Vwarp.Wireguard.PreflightBind.Transcript

/-!
# The rate limit of preflights, and that `Send` is transparent

A call reads the clock before it takes the lock, so calls can take the lock in another
order than they read the clock.  The limit holds all the same: while the interval is not
negative, what is recorded for a destination never goes back, and every preflight that was
started was started at or before it (`Spaced.recorded`).

`work` counts the steps that are left.  Every step decreases it, so every run ends, and a
run that cannot go on has ended every call or has ended in a panic.
-/

namespace Vwarp.Wireguard.PreflightBind

open Vwarp.Go Vwarp.Lib

variable {ε : Type} {b : Bind ε} {reqs : List (List Bytes × ε)} {s t : State ε} {a : Label}
  {i : Nat} {c : Call ε}

/-! ## Spacing -/

/-- A call is there only if its buffers contain an initiation. -/
def Pc.initiating : Pc → Prop
  | .clocked _ | .preflight _ => True
  | _ => False

/-- The buffers of request `i` contain a handshake initiation. -/
def Initiates (reqs : List (List Bytes × ε)) (i : Nat) : Prop :=
  ∃ r, reqs[i]? = some r ∧ r.1.any handshakeInitiation = true

/-- Two preflights for one destination are at least the interval apart. -/
def Apart (b : Bind ε) (p q : Start) : Prop :=
  p.dst = q.dst → b.interval.toInt ≤ ((q.now : Int) - p.now).natAbs

/-- What holds of the preflights in every reachable state. -/
structure Spaced (b : Bind ε) (reqs : List (List Bytes × ε)) (s : State ε) : Prop where
  /-- Only a call with an initiation gets to the lock. -/
  initiating : ∀ (i : Nat) (c : Call ε), s.calls[i]? = some c → c.pc.initiating → c.initiates = true
  /-- A preflight belongs to a request with an initiation, and is for its destination. -/
  started : ∀ p ∈ s.started, ∃ r, reqs[p.call]? = some r ∧
    r.1.any handshakeInitiation = true ∧ p.dst = b.dstIP r.2
  /-- What is recorded is not before any preflight for the destination. -/
  recorded : 0 ≤ b.interval.toInt → ∀ p ∈ s.started,
    ∃ last, s.lastSent p.dst = some last ∧ p.now ≤ last
  apart : s.started.Pairwise (Apart b)
  /-- A packet of a preflight belongs to a call that has started one. -/
  preflight : ∀ e ∈ s.sent, e.kind.preflight → s.Started e.call

theorem State.permits_iff {dst : Addr} {now : Nat} :
    s.permits b dst now ↔ s.lastSent dst = none ∨
      ∃ last, s.lastSent dst = some last ∧ b.interval.toInt ≤ (now : Int) - last := by
  unfold State.permits
  cases s.lastSent dst with
  | none => simp
  | some last => simp

theorem State.le_sub_of_permits {dst : Addr} {now last : Nat} (h : s.permits b dst now)
    (hlast : s.lastSent dst = some last) : b.interval.toInt ≤ (now : Int) - last := by
  rw [State.permits, hlast] at h
  exact not_lt.mp h

namespace Spaced

theorem goto (h : Spaced b reqs s) (hc : s.calls[i]? = some c) (pc : Pc)
    (hpc : pc.initiating → c.initiates = true) : Spaced b reqs (s.setPc i c pc) where
  initiating j d hd hdpc := by
    rw [s.get_setPc hc] at hd
    split at hd
    · cases hd
      exact hpc hdpc
    · exact h.initiating j d hd hdpc
  started := h.started
  recorded := h.recorded
  apart := h.apart
  preflight := h.preflight

theorem apart_of_permits (h : Spaced b reqs s) {q : Start} (hq : s.permits b q.dst q.now)
    {p : Start} (hp : p ∈ s.started) : Apart b p q := by
  intro hdst
  by_cases hinterval : 0 ≤ b.interval.toInt
  · obtain ⟨last, hlast, hle⟩ := h.recorded hinterval p hp
    have hspace := State.le_sub_of_permits hq (hdst ▸ hlast)
    omega
  · omega

theorem permit (h : Spaced b reqs s) (hreqs : s.calls.map Call.request = reqs)
    (hc : s.calls[i]? = some c) {now : Nat} (hpc : c.pc = .clocked now)
    (hpermits : s.permits b (b.dstIP c.ep) now) :
    Spaced b reqs
      { s.setPc i c (.preflight b.preflightActs) with
        lastSent := Function.update s.lastSent (b.dstIP c.ep) (some now)
        started := s.started ++ [⟨i, b.dstIP c.ep, now⟩] } := by
  have hinit : c.initiates = true := by
    apply h.initiating i c hc
    rw [hpc]
    trivial
  refine ⟨(h.goto hc _ fun _ ↦ hinit).initiating, ?_, ?_, ?_, ?_⟩
  · refine forall_mem_concat.mpr ⟨h.started, c.request, ?_, hinit, rfl⟩
    rw [← hreqs, List.getElem?_map, hc]
    rfl
  · intro hinterval p hp
    dsimp only
    by_cases hdst : p.dst = b.dstIP c.ep
    · rw [hdst, Function.update_self]
      refine ⟨now, rfl, ?_⟩
      rcases mem_concat.mp hp with hp | rfl
      · obtain ⟨last, hlast, hle⟩ := h.recorded hinterval p hp
        have hspace := State.le_sub_of_permits hpermits (hdst ▸ hlast)
        omega
      · rfl
    · rw [Function.update_of_ne hdst]
      rcases mem_concat.mp hp with hp | rfl
      · exact h.recorded hinterval p hp
      · exact absurd rfl hdst
  · refine List.pairwise_append.mpr ⟨h.apart, List.pairwise_singleton _ _, ?_⟩
    intro p hp q hq
    rw [List.mem_singleton.mp hq]
    exact h.apart_of_permits hpermits hp
  · intro e he hkind
    obtain ⟨p, hp, hcall⟩ := h.preflight e he hkind
    exact ⟨p, List.mem_append_left _ hp, hcall⟩

theorem preflight_append (h : Spaced b reqs s) {e : Sent ε}
    (hstarted : e.kind.preflight → s.Started e.call) :
    ∀ e' ∈ s.sent ++ [e], e'.kind.preflight → s.Started e'.call :=
  forall_mem_concat.mpr ⟨h.preflight, hstarted⟩

theorem step (h : Spaced b reqs s) (htold : Told b reqs s) (hstep : Step b s a t) :
    Spaced b reqs t := by
  cases hstep with
  | clock hc hpc hinit _ => exact { h.goto hc (.clocked _) fun _ ↦ hinit with }
  | pass hc _ _ | refuse hc _ _ | done hc _ | quiet hc _ _ => exact h.goto hc _ False.elim
  | permit hc hpc hpermits => exact h.permit htold.requests hc hpc hpermits
  | skip hc hpc hrun =>
    refine h.goto hc _ fun _ ↦ h.initiating _ _ hc ?_
    rw [hpc]
    trivial
  | @send i draws err c act todo packet hc hpc hrun =>
    have hinit := h.initiating i c hc (by rw [hpc]; trivial)
    have hgoto := h.goto hc (.preflight todo) fun _ ↦ hinit
    obtain ⟨hstarted, -⟩ := htold.phase_at hc hpc
    exact { hgoto with preflight := h.preflight_append fun _ ↦ hstarted }
  | spawn hc hpc _ => exact { h.goto hc .own False.elim with }
  | @own i err c hc hpc =>
    have hgoto := h.goto hc (.returned err) False.elim
    exact { hgoto with preflight := h.preflight_append False.elim }
  | crash _ _ _ | junkCrash _ _ _ => exact { h with }
  | junk hg hrem hrun => exact { h with preflight := h.preflight_append False.elim }

theorem start (h : (machine b reqs).start s) : Spaced b reqs s := by
  obtain ⟨hcalls, -, hsent, hstarted, -⟩ := h
  refine ⟨?_, by simp [hstarted], by simp [hstarted], by simp [hstarted], by simp [hsent]⟩
  intro i c hc hpc
  rw [hcalls, List.getElem?_map] at hc
  obtain ⟨r, -, rfl⟩ := Option.map_eq_some_iff.mp hc
  exact hpc.elim

end Spaced

theorem spaced_of_reach (h : (machine b reqs).Reachable s) : Spaced b reqs s := by
  have hboth : Told b reqs s ∧ Spaced b reqs s := by
    refine Machine.Reach.invariant (I := fun s ↦ Told b reqs s ∧ Spaced b reqs s)
      (fun s hs ↦ ⟨Told.start hs, Spaced.start hs⟩) ?_ h
    rintro s a t ⟨htold, hspaced⟩ - hnext
    have hstep := (step_of_next hnext).2
    exact ⟨htold.step hstep, hspaced.step htold hstep⟩
  exact hboth.2

/-! ## The work that is left -/

/-- The number of packets that a goroutine sends. -/
def Bind.junkBound (b : Bind ε) : Nat :=
  match b.config with
  | none => 0
  | some config => (config.jc - config.jcBeforeHS).toNatClampNeg

/-- The steps that are left to a call and to the goroutine it may start. -/
def Pc.work (b : Bind ε) : Pc → Nat
  | .start => 5 + b.junkBound + b.preflightActs.length
  | .clocked _ => 4 + b.junkBound + b.preflightActs.length
  | .preflight todo => 3 + b.junkBound + todo.length
  | .post => 2 + b.junkBound
  | .own => 1
  | .returned _ => 0

def callsWork (b : Bind ε) (calls : List (Call ε)) : Nat := tally (·.pc.work b) calls

def State.work (b : Bind ε) (s : State ε) : Nat :=
  if s.crashed then 0 else 1 + callsWork b s.calls + tally (·.remaining) s.junkers

/-- What is known if a goroutine is started. -/
theorem State.remainingJunk_eq_some {remaining : Nat} (h : s.remainingJunk b c = some remaining) :
    ∃ config, b.config = some config ∧
      remaining = (config.jc - config.jcBeforeHS).toNatClampNeg ∧
      ¬ (config.jc - config.jcBeforeHS ≤ 0 ∨ s.postHandshakeSent (b.dstIP c.ep) = true) := by
  unfold State.remainingJunk at h
  cases hconfig : b.config with
  | none =>
    rw [hconfig] at h
    cases h
  | some config =>
    rw [hconfig] at h
    dsimp only at h
    (repeat' split at h) <;> cases h
    exact ⟨config, rfl, rfl, not_or.mpr ⟨‹_›, ‹_›⟩⟩

theorem State.work_setPc (hcrashed : s.crashed = false) (hc : s.calls[i]? = some c) (pc : Pc) :
    (s.setPc i c pc).work b + c.pc.work b = s.work b + pc.work b := by
  have hsum : callsWork b (s.calls.set i { c with pc := pc }) + c.pc.work b =
      callsWork b s.calls + pc.work b := tally_set hc _
  simp only [State.work, State.setPc, hcrashed, Bool.false_eq_true, if_false]
  omega

theorem Step.work_lt (hcrashed : s.crashed = false) (h : Step b s a t) : t.work b < s.work b := by
  -- a step that only moves a call on
  have hmove {i : Nat} {c : Call ε} {pc p : Pc} (hc : s.calls[i]? = some c) (hpc : c.pc = pc)
      (hlt : p.work b < pc.work b) : (s.setPc i c p).work b < s.work b := by
    have hsum := State.work_setPc (b := b) hcrashed hc p
    rw [hpc] at hsum
    omega
  cases h with
  | @clock i now c hc hpc _ _ =>
    refine hmove (p := .clocked now) hc hpc ?_
    simp only [Pc.work]
    omega
  | permit hc hpc _ =>
    refine hmove (p := .preflight b.preflightActs) hc hpc ?_
    simp only [Pc.work]
    omega
  | pass hc hpc _ | refuse hc hpc _ | done hc hpc | quiet hc hpc _ | skip hc hpc _ =>
    refine hmove hc hpc ?_
    simp only [Pc.work, List.length_cons]
    omega
  | @send i draws err c act todo packet hc hpc hrun =>
    refine hmove (p := .preflight todo) hc hpc ?_
    simp only [Pc.work, List.length_cons]
    omega
  | @spawn i c remaining hc hpc hremaining =>
    have hsum := State.work_setPc (b := b) hcrashed hc .own
    obtain ⟨config, hconfig, rfl, -⟩ := State.remainingJunk_eq_some hremaining
    simp only [State.work, State.setPc, hcrashed, Bool.false_eq_true, if_false, hpc, Pc.work,
      Bind.junkBound, hconfig, tally_concat] at hsum ⊢
    omega
  | @own i err c hc hpc =>
    refine hmove (p := .returned err) hc hpc ?_
    simp only [Pc.work]
    omega
  | crash _ _ _ | junkCrash _ _ _ =>
    simp only [State.work, hcrashed, Bool.false_eq_true, if_true, if_false]
    omega
  | @junk k remaining draws err g junkPacket hg hrem hrun =>
    have hsum := tally_set (f := (·.remaining)) hg { g with remaining := remaining }
    simp only [State.work, hcrashed, Bool.false_eq_true, if_false, hrem] at hsum ⊢
    omega

theorem exists_step (hc : s.calls[i]? = some c) (hpc : ∀ err, c.pc ≠ .returned err) :
    ∃ a t, Step b s a t := by
  cases h : c.pc with
  | start =>
    cases hinit : c.initiates with
    | false => exact ⟨.scan i 0, _, .pass hc h hinit⟩
    | true => exact ⟨_, _, .clock hc h hinit (Nat.le_refl s.clock)⟩
  | clocked now =>
    by_cases hpermits : s.permits b (b.dstIP c.ep) now
    · exact ⟨_, _, .permit hc h hpermits⟩
    · exact ⟨_, _, .refuse hc h hpermits⟩
  | preflight todo =>
    cases todo with
    | nil => exact ⟨_, _, .done hc h⟩
    | cons act todo =>
      cases hrun : (b.packet act).run [] with
      | none => exact ⟨.act i [] none, _, .crash hc h hrun⟩
      | some packet =>
        cases packet with
        | none => exact ⟨.act i [] none, _, .skip hc h hrun⟩
        | some packet => exact ⟨.act i [] none, _, .send hc h hrun⟩
  | post =>
    cases hjunk : s.remainingJunk b c with
    | none => exact ⟨_, _, .quiet hc h hjunk⟩
    | some remaining => exact ⟨_, _, .spawn hc h hjunk⟩
  | own => exact ⟨.own i none, _, .own hc h⟩
  | returned err => exact absurd h (hpc err)

/-- Where a process crashes: at a packet of a preflight or of a goroutine. -/
theorem crash_cases (h : (machine b reqs).Reachable s) (hcrashed : s.crashed = true) :
    ∃ s₀, (machine b reqs).Reachable s₀ ∧
      ((∃ (i : Nat) (c : Call ε) (act : Act) (todo : List Act) (draws : List (Option Nat)),
          s₀.calls[i]? = some c ∧ c.pc = .preflight (act :: todo) ∧
          (b.packet act).run draws = none) ∨
        ∃ (k : Nat) (g : Junker ε) (draws : List (Option Nat)), s₀.junkers[k]? = some g ∧
          (generateJunkPacket (b.config.getD default)).run draws = none) := by
  cases h with
  | start hs =>
    obtain ⟨-, -, -, -, hfalse⟩ := hs
    cases hfalse.symm.trans hcrashed
  | @step s₀ _ a hreach _ hnext =>
    obtain ⟨hfalse, hstep⟩ := step_of_next hnext
    have hno : s₀.crashed ≠ true := Bool.eq_false_iff.mp hfalse
    refine ⟨s₀, hreach, ?_⟩
    cases hstep with
    | crash hc hpc hrun => exact .inl ⟨_, _, _, _, _, hc, hpc, hrun⟩
    | junkCrash hg hrem hrun => exact .inr ⟨_, _, _, hg, hrun⟩
    | _ => exact absurd hcrashed hno

theorem junk_fault_of_crashed (h : (machine b reqs).Reachable s) (hcrashed : s.crashed = true) :
    ∃ draws, (generateJunkPacket (b.config.getD default)).run draws = none := by
  obtain ⟨s₀, -, ⟨i, c, act, todo, draws, -, -, hrun⟩ | ⟨k, g, draws, -, hrun⟩⟩ :=
    crash_cases h hcrashed
  · exact (packet_fault hrun).2
  · exact ⟨draws, hrun⟩

/-! ## Rate limit and transparency -/

/-- Where the buffers of a call are in its transcript: once and after the packets of the
preflight if it has returned, with the error it has returned, and nowhere before that. -/
def Handed (i : Nat) (c : Call ε) (told : List (Sent ε)) : Prop :=
  match c.pc with
  | .returned err => ∃ before after, told = before ++ ⟨i, .own, c.bufs, c.ep, err⟩ :: after ∧
      (∀ e ∈ before, e.kind ≠ .own) ∧ ∀ e ∈ after, e.kind = .afterJunk
  | _ => ∀ e ∈ told, e.kind ≠ .own

theorem Kind.preflight.ne_own {k : Kind} (h : k.preflight) : k ≠ .own := by
  rintro rfl
  exact h

theorem Phase.handed {started : Prop} {told : List (Sent ε)} (h : Phase b i c started told) :
    Handed i c told := by
  have hother {before junk : List (Sent ε)} (hbefore : ∀ e ∈ before, e.kind.preflight)
      (hjunk : ∀ e ∈ junk, e.kind = .afterJunk) : ∀ e ∈ before ++ junk, e.kind ≠ .own := by
    refine List.forall_mem_append.mpr ⟨fun e he ↦ (hbefore e he).ne_own, fun e he hown ↦ ?_⟩
    rw [hjunk e he] at hown
    cases hown
  obtain ⟨bufs, ep, pc⟩ := c
  cases pc with
  | start | clocked now =>
    obtain ⟨-, rfl⟩ := h
    exact fun e he ↦ absurd he List.not_mem_nil
  | preflight todo =>
    obtain ⟨-, acts, -, hreal⟩ := h
    exact fun e he ↦ (hreal.preflight e he).ne_own
  | post => exact fun e he ↦ (Preflighted.preflight h e he).ne_own
  | own =>
    obtain ⟨before, after, rfl, hbefore, hjunk⟩ := h
    exact hother hbefore.preflight hjunk
  | returned err =>
    obtain ⟨before, early, late, rfl, hbefore, hearly, hlate⟩ := h
    exact ⟨before ++ early, late, rfl, hother hbefore.preflight hearly, hlate⟩

/-- The rate limit and the transparency of `Send`, in a state and for the steps from it. -/
structure Limited (b : Bind ε) (reqs : List (List Bytes × ε)) (s : State ε) : Prop where
  /-- Two preflights for one destination have clock readings at least the interval apart. -/
  apart : s.started.Pairwise (Apart b)
  /-- The packets of a preflight are handed over only because of a call that started one. -/
  preflight : ∀ e ∈ s.sent, e.kind.preflight → s.Started e.call
  /-- A call that started a preflight has handed over what the configuration asks for when it
  comes to its buffers. -/
  preflighted : ∀ (i : Nat) (c : Call ε) (config : AtomicNoizeConfig), b.config = some config →
    s.calls[i]? = some c → c.pc.leaving → s.Started i → ∃ before after,
      transcript s.sent i = before ++ after ∧ Preflight config b.payload i c.ep before
  /-- A call without an initiation starts no preflight and hands over no packet of one. -/
  silent : ∀ i, ¬ Initiates reqs i → ¬ s.Started i ∧ ∀ e ∈ s.sent, e.call = i →
    ¬ e.kind.preflight
  /-- What is recorded changes only where a call with an initiation holds the lock. -/
  recorded : ∀ a t, s.next b a = some t → t.lastSent ≠ s.lastSent →
    ∃ i, a = .lock i ∧ Initiates reqs i
  /-- A call that takes the lock with the reading `now` starts a preflight if and only if
  nothing is recorded for the destination or the interval has passed since; and it is
  recorded just then. -/
  decides : ∀ i t, s.next b (.lock i) = some t → ∃ (c : Call ε) (now : Nat),
    s.calls[i]? = some c ∧ c.pc = .clocked now ∧
    (t.Started i ↔ s.lastSent (b.dstIP c.ep) = none ∨
      ∃ last, s.lastSent (b.dstIP c.ep) = some last ∧ b.interval.toInt ≤ (now : Int) - last) ∧
    (t.Started i → t.started = s.started ++ [⟨i, b.dstIP c.ep, now⟩] ∧
      t.lastSent = Function.update s.lastSent (b.dstIP c.ep) (some now)) ∧
    (¬ t.Started i → t.started = s.started ∧ t.lastSent = s.lastSent)
  /-- A call with an initiation decides under the lock. -/
  decided : ∀ (a : Label) (t : State ε) (i : Nat) (c d : Call ε), s.next b a = some t →
    s.calls[i]? = some c → t.calls[i]? = some d → Initiates reqs i → c.pc.undecided →
    d.pc.undecided ∨ a = .lock i
  /-- The buffers of each call are handed over as they are and as often as they should. -/
  handed : ∀ (i : Nat) (c : Call ε), s.calls[i]? = some c →
    reqs[i]? = some (c.bufs, c.ep) ∧ Handed i c (transcript s.sent i)
  /-- No run goes on for ever. -/
  ends : ∃ n, ∀ as t, (machine b reqs).run s as = some t → as.length ≤ n
  /-- A run that cannot go on has ended every call, or a junk packet has panicked. -/
  returns : (machine b reqs).Halted s → (∀ c ∈ s.calls, ∃ err, c.pc = .returned err) ∨
    s.crashed = true ∧ ∃ draws, (generateJunkPacket (b.config.getD default)).run draws = none

/-- The transcript of a call that is leaving begins with its preflight. -/
theorem Phase.preflighted {started : Prop} {told : List (Sent ε)} (h : Phase b i c started told)
    (hpc : c.pc.leaving) :
    ∃ before after, told = before ++ after ∧ Preflighted b i c.ep started before := by
  obtain ⟨bufs, ep, pc⟩ := c
  cases pc with
  | own =>
    obtain ⟨before, after, htold, hbefore, -⟩ := h
    exact ⟨before, after, htold, hbefore⟩
  | returned err =>
    obtain ⟨before, early, late, htold, hbefore, -⟩ := h
    exact ⟨before, _, htold.trans (List.append_assoc ..), hbefore⟩
  | _ => exact hpc.elim

theorem Told.request (h : Told b reqs s) (hc : s.calls[i]? = some c) :
    reqs[i]? = some (c.bufs, c.ep) := by
  rw [← h.requests, List.getElem?_map, hc]
  rfl

theorem Told.initiates_iff (h : Told b reqs s) (hc : s.calls[i]? = some c) :
    Initiates reqs i ↔ c.initiates = true := by
  constructor
  · rintro ⟨r, hr, hinit⟩
    rw [h.request hc] at hr
    cases hr
    exact hinit
  · intro hinit
    exact ⟨_, h.request hc, hinit⟩

theorem Step.lastSent_eq (h : Step b s a t) (hne : t.lastSent ≠ s.lastSent) :
    ∃ (i now : Nat) (c : Call ε), a = .lock i ∧ s.calls[i]? = some c ∧ c.pc = .clocked now := by
  cases h with
  | permit hc hpc _ => exact ⟨_, _, _, rfl, hc, hpc⟩
  | _ => exact absurd rfl hne

/-- A call that has an initiation and has not decided only moves on to the lock. -/
theorem Step.undecided (h : Step b s a t) {d : Call ε} (hc : s.calls[i]? = some c)
    (hd : t.calls[i]? = some d) (hinit : c.initiates = true) (hpc : c.pc.undecided) :
    d.pc.undecided ∨ a = .lock i := by
  -- the call that moves is `i` or another one
  have hmove {j : Nat} {e : Call ε} {pc : Pc} (he : s.calls[j]? = some e)
      (hd : (s.setPc j e pc).calls[i]? = some d) :
      i = j ∧ c = e ∧ d.pc = pc ∨ d.pc.undecided := by
    rw [s.get_setPc he] at hd
    split_ifs at hd with hij
    · subst hij
      cases hc.symm.trans he
      cases hd
      exact .inl ⟨rfl, rfl, rfl⟩
    · cases hc.symm.trans hd
      exact .inr hpc
  cases h with
  | clock he hepc _ _ =>
    rcases hmove he hd with ⟨-, -, hdpc⟩ | hdpc
    · rw [hdpc]
      exact .inl trivial
    · exact .inl hdpc
  | pass he hepc hno =>
    rcases hmove he hd with ⟨-, rfl, -⟩ | hdpc
    · cases hinit.symm.trans hno
    · exact .inl hdpc
  | permit he _ _ | refuse he _ _ =>
    rcases hmove he hd with ⟨rfl, -, -⟩ | hdpc
    · exact .inr rfl
    · exact .inl hdpc
  | skip he hepc _ | send he hepc _ | done he hepc | quiet he hepc _
  | spawn he hepc _ | own he hepc =>
    rcases hmove he hd with ⟨-, rfl, -⟩ | hdpc
    · rw [hepc] at hpc
      exact hpc.elim
    · exact .inl hdpc
  | crash _ _ _ | junkCrash _ _ _ | junk _ _ _ =>
    cases hc.symm.trans hd
    exact .inl hpc

/-- Preflights are limited per destination under every schedule of concurrent calls, and
`Send` hands over the buffers of each call once, unchanged and after its own preflight. -/
theorem send_limited (h : (machine b reqs).Reachable s) : Limited b reqs s := by
  have htold := told_of_reach h
  have hspaced := spaced_of_reach h
  have hwork : ∀ s a t, (machine b reqs).next s a = some t → t.work b < s.work b := by
    intro s a t hnext
    obtain ⟨hcrashed, hstep⟩ := step_of_next hnext
    exact hstep.work_lt hcrashed
  have hsilent : ∀ i, ¬ Initiates reqs i → ¬ s.Started i := by
    rintro i hno ⟨p, hp, rfl⟩
    obtain ⟨r, hr, hinit, -⟩ := hspaced.started p hp
    exact hno ⟨r, hr, hinit⟩
  exact {
    apart := hspaced.apart
    preflight := hspaced.preflight
    preflighted := fun i c config hconfig hc hleaving hstarted ↦ by
      obtain ⟨before, after, htold, hbefore⟩ := (htold.phase i c hc).preflighted hleaving
      exact ⟨before, after, htold, (hbefore.resolve_right fun hno ↦ hno.1 hstarted).2.asked hconfig⟩
    silent := fun i hno ↦ by
      refine ⟨hsilent i hno, ?_⟩
      rintro e he rfl hkind
      exact hsilent e.call hno (hspaced.preflight e he hkind)
    recorded := fun a t hnext hne ↦ by
      obtain ⟨i, now, c, rfl, hc, hpc⟩ := (step_of_next hnext).2.lastSent_eq hne
      refine ⟨i, rfl, (htold.initiates_iff hc).mpr (hspaced.initiating i c hc ?_)⟩
      rw [hpc]
      trivial
    decides := fun i t hnext ↦ by
      cases (step_of_next hnext).2 with
      | @permit i now c hc hpc hpermits =>
        have hstarted :
            State.Started { s with started := s.started ++ [⟨i, b.dstIP c.ep, now⟩] } i :=
          ⟨_, List.mem_append_right _ (List.mem_singleton_self _), rfl⟩
        refine ⟨c, now, hc, hpc, ?_, fun _ ↦ ⟨rfl, rfl⟩, fun hno ↦ absurd hstarted hno⟩
        exact iff_of_true hstarted (State.permits_iff.mp hpermits)
      | @refuse i now c hc hpc hpermits =>
        obtain ⟨hno, -⟩ := htold.phase_at hc hpc
        refine ⟨c, now, hc, hpc, ?_, fun hstarted ↦ absurd hstarted hno, fun _ ↦ ⟨rfl, rfl⟩⟩
        exact iff_of_false hno fun hspace ↦ hpermits (State.permits_iff.mpr hspace)
    decided := fun a t i c d hnext hc hd hinit hpc ↦
      (step_of_next hnext).2.undecided hc hd ((htold.initiates_iff hc).mp hinit) hpc
    handed := fun i c hc ↦ ⟨htold.request hc, (htold.phase i c hc).handed⟩
    ends := ⟨s.work b, fun as t hrun ↦ Machine.run_length_le (State.work b) hwork hrun⟩
    returns := fun hhalted ↦ by
      cases hcrashed : s.crashed with
      | true => exact .inr ⟨rfl, junk_fault_of_crashed h hcrashed⟩
      | false =>
        refine .inl fun c hc ↦ ?_
        by_contra hpc
        obtain ⟨i, hi⟩ := List.getElem?_of_mem hc
        obtain ⟨a, t, hstep⟩ := exists_step (b := b) hi fun err herr ↦ hpc ⟨err, herr⟩
        have hnext : (machine b reqs).next s a = some t := next_of_step hcrashed hstep
        rw [hhalted a] at hnext
        cases hnext }

/-- A junk packet of one byte before each handshake. -/
def junkBefore : Bind Unit :=
  ⟨fun _ ↦ .v4 0, some { (default : AtomicNoizeConfig) with jcBeforeHS := 1 }, [], 10⟩

set_option maxRecDepth 4096 in
/-- Two calls read the clock, and the one that read it later takes the lock first and has a
preflight; the other is refused and both hand over their buffers. -/
theorem send_limited_two_calls : ∃ s : State Unit,
    s.started.map (·.now) = [7] ∧
    s.sent.map (fun e ↦ (e.call, e.kind)) = [(1, .junk), (1, .own), (0, .own)] ∧
    Limited junkBefore [(([List.replicate 148 1] : List Bytes), ()),
      ([List.replicate 148 1], ())] s := by
  have hrun : (machine junkBefore
      [([List.replicate 148 1], ()), ([List.replicate 148 1], ())]).run
      (.fresh [([List.replicate 148 1], ()), ([List.replicate 148 1], ())])
      [.scan 0 5, .scan 1 7, .lock 1, .lock 0, .act 1 [] none, .done 1, .post 1, .own 1 none,
        .post 0, .own 0 none] = some _ := rfl
  have hreach := Machine.Reach.of_run (G := Machine.anyStep) (.start (start_fresh _ _))
    (fun _ _ _ ↦ trivial) hrun
  exact ⟨_, rfl, rfl, send_limited hreach⟩

end Vwarp.Wireguard.PreflightBind
