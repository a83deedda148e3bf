import Vwarp.Masque.Noize.Obfuscate

/-!
# Disabling the noise layer

After the layer is disabled, only the callers' own buffers should go to the socket.  The
flag is looked at when a call enters, and nowhere else: a goroutine that was started before
goes on with its packets, and a call that is past the flag writes what it was given by
`ObfuscateWrite`.

If the layer is disabled only while all goroutines are done and no call is past the flag,
then it is silent until it is enabled again.
-/

namespace Vwarp.Masque.Noize

open Vwarp.Go Vwarp.Lib

variable {δ : Type} {n : Layer} {s t : State δ} {a : Label} {reqs : List (Entry δ × Bytes)}

/-- A call there has not passed the flag, or has returned. -/
def Pc.outside : Pc δ → Prop
  | .start | .delegated _ | .returned => True
  | _ => False

/-- All goroutines are done and no call is past the flag. -/
structure Quiet (s : State δ) : Prop where
  tasks : ∀ g ∈ s.tasks, g.acts = []
  calls : ∀ c ∈ s.calls, c.pc.outside

theorem not_goto_of_disabled {config : NoizeConfig} {c : Call δ} {pc : Pc δ}
    (hwrites : c.entry.writes = true) : c.route config false ≠ some (.goto pc) := by
  intro hroute
  unfold Call.route at hroute
  split at hroute
  · split at hroute
    · simp [routeUDP] at hroute
    · simp [routeUDP] at hroute
    · simp at hroute
    · simp at hroute
    · rename_i hentry
      rw [hentry] at hwrites
      cases hwrites
  · simp [routeUDP] at hroute
  · cases hroute

/-- What holds in a run in which the layer is disabled only while it is quiet. -/
structure Silent (reqs : List (Entry δ × Bytes)) (s : State δ) : Prop where
  requests : ∀ c ∈ s.calls, (c.entry, c.buf) ∈ reqs
  /-- While the layer is disabled, it is quiet. -/
  quiet : s.enabled = false → Quiet s
  /-- What was written meanwhile is the buffer of a caller. -/
  sent : ∀ e ∈ s.sent, e.disabled = true → e.kind = .raw ∧ ∃ r ∈ reqs, e.bytes = r.2

namespace Silent

variable {i : Nat} {c : Call δ}

theorem requests_setPc (h : Silent reqs s) (hc : s.calls[i]? = some c) (pc : Pc δ) :
    ∀ d ∈ (s.setPc i c pc).calls, (d.entry, d.buf) ∈ reqs := by
  intro d hd
  rcases List.mem_or_eq_of_mem_set hd with hd | rfl
  · exact h.requests d hd
  · exact h.requests c (List.mem_of_getElem? hc)

theorem of_enabled (h : Silent reqs s) (henabled : s.enabled = true)
    (hcalls : ∀ d ∈ t.calls, (d.entry, d.buf) ∈ reqs) (hflag : t.enabled = s.enabled)
    (hsent : t.sent = s.sent ∨ ∃ kind dst bytes, t.sent = (s.write kind dst bytes).sent) :
    Silent reqs t := by
  refine ⟨hcalls, ?_, ?_⟩
  · intro hdisabled
    rw [hflag, henabled] at hdisabled
    cases hdisabled
  · intro e he hdisabled
    rcases hsent with hsent | ⟨kind, dst, bytes, hsent⟩
    · rw [hsent] at he
      exact h.sent e he hdisabled
    · rw [hsent] at he
      rcases mem_concat.mp he with he | rfl
      · exact h.sent e he hdisabled
      · simp [henabled] at hdisabled

theorem enabled_of_inside (h : Silent reqs s) (hc : s.calls[i]? = some c)
    (hpc : ¬ c.pc.outside) : s.enabled = true := by
  by_contra hdisabled
  exact hpc ((h.quiet (Bool.eq_false_iff.mpr hdisabled)).calls c (List.mem_of_getElem? hc))

theorem move (h : Silent reqs s) (hc : s.calls[i]? = some c) (hpc : ¬ c.pc.outside) {pc : Pc δ}
    (hcalls : t.calls = (s.setPc i c pc).calls) (hflag : t.enabled = s.enabled)
    (hsent : t.sent = s.sent ∨ ∃ kind dst bytes, t.sent = (s.write kind dst bytes).sent) :
    Silent reqs t := by
  refine h.of_enabled (h.enabled_of_inside hc hpc) ?_ hflag hsent
  rw [hcalls]
  exact h.requests_setPc hc pc

theorem enabled_of_task (h : Silent reqs s) {k : Nat} {g : Task δ} (hg : s.tasks[k]? = some g)
    {act : Act} {acts : List Act} (hacts : g.acts = act :: acts) : s.enabled = true := by
  by_contra hdisabled
  have hnil := (h.quiet (Bool.eq_false_iff.mpr hdisabled)).tasks g (List.mem_of_getElem? hg)
  cases hacts.symm.trans hnil

theorem raw (h : Silent reqs s) (hc : s.calls[i]? = some c) (dst : Option δ) :
    Silent reqs ((s.write .raw dst c.buf).setPc i c .returned) := by
  refine ⟨h.requests_setPc hc _, ?_, ?_⟩
  · intro hdisabled
    have hquiet := h.quiet hdisabled
    refine ⟨hquiet.tasks, ?_⟩
    intro d hd
    rcases List.mem_or_eq_of_mem_set hd with hd | rfl
    · exact hquiet.calls d hd
    · trivial
  · exact forall_mem_concat.mpr
      ⟨h.sent, fun _ ↦ ⟨rfl, _, h.requests c (List.mem_of_getElem? hc), rfl⟩⟩

theorem fresh (reqs : List (Entry δ × Bytes)) : Silent reqs (State.fresh reqs) where
  requests c hc := by
    obtain ⟨r, hr, rfl⟩ := List.mem_map.mp hc
    exact hr
  quiet hdisabled := absurd hdisabled (by simp [State.fresh])
  sent e he := absurd he List.not_mem_nil

variable [DecidableEq δ]

/-- No step breaks it, as long as the layer is disabled only while it is quiet. -/
theorem step (hreqs : ∀ r ∈ reqs, r.1.writes = true) (h : Silent reqs s)
    (hguard : a = .disable → Quiet s) (hstep : Step n s a t) : Silent reqs t := by
  cases hstep with
  | raw hc hroute => exact h.raw hc _
  | @goto i c pc hc hroute =>
    cases henabled : s.enabled with
    | true => exact h.of_enabled henabled (h.requests_setPc hc _) rfl (.inl rfl)
    | false =>
      rw [henabled] at hroute
      have hwrites := hreqs _ (h.requests c (List.mem_of_getElem? hc))
      exact absurd hroute (not_goto_of_disabled hwrites)
  | empty hc hpc _ | again hc hpc _ _ | pre hc hpc _ _ | fragment hc hpc _ | post hc hpc _ _
  | plain hc hpc | padded hc hpc _ | ret hc hpc _ =>
    exact h.move hc (by rw [hpc]; exact id) rfl rfl (.inl rfl)
  | panic hc hpc _ =>
    have henabled := h.enabled_of_inside hc (by rw [hpc]; exact id)
    exact h.of_enabled henabled h.requests rfl (.inl rfl)
  | emit hc hpc _ => exact h.move hc (by rw [hpc]; exact id) rfl rfl (.inr ⟨_, _, _, rfl⟩)
  | crash hg hacts _ | skip hg hacts _ =>
    exact h.of_enabled (h.enabled_of_task hg hacts) h.requests rfl (.inl rfl)
  | send hg hacts _ =>
    exact h.of_enabled (h.enabled_of_task hg hacts) h.requests rfl (.inr ⟨_, _, _, rfl⟩)
  | disable =>
    have hquiet := hguard rfl
    exact ⟨h.requests, fun _ ↦ ⟨hquiet.tasks, hquiet.calls⟩, h.sent⟩
  | enable => exact ⟨h.requests, fun hdisabled ↦ absurd hdisabled (by simp), h.sent⟩

end Silent

variable [DecidableEq δ]

/-- In every run of writes in which the layer is disabled only while all goroutines are done
and no call is past the flag, what is written while it is disabled is the buffer of a
caller. -/
theorem disabled_is_silent (hreqs : ∀ r ∈ reqs, r.1.writes = true)
    (h : (machine n reqs).Reach (fun s a ↦ a = .disable → Quiet s) s) :
    ∀ e ∈ s.sent, e.disabled = true → e.kind = .raw ∧ ∃ r ∈ reqs, e.bytes = r.2 := by
  have hsilent : Silent reqs s := by
    refine Machine.Reach.invariant (I := Silent reqs) ?_ ?_ h
    · rintro s rfl
      exact Silent.fresh reqs
    · intro s a t hs hguard hnext
      exact hs.step hreqs hguard (step_of_next hnext).2
  exact hsilent.sent

/-- A configuration with one junk packet of one byte before the handshake. -/
def oneJunk : NoizeConfig := { (default : NoizeConfig) with jmin := 1, jmax := 1, jcBeforeHS := 1 }

/-- The goroutine is done before the layer is disabled, and the second write is unchanged. -/
theorem disabled_is_silent_after_junk : ∃ s : State Nat,
    s.sent.map (fun e ↦ (e.kind, e.disabled)) =
      [(.junk, false), (.obfuscated, false), (.raw, true)] ∧
    ∀ e ∈ s.sent, e.disabled = true → e.kind = .raw ∧
      ∃ r ∈ [((.writeToUDP 7 : Entry Nat), ([0x40] : Bytes)), (.write (some 7), [0x41])],
        e.bytes = r.2 := by
  have hbefore : (machine ⟨oneJunk, true⟩ [((.writeToUDP 7 : Entry Nat), ([0x40] : Bytes)),
      (.write (some 7), [0x41])]).run (.fresh [(.writeToUDP 7, [0x40]), (.write (some 7), [0x41])])
      [.enter 0, .first 0, .act 0 [some 3], .act 0 [], .second 0, .finish 0 [], .emit 0] = some _ :=
    rfl
  have hreach := Machine.Reach.of_run (G := fun s a ↦ a = .disable → Quiet s) (.start rfl)
    (by simp) hbefore
  have htasks : ∀ g ∈ ([⟨7, []⟩, ⟨7, []⟩] : List (Task Nat)), g.acts = [] := by simp
  have hcalls : ∀ c ∈ ([⟨.writeToUDP 7, [0x40], .returned⟩, ⟨.write (some 7), [0x41], .start⟩] :
      List (Call Nat)), c.pc.outside := by simp [Pc.outside]
  have hdisabled := hreach.step (a := .disable) (fun _ ↦ ⟨htasks, hcalls⟩) rfl
  have hraw := hdisabled.step (a := .enter 1) nofun rfl
  exact ⟨_, rfl, disabled_is_silent (by simp [Entry.writes]) hraw⟩

/-- A goroutine that was started by the first write still sends its junk packet after the
layer was disabled. -/
theorem disabled_sends_junk : ∃ s : State Nat,
    (machine ⟨oneJunk, true⟩ [(.writeToUDP 7, [0x40])]).Reachable s ∧
      s.sent.map (fun e ↦ (e.kind, e.disabled)) = [(.obfuscated, false), (.junk, true)] := by
  have hrun : (machine ⟨oneJunk, true⟩ [((.writeToUDP 7 : Entry Nat), ([0x40] : Bytes))]).run
      (.fresh [(.writeToUDP 7, [0x40])])
      [.enter 0, .first 0, .second 0, .finish 0 [], .emit 0, .disable, .act 0 [some 3]] = some _ :=
    rfl
  exact ⟨_, Machine.Reach.of_run (.start rfl) (fun _ _ _ ↦ trivial) hrun, rfl⟩

end Vwarp.Masque.Noize
