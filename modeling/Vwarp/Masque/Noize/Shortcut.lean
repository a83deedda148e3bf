import Vwarp.Masque.Noize.Crash

/-!
# The shortcut of `WriteToUDP`

If a configuration looks as if it did nothing, `WriteToUDP` writes the packet to the socket and does
not call `ObfuscateWrite`.  The test has nine fields.  It leaves out three of the five signatures
and the protocol that packets are wrapped in, which `ObfuscateWrite` and the goroutine it starts go
by, and the range of the random delay, which can panic.

`samePath_iff` says for which of these configurations the shortcut changes nothing: the full path,
started from any state of the layer, writes the packet and nothing else.
-/

namespace Vwarp.Masque.Noize

open Vwarp.Go Vwarp.Lib

variable {δ : Type} {config : NoizeConfig} {addr : δ} {buf : Bytes} {known : δ → Option Bool}

def State.wire (s : State δ) : List (Option δ × Bytes) := s.sent.map fun e ↦ (e.dst, e.bytes)

/-- A call of `WriteToUDP` that is past its tests, where the layer has the states `known`. -/
def State.past (known : δ → Option Bool) (addr : δ) (buf : Bytes) : State δ :=
  ⟨true, known, [⟨.writeToUDP addr, buf, .obfuscate addr⟩], [], [], [], [], false⟩

def State.Returned (s : State δ) : Prop := ∃ c, s.calls[0]? = some c ∧ c.pc = .returned

/-- The runs of that call and of the goroutines it starts. -/
def fullPath [DecidableEq δ] (config : NoizeConfig) (known : δ → Option Bool) (addr : δ)
    (buf : Bytes) : Machine (State δ) Label where
  start s := s = .past known addr buf
  next := State.next ⟨config, true⟩

/-- The full path does what the shortcut does: it writes the packet and nothing else. -/
structure SamePath [DecidableEq δ] (config : NoizeConfig) (known : δ → Option Bool) (addr : δ)
    (buf : Bytes) : Prop where
  alive {s : State δ} : (fullPath config known addr buf).Reachable s → s.crashed = false
  wire {s : State δ} : (fullPath config known addr buf).Reachable s →
    s.wire = [] ∨ s.wire = [(some addr, buf)]
  returned {s : State δ} : (fullPath config known addr buf).Reachable s → s.Returned →
    s.wire = [(some addr, buf)]
  /-- The call can always go on until it returns. -/
  returns {s : State δ} : (fullPath config known addr buf).Reachable s →
    ∃ as t, (fullPath config known addr buf).run s as = some t ∧ t.Returned

/-! ## What the test leaves out -/

/-- Packets are not wrapped: the protocol is none of those that `wrapProtocol` knows. -/
def Unwrapped (config : NoizeConfig) : Prop :=
  config.mimicProtocol ∉ [str "dns", str "https", str "h3", str "dtls", str "stun"]

/-- The text of a signature makes no packet, whatever the clock and the random source give. -/
def MakesNoPacket (cps : Bytes) : Prop :=
  ∀ draws, ((parseCPSPacket cps).run draws).map (Option.filter (· ≠ [])) = some none

/-- The signatures that the test leaves out make no packet. -/
def Unsigned (config : NoizeConfig) : Prop :=
  MakesNoPacket config.i3 ∧ MakesNoPacket config.i4 ∧ MakesNoPacket config.i5

section Off

variable (hoff : config.allOff = true)

include hoff

theorem preHandshakeActs_off : preHandshakeActs config =
    signatureAct 2 config.i3 ++ signatureAct 3 config.i4 ++ signatureAct 4 config.i5 := by
  simp only [NoizeConfig.allOff, decide_eq_true_eq] at hoff
  obtain ⟨-, hbefore, hafter, hduring, -, -, -, hi1, hi2⟩ := hoff
  have hjunks : junks false 0 = [] := rfl
  have hsignature (k : Fin 5) : signatureAct k [] = [] := rfl
  simp only [preHandshakeActs, hbefore, hafter, hduring, hi1, hi2, hjunks, hsignature,
    List.nil_append, List.append_nil]

theorem postHandshakeActs_off : postHandshakeActs config = [] := by
  simp only [NoizeConfig.allOff, decide_eq_true_eq] at hoff
  rw [postHandshakeActs, hoff.2.2.2.2.1]
  rfl

theorem fragments_off (packet : Bytes) : fragments config packet = false := by
  simp only [NoizeConfig.allOff, decide_eq_true_eq, Bool.not_eq_true'] at hoff
  simp only [fragments, hoff.2.2.2.2.2.2.1, Bool.false_eq_true, false_and, and_false,
    decide_false]

theorem padAndWrap_off (packet : Bytes) : padAndWrap config packet =
    (if config.mimicProtocol ≠ [] then wrapProtocol config packet else pure packet) >>= fun packet ↦
      applyDelay config >>= fun _ ↦ pure packet := by
  simp only [NoizeConfig.allOff, decide_eq_true_eq] at hoff
  have hpadding : addPadding config packet = pure packet := if_pos hoff.2.2.2.2.2.1
  rw [padAndWrap, hpadding, pure_bind]
  dsimp only
  split <;> rfl

theorem padAndWrap_unwrapped (h : Unwrapped config) (packet : Bytes) :
    padAndWrap config packet = applyDelay config >>= fun _ ↦ pure packet := by
  have hwrap : wrapProtocol config packet = pure packet := by
    simp only [Unwrapped, List.mem_cons, List.not_mem_nil, or_false, not_or] at h
    simp only [wrapProtocol, h, if_false, or_self]
  rw [padAndWrap_off hoff, hwrap, ite_self, pure_bind]

omit hoff in
theorem wrapProtocol_longer (h : ¬Unwrapped config) (packet : Bytes) :
    (wrapProtocol config packet).Ensures True fun wrapped ↦ packet.length < wrapped.length := by
  have hlonger {header : Bytes} (hheader : header ≠ []) :
      packet.length < (header ++ packet).length := by
    rw [List.length_append]
    have hpos := List.length_pos_of_ne_nil hheader
    omega
  unfold wrapProtocol
  split
  · rw [wrapDNS, Draw.ensures_bind]
    exact (Draw.ensures_true _).mono fun _ _ ↦ hlonger (by simp)
  · split
    · exact hlonger (by simp)
    · split
      · rw [wrapDTLS, Draw.ensures_bind]
        exact (Draw.ensures_true _).mono fun _ _ ↦ hlonger (by simp)
      · split
        · rw [wrapSTUN, Draw.ensures_bind]
          exact (Draw.ensures_true _).mono fun _ _ ↦ hlonger (by simp)
        · refine absurd ?_ h
          simp_all [Unwrapped]

theorem padAndWrap_wrapped (h : ¬Unwrapped config) (packet : Bytes) :
    (padAndWrap config packet).Ensures True fun wrapped ↦ packet.length < wrapped.length := by
  have hne : config.mimicProtocol ≠ [] := by
    intro hnil
    rw [Unwrapped, hnil] at h
    exact h (by decide)
  rw [padAndWrap_off hoff, if_pos hne, Draw.ensures_bind]
  refine (wrapProtocol_longer h packet).mono fun wrapped hwrapped ↦ ?_
  rw [Draw.ensures_bind]
  exact (Draw.ensures_true _).mono fun _ _ ↦ hwrapped

end Off

theorem run_signature (k : Fin 5) (cps : Bytes) (draws : List (Option Nat)) :
    ((Act.signature k cps).packet config).run draws =
      ((parseCPSPacket cps).run draws).map (Option.filter (· ≠ [])) :=
  Draw.run_view _ _ draws

theorem mem_signatures {act : Act}
    (h : act ∈ signatureAct 2 config.i3 ++ signatureAct 3 config.i4 ++ signatureAct 4 config.i5) :
    ∃ k, act = .signature k config.i3 ∨ act = .signature k config.i4 ∨
      act = .signature k config.i5 := by
  simp only [List.mem_append, mem_signatureAct] at h
  obtain (⟨-, rfl⟩ | ⟨-, rfl⟩) | ⟨-, rfl⟩ := h
  · exact ⟨2, .inl rfl⟩
  · exact ⟨3, .inr (.inl rfl)⟩
  · exact ⟨4, .inr (.inr rfl)⟩

/-! ## If nothing was left out -/

/-- Where the call is, and what is on the wire by then. -/
def CallAt (addr : δ) (buf : Bytes) (wire : List (Option δ × Bytes)) : Pc δ → Prop
  | .obfuscate addr' => addr' = addr ∧ wire = []
  | .seen addr' => addr' = addr ∧ wire = [] ∧ buf ≠ []
  | .pad addr' => addr' = addr ∧ wire = [] ∧ buf ≠ []
  | .out addr' packet => addr' = addr ∧ wire = [] ∧ packet = buf
  | .returned => wire = [(some addr, buf)]
  | _ => False

theorem CallAt.route_eq_none {c : Call δ} {wire : List (Option δ × Bytes)}
    (h : CallAt addr buf wire c.pc) (enabled : Bool) : c.route config enabled = none := by
  obtain ⟨entry, buf', pc⟩ := c
  cases pc with
  | start | delegated _ => exact h.elim
  | _ => rfl

/-- What holds in every run if nothing was left out. -/
structure Transparent (config : NoizeConfig) (known : δ → Option Bool) (addr : δ) (buf : Bytes)
    (s : State δ) : Prop where
  alive : s.crashed = false
  call : ∃ pc, s.calls = [⟨.writeToUDP addr, buf, pc⟩] ∧ CallAt addr buf s.wire pc ∧
    (pc = .obfuscate addr → s.hsState addr = known addr)
  silent : ∀ g ∈ s.tasks, ∀ act ∈ g.acts, ∀ draws, (act.packet config).run draws = some none

/-- What the test left out makes no difference for this packet. -/
structure LeftOut (config : NoizeConfig) (first : Prop) : Prop where
  unwrapped : Unwrapped config
  delay : DelayFits config
  unsigned : first → Unsigned config

/-- The end of `ObfuscateWrite` returns the packet as it is. -/
theorem delayed (hoff : config.allOff = true) {first : Prop} (hleft : LeftOut config first)
    (packet : Bytes) : (padAndWrap config packet).Ensures False fun out ↦ out = packet := by
  rw [padAndWrap_unwrapped hoff hleft.unwrapped, Draw.ensures_bind]
  exact (safe_applyDelay.mpr hleft.delay).mono fun _ _ ↦ rfl

namespace Transparent

variable {s t : State δ} {a : Label}

theorem past (config : NoizeConfig) (known : δ → Option Bool) (addr : δ) (buf : Bytes) :
    Transparent config known addr buf (.past known addr buf) where
  alive := rfl
  call := ⟨_, rfl, ⟨rfl, rfl⟩, fun _ ↦ rfl⟩
  silent _ hg := absurd hg List.not_mem_nil

theorem of_getElem? (h : Transparent config known addr buf s) {i : Nat} {c : Call δ}
    (hc : s.calls[i]? = some c) : i = 0 ∧ c.entry = .writeToUDP addr ∧ c.buf = buf ∧
      CallAt addr buf s.wire c.pc ∧ (c.pc = .obfuscate addr → s.hsState addr = known addr) := by
  obtain ⟨pc, hcalls, hstage, hknown⟩ := h.call
  rw [hcalls, List.getElem?_singleton] at hc
  obtain ⟨rfl, hc⟩ := Option.ite_none_right_eq_some.mp hc
  cases hc
  exact ⟨rfl, rfl, rfl, hstage, hknown⟩

/-- What is known of a call at a place. -/
theorem at_pc (h : Transparent config known addr buf s) {i : Nat} {c : Call δ} {pc : Pc δ}
    (hc : s.calls[i]? = some c) (hpc : c.pc = pc) : c.buf = buf ∧ CallAt addr buf s.wire pc ∧
      (pc = .obfuscate addr → s.hsState addr = known addr) := by
  subst hpc
  exact (h.of_getElem? hc).2.2

theorem setPc (h : Transparent config known addr buf s) {i : Nat} {c : Call δ} {pc : Pc δ}
    (hc : s.calls[i]? = some c) (halive : t.crashed = false)
    (hcalls : t.calls = (s.setPc i c pc).calls) (hstage : CallAt addr buf t.wire pc)
    (hpc : pc ≠ .obfuscate addr)
    (htasks : ∀ g ∈ t.tasks, g ∈ s.tasks ∨
      ∀ act ∈ g.acts, ∀ draws, (act.packet config).run draws = some none) :
    Transparent config known addr buf t := by
  obtain ⟨rfl, hentry, hbuf, -, -⟩ := h.of_getElem? hc
  obtain ⟨pc', hcalls', -, -⟩ := h.call
  refine ⟨halive, ⟨pc, ?_, hstage, fun h ↦ absurd h hpc⟩, ?_⟩
  · rw [hcalls, State.setPc, hcalls', ← hentry, ← hbuf]
    rfl
  · intro g hg
    exact (htasks g hg).elim (h.silent g) id

variable [DecidableEq δ]

theorem step (hoff : config.allOff = true) (hleft : buf ≠ [] → LeftOut config (known addr = none))
    (h : Transparent config known addr buf s) (hstep : Step ⟨config, true⟩ s a t) :
    Transparent config known addr buf t := by
  cases hstep with
  | raw hc hroute | goto hc hroute =>
    obtain ⟨-, -, -, hstage, -⟩ := h.of_getElem? hc
    rw [hstage.route_eq_none] at hroute
    cases hroute
  | empty hc hpc _ =>
    obtain ⟨hbuf, ⟨rfl, hwire⟩, -⟩ := h.at_pc hc hpc
    exact h.setPc hc h.alive rfl ⟨rfl, hwire, hbuf⟩ nofun fun g hg ↦ .inl hg
  | again hc hpc hne _ =>
    obtain ⟨hbuf, ⟨rfl, hwire⟩, -⟩ := h.at_pc hc hpc
    exact h.setPc hc h.alive rfl ⟨rfl, hwire, hbuf ▸ hne⟩ nofun fun g hg ↦ .inl hg
  | pre hc hpc hne hstate =>
    obtain ⟨hbuf, ⟨rfl, hwire⟩, hknown⟩ := h.at_pc hc hpc
    have hunsigned := (hleft (hbuf ▸ hne)).unsigned ((hknown rfl).symm.trans hstate)
    refine h.setPc hc h.alive rfl ⟨rfl, hwire, hbuf ▸ hne⟩ nofun fun g hg ↦ ?_
    rcases List.mem_append.mp hg with hg | hg
    · exact .inl hg
    · right
      intro act hact draws
      rw [List.mem_singleton.mp hg] at hact
      change act ∈ preHandshakeActs config at hact
      rw [preHandshakeActs_off hoff] at hact
      obtain ⟨k, rfl | rfl | rfl⟩ := mem_signatures hact
      · exact (run_signature k _ draws).trans (hunsigned.1 draws)
      · exact (run_signature k _ draws).trans (hunsigned.2.1 draws)
      · exact (run_signature k _ draws).trans (hunsigned.2.2 draws)
  | fragment _ _ hfragments =>
    rw [fragments_off hoff] at hfragments
    cases hfragments
  | post hc hpc _ _ =>
    refine h.setPc hc h.alive rfl (h.at_pc hc hpc).2.1 nofun fun g hg ↦ ?_
    rcases List.mem_append.mp hg with hg | hg
    · exact .inl hg
    · right
      intro act hact draws
      rw [List.mem_singleton.mp hg] at hact
      change act ∈ postHandshakeActs config at hact
      rw [postHandshakeActs_off hoff] at hact
      cases hact
  | plain hc hpc =>
    exact h.setPc hc h.alive rfl (h.at_pc hc hpc).2.1 nofun fun g hg ↦ .inl hg
  | panic hc hpc hrun =>
    obtain ⟨-, ⟨-, -, hne⟩, -⟩ := h.at_pc hc hpc
    exact absurd hrun ((delayed hoff (hleft hne) _).run_ne_none _)
  | padded hc hpc hrun =>
    obtain ⟨hbuf, ⟨rfl, hwire, hne⟩, -⟩ := h.at_pc hc hpc
    have hpacket := (delayed hoff (hleft hne) _).of_run hrun
    exact h.setPc hc h.alive rfl ⟨rfl, hwire, hpacket.trans hbuf⟩ nofun fun g hg ↦ .inl hg
  | emit hc hpc _ =>
    obtain ⟨-, ⟨rfl, hwire, rfl⟩, -⟩ := h.at_pc hc hpc
    refine h.setPc hc h.alive rfl ?_ nofun fun g hg ↦ .inl hg
    exact (List.map_append).trans (congrArg (· ++ _) hwire)
  | ret hc _ hwrites =>
    obtain ⟨-, hentry, -, -, -⟩ := h.of_getElem? hc
    rw [hentry] at hwrites
    cases hwrites
  | crash hg hacts hrun | send hg hacts hrun =>
    have hsilent := h.silent _ (List.mem_of_getElem? hg) _ (hacts ▸ List.mem_cons_self)
    rw [hsilent] at hrun
    cases hrun
  | skip hg hacts _ =>
    refine ⟨h.alive, h.call, fun g' hg' act hact ↦ ?_⟩
    rcases List.mem_or_eq_of_mem_set hg' with hg' | rfl
    · exact h.silent g' hg' act hact
    · exact h.silent _ (List.mem_of_getElem? hg) act (hacts ▸ List.mem_cons_of_mem _ hact)
  | disable | enable => exact { h with }

end Transparent

/-! ## The steps of the call -/

section Steps

variable [DecidableEq δ] {s : State δ} {c : Call δ}

theorem reachable_next {t : State δ} {a : Label} (h : (fullPath config known addr buf).Reachable s)
    (hnext : s.next ⟨config, true⟩ a = some t) : (fullPath config known addr buf).Reachable t :=
  h.step trivial hnext

section Next

variable (config)

theorem next_first (halive : s.crashed = false) (hc : s.calls[0]? = some c)
    (hpc : c.pc = .obfuscate addr) : s.next ⟨config, true⟩ (.first 0) =
      if c.buf = [] then some (s.setPc 0 c (.out addr c.buf))
      else some (s.firstStep ⟨config, true⟩ 0 c addr) := by
  simp [State.next, halive, hc, hpc]

theorem next_second (halive : s.crashed = false) (hc : s.calls[0]? = some c)
    (hpc : c.pc = .seen addr) :
    s.next ⟨config, true⟩ (.second 0) = some (s.secondStep ⟨config, true⟩ 0 c addr) := by
  simp [State.next, halive, hc, hpc]

theorem next_finish (halive : s.crashed = false) (hc : s.calls[0]? = some c)
    (hpc : c.pc = .pad addr) (draws : List (Option Nat)) :
    s.next ⟨config, true⟩ (.finish 0 draws) =
      some (((padAndWrap config c.buf).run draws).elim { s with crashed := true }
        fun packet ↦ s.setPc 0 c (.out addr packet)) := by
  simp only [State.next, halive, hc, hpc, Bool.false_eq_true, if_false, bind, Option.bind_some]
  cases (padAndWrap config c.buf).run draws with
  | none => rfl
  | some packet => rfl

theorem next_emit (halive : s.crashed = false) (hc : s.calls[0]? = some c) {packet : Bytes}
    (hpc : c.pc = .out addr packet) (hentry : c.entry = .writeToUDP addr) :
    s.next ⟨config, true⟩ (.emit 0) =
      some ((s.write .obfuscated (some addr) packet).setPc 0 c .returned) := by
  simp [State.next, halive, hc, hpc, hentry, Entry.writes]

end Next

omit [DecidableEq δ] in
theorem getElem?_setPc (hc : s.calls[0]? = some c) (pc : Pc δ) :
    (s.setPc 0 c pc).calls[0]? = some { c with pc := pc } :=
  List.getElem?_set_self (List.getElem?_eq_some_iff.mp hc).1

theorem secondStep_off (hoff : config.allOff = true) :
    (s.secondStep ⟨config, true⟩ 0 c addr).crashed = s.crashed ∧
      (s.secondStep ⟨config, true⟩ 0 c addr).calls = (s.setPc 0 c (.pad addr)).calls ∧
      (s.secondStep ⟨config, true⟩ 0 c addr).wire = s.wire := by
  unfold State.secondStep
  rw [fragments_off hoff, if_neg Bool.false_ne_true]
  dsimp only
  split
  all_goals exact ⟨rfl, rfl, rfl⟩

theorem firstStep_eq :
    (s.firstStep ⟨config, true⟩ 0 c addr).crashed = s.crashed ∧
      (s.firstStep ⟨config, true⟩ 0 c addr).calls = (s.setPc 0 c (.seen addr)).calls ∧
      (s.firstStep ⟨config, true⟩ 0 c addr).wire = s.wire ∧
      (s.hsState addr = none → (s.firstStep ⟨config, true⟩ 0 c addr).tasks =
        s.tasks ++ [⟨addr, preHandshakeActs config⟩]) := by
  unfold State.firstStep
  cases s.hsState addr with
  | some _ => exact ⟨rfl, rfl, rfl, nofun⟩
  | none => exact ⟨rfl, rfl, rfl, fun _ ↦ rfl⟩

/-- A call past the first critical section goes on until it writes a packet, or ends the process. -/
theorem exists_written (hoff : config.allOff = true)
    (hreach : (fullPath config known addr buf).Reachable s) (halive : s.crashed = false)
    (hc : s.calls[0]? = some ⟨.writeToUDP addr, buf, .seen addr⟩) (draws : List (Option Nat)) :
    ∃ t, (fullPath config known addr buf).Reachable t ∧
      ((padAndWrap config buf).run draws = none ∧ t.crashed = true ∨
        ∃ packet, (padAndWrap config buf).run draws = some packet ∧
          t.wire = s.wire ++ [(some addr, packet)]) := by
  obtain ⟨halive₁, hcalls₁, hwire₁⟩ :=
    @secondStep_off _ _ addr _ s ⟨.writeToUDP addr, buf, .seen addr⟩ hoff
  have halive₁ := halive₁.trans halive
  have hc₁ := hcalls₁ ▸ getElem?_setPc hc (.pad addr)
  dsimp only at hc₁
  generalize hs₁ : s.secondStep ⟨config, true⟩ 0 ⟨.writeToUDP addr, buf, .seen addr⟩ addr = s₁
    at halive₁ hc₁ hwire₁
  have hreach₁ : (fullPath config known addr buf).Reachable s₁ :=
    reachable_next hreach (hs₁ ▸ next_second config halive hc rfl)
  have hnext := next_finish config halive₁ hc₁ rfl draws
  cases hrun : (padAndWrap config buf).run draws with
  | none =>
    rw [hrun] at hnext
    exact ⟨_, reachable_next hreach₁ hnext, .inl ⟨rfl, rfl⟩⟩
  | some packet =>
    rw [hrun, Option.elim_some] at hnext
    generalize hs₂ : s₁.setPc 0 ⟨.writeToUDP addr, buf, .pad addr⟩ (.out addr packet) = s₂
    have hreach₂ : (fullPath config known addr buf).Reachable s₂ :=
      hs₂ ▸ reachable_next hreach₁ hnext
    have hc₂ := hs₂ ▸ getElem?_setPc hc₁ (.out addr packet)
    have hemit := next_emit config (hs₂ ▸ halive₁) hc₂ rfl rfl
    refine ⟨_, reachable_next hreach₂ hemit, .inr ⟨packet, rfl, ?_⟩⟩
    subst hs₂
    exact (List.map_append).trans (congrArg (· ++ _) hwire₁)

theorem exists_sent {acts : List Act} {k : Nat} {g : Task δ} {act : Act}
    (hsafe : ∀ act ∈ acts, (act.packet config).Safe)
    (hact : ∃ draws packet, (act.packet config).run draws = some (some packet)) (hmem : act ∈ acts)
    (hreach : (fullPath config known addr buf).Reachable s) (halive : s.crashed = false)
    (hg : s.tasks[k]? = some g) (hacts : g.acts = acts) :
    ∃ t, (fullPath config known addr buf).Reachable t ∧ t.crashed = false ∧ t.calls = s.calls ∧
      t.wire ≠ [] := by
  induction acts generalizing s g with
  | nil => exact absurd hmem List.not_mem_nil
  | cons first acts ih =>
    rcases List.mem_cons.mp hmem with rfl | hmem
    · obtain ⟨draws, packet, hrun⟩ := hact
      obtain ⟨t, ht, halive', hcalls, -, hsent⟩ :=
        next_act_some (n := ⟨config, true⟩) halive hg hacts hrun
      exact ⟨t, reachable_next hreach ht, halive', hcalls,
        List.map_eq_nil_iff.not.mpr (hsent nofun)⟩
    · -- what comes before it is done first
      obtain ⟨out, hrun⟩ := Option.ne_none_iff_exists'.mp
        (Draw.safe_iff_run.mp (hsafe first List.mem_cons_self) [])
      obtain ⟨t, ht, halive', hcalls, hg', -⟩ :=
        next_act_some (n := ⟨config, true⟩) halive hg hacts hrun
      obtain ⟨u, hu, halive'', hcalls', hwire⟩ :=
        ih (fun act hact ↦ hsafe act (List.mem_cons_of_mem _ hact)) hmem
          (reachable_next hreach ht) halive' hg' rfl
      exact ⟨u, hu, halive'', hcalls'.trans hcalls, hwire⟩

/-! ## The condition -/

def Pc.left : Pc δ → Nat
  | .obfuscate _ => 4
  | .seen _ => 3
  | .pad _ => 2
  | .out _ _ => 1
  | _ => 0

theorem Transparent.exists_next (hoff : config.allOff = true)
    (hleft : buf ≠ [] → LeftOut config (known addr = none))
    (h : Transparent config known addr buf s) (hc : s.calls[0]? = some c) (hpc : c.pc ≠ .returned) :
    ∃ a t d, s.next ⟨config, true⟩ a = some t ∧ t.calls[0]? = some d ∧ d.pc.left < c.pc.left := by
  obtain ⟨-, hentry, -, -, -⟩ := h.of_getElem? hc
  cases hpc' : c.pc with
  | start | delegated _ => exact (h.at_pc hc hpc').2.1.elim
  | obfuscate addr' =>
    have hnext := next_first config h.alive hc hpc'
    split_ifs at hnext
    · exact ⟨_, _, _, hnext, getElem?_setPc hc _, (by decide : 1 < 4)⟩
    · refine ⟨_, _, { c with pc := .seen addr' }, hnext, ?_, (by decide : 3 < 4)⟩
      rw [firstStep_eq.2.1]
      exact getElem?_setPc hc _
  | seen addr' =>
    refine ⟨_, _, { c with pc := .pad addr' }, next_second config h.alive hc hpc', ?_,
      (by decide : 2 < 3)⟩
    rw [(secondStep_off hoff).2.1]
    exact getElem?_setPc hc _
  | pad addr' =>
    obtain ⟨-, ⟨-, -, hne⟩, -⟩ := h.at_pc hc hpc'
    have hnext := next_finish config h.alive hc hpc' []
    obtain ⟨packet, hrun⟩ := Option.ne_none_iff_exists'.mp
      ((delayed hoff (hleft hne) c.buf).run_ne_none [])
    rw [hrun, Option.elim_some] at hnext
    exact ⟨_, _, _, hnext, getElem?_setPc hc _, (by decide : 1 < 2)⟩
  | out addr' packet =>
    obtain ⟨-, ⟨rfl, -, -⟩, -⟩ := h.at_pc hc hpc'
    have hnext := next_emit config h.alive hc hpc' hentry
    exact ⟨_, _, _, hnext, getElem?_setPc hc _, (by decide : 0 < 1)⟩
  | returned => exact absurd hpc' hpc

/-- If nothing that matters was left out, the shortcut changes nothing. -/
theorem samePath_of_leftOut (hoff : config.allOff = true)
    (hleft : buf ≠ [] → LeftOut config (known addr = none)) : SamePath config known addr buf := by
  have hinv {s : State δ} (h : (fullPath config known addr buf).Reachable s) :
      Transparent config known addr buf s := by
    refine Machine.Reach.invariant ?_ ?_ h
    · rintro s rfl
      exact Transparent.past config known addr buf
    · intro s a t hs _ hnext
      exact hs.step hoff hleft (step_of_next hnext).2
  refine ⟨fun h ↦ (hinv h).alive, fun h ↦ ?_, fun h hreturned ↦ ?_, fun {s} h ↦ ?_⟩
  · obtain ⟨pc, -, hstage, -⟩ := (hinv h).call
    cases pc with
    | start | delegated _ => exact hstage.elim
    | obfuscate _ => exact .inl hstage.2
    | seen _ | pad _ | out _ _ => exact .inl hstage.2.1
    | returned => exact .inr hstage
  · obtain ⟨c, hc, hpc⟩ := hreturned
    exact ((hinv h).at_pc hc hpc).2.1
  · obtain ⟨pc, hcalls, -, -⟩ := (hinv h).call
    obtain ⟨c, hc⟩ : ∃ c, s.calls[0]? = some c := ⟨_, by rw [hcalls]; rfl⟩
    clear hcalls
    induction hn : c.pc.left using Nat.strongRecOn generalizing s c with
    | ind n ih =>
      by_cases hpc : c.pc = .returned
      · exact ⟨[], s, rfl, c, hc, hpc⟩
      · obtain ⟨a, t, d, hnext, hd, hlt⟩ := (hinv h).exists_next hoff hleft hc hpc
        obtain ⟨as, u, hrun, hreturned⟩ :=
          ih d.pc.left (hn ▸ hlt) (reachable_next h hnext) d hd rfl
        refine ⟨a :: as, u, ?_, hreturned⟩
        rw [Machine.run]
        exact (congrArg (Option.bind · _) hnext).trans hrun

/-- A signature that makes a packet would be on the wire beside the packet of the call. -/
theorem SamePath.makesNoPacket (h : SamePath config known addr buf) (hoff : config.allOff = true)
    (hreach : (fullPath config known addr buf).Reachable s) (halive : s.crashed = false)
    (hc : s.calls[0]? = some ⟨.writeToUDP addr, buf, .seen addr⟩)
    (htask : s.tasks[0]? = some ⟨addr, preHandshakeActs config⟩) {k : Fin 5} {cps : Bytes}
    (hmem : .signature k cps ∈ preHandshakeActs config) : MakesNoPacket cps := by
  intro draws
  have hsafe : ∀ act ∈ preHandshakeActs config, (act.packet config).Safe := by
    intro act hact
    rw [preHandshakeActs_off hoff] at hact
    obtain ⟨k, rfl | rfl | rfl⟩ := mem_signatures hact
    all_goals exact (safe_parseCPSPacket _).bind fun _ ↦ Draw.safe_pure _
  obtain ⟨out, hrun⟩ := Option.ne_none_iff_exists'.mp
    (Draw.safe_iff_run.mp (hsafe _ hmem) draws)
  cases out with
  | none => exact (run_signature k cps draws).symm.trans hrun
  | some packet =>
    obtain ⟨t, ht, halive', hcalls, hwire⟩ :=
      exists_sent hsafe ⟨draws, packet, hrun⟩ hmem hreach halive htask rfl
    obtain ⟨u, hu, ⟨-, hcrashed⟩ | ⟨packet', -, hwire'⟩⟩ :=
      exists_written hoff ht halive' (hcalls ▸ hc) []
    · rw [h.alive hu] at hcrashed
      cases hcrashed
    · -- two datagrams
      have hlen := congrArg List.length hwire'
      have hpos := List.length_pos_of_ne_nil hwire
      rw [List.length_append, List.length_singleton] at hlen
      rcases h.wire hu with hnil | hone
      · rw [hnil] at hlen
        exact absurd hlen (by simp)
      · rw [hone, List.length_singleton] at hlen
        omega

/-- If the shortcut changes nothing, then nothing that matters was left out. -/
theorem leftOut_of_samePath (hoff : config.allOff = true) (h : SamePath config known addr buf)
    (hne : buf ≠ []) : LeftOut config (known addr = none) := by
  -- the call after the first critical section
  have hstart : (fullPath config known addr buf).Reachable (.past known addr buf) := .start rfl
  have hnext := next_first config (s := .past known addr buf) rfl rfl rfl
  rw [if_neg hne] at hnext
  have hreach := reachable_next hstart hnext
  obtain ⟨halive, hcalls, hwire, htasks⟩ :=
    @firstStep_eq _ config addr _ (.past known addr buf) ⟨.writeToUDP addr, buf, .obfuscate addr⟩
  generalize State.firstStep ⟨config, true⟩ (.past known addr buf) 0
    ⟨.writeToUDP addr, buf, .obfuscate addr⟩ addr = s at hreach halive hcalls hwire htasks
  have hc : s.calls[0]? = some ⟨.writeToUDP addr, buf, .seen addr⟩ := by
    rw [hcalls]
    rfl
  have hunwrapped : Unwrapped config := by
    by_contra hwrapped
    obtain ⟨t, ht, ⟨-, hcrashed⟩ | ⟨packet, hrun, hwire'⟩⟩ :=
      exists_written hoff hreach halive hc []
    · rw [h.alive ht] at hcrashed
      cases hcrashed
    · have hlt := (padAndWrap_wrapped hoff hwrapped buf).of_run hrun
      rw [hwire] at hwire'
      have hone : t.wire = [(some addr, packet)] := hwire'
      rcases h.wire ht with hnil | hbuf
      · cases hone.symm.trans hnil
      · cases hone.symm.trans hbuf
        exact Nat.lt_irrefl _ hlt
  refine ⟨hunwrapped, ?_, fun hfirst ↦ ?_⟩
  · rw [← safe_applyDelay, Draw.safe_iff_run]
    intro draws hdelay
    obtain ⟨t, ht, ⟨-, hcrashed⟩ | ⟨packet, hrun, -⟩⟩ :=
      exists_written hoff hreach halive hc draws
    · rw [h.alive ht] at hcrashed
      cases hcrashed
    · rw [padAndWrap_unwrapped hoff hunwrapped, Draw.run_bind_eq_none hdelay] at hrun
      cases hrun
  · have htask : s.tasks[0]? = some ⟨addr, preHandshakeActs config⟩ := by
      rw [htasks hfirst]
      rfl
    have hnone (k : Fin 5) {cps : Bytes}
        (hmem : ∀ act ∈ signatureAct k cps, act ∈ preHandshakeActs config) : MakesNoPacket cps := by
      by_cases hempty : cps = []
      · subst hempty
        exact fun draws ↦ rfl
      · exact h.makesNoPacket hoff hreach halive hc htask
          (hmem _ (mem_signatureAct.mpr ⟨hempty, rfl⟩))
    refine ⟨hnone 2 ?_, hnone 3 ?_, hnone 4 ?_⟩
    all_goals
      intro act hact
      simp only [preHandshakeActs_off hoff, List.mem_append, hact, true_or, or_true]

/-- The shortcut changes nothing for a packet and a state of the layer if and only if the packet is
empty, or it would not be wrapped, the delay cannot panic and, for a destination that is new, the
signatures that the test leaves out make no packet. -/
theorem samePath_iff (known : δ → Option Bool) (addr : δ) (buf : Bytes)
    (hoff : config.allOff = true) :
    SamePath config known addr buf ↔
      buf = [] ∨ Unwrapped config ∧ DelayFits config ∧ (known addr = none → Unsigned config) := by
  constructor
  · intro h
    refine or_iff_not_imp_left.mpr fun hne ↦ ?_
    obtain ⟨hunwrapped, hdelay, hunsigned⟩ := leftOut_of_samePath hoff h hne
    exact ⟨hunwrapped, hdelay, hunsigned⟩
  · rintro (rfl | ⟨hunwrapped, hdelay, hunsigned⟩)
    · exact samePath_of_leftOut hoff fun hne ↦ absurd rfl hne
    · exact samePath_of_leftOut hoff fun _ ↦ ⟨hunwrapped, hdelay, hunsigned⟩

end Steps

/-- A configuration that passes the test, with fields that it leaves out and that change nothing: a
signature without a tag, a protocol that is not known, and a delay. -/
def idleFields : NoizeConfig :=
  { (default : NoizeConfig) with
    i3 := str "hello", mimicProtocol := str "quic", randomDelay := true, delayMin := milliseconds 1
    delayMax := milliseconds 10 }

theorem samePath_idleFields : idleFields.allOff = true ∧
    SamePath idleFields (fun _ : Nat ↦ none) 7 [0x40] := by
  refine ⟨by decide, (samePath_iff _ 7 [0x40] (by decide)).mpr (.inr ⟨?_, ?_, fun _ ↦ ?_⟩)⟩
  · show idleFields.mimicProtocol ∉ _
    decide
  · decide
  · exact ⟨fun _ ↦ rfl, fun _ ↦ rfl, fun _ ↦ rfl⟩

/-- A configuration that passes the test, with a signature and a protocol. -/
def signedH3 : NoizeConfig :=
  { (default : NoizeConfig) with i3 := str "<b 0d0a>", mimicProtocol := str "h3" }

/-- The shortcut writes the packet.  The full path writes the signature, and the packet in a
header. -/
theorem shortcut_differs :
    ((State.fresh [((.writeToUDP 7 : Entry Nat), ([0x40] : Bytes))]).next ⟨signedH3, true⟩
      (.enter 0)).map State.wire = some [(some 7, [0x40])] ∧
    ∃ s : State Nat, (fullPath signedH3 (fun _ ↦ none) 7 [0x40]).Reachable s ∧ s.Returned ∧
      s.wire = [(some 7, [0x0d, 0x0a]), (some 7, [0x17, 0x03, 0x03, 0x00, 0x01, 0x40])] := by
  have hrun : (fullPath signedH3 (fun _ : Nat ↦ none) 7 [0x40]).run (.past (fun _ ↦ none) 7 [0x40])
      [.first 0, .act 0 [], .second 0, .finish 0 [], .emit 0] = some _ := rfl
  exact ⟨rfl, _, Machine.Reach.of_run (.start rfl) (fun _ _ _ ↦ trivial) hrun, ⟨_, rfl, rfl⟩, rfl⟩

end Vwarp.Masque.Noize
