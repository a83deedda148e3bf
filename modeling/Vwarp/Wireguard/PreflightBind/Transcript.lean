import Mathlib.Data.List.Forall2
import Mathlib.Data.List.Induction
import Vwarp.Lib.Pool
import Vwarp.Wireguard.PreflightBind.Send

/-!
# What is handed to the inner bind because of a call

The *transcript* of a call of `Send` is what it and the goroutine it may have started have
handed to the inner bind, in order.  `Realises` says what a preflight may look like: its
acts one after the other, where an act is left out only if there is no packet for it
whatever is drawn.  `Realises.asked` ties this to `Preflight`, the packets that a
configuration asks for, written out.  `Phase` says what the transcript of a call is at each
of its places, and `told_of_reach` that this holds in every reachable state, for all calls at
once and under every schedule.

A call that has returned has the transcript of its preflight, its own buffers once, and
the junk of its goroutine anywhere after the preflight.
-/

namespace Vwarp.Wireguard.PreflightBind

open Vwarp.Go Vwarp.Lib

variable {ε : Type} {b : Bind ε} {s t : State ε} {a : Label} {i : Nat} {c : Call ε}

/-! ## Packets -/

/-- What the framed I1 may be. -/
def Frames (payload packet : Bytes) : Prop :=
  ∃ draws, (wrapInIKEv2Header payload).run draws = some packet

/-- What a signature packet may be, if its text can be parsed and it is not empty. -/
def Parses (cps packet : Bytes) : Prop :=
  packet ≠ [] ∧ ∃ draws, (parseCPSPacket cps).run draws = some (some packet)

/-- What the packet of an act may be. -/
def Act.Makes (payload : Bytes) : Act → Bytes → Prop
  | .i1, packet => Frames payload packet
  | .junk, _ => True
  | .signature cps, packet => Parses cps packet

variable {draws : List (Option Nat)}

theorem run_packet (act : Act) :
    (b.packet act).run draws = match act with
      | .i1 => ((wrapInIKEv2Header b.payload).run draws).map some
      | .junk => ((generateJunkPacket (b.config.getD default)).run draws).map some
      | .signature cps => ((parseCPSPacket cps).run draws).map (Option.filter (· ≠ [])) := by
  cases act with
  | i1 | junk | signature cps => exact Draw.run_view ..

theorem makes_of_packet {act : Act} {packet : Bytes}
    (h : (b.packet act).run draws = some (some packet)) : act.Makes b.payload packet := by
  rw [run_packet] at h
  cases act with
  | i1 =>
    obtain ⟨framedPayload, hrun, h⟩ := Option.map_eq_some_iff.mp h
    exact ⟨draws, Option.some.inj h ▸ hrun⟩
  | junk => trivial
  | signature cps =>
    obtain ⟨o, hrun, h⟩ := Option.map_eq_some_iff.mp h
    obtain ⟨rfl, hne⟩ := Option.filter_eq_some_iff.mp h
    exact ⟨of_decide_eq_true hne, draws, hrun⟩

/-- An act is left out only if there is no packet for it, whatever is drawn. -/
theorem not_makes_of_packet {act : Act}
    (h : (b.packet act).run draws = some none) (packet : Bytes) : ¬ act.Makes b.payload packet := by
  rw [run_packet] at h
  cases act with
  | i1 | junk => simp at h
  | signature cps =>
    rintro ⟨hne, draws', hrun'⟩
    obtain ⟨o, hrun, h⟩ := Option.map_eq_some_iff.mp h
    obtain ⟨n, hn⟩ := parseCPSPacket_length (F := True) cps
    have hlength := (hn.of_run hrun).trans (hn.of_run hrun').symm
    cases o with
    | none => cases hlength
    | some bytes =>
      have hbytes : bytes = [] := by simpa using h
      subst hbytes
      exact hne (List.eq_nil_of_length_eq_zero (Option.some.inj hlength).symm)

theorem packet_fault {act : Act} (h : (b.packet act).run draws = none) :
    act = .junk ∧ ∃ draws, (generateJunkPacket (b.config.getD default)).run draws = none := by
  rw [run_packet] at h
  cases act with
  | i1 =>
    exact absurd (Option.map_eq_none_iff.mp h)
      ((wrapInIKEv2Header_returns b.payload).run_ne_none draws)
  | junk => exact ⟨rfl, draws, Option.map_eq_none_iff.mp h⟩
  | signature cps =>
    obtain ⟨n, hn⟩ := parseCPSPacket_length (F := False) cps
    exact absurd (Option.map_eq_none_iff.mp h) (hn.run_ne_none draws)

/-! ## Transcripts -/

/-- What was handed over because of call `i`. -/
def transcript (sent : List (Sent ε)) (i : Nat) : List (Sent ε) := sent.filter (·.call = i)

variable {e : Sent ε} {told : List (Sent ε)}

theorem transcript_append_self {sent : List (Sent ε)} (h : e.call = i) :
    transcript (sent ++ [e]) i = transcript sent i ++ [e] := by
  simp [transcript, List.filter_append, h]

theorem transcript_append_ne {sent : List (Sent ε)} (h : e.call ≠ i) :
    transcript (sent ++ [e]) i = transcript sent i := by
  simp [transcript, List.filter_append, h]

/-- One packet, handed over because of call `i`. -/
def Sent.Packet (i : Nat) (ep : ε) (kind : Kind) (P : Bytes → Prop) (e : Sent ε) : Prop :=
  ∃ packet err, e = ⟨i, kind, [packet], ep, err⟩ ∧ P packet

open Classical in
/-- The acts that have a packet. -/
noncomputable def Bind.made (b : Bind ε) (acts : List Act) : List Act :=
  acts.filter fun act ↦ ∃ packet, act.Makes b.payload packet

/-- The acts of a preflight of call `i`, and what was handed over for those that have a packet. -/
def Realises (b : Bind ε) (i : Nat) (ep : ε) (acts : List Act) (told : List (Sent ε)) : Prop :=
  List.Forall₂ (fun act e ↦ e.Packet i ep act.kind (act.Makes b.payload)) (b.made acts) told

namespace Realises

variable {ep : ε} {acts acts' : List Act} {told' : List (Sent ε)} {act : Act}

theorem append (h : Realises b i ep acts told) (h' : Realises b i ep acts' told') :
    Realises b i ep (acts ++ acts') (told ++ told') := by
  rw [Realises, Bind.made, List.filter_append]
  exact List.rel_append h h'

theorem skip (h : Realises b i ep acts told) (hact : ∀ packet, ¬ act.Makes b.payload packet) :
    Realises b i ep (acts ++ [act]) told := by
  rw [← List.append_nil told]
  refine h.append ?_
  have hmade : b.made [act] = [] := List.filter_eq_nil_iff.mpr (by simpa using hact)
  rw [Realises, hmade]
  exact .nil

theorem send (h : Realises b i ep acts told) {packet : Bytes} (hact : act.Makes b.payload packet)
    (err : Option Error) :
    Realises b i ep (acts ++ [act]) (told ++ [⟨i, act.kind, [packet], ep, err⟩]) := by
  refine h.append ?_
  have hmade : b.made [act] = [act] := List.filter_eq_self.mpr (by simpa using ⟨packet, hact⟩)
  rw [Realises, hmade]
  exact .cons ⟨packet, err, rfl, hact⟩ .nil

theorem split (h : Realises b i ep (acts ++ acts') told) :
    ∃ before after, told = before ++ after ∧ Realises b i ep acts before ∧
      Realises b i ep acts' after := by
  rw [Realises, Bind.made, List.filter_append] at h
  have hbefore := List.forall₂_take (b.made acts).length h
  have hafter := List.forall₂_drop (b.made acts).length h
  rw [Bind.made, List.take_left] at hbefore
  rw [Bind.made, List.drop_left] at hafter
  exact ⟨_, _, (List.take_append_drop _ told).symm, hbefore, hafter⟩

/-- A preflight can be completed. -/
theorem exists_told (b : Bind ε) (i : Nat) (ep : ε) (acts : List Act) :
    ∃ told, Realises b i ep acts told := by
  induction acts using List.reverseRecOn with
  | nil => exact ⟨[], .nil⟩
  | append_singleton acts act ih =>
    obtain ⟨told, hacts⟩ := ih
    by_cases hact : ∃ packet, act.Makes b.payload packet
    · obtain ⟨packet, hpacket⟩ := hact
      exact ⟨_, hacts.send hpacket none⟩
    · exact ⟨_, hacts.skip (not_exists.mp hact)⟩

end Realises

def State.Started (s : State ε) (i : Nat) : Prop := ∃ p ∈ s.started, p.call = i

/-- Before the buffers there is the whole preflight, or nothing if none was started. -/
def Preflighted (b : Bind ε) (i : Nat) (ep : ε) (started : Prop) (told : List (Sent ε)) : Prop :=
  started ∧ Realises b i ep b.preflightActs told ∨ ¬ started ∧ told = []

def Kind.preflight : Kind → Prop
  | .i1 | .junk | .signature => True
  | .own | .afterJunk => False

theorem Act.preflight_kind (act : Act) : act.kind.preflight := by
  cases act with
  | i1 | junk | signature cps => trivial

theorem Realises.preflight {acts : List Act} {ep : ε} (h : Realises b i ep acts told) :
    ∀ e ∈ told, e.kind.preflight := by
  unfold Realises at h
  generalize b.made acts = made at h
  induction h with
  | nil => simp
  | @cons act e _ _ he _ ih =>
    obtain ⟨packet, err, rfl, -⟩ := he
    exact List.forall_mem_cons.mpr ⟨act.preflight_kind, ih⟩

theorem Preflighted.preflight {ep : ε} {started : Prop} (h : Preflighted b i ep started told) :
    ∀ e ∈ told, e.kind.preflight := by
  rcases h with ⟨-, hreal⟩ | ⟨-, rfl⟩
  · exact hreal.preflight
  · simp

/-- The transcript of a call, at each of its places. -/
def Phase (b : Bind ε) (i : Nat) (c : Call ε) (started : Prop) (told : List (Sent ε)) : Prop :=
  match c.pc with
  | .start | .clocked _ => ¬ started ∧ told = []
  | .preflight todo =>
    started ∧ ∃ acts, acts ++ todo = b.preflightActs ∧ Realises b i c.ep acts told
  | .post => Preflighted b i c.ep started told
  | .own => ∃ before after, told = before ++ after ∧ Preflighted b i c.ep started before ∧
      ∀ e ∈ after, e.kind = .afterJunk
  | .returned err => ∃ before early late,
      told = before ++ early ++ ⟨i, .own, c.bufs, c.ep, err⟩ :: late ∧
      Preflighted b i c.ep started before ∧
      (∀ e ∈ early, e.kind = .afterJunk) ∧ ∀ e ∈ late, e.kind = .afterJunk

/-- The call has not yet been at the lock. -/
def Pc.undecided : Pc → Prop
  | .start | .clocked _ => True
  | _ => False

/-- The call is at its last step, or has returned. -/
def Pc.leaving : Pc → Prop
  | .own | .returned _ => True
  | _ => False

/-- Junk of the goroutine may come in at the last step and after it. -/
theorem Phase.junk {started : Prop} (h : Phase b i c started told)
    (hpc : c.pc.leaving) (he : e.kind = .afterJunk) : Phase b i c started (told ++ [e]) := by
  have hmore {junk : List (Sent ε)} (hjunk : ∀ e ∈ junk, e.kind = .afterJunk) :
      ∀ e' ∈ junk ++ [e], e'.kind = .afterJunk :=
    List.forall_mem_append.mpr ⟨hjunk, List.forall_mem_singleton.mpr he⟩
  obtain ⟨bufs, ep, pc⟩ := c
  cases pc with
  | own =>
    obtain ⟨before, after, rfl, hbefore, hafter⟩ := h
    exact ⟨before, after ++ [e], List.append_assoc _ _ _, hbefore, hmore hafter⟩
  | returned err =>
    obtain ⟨before, early, late, rfl, hbefore, hearly, hlate⟩ := h
    refine ⟨before, early, late ++ [e], ?_, hbefore, hearly, hmore hlate⟩
    rw [List.append_assoc (before ++ early), List.cons_append]
  | _ => exact hpc.elim

/-! ## Every reachable state -/

def Call.request (c : Call ε) : List Bytes × ε := (c.bufs, c.ep)

/-- What holds of the calls in every reachable state. -/
structure Told (b : Bind ε) (reqs : List (List Bytes × ε)) (s : State ε) : Prop where
  requests : s.calls.map Call.request = reqs
  /-- Each call has the transcript of its place. -/
  phase : ∀ i c, s.calls[i]? = some c → Phase b i c (s.Started i) (transcript s.sent i)
  /-- A goroutine belongs to a call that is about to return or has returned. -/
  junkers : ∀ g ∈ s.junkers, ∃ c, s.calls[g.call]? = some c ∧ c.pc.leaving

theorem State.get_setPc (hc : s.calls[i]? = some c) (pc : Pc) (j : Nat) :
    (s.setPc i c pc).calls[j]? = if j = i then some { c with pc := pc } else s.calls[j]? := by
  have hlt : i < s.calls.length := (List.getElem?_eq_some_iff.mp hc).1
  unfold State.setPc
  by_cases hj : j = i
  · subst hj
    rw [if_pos rfl]
    exact List.getElem?_set_self hlt
  · rw [if_neg hj]
    exact List.getElem?_set_ne (Ne.symm hj)

theorem State.requests_setPc (hc : s.calls[i]? = some c) (pc : Pc) :
    (s.setPc i c pc).calls.map Call.request = s.calls.map Call.request :=
  map_set_of_eq hc rfl

namespace Told

variable {reqs : List (List Bytes × ε)}

variable {pc : Pc}

/-- A call moves to another place, and perhaps something is handed over or a preflight is
recorded because of it.  Nothing else has to be looked at. -/
theorem move (h : Told b reqs s) (hc : s.calls[i]? = some c)
    (hcalls : t.calls = (s.setPc i c pc).calls)
    (hphase : Phase b i { c with pc := pc } (t.Started i) (transcript t.sent i))
    (hstarted : ∀ j, j ≠ i → (t.Started j ↔ s.Started j))
    (hsent : ∀ j, j ≠ i → transcript t.sent j = transcript s.sent j)
    (hleaving : c.pc.leaving → pc.leaving)
    (hjunkers : ∀ g ∈ t.junkers, g ∈ s.junkers ∨ g.call = i ∧ pc.leaving) : Told b reqs t where
  requests := by rw [hcalls, s.requests_setPc hc, h.requests]
  phase j d hd := by
    rw [hcalls, s.get_setPc hc] at hd
    split_ifs at hd with hj
    · subst hj
      exact Option.some.inj hd ▸ hphase
    · rw [propext (hstarted j hj), hsent j hj]
      exact h.phase j d hd
  junkers g hg := by
    rw [hcalls, s.get_setPc hc]
    rcases hjunkers g hg with hg | ⟨hg, hpc⟩
    · obtain ⟨d, hd, hleaves⟩ := h.junkers g hg
      split_ifs with hj
      · rw [hj, hc] at hd
        exact ⟨_, rfl, hleaving (Option.some.inj hd ▸ hleaves)⟩
      · exact ⟨d, hd, hleaves⟩
    · rw [if_pos hg]
      exact ⟨_, rfl, hpc⟩

theorem goto (h : Told b reqs s) (hc : s.calls[i]? = some c)
    (hphase : Phase b i { c with pc := pc } (s.Started i) (transcript s.sent i))
    (hleaving : c.pc.leaving → pc.leaving) : Told b reqs (s.setPc i c pc) :=
  h.move hc rfl hphase (fun _ _ ↦ Iff.rfl) (fun _ _ ↦ rfl) hleaving fun _ hg ↦ .inl hg

theorem phase_at (h : Told b reqs s) (hc : s.calls[i]? = some c) (hpc : c.pc = pc) :
    Phase b i { c with pc := pc } (s.Started i) (transcript s.sent i) := by
  subst hpc
  exact h.phase i c hc

theorem step (h : Told b reqs s) (hstep : Step b s a t) : Told b reqs t := by
  cases hstep with
  | @clock i now c hc hpc _ _ =>
    have hphase : ¬ s.Started i ∧ transcript s.sent i = [] := h.phase_at hc hpc
    exact h.move hc rfl hphase (fun _ _ ↦ Iff.rfl) (fun _ _ ↦ rfl)
      (by rw [hpc]; exact id) fun _ hg ↦ .inl hg
  | pass hc hpc _ | refuse hc hpc _ =>
    exact h.goto hc (.inr (h.phase_at hc hpc)) (by rw [hpc]; exact id)
  | @permit i now c hc hpc _ =>
    obtain ⟨-, htold⟩ := h.phase_at hc hpc
    have hphase : Phase b i { c with pc := .preflight b.preflightActs }
        (State.Started { s with started := s.started ++ [⟨i, b.dstIP c.ep, now⟩] } i)
        (transcript s.sent i) := by
      refine ⟨⟨_, List.mem_append_right _ (List.mem_singleton_self _), rfl⟩, [], rfl, ?_⟩
      rw [htold]
      exact .nil
    refine h.move hc rfl hphase ?_ (fun _ _ ↦ rfl) (by rw [hpc]; exact id) fun _ hg ↦ .inl hg
    intro j hj
    simp [State.Started, or_and_right, exists_or, hj.symm]
  | crash hc hpc hrun | junkCrash hg hrem hrun => exact { h with }
  | @skip i draws err c act todo hc hpc hrun =>
    obtain ⟨hstarted, acts, hacts, hreal⟩ := h.phase_at hc hpc
    refine h.goto hc ⟨hstarted, acts ++ [act], ?_, ?_⟩ (by rw [hpc]; exact id)
    · rw [← hacts, List.append_assoc]
      rfl
    · exact hreal.skip (not_makes_of_packet hrun)
  | @send i draws err c act todo packet hc hpc hrun =>
    obtain ⟨hstarted, acts, hacts, hreal⟩ := h.phase_at hc hpc
    refine h.move hc rfl ⟨hstarted, acts ++ [act], ?_, ?_⟩ (fun _ _ ↦ Iff.rfl) ?_
      (by rw [hpc]; exact id) fun _ hg ↦ .inl hg
    · rw [← hacts, List.append_assoc]
      rfl
    · have htold : transcript (s.sent ++ [⟨i, act.kind, [packet], c.ep, err⟩]) i =
          transcript s.sent i ++ [⟨i, act.kind, [packet], c.ep, err⟩] :=
        transcript_append_self rfl
      rw [htold]
      exact hreal.send (makes_of_packet hrun) err
    · intro j hj
      exact transcript_append_ne (Ne.symm hj)
  | @done i c hc hpc =>
    obtain ⟨hstarted, acts, hacts, hreal⟩ := h.phase_at hc hpc
    rw [List.append_nil] at hacts
    refine h.goto hc (.inl ⟨hstarted, hacts ▸ hreal⟩) (by rw [hpc]; exact id)
  | @quiet i c hc hpc _ =>
    have hphase := h.phase_at hc hpc
    exact h.goto hc ⟨_, [], (List.append_nil _).symm, hphase, by simp⟩ fun _ ↦ trivial
  | @spawn i c remaining hc hpc _ =>
    have hphase := h.phase_at hc hpc
    refine h.move hc rfl ⟨_, [], (List.append_nil _).symm, hphase, by simp⟩
      (fun _ _ ↦ Iff.rfl) (fun _ _ ↦ rfl) (fun _ ↦ trivial) ?_
    exact forall_mem_concat.mpr ⟨fun _ hg ↦ .inl hg, .inr ⟨rfl, trivial⟩⟩
  | @own i err c hc hpc =>
    obtain ⟨before, after, htold, hbefore, hafter⟩ := h.phase_at hc hpc
    refine h.move hc rfl ⟨before, after, [], ?_, hbefore, hafter, by simp⟩
      (fun _ _ ↦ Iff.rfl) ?_ (fun _ ↦ trivial) fun _ hg ↦ .inl hg
    · have hown : transcript (s.sent ++ [⟨i, .own, c.bufs, c.ep, err⟩]) i =
          transcript s.sent i ++ [⟨i, .own, c.bufs, c.ep, err⟩] :=
        transcript_append_self rfl
      rw [hown, htold]
    · intro j hj
      exact transcript_append_ne (Ne.symm hj)
  | @junk k remaining draws err g junkPacket hg hrem hrun =>
    have hmem : g ∈ s.junkers := List.mem_of_getElem? hg
    refine ⟨h.requests, ?_, ?_⟩
    · intro j d hd
      by_cases hj : g.call = j
      · obtain ⟨d', hd', hleaves⟩ := h.junkers g hmem
        rw [hj, hd] at hd'
        cases hd'
        rw [transcript_append_self hj]
        exact (h.phase j d hd).junk hleaves rfl
      · rw [transcript_append_ne hj]
        exact h.phase j d hd
    · intro g' hg'
      rcases List.mem_or_eq_of_mem_set hg' with hg' | rfl
      · exact h.junkers g' hg'
      · exact h.junkers g hmem

theorem start (h : (machine b reqs).start s) : Told b reqs s := by
  obtain ⟨hcalls, hjunkers, hsent, hstarted, -⟩ := h
  refine ⟨?_, ?_, by simp [hjunkers]⟩
  · rw [hcalls, List.map_map]
    exact List.map_id _
  · intro i c hc
    rw [hcalls, List.getElem?_map] at hc
    obtain ⟨r, -, rfl⟩ := Option.map_eq_some_iff.mp hc
    refine ⟨?_, by rw [hsent]; rfl⟩
    rintro ⟨p, hp, -⟩
    rw [hstarted] at hp
    exact absurd hp List.not_mem_nil

end Told

theorem told_of_reach {reqs : List (List Bytes × ε)} {G : State ε → Label → Prop}
    (h : (machine b reqs).Reach G s) : Told b reqs s := by
  refine Machine.Reach.invariant (I := Told b reqs) (fun s hs ↦ Told.start hs) ?_ h
  intro s a t hs _ hnext
  exact hs.step (step_of_next hnext).2

/-! ## The preflight that a configuration asks for -/

open Classical in
/-- The framed I1 if it is set, the junk packets for after I1 and for before the handshake, and
those of I2 to I5 that can be parsed and are not empty. -/
def Preflight (config : AtomicNoizeConfig) (payload : Bytes) (i : Nat) (ep : ε)
    (told : List (Sent ε)) : Prop :=
  ∃ i1 afterI1 beforeHS signatures, told = i1 ++ afterI1 ++ beforeHS ++ signatures ∧
    (if config.i1 ≠ [] ∧ payload ≠ [] then ∃ e, i1 = [e] ∧ e.Packet i ep .i1 (Frames payload)
      else i1 = []) ∧
    (afterI1.length = config.jcAfterI1.toInt.toNat ∧
      ∀ e ∈ afterI1, e.Packet i ep .junk fun _ ↦ True) ∧
    (beforeHS.length = config.jcBeforeHS.toInt.toNat ∧
      ∀ e ∈ beforeHS, e.Packet i ep .junk fun _ ↦ True) ∧
    List.Forall₂ (fun cps e ↦ e.Packet i ep .signature (Parses cps))
      ([config.i2, config.i3, config.i4, config.i5].filter fun cps ↦ ∃ packet, Parses cps packet)
      signatures

theorem Bind.made_eq_self {acts : List Act}
    (h : ∀ act ∈ acts, ∃ packet, act.Makes b.payload packet) : b.made acts = acts :=
  List.filter_eq_self.mpr fun act hact ↦ by simpa using h act hact

namespace Realises

variable {ep : ε}

theorem i1 (h : Realises b i ep [.i1] told) :
    ∃ e, told = [e] ∧ e.Packet i ep .i1 (Frames b.payload) := by
  have hframes : ∃ packet, Frames b.payload packet := by
    obtain ⟨packet, hrun⟩ := Option.ne_none_iff_exists'.mp
      ((wrapInIKEv2Header_returns b.payload).run_ne_none [])
    exact ⟨packet, [], hrun⟩
  rw [Realises, Bind.made_eq_self (by simpa [Act.Makes] using hframes)] at h
  cases h with
  | cons he hnil =>
    cases hnil
    exact ⟨_, rfl, he⟩

theorem junk {n : Nat} (h : Realises b i ep (.replicate n .junk) told) :
    told.length = n ∧ ∀ e ∈ told, e.Packet i ep .junk fun _ ↦ True := by
  rw [Realises, Bind.made_eq_self
    fun act hact ↦ (List.eq_of_mem_replicate hact) ▸ ⟨[], trivial⟩] at h
  induction n generalizing told with
  | zero =>
    cases h
    simp
  | succ n ih =>
    cases h with
    | cons he hrest =>
      obtain ⟨hlength, hall⟩ := ih hrest
      exact ⟨congrArg (· + 1) hlength, List.forall_mem_cons.mpr ⟨he, hall⟩⟩

open Classical in
theorem signatures {texts : List Bytes}
    (h : Realises b i ep ((texts.filter (· ≠ [])).map .signature) told) :
    List.Forall₂ (fun cps e ↦ e.Packet i ep .signature (Parses cps))
      (texts.filter fun cps ↦ ∃ packet, Parses cps packet) told := by
  have hmade : b.made ((texts.filter (· ≠ [])).map .signature) =
      (texts.filter fun cps ↦ ∃ packet, Parses cps packet).map .signature := by
    rw [Bind.made, List.filter_map, List.filter_filter]
    refine congrArg _ (List.filter_congr fun cps _ ↦ ?_)
    rw [Function.comp_apply, ← Bool.decide_and, decide_eq_decide]
    refine and_iff_left_of_imp ?_
    rintro ⟨packet, hne, draws, hrun⟩ rfl
    cases hrun
    exact hne rfl
  rw [Realises, hmade, List.forall₂_map_left_iff] at h
  exact h

/-- The acts of a preflight are what the configuration asks for. -/
theorem asked {config : AtomicNoizeConfig} (hconfig : b.config = some config)
    (h : Realises b i ep b.preflightActs told) : Preflight config b.payload i ep told := by
  rw [Bind.preflightActs, hconfig] at h
  obtain ⟨_, signatures, rfl, h, hsignatures⟩ := h.split
  obtain ⟨_, beforeHS, rfl, h, hbeforeHS⟩ := h.split
  obtain ⟨i1, afterI1, rfl, hi1, hafterI1⟩ := h.split
  refine ⟨i1, afterI1, beforeHS, signatures, rfl, ?_, hafterI1.junk, hbeforeHS.junk,
    hsignatures.signatures⟩
  split at hi1
  · rw [if_pos ‹_›]
    exact hi1.i1
  · rw [if_neg ‹_›]
    cases hi1
    rfl

end Realises

end Vwarp.Wireguard.PreflightBind
