import Vwarp.Config.Noize.Validator
import Vwarp.Wireguard.PreflightBind.Limit

/-!
# The order and the number of the packets around a handshake

The first call with a handshake initiation for a destination should hand over the preflight
that the configuration asks for, then its buffers, and then the junk for after the handshake;
and no more junk than `Jc` in all.  The goroutine for the junk is started before the buffers
are handed over, so that its packets can overtake them, and the junk that it is left with does
not take `JcAfterI1` into account.

Where the goroutine sends only after the buffers, and there is no junk for after I1 or none is
left for the goroutine, the order and the bound hold under every schedule.
-/

namespace Vwarp.Wireguard.PreflightBind

open Vwarp.Go Vwarp.Lib Vwarp.Config.Noize

variable {ε : Type} {b : Bind ε} {reqs : List (List Bytes × ε)} {s t : State ε} {a : Label}
  {i : Nat} {c : Call ε} {told : List (Sent ε)} {config : AtomicNoizeConfig} {payload : Bytes}

/-! ## The order -/

/-- The preflight, the buffers of the call, and then only the junk of the goroutine. -/
def Expected (config : AtomicNoizeConfig) (payload : Bytes) (i : Nat) (c : Call ε)
    (told : List (Sent ε)) : Prop :=
  ∃ before err after, told = before ++ ⟨i, .own, c.bufs, c.ep, err⟩ :: after ∧
    Preflight config payload i c.ep before ∧ ∀ e ∈ after, e.kind = .afterJunk

/-- What was handed over because of a call is as expected, up to some point; and up to the end
if the call has returned. -/
def Ordered (config : AtomicNoizeConfig) (payload : Bytes) (i : Nat) (c : Call ε)
    (told : List (Sent ε)) : Prop :=
  (∃ rest, Expected config payload i c (told ++ rest)) ∧
    ∀ err, c.pc = .returned err → Expected config payload i c told

/-- The kinds of the packets of a preflight. -/
theorem Preflight.kinds {ep : ε} (h : Preflight config payload i ep told) :
    ∃ m n, told.map (·.kind) = List.replicate m .i1 ++
      List.replicate (config.jcAfterI1.toInt.toNat + config.jcBeforeHS.toInt.toNat) .junk ++
      List.replicate n .signature := by
  have hkinds {l : List (Sent ε)} {kind : Kind} {P : Bytes → Prop}
      (hl : ∀ e ∈ l, e.Packet i ep kind P) : l.map (·.kind) = List.replicate l.length kind := by
    rw [List.eq_replicate_iff, List.length_map]
    refine ⟨rfl, List.forall_mem_map.mpr fun e he ↦ ?_⟩
    obtain ⟨packet, err, rfl, -⟩ := hl e he
    rfl
  obtain ⟨i1, afterI1, beforeHS, signatures, rfl, hi1, ⟨hlen, hafterI1⟩, ⟨hlen', hbeforeHS⟩,
    hsignatures⟩ := h
  have hi1Kinds : ∃ m, i1.map (·.kind) = List.replicate m .i1 := by
    split at hi1
    · obtain ⟨e, rfl, he⟩ := hi1
      exact ⟨1, hkinds (by simpa using he)⟩
    · exact ⟨0, by rw [hi1]; rfl⟩
  have hsignatureKinds : ∃ n, signatures.map (·.kind) = List.replicate n .signature := by
    generalize List.filter _ _ = texts at hsignatures
    induction hsignatures with
    | nil => exact ⟨0, rfl⟩
    | cons he _ ih =>
      obtain ⟨n, hn⟩ := ih
      obtain ⟨packet, err, rfl, -⟩ := he
      exact ⟨n + 1, congrArg _ hn⟩
  obtain ⟨m, hm⟩ := hi1Kinds
  obtain ⟨n, hn⟩ := hsignatureKinds
  refine ⟨m, n, ?_⟩
  rw [List.map_append, List.map_append, List.map_append, hm, hn, hkinds hafterI1, hkinds hbeforeHS,
    hlen, hlen', List.append_assoc (List.replicate m _), List.replicate_append_replicate]

theorem Expected.kinds (h : Expected config payload i c told) :
    ∃ m n k, told.map (·.kind) = List.replicate m .i1 ++
      List.replicate (config.jcAfterI1.toInt.toNat + config.jcBeforeHS.toInt.toNat) .junk ++
      List.replicate n .signature ++ .own :: List.replicate k .afterJunk := by
  obtain ⟨before, err, after, rfl, hbefore, hafter⟩ := h
  obtain ⟨m, n, hkinds⟩ := hbefore.kinds
  have hafterKinds : after.map (·.kind) = List.replicate after.length .afterJunk :=
    List.eq_replicate_iff.mpr ⟨List.length_map _, List.forall_mem_map.mpr hafter⟩
  refine ⟨m, n, after.length, ?_⟩
  rw [List.map_append, List.map_cons, hkinds, hafterKinds]

/-! ## The number of junk packets -/

def junkCount (told : List (Sent ε)) : Nat :=
  told.countP fun e ↦ e.kind = .junk ∨ e.kind = .afterJunk

def Act.isJunk : Act → Bool
  | .junk => true
  | _ => false

theorem Realises.junkCount_le {acts : List Act} {ep : ε} (h : Realises b i ep acts told) :
    junkCount told ≤ acts.countP Act.isJunk := by
  have hmade : (b.made acts).countP Act.isJunk ≤ acts.countP Act.isJunk :=
    List.Sublist.countP_le List.filter_sublist
  refine le_trans ?_ hmade
  unfold Realises at h
  generalize b.made acts = made at h
  induction h with
  | nil => exact Nat.le_refl 0
  | @cons act e _ _ he _ ih =>
    obtain ⟨packet, err, rfl, -⟩ := he
    unfold junkCount at ih ⊢
    rw [List.countP_cons, List.countP_cons]
    apply Nat.add_le_add ih
    cases act with
    | i1 | signature cps => exact Nat.le_refl 0
    | junk => exact Nat.le_refl 1

theorem junkCount_eq (told : List (Sent ε)) :
    junkCount told = (told.map (·.kind)).count .junk + (told.map (·.kind)).count .afterJunk := by
  induction told with
  | nil => rfl
  | cons e told ih =>
    unfold junkCount at ih ⊢
    rw [List.countP_cons, List.map_cons, List.count_cons, List.count_cons, ih]
    cases e.kind <;> simp <;> omega

/-- An ordered transcript has at most the junk of the preflight before the buffers. -/
theorem Ordered.count_junk_le (h : Ordered config payload i c told) :
    (told.map (·.kind)).count .junk ≤
      config.jcAfterI1.toInt.toNat + config.jcBeforeHS.toInt.toNat := by
  obtain ⟨⟨rest, hexpected⟩, -⟩ := h
  obtain ⟨m, n, k, hkinds⟩ := hexpected.kinds
  calc (told.map (·.kind)).count .junk ≤ ((told ++ rest).map (·.kind)).count .junk := by
        rw [List.map_append, List.count_append]
        exact Nat.le_add_right _ _
    _ = config.jcAfterI1.toInt.toNat + config.jcBeforeHS.toInt.toNat := by
        rw [hkinds]
        simp [List.count_replicate]

/-- The number of junk packets of a preflight. -/
theorem countP_preflightActs {config : AtomicNoizeConfig} (hconfig : b.config = some config) :
    b.preflightActs.countP Act.isJunk =
      config.jcAfterI1.toNatClampNeg + config.jcBeforeHS.toNatClampNeg := by
  have hi1 : (if config.i1 ≠ [] ∧ b.payload ≠ [] then [Act.i1] else []).countP Act.isJunk = 0 := by
    split <;> rfl
  have hjunk : ∀ n, (List.replicate n Act.junk).countP Act.isJunk = n := by
    intro n
    rw [List.countP_replicate]
    rfl
  have hsignatures : ∀ texts : List Bytes, (texts.map Act.signature).countP Act.isJunk = 0 := by
    intro texts
    rw [List.countP_map, List.countP_eq_zero]
    intro text _
    exact Bool.false_ne_true
  unfold Bind.preflightActs
  rw [hconfig]
  dsimp only
  rw [List.countP_append, List.countP_append, List.countP_append, hi1, hjunk, hjunk, hsignatures]
  omega

/-! ## The first call for a destination -/

/-- The step fits a run in which call `i` is the first for its destination: when it takes
the lock, nothing is recorded for the destination. -/
def First (b : Bind ε) (i : Nat) (s : State ε) (a : Label) : Prop :=
  a = .lock i → ∀ c, s.calls[i]? = some c → s.lastSent (b.dstIP c.ep) = none

/-- The goroutine of call `i` hands over junk only when the call has returned. -/
def AfterBuffers (i : Nat) (s : State ε) (a : Label) : Prop :=
  ∀ k draws err g, a = .junk k draws err → s.junkers[k]? = some g → g.call = i →
    ∃ c err, s.calls[i]? = some c ∧ c.pc = .returned err

/-- There is no junk for after I1, or the step does not start a goroutine for call `i`: no junk
is left for it, or the destination has already got it. -/
def Budgeted (b : Bind ε) (config : AtomicNoizeConfig) (i : Nat) (s : State ε) (a : Label) : Prop :=
  a = .post i → ∀ c, s.calls[i]? = some c → config.jcAfterI1 = 0 ∨
    config.jc - config.jcBeforeHS ≤ 0 ∨ s.postHandshakeSent (b.dstIP c.ep) = true

/-- The junk that the goroutines of call `i` still have to hand over. -/
def owed (i : Nat) (junkers : List (Junker ε)) : Nat :=
  tally (fun g ↦ if g.call = i then g.remaining else 0) junkers

theorem owed_set {junkers : List (Junker ε)} {k remaining : Nat} {g : Junker ε}
    (hg : junkers[k]? = some g) (hrem : g.remaining = remaining + 1) :
    owed i (junkers.set k { g with remaining := remaining }) + (if g.call = i then 1 else 0) =
      owed i junkers := by
  have hsum := tally_set (f := fun g : Junker ε ↦ if g.call = i then g.remaining else 0) hg
    { g with remaining := remaining }
  unfold owed
  dsimp only at hsum
  split at hsum
  · rw [if_pos ‹_›]
    omega
  · rw [if_neg ‹_›]
    omega

/-- What the goroutine of a call may hand over in such runs. -/
def leftover (config : AtomicNoizeConfig) : Nat :=
  if config.jcAfterI1 = 0 then (config.jc - config.jcBeforeHS).toNatClampNeg else 0

/-- What holds of call `i` in such runs. -/
structure Quiet (config : AtomicNoizeConfig) (i : Nat) (s : State ε) : Prop where
  /-- Before the call has returned, no junk of its goroutine was handed over. -/
  early : ∀ c, s.calls[i]? = some c → (∀ err, c.pc ≠ .returned err) →
    ∀ e ∈ transcript s.sent i, e.kind ≠ .afterJunk
  /-- After junk of the goroutine there is only more of it. -/
  late : (transcript s.sent i).Pairwise fun e e' ↦ e.kind = .afterJunk → e'.kind = .afterJunk
  /-- The junk of the goroutine does not get more. -/
  left : owed i s.junkers + ((transcript s.sent i).map (·.kind)).count .afterJunk ≤ leftover config
  /-- If the call has an initiation, it has started a preflight as soon as it has had the lock. -/
  started : ∀ c, s.calls[i]? = some c → c.initiates = true → c.pc.undecided ∨ s.Started i

namespace Quiet

variable {j : Nat} {d : Call ε} {pc : Pc} {e : Sent ε}

/-- The call that moves is `i` or another one. -/
theorem of_setPc (h : Quiet config i s) (hd : s.calls[j]? = some d)
    (hpc : ∀ err, d.pc ≠ .returned err)
    (hstarted : j = i → d.initiates = true → pc.undecided ∨ t.Started i)
    (hkeeps : s.Started i → t.Started i) (hc : (s.setPc j d pc).calls[i]? = some c) :
    ((∀ err, c.pc ≠ .returned err) → ∀ e ∈ transcript s.sent i, e.kind ≠ .afterJunk) ∧
      (c.initiates = true → c.pc.undecided ∨ t.Started i) := by
  rw [s.get_setPc hd] at hc
  split_ifs at hc with hij
  · subst hij
    cases hc
    exact ⟨fun _ ↦ h.early d hd hpc, hstarted rfl⟩
  · exact ⟨h.early c hc, fun hinit ↦ (h.started c hc hinit).imp_right hkeeps⟩

theorem move (h : Quiet config i s) (hd : s.calls[j]? = some d) (hpc : ∀ err, d.pc ≠ .returned err)
    (hstarted : j = i → d.initiates = true → pc.undecided ∨ t.Started i)
    (hkeeps : s.Started i → t.Started i) (hcalls : t.calls = (s.setPc j d pc).calls)
    (hsent : transcript t.sent i = transcript s.sent i) (hjunkers : t.junkers = s.junkers) :
    Quiet config i t where
  early c hc := by
    rw [hcalls] at hc
    rw [hsent]
    exact (h.of_setPc hd hpc hstarted hkeeps hc).1
  late := hsent ▸ h.late
  left := by
    rw [hsent, hjunkers]
    exact h.left
  started c hc := by
    rw [hcalls] at hc
    exact (h.of_setPc hd hpc hstarted hkeeps hc).2

/-- A call that has not returned hands something over. -/
theorem speak (h : Quiet config i s) (hd : s.calls[j]? = some d) (hpc : ∀ err, d.pc ≠ .returned err)
    (hdecided : ¬ d.pc.undecided) (he : e.call = j) (hkind : e.kind ≠ .afterJunk) :
    Quiet config i { s.setPc j d pc with sent := s.sent ++ [e] } := by
  have hstarted : j = i → d.initiates = true → pc.undecided ∨ s.Started i := by
    rintro rfl hinit
    exact .inr ((h.started d hd hinit).resolve_left hdecided)
  by_cases hji : j = i
  · subst hji
    have hnone := h.early d hd hpc
    refine ⟨fun c hc _ ↦ ?_, ?_, ?_, fun c hc ↦ (h.of_setPc hd hpc hstarted id hc).2⟩
    · rw [transcript_append_self he, List.forall_mem_append]
      exact ⟨hnone, by simpa using hkind⟩
    · rw [transcript_append_self he]
      refine List.pairwise_append.mpr ⟨h.late, List.pairwise_singleton _ _, ?_⟩
      exact fun e' he' _ _ hjunk ↦ absurd hjunk (hnone e' he')
    · have hcount : ([e].map (·.kind)).count .afterJunk = 0 :=
        List.count_eq_zero.mpr (by simpa using hkind.symm)
      rw [transcript_append_self he, List.map_append, List.count_append, hcount]
      exact h.left
  · exact h.move hd hpc hstarted id rfl (transcript_append_ne (he ▸ hji)) rfl

/-- No step breaks it, as long as the call is the first, the junk comes after the buffers and
fits. -/
theorem step (hconfig : b.config = some config) (h : Quiet config i s) (htold : Told b reqs s)
    (hfirst : First b i s a) (hafter : AfterBuffers i s a) (hfits : Budgeted b config i s a)
    (hstep : Step b s a t) : Quiet config i t := by
  have hpast {d : Call ε} {j : Nat} {pc : Pc} (hd : s.calls[j]? = some d)
      (hdecided : ¬ d.pc.undecided) : j = i → d.initiates = true → pc.undecided ∨ s.Started i := by
    rintro rfl hinit
    exact .inr ((h.started d hd hinit).resolve_left hdecided)
  cases hstep with
  | @clock j now d hd hpc _ _ =>
    refine h.move hd (by simp [hpc]) (fun _ _ ↦ .inl ?_) id rfl rfl rfl
    exact trivial
  | pass hd hpc hno =>
    refine h.move hd (by simp [hpc]) (fun _ hinit ↦ ?_) id rfl rfl rfl
    cases hno.symm.trans hinit
  | permit hd hpc _ =>
    refine h.move hd (by simp [hpc]) ?_ ?_ rfl rfl rfl
    · rintro rfl _
      exact .inr ⟨_, List.mem_append_right _ (List.mem_singleton_self _), rfl⟩
    · rintro ⟨p, hp, hpi⟩
      exact ⟨p, List.mem_append_left _ hp, hpi⟩
  | @refuse j now d hd hpc hpermits =>
    refine h.move hd (by simp [hpc]) ?_ id rfl rfl rfl
    rintro rfl _
    refine absurd ?_ hpermits
    rw [State.permits, hfirst rfl d hd]
    trivial
  | crash | junkCrash => exact { h with }
  | skip hd hpc _ | done hd hpc | quiet hd hpc _ =>
    exact h.move hd (by simp [hpc]) (hpast hd (by simp [hpc, Pc.undecided])) id rfl rfl rfl
  | @send j draws err d act todo packet hd hpc _ =>
    refine h.speak hd (by simp [hpc]) (by simp [hpc, Pc.undecided]) rfl ?_
    cases act <;> exact Kind.noConfusion
  | @spawn j d remaining hd hpc hjunk =>
    have hmove : Quiet config i (s.setPc j d .own) :=
      h.move hd (by simp [hpc]) (hpast hd (by simp [hpc, Pc.undecided])) id rfl rfl rfl
    refine ⟨hmove.early, h.late, ?_, hmove.started⟩
    rw [owed, tally_concat]
    split_ifs with hji
    · dsimp only at hji
      subst hji
      have howed : owed j s.junkers = 0 := by
        refine tally_eq_zero fun g hg ↦ if_neg ?_
        rintro rfl
        obtain ⟨d', hd', hleaves⟩ := htold.junkers g hg
        rw [hd] at hd'
        cases hd'
        rw [hpc] at hleaves
        exact hleaves
      have hnone : ((transcript s.sent j).map (·.kind)).count .afterJunk = 0 := by
        rw [List.count_eq_zero, List.mem_map]
        rintro ⟨e, he, hkind⟩
        exact h.early d hd (by simp [hpc]) e he hkind
      obtain ⟨config', hconfig', hremaining, hleft⟩ := State.remainingJunk_eq_some hjunk
      cases hconfig.symm.trans hconfig'
      have hleftover : leftover config = remaining := by
        rw [leftover, if_pos ((hfits rfl d hd).resolve_right hleft), hremaining]
      change owed j s.junkers + remaining + ((transcript s.sent j).map (·.kind)).count .afterJunk ≤
        _
      omega
    · exact h.left
  | own hd hpc =>
    exact h.speak hd (by simp [hpc]) (by simp [hpc, Pc.undecided]) rfl Kind.noConfusion
  | @junk k remaining draws err g junkPacket hg hrem _ =>
    have howed := owed_set (i := i) hg hrem
    have hleft := h.left
    by_cases hcall : g.call = i
    · rw [if_pos hcall] at howed
      refine ⟨fun c hc hpc ↦ ?_, ?_, ?_, h.started⟩
      · obtain ⟨c', err', hc', hreturned⟩ := hafter k draws err g rfl hg hcall
        rw [hc] at hc'
        cases hc'
        exact absurd hreturned (hpc err')
      · rw [transcript_append_self hcall]
        exact List.pairwise_append.mpr ⟨h.late, List.pairwise_singleton _ _, by simp⟩
      · rw [transcript_append_self hcall, List.map_append, List.count_append, List.map_singleton,
          List.count_singleton_self]
        dsimp only
        omega
    · rw [if_neg hcall, Nat.add_zero] at howed
      refine ⟨fun c hc ↦ ?_, ?_, ?_, h.started⟩
      · rw [transcript_append_ne hcall]
        exact h.early c hc
      · rw [transcript_append_ne hcall]
        exact h.late
      · rw [transcript_append_ne hcall, howed]
        exact hleft

theorem start (h : (machine b reqs).start s) : Quiet config i s := by
  obtain ⟨hcalls, hjunkers, hsent, -, -⟩ := h
  refine ⟨by simp [hsent, transcript], by simp [hsent, transcript], ?_, ?_⟩
  · rw [hjunkers, hsent]
    exact Nat.zero_le _
  · intro c hc _
    rw [hcalls, List.getElem?_map] at hc
    obtain ⟨r, -, rfl⟩ := Option.map_eq_some_iff.mp hc
    exact .inl trivial

end Quiet

/-- A preflight that has come to some point can be completed, and the buffers handed over. -/
theorem Realises.exists_expected (hconfig : b.config = some config) {acts todo : List Act}
    (hacts : acts ++ todo = b.preflightActs) (h : Realises b i c.ep acts told) :
    ∃ rest, Expected config b.payload i c (told ++ rest) := by
  obtain ⟨rest, hrest⟩ := Realises.exists_told b i c.ep todo
  refine ⟨rest ++ [⟨i, .own, c.bufs, c.ep, none⟩], told ++ rest, none, [], ?_, ?_, by simp⟩
  · rw [List.append_assoc]
  · have hall := h.append hrest
    rw [hacts] at hall
    exact hall.asked hconfig

/-- If the junk of the goroutine comes only after the buffers, the transcript is in order. -/
theorem Phase.ordered {started : Prop} (hconfig : b.config = some config)
    (h : Phase b i c started told)
    (hearly : (∀ err, c.pc ≠ .returned err) → ∀ e ∈ told, e.kind ≠ .afterJunk)
    (hlate : told.Pairwise fun e e' ↦ e.kind = .afterJunk → e'.kind = .afterJunk)
    (hstarted : c.pc.undecided ∨ started) : Ordered config b.payload i c told := by
  -- before the call has returned there is a point to which the preflight has come
  have hupTo {acts todo : List Act} (hpc : ∀ err, c.pc ≠ .returned err)
      (hacts : acts ++ todo = b.preflightActs) (hreal : Realises b i c.ep acts told) :
      Ordered config b.payload i c told :=
    ⟨hreal.exists_expected hconfig hacts, fun err herr ↦ absurd herr (hpc err)⟩
  have hwhole {before : List (Sent ε)} (hdecided : ¬ c.pc.undecided)
      (hbefore : Preflighted b i c.ep started before) : Realises b i c.ep b.preflightActs before :=
    (hbefore.resolve_right fun hno ↦ hno.1 (hstarted.resolve_left hdecided)).2
  obtain ⟨bufs, ep, pc⟩ := c
  cases pc with
  | start | clocked now =>
    obtain ⟨-, rfl⟩ := h
    exact hupTo nofun (List.nil_append _) .nil
  | preflight todo =>
    obtain ⟨-, acts, hacts, hreal⟩ := h
    exact hupTo nofun hacts hreal
  | post => exact hupTo nofun (List.append_nil _) (hwhole id h)
  | own =>
    obtain ⟨before, after, rfl, hbefore, hafter⟩ := h
    have hnil : after = [] := List.eq_nil_iff_forall_not_mem.mpr fun e he ↦
      hearly nofun e (List.mem_append_right _ he) (hafter e he)
    subst hnil
    rw [List.append_nil] at hupTo ⊢
    exact hupTo nofun (List.append_nil _) (hwhole id hbefore)
  | returned err =>
    obtain ⟨before, early, late, rfl, hbefore, hearlyJunk, hlateJunk⟩ := h
    have hnil : early = [] := by
      refine List.eq_nil_iff_forall_not_mem.mpr fun e he ↦ ?_
      have hown := (List.pairwise_append.mp hlate).2.2 e (List.mem_append_right _ he) _
        List.mem_cons_self (hearlyJunk e he)
      cases hown
    subst hnil
    rw [List.append_nil]
    have hexpected : Expected config b.payload i ⟨bufs, ep, .returned err⟩
        (before ++ ⟨i, .own, bufs, ep, err⟩ :: late) :=
      ⟨before, err, late, rfl, (hwhole id hbefore).asked hconfig, hlateJunk⟩
    exact ⟨⟨[], by rwa [List.append_nil]⟩, fun _ _ ↦ hexpected⟩

theorem counts_of_valid {config : AtomicNoizeConfig} (h : validateAtomicNoizeConfig config = none) :
    0 ≤ config.jcAfterI1.toInt ∧ 0 ≤ config.jcBeforeHS.toInt := by
  have hcounts := firstFailure_eq_none.mp h
    (decide (config.jcAfterI1 < 0 ∨ config.jcBeforeHS < 0 ∨ config.jcAfterHS < 0), _)
    (List.mem_cons_of_mem _ (List.mem_cons_of_mem _ List.mem_cons_self))
  have hnot := of_decide_eq_false hcounts
  rw [not_or, not_or, Int64.not_lt, Int64.not_lt] at hnot
  exact ⟨Int64.le_iff_toInt_le.mp hnot.1, Int64.le_iff_toInt_le.mp hnot.2.1⟩

/-- In every run in which call `i` is the first for its destination, the goroutine sends only after
the buffers, and its junk fits, and for every accepted configuration whose counts before the
handshake fit in `Jc`: what is handed over because of the call is the preflight that the
configuration asks for, the buffers and the junk of the goroutine, in this order, and has at most
`Jc` junk packets. -/
theorem first_send_ordered {config : AtomicNoizeConfig} (hconfig : b.config = some config)
    (hvalid : validateAtomicNoizeConfig config = none)
    (hcount : config.jcAfterI1.toInt + config.jcBeforeHS.toInt ≤ config.jc.toInt)
    (h : (machine b reqs).Reach
      (fun s a ↦ First b i s a ∧ AfterBuffers i s a ∧ Budgeted b config i s a) s)
    (hc : s.calls[i]? = some c) (hinit : c.initiates = true) :
    Ordered config b.payload i c (transcript s.sent i) ∧
      (junkCount (transcript s.sent i) : Int) ≤ config.jc.toInt := by
  have hquiet : Told b reqs s ∧ Quiet config i s := by
    refine Machine.Reach.invariant (I := fun s ↦ Told b reqs s ∧ Quiet config i s)
      (fun s hs ↦ ⟨Told.start hs, Quiet.start hs⟩) ?_ h
    rintro s a t ⟨htold, hquiet⟩ ⟨hfirst, hafter, hfits⟩ hnext
    have hstep := (step_of_next hnext).2
    exact ⟨htold.step hstep, hquiet.step hconfig htold hfirst hafter hfits hstep⟩
  obtain ⟨htold, hquiet⟩ := hquiet
  have hordered : Ordered config b.payload i c (transcript s.sent i) :=
    (htold.phase i c hc).ordered hconfig (hquiet.early c hc) hquiet.late (hquiet.started c hc hinit)
  refine ⟨hordered, ?_⟩
  have hjunk := hordered.count_junk_le
  have hleft := hquiet.left
  obtain ⟨hafterI1, hbeforeHS⟩ := counts_of_valid hvalid
  have hclamp (n : Int64) : n.toNatClampNeg = n.toInt.toNat := rfl
  have hzero : (0 : Int64).toInt = 0 := rfl
  have hjc := Int64.toInt_lt config.jc
  have hsub : (config.jc - config.jcBeforeHS).toInt = config.jc.toInt - config.jcBeforeHS.toInt :=
    toInt_sub_of_fits (by omega) (by omega)
  rw [leftover, hclamp, hsub] at hleft
  rw [junkCount_eq]
  split_ifs at hleft with hnone
  · rw [hnone] at hjunk
    omega
  · omega

/-- A configuration with these counts and junk packets of one byte. -/
def junkConfig (jc jcAfterI1 jcBeforeHS : Int64) : AtomicNoizeConfig :=
  ⟨[], [], [], [], [], 0, 0, jc, 1, 1, jcAfterI1, jcBeforeHS, 0, 0, false, 0⟩

/-- A bind with this configuration, for one destination. -/
def junkBind (config : AtomicNoizeConfig) : Bind Unit := ⟨fun _ ↦ .v4 0, some config, [], 10⟩

def initiation : List Bytes × Unit := ([List.replicate 148 1], ())

/-- A configuration with I1, a signature packet that can be parsed, one that cannot, and a junk
packet before and one after the handshake. -/
def fullConfig : AtomicNoizeConfig :=
  { junkConfig 2 0 1 with i1 := str "<b 01>", i2 := str "<b 02>", i3 := str "<r x>" }

def fullBind : Bind Unit := { junkBind fullConfig with payload := [1] }

set_option maxRecDepth 4096 in
/-- The whole sequence, with the junk of the goroutine after the buffers. -/
theorem first_send_ordered_full : ∃ s : State Unit,
    (transcript s.sent 0).map (·.kind) = [.i1, .junk, .signature, .own, .afterJunk] ∧
    Expected fullConfig [1] 0 ⟨initiation.1, (), .returned none⟩ (transcript s.sent 0) := by
  have hstart : (machine fullBind [initiation]).Reach
      (fun s a ↦ First fullBind 0 s a ∧ AfterBuffers 0 s a ∧ Budgeted fullBind fullConfig 0 s a)
      (.fresh [initiation]) := .start (start_fresh _ _)
  have hscan := hstart.step (a := .scan 0 5) ⟨nofun, nofun, nofun⟩ rfl
  have hlock := hscan.step (a := .lock 0) ⟨fun _ _ _ ↦ rfl, nofun, nofun⟩ rfl
  have hi1 := hlock.step (a := .act 0 [] none) ⟨nofun, nofun, nofun⟩ rfl
  have hjunk := hi1.step (a := .act 0 [] none) ⟨nofun, nofun, nofun⟩ rfl
  have hi2 := hjunk.step (a := .act 0 [] none) ⟨nofun, nofun, nofun⟩ rfl
  have hi3 := hi2.step (a := .act 0 [] none) ⟨nofun, nofun, nofun⟩ rfl
  have hdone := hi3.step (a := .done 0) ⟨nofun, nofun, nofun⟩ rfl
  have hpost := hdone.step (a := .post 0) ⟨nofun, nofun, fun _ _ _ ↦ .inl rfl⟩ rfl
  have hown := hpost.step (a := .own 0 none) ⟨nofun, nofun, nofun⟩ rfl
  have hlast := hown.step (a := .junk 0 [] none)
    ⟨nofun, fun _ _ _ _ _ _ _ ↦ ⟨_, none, rfl, rfl⟩, nofun⟩ rfl
  exact ⟨_, rfl, (first_send_ordered rfl (by decide) (by decide) hlast rfl rfl).1.2 none rfl⟩

set_option maxRecDepth 4096 in
/-- With `Jc = 2` and `JcAfterI1 = 1`, which is accepted, the goroutine hands over two junk
packets before the buffers; with the one after I1 that makes three. -/
theorem first_send_overtaken : validateAtomicNoizeConfig (junkConfig 2 1 0) = none ∧
    ∃ (s : State Unit) (c : Call Unit),
      (machine (junkBind (junkConfig 2 1 0)) [initiation]).Reach
        (First (junkBind (junkConfig 2 1 0)) 0) s ∧
      s.calls[0]? = some c ∧ c.initiates = true ∧
      (transcript s.sent 0).map (·.kind) = [.junk, .afterJunk, .afterJunk, .own] ∧
      ¬ Ordered (junkConfig 2 1 0) [] 0 c (transcript s.sent 0) ∧
      ¬ (junkCount (transcript s.sent 0) : Int) ≤ (junkConfig 2 1 0).jc.toInt := by
  have hstart : (machine (junkBind (junkConfig 2 1 0)) [initiation]).Reach
      (First (junkBind (junkConfig 2 1 0)) 0) (.fresh [initiation]) := .start (start_fresh _ _)
  have hscan := hstart.step (a := .scan 0 5) nofun rfl
  have hlock := hscan.step (a := .lock 0) (fun _ _ _ ↦ rfl) rfl
  have hact := hlock.step (a := .act 0 [some 7] none) nofun rfl
  have hdone := hact.step (a := .done 0) nofun rfl
  have hpost := hdone.step (a := .post 0) nofun rfl
  have hjunk := hpost.step (a := .junk 0 [some 8] none) nofun rfl
  have hjunk' := hjunk.step (a := .junk 0 [some 9] none) nofun rfl
  have hown := hjunk'.step (a := .own 0 none) nofun rfl
  refine ⟨by decide, _, _, hown, rfl, rfl, rfl, ?_, by decide⟩
  rintro ⟨⟨rest, hexpected⟩, -⟩
  -- the second packet would have to be a signature packet or the buffers
  obtain ⟨m, n, k, hkinds⟩ := hexpected.kinds
  cases m with
  | zero =>
    cases n with
    | zero => cases hkinds
    | succ n => cases hkinds
  | succ m => cases hkinds

end Vwarp.Wireguard.PreflightBind
