import Vwarp.App.MasqueTunnel.Step
import Vwarp.Masque.Adapter

/-!
# The sockets of the recovery loop

The recovery goroutine closes the adapter and makes a new one, up to five times for each signal
and for as long as the tunnel is down.  `Process` puts the adapter and the table of sockets beside
the state of the goroutines: the step that calls the factory closes the current adapter and runs
`NewMasqueAdapter`, and no other step touches a socket.  Forgetting the sockets gives back a run
of the goroutines (`tunnel_of_reach`).

The only socket that may be open is that of the current adapter.  An attempt whose QUIC or
connect-ip dial fails leaves its socket open for good, so a tunnel that stays down loses a socket
with every attempt (`recovery_leaks`).  As long as no attempt fails in that way there is at most
one open socket in every state, whatever else fails: `sockets_of_clean`.
-/

namespace Vwarp.App.MasqueTunnel

open Vwarp.Go Vwarp.Lib Vwarp.Masque

/-- The goroutines, the adapter that recovery replaces, and the sockets of the process. -/
structure Process where
  tunnel : State
  adapter : MasqueAdapter
  sockets : Handles

/-- A step, with what `NewMasqueAdapter` meets if the step calls the factory. -/
structure Process.Label where
  goroutine : Goroutine
  env : Env
  attempt : Attempt

def Process.CallsFactory (p : Process) (a : Process.Label) : Prop :=
  a.goroutine = .recovery ∧ p.tunnel.recovery.pc = .factory

instance (p : Process) (a : Process.Label) : Decidable (p.CallsFactory a) :=
  inferInstanceAs (Decidable (_ ∧ _))

/-- The outcome of the factory, after the current adapter was closed. -/
def Process.factory (noize : Bool) (p : Process) (attempt : Attempt) :
    Handles × Except Bytes MasqueAdapter :=
  newMasqueAdapter noize attempt (p.adapter.close p.sockets)

/-- The adapter after the factory was called: the old one if there is no new one. -/
def Process.replaced (noize : Bool) (p : Process) (attempt : Attempt) : MasqueAdapter :=
  match (p.factory noize attempt).2 with
  | .ok newAdapter => newAdapter
  | .error _ => p.adapter

/-- A step.  The goroutines see an adapter as the number of sockets opened before it. -/
def Process.next (noize : Bool) (p : Process) (a : Process.Label) : Option Process :=
  if p.CallsFactory a then
    let res := (p.factory noize a.attempt).2.map fun _ ↦ p.sockets.next
    (MasqueTunnel.next p.tunnel (a.goroutine, ⟨a.env.now, res⟩)).map fun t ↦
      ⟨t, p.replaced noize a.attempt, (p.factory noize a.attempt).1⟩
  else
    (MasqueTunnel.next p.tunnel (a.goroutine, a.env)).map fun t ↦ { p with tunnel := t }

/-- `maintainMasqueTunnel` with its sockets; at the start the adapter has the only one. -/
def process (noize : Bool) : Machine Process Process.Label where
  start p := machine.start p.tunnel ∧ p.adapter = ⟨some (.udp 0)⟩ ∧ p.sockets = Handles.empty.alloc
  next := Process.next noize

/-- An attempt of recovery fails only before it has a socket, or with a response. -/
def Process.CleanAttempt (p : Process) (a : Process.Label) : Prop :=
  p.CallsFactory a → a.attempt.Clean

/-- What is open is the socket of the current adapter. -/
def Process.Held (p : Process) : Prop := ∀ i, p.sockets.IsOpen i → p.adapter.socket = some i

variable {noize : Bool} {p q : Process} {a : Process.Label}

/-! ## The goroutines -/

theorem Process.next_tunnel (h : p.next noize a = some q) :
    ∃ b, MasqueTunnel.next p.tunnel b = some q.tunnel := by
  unfold Process.next at h
  split at h
  all_goals
    obtain ⟨t, ht, rfl⟩ := Option.map_eq_some_iff.mp h
    exact ⟨_, ht⟩

theorem tunnel_of_reach (h : (process noize).Reachable p) : machine.Reachable p.tunnel := by
  refine h.simulate (N := machine) (H := Machine.anyStep) Process.tunnel ?_ ?_
  · intro p hstart
    exact hstart.1
  · intro p a q _ hnext
    obtain ⟨b, hb⟩ := Process.next_tunnel hnext
    exact .inr ⟨b, trivial, hb⟩

/-! ## The sockets -/

theorem Process.Held.close (h : p.Held) (i : Nat) : ¬ (p.adapter.close p.sockets).IsOpen i :=
  Handles.not_isOpen_closeHeld h i

theorem Process.Held.factory (h : p.Held) {attempt : Attempt} (hclean : attempt.Clean) (i : Nat)
    (hopen : (p.factory noize attempt).1.IsOpen i) :
    (p.replaced noize attempt).socket = some i := by
  obtain ⟨adapter, hok, hsocket⟩ := hclean.held h.close i hopen
  rw [Process.replaced, Process.factory, hok]
  exact hsocket

theorem Process.Held.step (h : p.Held) (hclean : p.CleanAttempt a)
    (hnext : p.next noize a = some q) : q.Held := by
  unfold Process.next at hnext
  split_ifs at hnext with hcalls
  · obtain ⟨t, -, rfl⟩ := Option.map_eq_some_iff.mp hnext
    exact h.factory (hclean hcalls)
  · obtain ⟨t, -, rfl⟩ := Option.map_eq_some_iff.mp hnext
    exact h

theorem held_of_start (h : (process noize).start p) : p.Held := by
  obtain ⟨-, hadapter, hsockets⟩ := h
  intro i hopen
  rw [hsockets] at hopen
  have hnone : ∀ j, ¬ Handles.empty.IsOpen j := fun j hj ↦ nomatch hj
  rw [hadapter, Handles.eq_next_of_isOpen_alloc hnone hopen]
  rfl

/-- In every run whose attempts are clean at most one socket is open in every state, the one of
the current adapter; and an attempt is clean exactly if, whenever it returns an error, it leaves
no socket open that it opened. -/
theorem sockets_of_clean (h : (process noize).Reach Process.CleanAttempt p) :
    (∀ i, p.sockets.IsOpen i → p.adapter.socket = some i) ∧ p.sockets.openHandles.card ≤ 1 ∧
      ∀ attempt, attempt.Clean ↔ Closes noize attempt := by
  have hheld : p.Held := h.invariant (I := Process.Held) (fun _ ↦ held_of_start)
    (fun _ _ _ hheld hclean hnext ↦ hheld.step hclean hnext)
  exact ⟨hheld, Handles.card_openHandles_le_one hheld, fun attempt ↦
    (closes_iff noize attempt).symm⟩

/-! ## Runs -/

def freshProcess : Process := ⟨start 0 0 0 0, ⟨some (.udp 0)⟩, Handles.empty.alloc⟩

/-- Steps of one goroutine that meet the same attempt, at time 1000. -/
def steps (n : Nat) (goroutine : Goroutine) (attempt : Attempt) : List Process.Label :=
  List.replicate n ⟨goroutine, ⟨1000, .ok 0⟩, attempt⟩

/-- The health monitor sees a stale connection, and recovery takes some steps. -/
def staleTunnel (n : Nat) (attempt : Attempt) : List Process.Label :=
  steps 7 .health attempt ++ steps n .recovery attempt

def answered : Attempt := ⟨none, none, none, .ok (some ⟨200, str "200 OK"⟩)⟩

/-- An attempt that gets no answer to its first packet. -/
def unanswered : Attempt :=
  ⟨none, none, some (str "timeout: no recent network activity"), .ok none⟩

theorem start_freshProcess : (process noize).start freshProcess :=
  ⟨⟨0, 0, 0, 0, rfl⟩, rfl, rfl⟩

theorem attempt_of_mem_staleTunnel {n : Nat} {attempt : Attempt} (h : a ∈ staleTunnel n attempt) :
    a.attempt = attempt := by
  rcases List.mem_append.mp h with h | h
  all_goals rw [List.eq_of_mem_replicate h]

/-- Recovery replaces the adapter at its first attempt and is idle again: one socket is open. -/
theorem sockets_of_clean_recovered :
    ∃ p, (process true).run freshProcess (staleTunnel 17 answered) = some p ∧
      p.tunnel.recovery.pc = .idle ∧ p.adapter.socket = some 1 ∧ p.sockets.IsOpen 1 ∧
      p.sockets.openHandles.card ≤ 1 := by
  have hclean : answered.Clean := fun _ _ ↦ ⟨rfl, _, rfl⟩
  have hreach {p : Process}
      (hrun : (process true).run freshProcess (staleTunnel 17 answered) = some p) :
      (process true).Reach Process.CleanAttempt p := by
    refine Machine.Reach.of_run (.start start_freshProcess) (fun a ha p _ ↦ ?_) hrun
    rw [attempt_of_mem_staleTunnel ha]
    exact hclean
  exact ⟨_, rfl, rfl, rfl, rfl, (sockets_of_clean (hreach rfl)).2.1⟩

/-- The five attempts of one cycle get no answer: when recovery is idle again, five sockets are
open that nothing holds. -/
theorem recovery_leaks :
    ∃ p, (process true).Reachable p ∧ p.tunnel.recovery.pc = .idle ∧ p.adapter.socket = some 0 ∧
      p.sockets.openHandles = {1, 2, 3, 4, 5} ∧ ¬ p.sockets.openHandles.card ≤ 1 ∧
      ¬ Closes true unanswered := by
  have hreach {p : Process}
      (hrun : (process true).run freshProcess (staleTunnel 25 unanswered) = some p) :
      (process true).Reachable p :=
    Machine.Reach.of_run (.start start_freshProcess) (fun _ _ _ ↦ trivial) hrun
  refine ⟨_, hreach rfl, rfl, rfl, by decide, by decide, fun hcloses ↦ ?_⟩
  obtain ⟨hnone, -⟩ := (closes_iff true unanswered).mp hcloses rfl rfl
  cases hnone

end Vwarp.App.MasqueTunnel
