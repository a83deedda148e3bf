import Vwarp.Go.Io
import Vwarp.Lib.Handles
import Vwarp.Wiresocks.Udpfw

/-!
# How the UDP forwarder ends

`forwarder` has what the two loops of `NewVtunUDPForwarder` do with datagrams, and lets a loop
stop at any time once the context is done.  Here are the three goroutines as they are scheduled: a
loop looks at the context between two reads only, `ReadFrom` blocks until a datagram arrives or its
socket is closed, and the sockets are closed by a third goroutine that waits for both loops.

A run of these goroutines is a run of `forwarder` (`forwarder_of_reach`), so what was shown of
datagrams there holds here.  What is new is where the goroutines get stuck.  After the context is
done they are, as soon as no loop is between two reads and one is in `ReadFrom`: the read waits for
a datagram or for the close, and the close waits for the read (`stuck_iff`).

`shutdown_iff` says which steps lead there, and which error returns of the function leave a
socket open.
-/

namespace Vwarp.Wiresocks.Udpfw

open Vwarp.Go Vwarp.Lib

/-! ## The goroutines -/

/-- The forwarder with its goroutines.  A loop that runs is in `ReadFrom` or between two reads, a
loop that does not run has returned.  The connection of the tunnel is closed last, with which the
forwarder is `closed`. -/
structure Procs (ε : Type) where
  fwd : State ε
  /-- The loop that reads from clients is in `listener.ReadFrom`. -/
  upReading : Bool
  /-- The loop that reads from the destination is in `rconn.ReadFrom`. -/
  downReading : Bool
  listenerOpen : Bool

inductive Move (ε : Type)
  | client (cAddr : ε) (datagram : Bytes)
  | dest (datagram : Bytes)
  | cancel
  | /-- `listener.ReadFrom` returns since the listener is closed. -/
    clientClosed
  | /-- `rconn.ReadFrom` returns since the connection is closed. -/
    destClosed
  | /-- The loop that reads from clients comes to its `select`. -/
    checkUp
  | /-- The loop that reads from the destination comes to its `select`. -/
    checkDown
  | /-- `wg.Wait()` returns, and `listener.Close()`. -/
    closeListener
  | /-- `rconn.Close()`. -/
    closeRconn

/-- The step is one of the three goroutines and needs no datagram. -/
def Move.isLocal {ε : Type} : Move ε → Bool
  | client _ _ | dest _ | cancel => false
  | _ => true

variable {ε : Type} {mtu : Nat}

def Procs.next (mtu : Nat) (s : Procs ε) : Move ε → Option (Procs ε)
  | .client cAddr datagram =>
    if s.upReading ∧ s.listenerOpen then
      (s.fwd.next mtu (.client cAddr datagram)).map fun f ↦ { s with fwd := f, upReading := false }
    else none
  | .dest datagram =>
    if s.downReading ∧ !s.fwd.closed then
      (s.fwd.next mtu (.dest datagram)).map fun f ↦ { s with fwd := f, downReading := false }
    else none
  | .cancel => (s.fwd.next mtu .cancel).map fun f ↦ { s with fwd := f }
  | .clientClosed =>
    if s.upReading ∧ !s.listenerOpen then
      (s.fwd.next mtu .clientError).map fun f ↦ { s with fwd := f, upReading := false }
    else none
  | .destClosed =>
    if s.downReading ∧ s.fwd.closed then
      (s.fwd.next mtu .destError).map fun f ↦ { s with fwd := f, downReading := false }
    else none
  | .checkUp =>
    if s.upReading then none
    else if s.fwd.done then (s.fwd.next mtu .stopUp).map fun f ↦ { s with fwd := f }
    else if s.fwd.up then some { s with upReading := true } else none
  | .checkDown =>
    if s.downReading then none
    else if s.fwd.done then (s.fwd.next mtu .stopDown).map fun f ↦ { s with fwd := f }
    else if s.fwd.down then some { s with downReading := true } else none
  | .closeListener =>
    if !s.fwd.up ∧ !s.fwd.down ∧ s.listenerOpen then some { s with listenerOpen := false } else none
  | .closeRconn =>
    if !s.listenerOpen then (s.fwd.next mtu .close).map fun f ↦ { s with fwd := f } else none

def Procs.fresh : Procs ε := ⟨.fresh, false, false, true⟩

def procs (ε : Type) (mtu : Nat) : Machine (Procs ε) (Move ε) where
  start s := s = .fresh
  next := Procs.next mtu

def Procs.socketOpen (s : Procs ε) : Prop := s.listenerOpen = true ∨ s.fwd.closed = false

/-- The context is done, a socket is open, and none of the goroutines moves without a datagram. -/
def Procs.Stuck (mtu : Nat) (s : Procs ε) : Prop :=
  s.fwd.done = true ∧ s.socketOpen ∧ ∀ a : Move ε, a.isLocal = true → s.next mtu a = none

/-- The condition on a step: the context is cancelled while a loop is between two reads, and a loop
returns only while the other is not in `ReadFrom`. -/
def Timely (s : Procs ε) : Move ε → Prop
  | .cancel => s.fwd.done = true ∨ s.upReading = false ∨ s.downReading = false
  | .checkUp => s.fwd.done = true → s.downReading = false
  | .checkDown => s.fwd.done = true → s.upReading = false
  | _ => True

/-! ## Steps -/

inductive Procs.Step (mtu : Nat) (s : Procs ε) : Move ε → Procs ε → Prop
  | client {cAddr : ε} {datagram : Bytes} {f : State ε} (hreading : s.upReading = true)
      (hfwd : s.fwd.next mtu (.client cAddr datagram) = some f) :
      Step mtu s (.client cAddr datagram) { s with fwd := f, upReading := false }
  | dest {datagram : Bytes} {f : State ε} (hreading : s.downReading = true)
      (hfwd : s.fwd.next mtu (.dest datagram) = some f) :
      Step mtu s (.dest datagram) { s with fwd := f, downReading := false }
  | cancel : Step mtu s .cancel { s with fwd := { s.fwd with done := true } }
  | clientClosed (hreading : s.upReading = true) (hclosed : s.listenerOpen = false) :
      Step mtu s .clientClosed { s with upReading := false }
  | destClosed (hreading : s.downReading = true) (hclosed : s.fwd.closed = true) :
      Step mtu s .destClosed { s with downReading := false }
  | readUp (hdone : s.fwd.done = false) (hup : s.fwd.up = true) :
      Step mtu s .checkUp { s with upReading := true }
  | returnUp (hreading : s.upReading = false) (hdone : s.fwd.done = true) (hup : s.fwd.up = true) :
      Step mtu s .checkUp { s with fwd := { s.fwd with up := false } }
  | readDown (hdone : s.fwd.done = false) (hdown : s.fwd.down = true) :
      Step mtu s .checkDown { s with downReading := true }
  | returnDown (hreading : s.downReading = false) (hdone : s.fwd.done = true)
      (hdown : s.fwd.down = true) :
      Step mtu s .checkDown { s with fwd := { s.fwd with down := false } }
  | closeListener (hup : s.fwd.up = false) (hdown : s.fwd.down = false) :
      Step mtu s .closeListener { s with listenerOpen := false }
  | closeRconn (hup : s.fwd.up = false) (hdown : s.fwd.down = false)
      (hlistener : s.listenerOpen = false) (hrconn : s.fwd.closed = false) :
      Step mtu s .closeRconn { s with fwd := { s.fwd with closed := true } }

theorem Procs.step_of_next {s t : Procs ε} {a : Move ε} (h : s.next mtu a = some t) :
    Step mtu s a t := by
  cases a with
  | client cAddr datagram =>
    obtain ⟨⟨hreading, -⟩, h⟩ := Option.ite_none_right_eq_some.mp h
    obtain ⟨f, hfwd, rfl⟩ := Option.map_eq_some_iff.mp h
    exact .client hreading hfwd
  | dest datagram =>
    obtain ⟨⟨hreading, -⟩, h⟩ := Option.ite_none_right_eq_some.mp h
    obtain ⟨f, hfwd, rfl⟩ := Option.map_eq_some_iff.mp h
    exact .dest hreading hfwd
  | cancel =>
    cases h
    exact .cancel
  | clientClosed =>
    obtain ⟨⟨hreading, hclosed⟩, h⟩ := Option.ite_none_right_eq_some.mp h
    obtain ⟨f, hfwd, rfl⟩ := Option.map_eq_some_iff.mp h
    obtain ⟨-, ⟨⟩⟩ := Option.ite_none_right_eq_some.mp hfwd
    exact .clientClosed hreading (by simpa using hclosed)
  | destClosed =>
    obtain ⟨⟨hreading, hclosed⟩, h⟩ := Option.ite_none_right_eq_some.mp h
    obtain ⟨f, hfwd, rfl⟩ := Option.map_eq_some_iff.mp h
    obtain ⟨-, ⟨⟩⟩ := Option.ite_none_right_eq_some.mp hfwd
    exact .destClosed hreading hclosed
  | checkUp =>
    obtain ⟨hreading, h⟩ := Option.ite_none_left_eq_some.mp h
    split at h
    · rename_i hdone
      obtain ⟨f, hfwd, rfl⟩ := Option.map_eq_some_iff.mp h
      obtain ⟨⟨-, hup⟩, ⟨⟩⟩ := Option.ite_none_right_eq_some.mp hfwd
      exact .returnUp (by simpa using hreading) hdone hup
    · rename_i hdone
      obtain ⟨hup, ⟨⟩⟩ := Option.ite_none_right_eq_some.mp h
      exact .readUp (by simpa using hdone) hup
  | checkDown =>
    obtain ⟨hreading, h⟩ := Option.ite_none_left_eq_some.mp h
    split at h
    · rename_i hdone
      obtain ⟨f, hfwd, rfl⟩ := Option.map_eq_some_iff.mp h
      obtain ⟨⟨-, hdown⟩, ⟨⟩⟩ := Option.ite_none_right_eq_some.mp hfwd
      exact .returnDown (by simpa using hreading) hdone hdown
    · rename_i hdone
      obtain ⟨hdown, ⟨⟩⟩ := Option.ite_none_right_eq_some.mp h
      exact .readDown (by simpa using hdone) hdown
  | closeListener =>
    obtain ⟨⟨hup, hdown, -⟩, ⟨⟩⟩ := Option.ite_none_right_eq_some.mp h
    exact .closeListener (by simpa using hup) (by simpa using hdown)
  | closeRconn =>
    obtain ⟨hlistener, h⟩ := Option.ite_none_right_eq_some.mp h
    obtain ⟨f, hfwd, rfl⟩ := Option.map_eq_some_iff.mp h
    obtain ⟨⟨hup, hdown, hrconn⟩, ⟨⟩⟩ := Option.ite_none_right_eq_some.mp hfwd
    exact .closeRconn (by simpa using hup) (by simpa using hdown) (by simpa using hlistener)
      (by simpa using hrconn)

/-- Every run of the goroutines is a run of the forwarder. -/
theorem forwarder_of_reach {G : Procs ε → Move ε → Prop} {s : Procs ε}
    (h : (procs ε mtu).Reach G s) : (forwarder ε mtu).Reachable s.fwd := by
  refine h.simulate Procs.fwd ?_ ?_
  · rintro s rfl
    rfl
  · intro s a t _ hnext
    cases Procs.step_of_next hnext with
    | @client cAddr datagram _ _ hfwd => exact .inr ⟨.client cAddr datagram, trivial, hfwd⟩
    | @dest datagram _ _ hfwd => exact .inr ⟨.dest datagram, trivial, hfwd⟩
    | cancel => exact .inr ⟨.cancel, trivial, rfl⟩
    | returnUp _ hdone hup => exact .inr ⟨.stopUp, trivial, if_pos ⟨hdone, hup⟩⟩
    | returnDown _ hdone hdown => exact .inr ⟨.stopDown, trivial, if_pos ⟨hdone, hdown⟩⟩
    | closeRconn hup hdown _ hrconn =>
      exact .inr ⟨.close, trivial, if_pos ⟨by simpa using hup, by simpa using hdown,
        by simpa using hrconn⟩⟩
    | _ => exact .inl rfl

/-- A datagram changes neither which loops run nor what is done or closed. -/
structure SameControl (f f' : State ε) : Prop where
  up : f'.up = f.up
  down : f'.down = f.down
  done : f'.done = f.done
  closed : f'.closed = f.closed

theorem sameControl_client {f f' : State ε} {cAddr : ε} {datagram : Bytes}
    (h : f.next mtu (.client cAddr datagram) = some f') : SameControl f f' := by
  obtain ⟨-, ⟨⟩⟩ := Option.ite_none_right_eq_some.mp h
  exact ⟨rfl, rfl, rfl, rfl⟩

theorem sameControl_dest {f f' : State ε} {datagram : Bytes}
    (h : f.next mtu (.dest datagram) = some f') : SameControl f f' := by
  obtain ⟨-, h⟩ := Option.ite_none_right_eq_some.mp h
  split at h <;> cases h <;> exact ⟨rfl, rfl, rfl, rfl⟩

/-! ## Invariants -/

/-- What holds in every state: a loop that reads runs, both run until the context is done, and
nothing is closed before both have returned. -/
structure Procs.Inv (s : Procs ε) : Prop where
  upRuns : s.upReading = true → s.fwd.up = true
  downRuns : s.downReading = true → s.fwd.down = true
  running : s.fwd.done = false → s.fwd.up = true ∧ s.fwd.down = true
  returned : s.listenerOpen = false → s.fwd.up = false ∧ s.fwd.down = false
  closedLast : s.fwd.closed = true → s.listenerOpen = false

theorem Procs.inv_fresh : (Procs.fresh : Procs ε).Inv where
  upRuns h := by cases h
  downRuns h := by cases h
  running _ := ⟨rfl, rfl⟩
  returned h := by cases h
  closedLast h := by cases h

namespace Procs.Inv

variable {s : Procs ε} (h : s.Inv)
include h

theorem of_sameControl {f : State ε} (hf : SameControl s.fwd f) : Inv { s with fwd := f } where
  upRuns hr := hf.up.trans (h.upRuns hr)
  downRuns hr := hf.down.trans (h.downRuns hr)
  running hd := by
    obtain ⟨hup, hdown⟩ := h.running (hf.done.symm.trans hd)
    exact ⟨hf.up.trans hup, hf.down.trans hdown⟩
  returned ho := by
    obtain ⟨hup, hdown⟩ := h.returned ho
    exact ⟨hf.up.trans hup, hf.down.trans hdown⟩
  closedLast hc := h.closedLast (hf.closed.symm.trans hc)

theorem endUpRead : Inv { s with upReading := false } :=
  { h with upRuns := fun hr ↦ Bool.noConfusion hr }

theorem endDownRead : Inv { s with downReading := false } :=
  { h with downRuns := fun hr ↦ Bool.noConfusion hr }

theorem step {t : Procs ε} {a : Move ε} (hstep : Step mtu s a t) : t.Inv := by
  cases hstep with
  | client _ hfwd => exact (h.of_sameControl (sameControl_client hfwd)).endUpRead
  | dest _ hfwd => exact (h.of_sameControl (sameControl_dest hfwd)).endDownRead
  | cancel => exact { h with running := fun hd ↦ Bool.noConfusion hd }
  | clientClosed _ _ => exact h.endUpRead
  | destClosed _ _ => exact h.endDownRead
  | readUp _ hup => exact { h with upRuns := fun _ ↦ hup }
  | returnUp hreading hdone _ =>
    refine { h with
      upRuns := fun hr ↦ ?_, running := fun hd ↦ ?_, returned := fun ho ↦ ⟨rfl, (h.returned ho).2⟩ }
    · cases hreading.symm.trans hr
    · cases hdone.symm.trans hd
  | readDown _ hdown => exact { h with downRuns := fun _ ↦ hdown }
  | returnDown hreading hdone _ =>
    refine { h with
      downRuns := fun hr ↦ ?_, running := fun hd ↦ ?_,
      returned := fun ho ↦ ⟨(h.returned ho).1, rfl⟩ }
    · cases hreading.symm.trans hr
    · cases hdone.symm.trans hd
  | closeListener hup hdown =>
    exact { h with returned := fun _ ↦ ⟨hup, hdown⟩, closedLast := fun _ ↦ rfl }
  | closeRconn _ _ hlistener _ => exact { h with closedLast := fun _ ↦ hlistener }

end Procs.Inv

theorem Procs.inv_of_reach {G : Procs ε → Move ε → Prop} {s : Procs ε}
    (h : (procs ε mtu).Reach G s) : s.Inv := by
  refine h.invariant ?_ ?_
  · rintro s rfl
    exact inv_fresh
  · intro s a t hs _ hnext
    exact hs.step (step_of_next hnext)

/-! ## Where the goroutines are stuck -/

/-- The context is done, a loop is in `ReadFrom`, and no loop is between two reads. -/
structure Procs.Blocked (s : Procs ε) : Prop where
  done : s.fwd.done = true
  reads : s.upReading = true ∨ s.downReading = true
  up : s.fwd.up = true → s.upReading = true
  down : s.fwd.down = true → s.downReading = true

namespace Procs.Inv

variable {s : Procs ε} (h : s.Inv)
include h

theorem not_returned (hreads : s.upReading = true ∨ s.downReading = true) :
    ¬ (s.fwd.up = false ∧ s.fwd.down = false) := by
  rintro ⟨hup, hdown⟩
  obtain hr | hr := hreads
  · cases (h.upRuns hr).symm.trans hup
  · cases (h.downRuns hr).symm.trans hdown

theorem sockets_open (hreads : s.upReading = true ∨ s.downReading = true) :
    s.listenerOpen = true ∧ s.fwd.closed = false := by
  have hlistener : s.listenerOpen = true := by
    by_contra hl
    exact h.not_returned hreads (h.returned (by simpa using hl))
  refine ⟨hlistener, ?_⟩
  by_contra hc
  cases (h.closedLast (by simpa using hc)).symm.trans hlistener

/-- In a state that is blocked, no goroutine moves without a datagram. -/
theorem stuck_of_blocked (hs : s.Blocked) : s.Stuck mtu := by
  obtain ⟨hlistener, hrconn⟩ := h.sockets_open hs.reads
  refine ⟨hs.done, .inl hlistener, fun a ha ↦ ?_⟩
  cases a with
  | client _ _ | dest _ | cancel => cases ha
  | clientClosed | closeRconn => simp [Procs.next, hlistener]
  | destClosed => simp [Procs.next, hrconn]
  | checkUp =>
    cases hup : s.fwd.up with
    | true => simp [Procs.next, hs.up hup]
    | false => simp [Procs.next, State.next, hs.done, hup]
  | checkDown =>
    cases hdown : s.fwd.down with
    | true => simp [Procs.next, hs.down hdown]
    | false => simp [Procs.next, State.next, hs.done, hdown]
  | closeListener =>
    simp only [Procs.next]
    refine if_neg ?_
    rintro ⟨hup, hdown, -⟩
    exact h.not_returned hs.reads ⟨by simpa using hup, by simpa using hdown⟩

end Procs.Inv

/-- In a state that is not blocked, a loop returns or the sockets are closed. -/
theorem Procs.Stuck.blocked {s : Procs ε} (hs : s.Stuck mtu) : s.Blocked := by
  obtain ⟨hdone, hopen, hlocal⟩ := hs
  have hup : s.fwd.up = true → s.upReading = true := by
    intro hup
    by_contra hreading
    have hnone := hlocal .checkUp rfl
    simp [Procs.next, State.next, hreading, hdone, hup] at hnone
  have hdown : s.fwd.down = true → s.downReading = true := by
    intro hdown
    by_contra hreading
    have hnone := hlocal .checkDown rfl
    simp [Procs.next, State.next, hreading, hdone, hdown] at hnone
  refine ⟨hdone, ?_, hup, hdown⟩
  -- if no loop reads, both have returned, and the sockets are being closed
  by_contra hnot
  obtain ⟨hnup, hndown⟩ := not_or.mp hnot
  have hupFalse : s.fwd.up = false := by simpa using mt hup hnup
  have hdownFalse : s.fwd.down = false := by simpa using mt hdown hndown
  cases hlistener : s.listenerOpen with
  | true =>
    have hnone := hlocal .closeListener rfl
    simp [Procs.next, hupFalse, hdownFalse, hlistener] at hnone
  | false =>
    have hrconn : s.fwd.closed = false := hopen.resolve_left (by simp [hlistener])
    have hnone := hlocal .closeRconn rfl
    simp [Procs.next, State.next, hupFalse, hdownFalse, hlistener, hrconn] at hnone

theorem Procs.Inv.stuck_iff {s : Procs ε} (h : s.Inv) : s.Stuck mtu ↔ s.Blocked :=
  ⟨Stuck.blocked, h.stuck_of_blocked⟩

/-- From a state that is not stuck, a step leads to one that is not exactly if it is timely. -/
theorem Procs.Inv.not_stuck_iff {s t : Procs ε} {a : Move ε} (h : s.Inv) (hs : ¬ s.Stuck mtu)
    (hstep : Step mtu s a t) : ¬ t.Stuck mtu ↔ Timely s a := by
  have ht := h.step hstep
  rw [ht.stuck_iff]
  cases hstep with
  | client hreading hfwd =>
    -- the loop is between two reads
    refine iff_of_true (fun hblocked ↦ ?_) trivial
    cases hblocked.up ((sameControl_client hfwd).up.trans (h.upRuns hreading))
  | dest hreading hfwd =>
    refine iff_of_true (fun hblocked ↦ ?_) trivial
    cases hblocked.down ((sameControl_dest hfwd).down.trans (h.downRuns hreading))
  | cancel =>
    cases hdone : s.fwd.done with
    | true =>
      refine iff_of_true (fun hblocked ↦ hs (h.stuck_of_blocked ?_)) (.inl hdone)
      exact ⟨hdone, hblocked.reads, hblocked.up, hblocked.down⟩
    | false =>
      obtain ⟨hup, hdown⟩ := h.running hdone
      constructor
      · intro hnot
        by_contra hcancel
        obtain ⟨-, hreading⟩ := not_or.mp hcancel
        simp only [not_or, Bool.not_eq_false] at hreading
        exact hnot ⟨rfl, .inl hreading.1, fun _ ↦ hreading.1, fun _ ↦ hreading.2⟩
      · rintro (hd | hreading | hreading) hblocked
        · cases hdone.symm.trans hd
        · cases hreading.symm.trans (hblocked.up hup)
        · cases hreading.symm.trans (hblocked.down hdown)
  | clientClosed hreading hclosed => cases (h.upRuns hreading).symm.trans (h.returned hclosed).1
  | destClosed hreading hclosed =>
    cases (h.downRuns hreading).symm.trans (h.returned (h.closedLast hclosed)).2
  | readUp hdone _ | readDown hdone _ =>
    refine iff_of_true (fun hblocked ↦ ?_) fun hd ↦ ?_
    · cases hdone.symm.trans hblocked.done
    · cases hdone.symm.trans hd
  | returnUp hreading hdone _ =>
    -- the other loop is left alone, and is blocked if it reads
    constructor
    · intro hnot _
      by_contra hdown
      rw [Bool.not_eq_false] at hdown
      exact hnot ⟨hdone, .inr hdown, fun hup ↦ Bool.noConfusion hup, fun _ ↦ hdown⟩
    · rintro hidle ⟨-, hup | hdown, -, -⟩
      · cases hreading.symm.trans hup
      · cases (hidle hdone).symm.trans hdown
  | returnDown hreading hdone _ =>
    constructor
    · intro hnot _
      by_contra hup
      rw [Bool.not_eq_false] at hup
      exact hnot ⟨hdone, .inl hup, fun _ ↦ hup, fun hdown ↦ Bool.noConfusion hdown⟩
    · rintro hidle ⟨-, hup | hdown, -, -⟩
      · cases (hidle hdone).symm.trans hup
      · cases hreading.symm.trans hdown
  | closeListener hup hdown | closeRconn hup hdown _ _ =>
    exact iff_of_true (fun hblocked ↦ h.not_returned hblocked.reads ⟨hup, hdown⟩) trivial

theorem not_stuck_of_timely {s : Procs ε} (h : (procs ε mtu).Reach Timely s) : ¬ s.Stuck mtu := by
  have hboth : s.Inv ∧ ¬ s.Stuck mtu := by
    refine h.invariant (I := fun s ↦ s.Inv ∧ ¬ s.Stuck mtu) ?_ ?_
    · rintro s rfl
      exact ⟨Procs.inv_fresh, fun hstuck ↦ by cases hstuck.1⟩
    · rintro s a t ⟨hinv, hs⟩ htimely hnext
      have hstep := Procs.step_of_next hnext
      exact ⟨hinv.step hstep, (hinv.not_stuck_iff hs hstep).mpr htimely⟩
  exact hboth.2

/-! ## Error returns -/

/-- `NewVtunUDPForwarder` up to its goroutines, with the errors of the calls it makes: the sockets
of the process afterwards, and an error or the numbers of the two sockets. -/
def newVtunUDPForwarder (sockets : Handles) (resolve listen dial : Option Error) :
    Handles × Except Error (Nat × Nat) :=
  match resolve with
  | some err => (sockets, .error err)
  | none =>
    match listen with
    | some err => (sockets, .error err)
    | none =>
      let listener := sockets.next
      let sockets := sockets.alloc
      match dial with
      | some err => (sockets, .error err)
      | none => (sockets.alloc, .ok (listener, sockets.next))

/-- If the function returns an error, no socket is open that was not open before. -/
def LeavesNothing (sockets : Handles) (resolve listen dial : Option Error) : Prop :=
  ∀ err, (newVtunUDPForwarder sockets resolve listen dial).2 = .error err →
    ∀ i, (newVtunUDPForwarder sockets resolve listen dial).1.IsOpen i → sockets.IsOpen i

/-- An error return leaves a socket open exactly if the dial fails. -/
theorem leavesNothing_iff (sockets : Handles) (resolve listen dial : Option Error) :
    LeavesNothing sockets resolve listen dial ↔
      ¬ (resolve = none ∧ listen = none ∧ dial ≠ none) := by
  cases resolve with
  | some err => exact iff_of_true (fun _ _ _ hi ↦ hi) (by simp)
  | none =>
    cases listen with
    | some err => exact iff_of_true (fun _ _ _ hi ↦ hi) (by simp)
    | none =>
      cases dial with
      | none => exact iff_of_true (fun err herr ↦ by cases herr) (by simp)
      | some err =>
        refine iff_of_false (fun hleaves ↦ ?_) (by simp)
        have hopen := hleaves err rfl sockets.next sockets.isOpen_next
        exact absurd hopen.lt (Nat.lt_irrefl _)

/-- **How the forwarder ends.**  In every run of timely steps no state is stuck: after the context
is done and while a socket is open, one of the goroutines moves without a datagram.  And of such a
run a next step leads to a state that is not stuck exactly if it is timely.  An error return leaves
no socket open exactly if it is not one after a dial that failed. -/
theorem shutdown_iff (ε : Type) (mtu : Nat) :
    (∀ s, (procs ε mtu).Reach Timely s → ¬ s.Stuck mtu) ∧
      (∀ s a t, (procs ε mtu).Reach Timely s → (procs ε mtu).next s a = some t →
        (¬ t.Stuck mtu ↔ Timely s a)) ∧
      ∀ sockets resolve listen dial, LeavesNothing sockets resolve listen dial ↔
        ¬ (resolve = none ∧ listen = none ∧ dial ≠ none) := by
  refine ⟨fun s hs ↦ not_stuck_of_timely hs, fun s a t hs hnext ↦ ?_, leavesNothing_iff⟩
  exact (Procs.inv_of_reach hs).not_stuck_iff (not_stuck_of_timely hs) (Procs.step_of_next hnext)

/-- Both loops are in `ReadFrom` when the context is cancelled, and no datagram comes: nothing
moves, and both sockets stay open.  And a dial that fails leaves the listener open. -/
theorem shutdown_deadlock :
    (∃ s, (procs Unit 1500).Reachable s ∧ s.fwd.done = true ∧ s.listenerOpen = true ∧
        s.fwd.closed = false ∧ s.Stuck 1500) ∧
      (newVtunUDPForwarder .empty none none (some (.text (str "no route to host")))).1.IsOpen
        0 := by
  let moves : List (Move Unit) := [.checkUp, .checkDown, .cancel]
  let s : Procs Unit := ⟨{ State.fresh with done := true }, true, true, true⟩
  have hrun : (procs Unit 1500).run .fresh moves = some s := rfl
  have hreach : (procs Unit 1500).Reachable s := .of_run (.start rfl) (fun _ _ _ ↦ trivial) hrun
  refine ⟨⟨s, hreach, rfl, rfl, rfl, ?_⟩, rfl⟩
  exact (Procs.inv_of_reach hreach).stuck_of_blocked ⟨rfl, .inl rfl, fun _ ↦ rfl, fun _ ↦ rfl⟩

end Vwarp.Wiresocks.Udpfw
