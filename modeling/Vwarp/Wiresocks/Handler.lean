import Vwarp.Lib.Channel
import Vwarp.Lib.Machine
import Vwarp.Wiresocks.Copy

/-!
# The handler of a tunnelled connection

`generalHandler` starts two goroutines that copy between the client's connection and the one
through the tunnel, and waits for both on a channel.  Its comment says that it closes the
connections and waits for the other copy; the closing is left to deferred calls, which run after
the second receive.

The machine has the handler and the two goroutines, from the moment the connection through the
tunnel is there.  A step of a goroutine is a round of `copyConnTimeout`.  While the connection that
it reads from is open, it is the peer that lets a round take place, by sending, by ending the
stream or by an error; for TCP there is no deadline that would end a read.  Once that connection
is closed, a round fails by itself.  So a step is `local` if it needs no peer.

The states that the comment means to exclude are those in which one copy has ended and the handler
waits for the other with connections that are open.  `torn_down_iff` says which steps lead there.
-/

namespace Vwarp.Wiresocks.Handler

open Vwarp.Go Vwarp.Lib

/-- `BuffSize`. -/
def buffSize : Nat := 65536

/-- `syscall.ECONNRESET`. -/
def econnreset : Error := .text (str "connection reset by peer")

inductive Side
  | /-- From `req.Conn` to `conn`. -/
    up
  | /-- From `conn` to `req.Conn`. -/
    down
deriving DecidableEq, Repr

def Side.other : Side → Side
  | up => down
  | down => up

inductive Copier
  | /-- In `copyConnTimeout`, after some rounds. -/
    copying (rounds : List Round)
  | /-- At the send on `done`. -/
    sending (err : Option Error)
  | ended
deriving DecidableEq

namespace Copier

/-- A round of a goroutine that copies. -/
def round (r : Round) : Copier → Option Copier
  | copying rounds =>
    match copyConnTimeout (some buffSize) (rounds ++ [r]) with
    | .running _ _ => some (copying (rounds ++ [r]))
    | .returned _ _ err => some (sending err)
    | .panicked => none
  | _ => none

/-- The goroutine is in `copyConnTimeout`. -/
def isCopying : Copier → Bool
  | copying _ => true
  | _ => false

def sent : Copier → Nat
  | ended => 1
  | _ => 0

theorem sent_sending (err : Option Error) : (sending err).sent = 0 := rfl

theorem sent_ended : ended.sent = 1 := rfl

theorem eq_ended {c : Copier} (h : 0 < c.sent) : c = ended ∧ c.sent = 1 := by
  cases c with
  | copying rounds | sending err => cases h
  | ended => exact ⟨rfl, rfl⟩

theorem sent_of_isCopying {c : Copier} (h : c.isCopying = true) : c.sent = 0 := by
  cases c with
  | copying rounds => rfl
  | sending err | ended => cases h

end Copier

inductive Phase
  | first
  | second
  | /-- At the deferred `req.Conn.Close()`, the last that was deferred. -/
    closeReq
  | /-- At the deferred `conn.Close()`. -/
    closeConn
  | returned
deriving DecidableEq, Repr

def Phase.received : Phase → Nat
  | first => 0
  | second => 1
  | _ => 2

def Phase.waits (p : Phase) : Bool := p = .first ∨ p = .second

/-- The handler, its goroutines, the channel `done`, and whether the connections are open. -/
structure State where
  phase : Phase
  up : Copier
  down : Copier
  done : Chan (Option Error)
  reqOpen : Bool
  connOpen : Bool

namespace State

def copier (s : State) : Side → Copier
  | .up => s.up
  | .down => s.down

/-- The state with another goroutine in a direction. -/
def setCopier (s : State) (c : Copier) : Side → State
  | .up => { s with up := c }
  | .down => { s with down := c }

/-- The connection that a direction reads from is open. -/
def srcOpen (s : State) : Side → Bool
  | .up => s.reqOpen
  | .down => s.connOpen

end State

inductive Label
  | round (d : Side) (r : Round)
  | send (d : Side)
  | receive
  | close
deriving DecidableEq

/-- What the calls of a round may return.  On an open source `SetReadDeadline` succeeds and `Read`
returns what the peer makes it return; on a closed one one of the two fails.  A write to a closed
connection fails. -/
def possible (srcOpen dstOpen : Bool) (r : Round) : Bool :=
  (if srcOpen then r.deadline = none else r.data = [] ∧ (r.deadline ≠ none ∨ r.er ≠ none)) ∧
    (dstOpen ∨ r.write.err ≠ none)

/-- What is sent for an error of `copyConnTimeout`: a reset of the client is none. -/
def resultOf (d : Side) (err : Option Error) : Option Error :=
  if d = .up ∧ err = some econnreset then none else err

def State.next (s : State) : Label → Option State
  | .round d r =>
    if possible (s.srcOpen d) (s.srcOpen d.other) r then
      ((s.copier d).round r).map fun c ↦ s.setCopier c d
    else none
  | .send d =>
    match s.copier d with
    | .sending err =>
      (s.done.send 1 (resultOf d err)).map fun (c, _) ↦ { s.setCopier .ended d with done := c }
    | _ => none
  | .receive =>
    match s.phase with
    | .first => s.done.recv.map fun (_, c) ↦ { s with phase := .second, done := c }
    | .second => s.done.recv.map fun (_, c) ↦ { s with phase := .closeReq, done := c }
    | _ => none
  | .close =>
    match s.phase with
    | .closeReq => some { s with phase := .closeConn, reqOpen := false }
    | .closeConn => some { s with phase := .returned, connOpen := false }
    | _ => none

/-- The handler after it has started its goroutines. -/
def State.fresh : State := ⟨.first, .copying [], .copying [], .make, true, true⟩

def machine : Machine State Label where
  start s := s = .fresh
  next := State.next

def Label.isLocal (s : State) : Label → Bool
  | .round d _ => !s.srcOpen d
  | _ => true

/-! ## What the comment promises -/

namespace State

def OneEnded (s : State) : Prop := s.up.isCopying ≠ s.down.isCopying

/-- When one copy has ended and the handler waits for the other, the connections are closed. -/
def TornDown (s : State) : Prop :=
  s.phase = .second → s.OneEnded → s.reqOpen = false ∧ s.connOpen = false

/-- One copy has ended, the handler waits, and nothing moves without a peer. -/
def Stuck (s : State) : Prop :=
  s.OneEnded ∧ s.phase.waits = true ∧ ∀ a : Label, a.isLocal s = true → s.next a = none

/-- The state is none that the comment excludes. -/
structure Good (s : State) : Prop where
  tornDown : s.TornDown
  notStuck : ¬ s.Stuck

end State

/-- When the handler receives its first result, both copies have ended. -/
def BothEnded (s : State) (a : Label) : Prop :=
  a = .receive → s.phase = .first → s.up.isCopying = false ∧ s.down.isCopying = false

/-! ## Steps -/

inductive Step (s : State) : Label → State → Prop
  | round {d r c} (hround : (s.copier d).round r = some c) :
      Step s (.round d r) (s.setCopier c d)
  | send {d err c fault}
      (hcopier : s.copier d = .sending err)
      (hsend : s.done.send 1 (resultOf d err) = some (c, fault)) :
      Step s (.send d) { s.setCopier .ended d with done := c }
  | receiveFirst {x c} (hphase : s.phase = .first)
      (hrecv : s.done.recv = some (x, c)) :
      Step s .receive { s with phase := .second, done := c }
  | receiveSecond {x c} (hphase : s.phase = .second)
      (hrecv : s.done.recv = some (x, c)) :
      Step s .receive { s with phase := .closeReq, done := c }
  | closeReq (hphase : s.phase = .closeReq) :
      Step s .close { s with phase := .closeConn, reqOpen := false }
  | closeConn (hphase : s.phase = .closeConn) :
      Step s .close { s with phase := .returned, connOpen := false }

theorem step_of_next {s t : State} {a : Label} (h : s.next a = some t) : Step s a t := by
  cases a with
  | round d r =>
    obtain ⟨-, h⟩ := Option.ite_none_right_eq_some.mp h
    obtain ⟨c, hround, rfl⟩ := Option.map_eq_some_iff.mp h
    exact .round hround
  | send d =>
    simp only [State.next] at h
    split at h
    · rename_i err hcopier
      obtain ⟨⟨c, fault⟩, hsend, rfl⟩ := Option.map_eq_some_iff.mp h
      exact .send hcopier hsend
    · cases h
  | receive =>
    simp only [State.next] at h
    split at h
    · rename_i hphase
      obtain ⟨⟨x, c⟩, hrecv, rfl⟩ := Option.map_eq_some_iff.mp h
      exact .receiveFirst hphase hrecv
    · rename_i hphase
      obtain ⟨⟨x, c⟩, hrecv, rfl⟩ := Option.map_eq_some_iff.mp h
      exact .receiveSecond hphase hrecv
    · cases h
  | close =>
    simp only [State.next] at h
    split at h
    · rename_i hphase
      cases h
      exact .closeReq hphase
    · rename_i hphase
      cases h
      exact .closeConn hphase
    · cases h

namespace State

variable (s : State) (c : Copier)

theorem sent_eq (d : Side) :
    s.up.sent + s.down.sent = (s.copier d).sent + (s.copier d.other).sent := by
  cases d with
  | up => rfl
  | down => exact Nat.add_comm _ _

theorem sent_setCopier (d : Side) : (s.setCopier c d).up.sent + (s.setCopier c d).down.sent =
    c.sent + (s.copier d.other).sent := by
  cases d with
  | up => rfl
  | down => exact Nat.add_comm _ _

@[simp] theorem phase_setCopier (d : Side) : (s.setCopier c d).phase = s.phase := by cases d <;> rfl

@[simp] theorem done_setCopier (d : Side) : (s.setCopier c d).done = s.done := by cases d <;> rfl

@[simp] theorem reqOpen_setCopier (d : Side) : (s.setCopier c d).reqOpen = s.reqOpen := by
  cases d <;> rfl

@[simp] theorem connOpen_setCopier (d : Side) : (s.setCopier c d).connOpen = s.connOpen := by
  cases d <;> rfl

end State

/-- A round starts in `copyConnTimeout` and does not send. -/
theorem round_spec {r : Round} {c c' : Copier} (h : c.round r = some c') :
    c.isCopying = true ∧ c.sent = 0 ∧ c'.sent = 0 := by
  cases c with
  | copying rounds =>
    refine ⟨rfl, rfl, ?_⟩
    simp only [Copier.round] at h
    split at h
    · exact Option.some.inj h ▸ rfl
    · exact Option.some.inj h ▸ rfl
    · cases h
  | sending err => cases h
  | ended => cases h

/-! ## Invariants -/

/-- What holds in every state: the results that were sent are those that were received and the one
in the channel, and the connections are open until the handler has received both. -/
structure Inv (s : State) : Prop where
  open_channel : s.done.closed = false
  results : s.up.sent + s.down.sent = s.phase.received + s.done.buf.length
  open_conns : s.phase.waits = true → s.reqOpen = true ∧ s.connOpen = true

theorem inv_fresh : Inv .fresh := ⟨rfl, rfl, fun _ ↦ ⟨rfl, rfl⟩⟩

theorem Inv.step {s t : State} {a : Label} (h : Inv s) (hstep : Step s a t) : Inv t := by
  cases hstep with
  | @round d r c hround =>
    obtain ⟨-, hsent, hsent'⟩ := round_spec hround
    refine ⟨by simpa using h.open_channel, ?_, by simpa using h.open_conns⟩
    have := s.sent_eq d
    have := h.results
    simp only [State.sent_setCopier, State.phase_setCopier, State.done_setCopier]
    omega
  | @send d err c fault hcopier hsend =>
    obtain ⟨-, -, rfl⟩ := Chan.send_cases hsend h.open_channel
    refine ⟨rfl, ?_, by simpa using h.open_conns⟩
    have hsum := s.sent_eq d
    have hset := s.sent_setCopier .ended d
    have hresults := h.results
    rw [hcopier, Copier.sent_sending] at hsum
    rw [Copier.sent_ended] at hset
    simp only [State.phase_setCopier, List.length_append, List.length_singleton]
    omega
  | receiveFirst hphase hrecv =>
    obtain ⟨x, buf, -, hbuf, rfl⟩ | ⟨-, -, hclosed, -⟩ := Chan.recv_cases hrecv
    · refine ⟨h.open_channel, ?_, fun _ ↦ h.open_conns (by rw [hphase]; rfl)⟩
      have hresults := h.results
      rw [hphase, hbuf] at hresults
      exact hresults.trans (by simp [Phase.received, Nat.add_comm])
    · exact absurd hclosed (Bool.eq_false_iff.mp h.open_channel)
  | receiveSecond hphase hrecv =>
    obtain ⟨x, buf, -, hbuf, rfl⟩ | ⟨-, -, hclosed, -⟩ := Chan.recv_cases hrecv
    · refine ⟨h.open_channel, ?_, fun hwaits ↦ absurd hwaits Bool.false_ne_true⟩
      have hresults := h.results
      rw [hphase, hbuf] at hresults
      exact hresults.trans (by simp [Phase.received]; omega)
    · exact absurd hclosed (Bool.eq_false_iff.mp h.open_channel)
  | closeReq hphase | closeConn hphase =>
    have hresults := h.results
    rw [hphase] at hresults
    exact ⟨h.open_channel, hresults, fun hwaits ↦ absurd hwaits Bool.false_ne_true⟩

theorem inv_of_reach {G : State → Label → Prop} {s : State} (h : machine.Reach G s) : Inv s := by
  refine h.invariant ?_ ?_
  · rintro s rfl
    exact inv_fresh
  · intro s a t hs _ hnext
    exact hs.step (step_of_next hnext)

/-! ## States in which a copy has ended -/

theorem isCopying_of_step {s t : State} {a : Label} (hstep : Step s a t) (d : Side)
    (hd : (s.copier d).isCopying = false) : (t.copier d).isCopying = false := by
  cases hstep with
  | @round d' r c hround =>
    obtain ⟨hcopying, -, -⟩ := round_spec hround
    cases d <;> cases d' <;> first | exact hd | exact absurd hcopying (Bool.eq_false_iff.mp hd)
  | @send d' err c fault hcopier hsend => cases d <;> cases d' <;> first | exact hd | rfl
  | receiveFirst _ _ | receiveSecond _ _ | closeReq _ | closeConn _ => cases d <;> exact hd

theorem exists_side {s : State} (h : s.OneEnded) :
    ∃ d : Side, (s.copier d).isCopying = true ∧ (s.copier d.other).isCopying = false := by
  unfold State.OneEnded at h
  cases hup : s.up.isCopying with
  | true => exact ⟨.up, hup, Bool.eq_false_iff.mpr fun hdown ↦ h (hup.trans hdown.symm)⟩
  | false =>
    exact ⟨.down, Bool.of_not_eq_false fun hdown ↦ h (hup.trans hdown.symm), hup⟩

/-- While the handler waits for its first result, the result of a copy that has ended is on its
way. -/
theorem not_stuck_first {s : State} (h : Inv s) (hphase : s.phase = .first) : ¬ s.Stuck := by
  rintro ⟨hone, -, hstuck⟩
  obtain ⟨d, hcopying, hended⟩ := exists_side hone
  have hresults := h.results
  rw [s.sent_eq d, Copier.sent_of_isCopying hcopying, hphase, Phase.received] at hresults
  cases hother : s.copier d.other with
  | copying rounds =>
    rw [hother] at hended
    exact absurd hended (Bool.eq_false_iff.mp · rfl)
  | sending err =>
    -- it has not sent, so the channel is empty and has room
    have hnone := hstuck (.send d.other) rfl
    simp only [State.next, hother, Option.map_eq_none_iff] at hnone
    have hfull := Chan.send_eq_none hnone
    rw [hother, Copier.sent_sending] at hresults
    omega
  | ended =>
    -- it has sent, and the handler has not received
    have hnone := hstuck .receive rfl
    simp only [State.next, hphase, Option.map_eq_none_iff] at hnone
    obtain ⟨hbuf, -⟩ := Chan.recv_eq_none hnone
    rw [hother, Copier.sent_ended, hbuf] at hresults
    exact absurd hresults (by decide)

/-- Once the handler has received a result while the other goroutine copies, nothing moves without
a peer. -/
theorem stuck_second {s : State} (h : Inv s) (hphase : s.phase = .second) (hone : s.OneEnded) :
    s.Stuck := by
  have hwaits : s.phase.waits = true := by rw [hphase]; rfl
  obtain ⟨hreq, hconn⟩ := h.open_conns hwaits
  obtain ⟨d, hcopying, -⟩ := exists_side hone
  have hresults := h.results
  rw [s.sent_eq d, Copier.sent_of_isCopying hcopying, hphase, Phase.received] at hresults
  obtain ⟨hother, hsent⟩ := Copier.eq_ended (c := s.copier d.other) (by omega)
  have hbuf : s.done.buf = [] := List.length_eq_zero_iff.mp (by omega)
  refine ⟨hone, hwaits, fun a ha ↦ ?_⟩
  cases a with
  | round d' r => cases d' <;> simp [Label.isLocal, State.srcOpen, hreq, hconn] at ha
  | send d' =>
    obtain rfl | rfl : d' = d ∨ d' = d.other := by cases d <;> cases d' <;> simp [Side.other]
    · cases hd : s.copier d' with
      | copying rounds => simp only [State.next, hd]
      | sending err | ended => rw [hd] at hcopying; cases hcopying
    · simp only [State.next, hother]
  | receive => simp [State.next, hphase, Chan.recv, hbuf, h.open_channel]
  | close => simp only [State.next, hphase]

/-! ## The teardown -/

/-- With the condition, both copies have ended when the handler waits for the second result. -/
theorem both_of_reach {s : State} (h : machine.Reach BothEnded s) (hphase : s.phase = .second) :
    s.up.isCopying = false ∧ s.down.isCopying = false := by
  revert hphase
  refine h.invariant (I := fun s ↦ s.phase = .second →
    s.up.isCopying = false ∧ s.down.isCopying = false) ?_ ?_
  · rintro s rfl hphase
    cases hphase
  · intro s a t hs hboth hnext hphase
    have hstep := step_of_next hnext
    have hkeep (hbefore : s.up.isCopying = false ∧ s.down.isCopying = false) :
        t.up.isCopying = false ∧ t.down.isCopying = false :=
      ⟨isCopying_of_step hstep .up hbefore.1, isCopying_of_step hstep .down hbefore.2⟩
    cases hstep with
    | round hround | send hcopier hsend => exact hkeep (hs (by simpa using hphase))
    | receiveFirst hfirst _ => exact hkeep (hboth rfl hfirst)
    | receiveSecond _ _ | closeReq _ | closeConn _ => cases hphase

theorem good_iff {s : State} (h : Inv s) : s.Good ↔ (s.phase = .second → ¬ s.OneEnded) := by
  constructor
  · intro hgood hphase hone
    exact hgood.notStuck (stuck_second h hphase hone)
  · intro hsecond
    refine ⟨fun hphase hone ↦ absurd hone (hsecond hphase), fun hstuck ↦ ?_⟩
    obtain ⟨hone, hwaits, -⟩ := id hstuck
    obtain hphase | hphase := of_decide_eq_true hwaits
    · exact not_stuck_first h hphase hstuck
    · exact hsecond hphase hone

theorem good_of_reach {s : State} (hs : machine.Reach BothEnded s) : s.Good := by
  refine (good_iff (inv_of_reach hs)).mpr fun hphase hone ↦ ?_
  obtain ⟨hup, hdown⟩ := both_of_reach hs hphase
  exact hone (hup.trans hdown.symm)

/-- When the handler has received its first result and the state is good, both copies had ended. -/
theorem both_of_good {s t : State} (h : Inv s) (hfirst : s.phase = .first)
    (hstep : Step s .receive t) (ht : t.Good) :
    s.up.isCopying = false ∧ s.down.isCopying = false := by
  have hnot := (good_iff (h.step hstep)).mp ht
  cases hstep with
  | receiveSecond hphase _ => exact absurd (hfirst.symm.trans hphase) (by decide)
  | receiveFirst _ hrecv =>
    -- a result was sent, so one copy has ended, and with it both
    have heq : s.up.isCopying = s.down.isCopying := not_not.mp (hnot rfl)
    have hresults := h.results
    obtain ⟨x, buf, -, hbuf, -⟩ | ⟨-, -, hclosed, -⟩ := Chan.recv_cases hrecv
    · rw [hbuf, List.length_cons] at hresults
      cases hup : s.up.isCopying with
      | false => exact ⟨rfl, heq ▸ hup⟩
      | true =>
        have hdown : s.down.isCopying = true := heq ▸ hup
        rw [Copier.sent_of_isCopying hup, Copier.sent_of_isCopying hdown] at hresults
        omega
    · exact absurd hclosed (Bool.eq_false_iff.mp h.open_channel)

/-- **The teardown of a tunnelled connection.**  In every run in which both copies have ended
whenever the handler receives its first result, every state is good: there is none in which one
copy has ended, the handler waits for the other, and the connections are open.  And of such a run
a next step leads to a good state exactly if it meets the condition itself. -/
theorem torn_down_iff {s : State} (hs : machine.Reach BothEnded s) :
    s.Good ∧ ∀ a t, machine.next s a = some t → (t.Good ↔ BothEnded s a) := by
  refine ⟨good_of_reach hs, fun a t hnext ↦ ⟨fun ht ha hfirst ↦ ?_, fun hboth ↦ ?_⟩⟩
  · obtain rfl := ha
    exact both_of_good (inv_of_reach hs) hfirst (step_of_next hnext) ht
  · exact good_of_reach (.step hs hboth hnext)

/-- Both peers end their streams before the handler receives a result: it waits for the second one,
and that is on its way. -/
theorem torn_down_both : State.Good ⟨.second, .ended, .sending none, .make, true, true⟩ := by
  have hup : machine.Reach BothEnded ⟨.first, .sending none, .copying [], .make, true, true⟩ :=
    .step (a := .round .up ⟨none, [], some .eof, ⟨0, none⟩⟩) (.start rfl) (fun ha ↦ by cases ha) rfl
  have hdown : machine.Reach BothEnded ⟨.first, .sending none, .sending none, .make, true, true⟩ :=
    .step (a := .round .down ⟨none, [], some .eof, ⟨0, none⟩⟩) hup (fun ha ↦ by cases ha) rfl
  have hsent :
      machine.Reach BothEnded ⟨.first, .ended, .sending none, ⟨[none], false⟩, true, true⟩ :=
    .step (a := .send .up) hdown (fun ha ↦ by cases ha) rfl
  exact (torn_down_iff (.step (a := .receive) hsent (fun _ _ ↦ ⟨rfl, rfl⟩) rfl)).1

/-- The client ends its stream, the goroutine that reads from it sends its result, the handler
receives it: the other goroutine waits for a peer that is silent, the connections are open, and
nothing moves. -/
theorem silent_peer_stuck :
    ∃ s, machine.Reachable s ∧ s.up = .ended ∧ s.down = .copying [] ∧ s.reqOpen = true ∧
      s.connOpen = true ∧ ¬ s.TornDown ∧ s.Stuck := by
  let labels : List Label := [.round .up ⟨none, [], some .eof, ⟨0, none⟩⟩, .send .up, .receive]
  let s : State := ⟨.second, .ended, .copying [], .make, true, true⟩
  have hrun : machine.run .fresh labels = some s := rfl
  have hreach : machine.Reachable s := .of_run (.start rfl) (fun _ _ _ ↦ trivial) hrun
  have hone : s.OneEnded := by
    intro h
    cases h
  refine ⟨s, hreach, rfl, rfl, rfl, rfl, fun htorn ↦ ?_,
    stuck_second (inv_of_reach hreach) rfl hone⟩
  exact absurd (htorn rfl hone).1 Bool.noConfusion

end Vwarp.Wiresocks.Handler
