import Vwarp.Go.Io
import Vwarp.Go.Netip
import Vwarp.Lib.Machine
import Vwarp.Wireguard.PreflightBind.Packet

/-!
# `preflightbind.Bind.Send` under every schedule

Calls of `Send` run concurrently.  A call looks for a handshake initiation among its
buffers; if there is one it reads the clock, takes the lock, and goes through the
preflight packets if the destination was not served within the interval.  Then it may
start a goroutine that sends the rest of the junk, and it hands its buffers to the inner
bind.

The machine has a label for each step between two points where another call can move.
What was drawn for a packet, the clock readings and the results of the inner bind are
part of the labels.  A junk packet that panics ends the process.  `Step` lists what a step
can do; `step_of_next` and `next_of_step` tie it to the machine.
-/

namespace Vwarp.Wireguard.PreflightBind

open Vwarp.Go Vwarp.Lib

/-- The fields of `Bind` that do not change, and `DstIP` of its endpoints.  No payload stands
for a `nil` one. -/
structure Bind (ε : Type) where
  dstIP : ε → Addr
  config : Option AtomicNoizeConfig
  payload : Bytes
  interval : Int64

/-- What a preflight does, packet by packet. -/
inductive Act
  | i1
  | junk
  | /-- Send the signature packet with this text, if it can be parsed and is not empty. -/
    signature (cps : Bytes)

/-- Where a call of `Send` is. -/
inductive Pc
  | start
  | clocked (now : Nat)
  | preflight (todo : List Act)
  | /-- It is at `maybeSendPostHandshakeJunk`. -/
    post
  | /-- It is about to hand its buffers to the inner bind. -/
    own
  | returned (err : Option Error)

/-- A call of `Send`. -/
structure Call (ε : Type) where
  bufs : List Bytes
  ep : ε
  pc : Pc

/-- A goroutine of `maybeSendPostHandshakeJunk`: the call that started it, the endpoint and
the number of packets it still sends. -/
structure Junker (ε : Type) where
  call : Nat
  ep : ε
  remaining : Nat

/-- Why something was handed to the inner bind. -/
inductive Kind
  | i1
  | junk
  | signature
  | own
  | afterJunk
deriving DecidableEq

/-- What was handed to the inner bind, because of which call, and what it returned. -/
structure Sent (ε : Type) where
  call : Nat
  kind : Kind
  bufs : List Bytes
  ep : ε
  err : Option Error

/-- A preflight that was started: the call, the destination and the clock reading. -/
structure Start where
  call : Nat
  dst : Addr
  now : Nat

/-- The state of a `Bind` and of the calls. -/
structure State (ε : Type) where
  /-- The last clock reading. -/
  clock : Nat
  lastSent : Addr → Option Nat
  postHandshakeSent : Addr → Bool
  calls : List (Call ε)
  junkers : List (Junker ε)
  sent : List (Sent ε)
  started : List Start
  crashed : Bool

inductive Label
  | /-- A call looks through its buffers, and reads the clock if it found an initiation. -/
    scan (i now : Nat)
  | /-- A call takes the lock and decides about the preflight. -/
    lock (i : Nat)
  | /-- A call sends the next packet of its preflight. -/
    act (i : Nat) (draws : List (Option Nat)) (err : Option Error)
  | done (i : Nat)
  | /-- A call decides about the junk after the handshake. -/
    post (i : Nat)
  | /-- A call hands its buffers to the inner bind and returns. -/
    own (i : Nat) (err : Option Error)
  | junk (k : Nat) (draws : List (Option Nat)) (err : Option Error)

variable {ε : Type}

namespace Bind

/-- The packets of `executeAtomicNoizePreflightUsingSameSocket`. -/
def preflightActs (b : Bind ε) : List Act :=
  match b.config with
  | none => []
  | some c =>
    (if c.i1 ≠ [] ∧ b.payload ≠ [] then [.i1] else []) ++
      List.replicate c.jcAfterI1.toNatClampNeg .junk ++
      List.replicate c.jcBeforeHS.toNatClampNeg .junk ++
      ([c.i2, c.i3, c.i4, c.i5].filter (· ≠ [])).map .signature

/-- The packet of a step of the preflight, if there is one to be sent. -/
def packet (b : Bind ε) : Act → Draw (Option Bytes)
  | .i1 => do
      let framedPayload ← wrapInIKEv2Header b.payload
      pure (some framedPayload)
  | .junk => do
      let junkPacket ← generateJunkPacket (b.config.getD default)
      pure (some junkPacket)
  | .signature cps => do
      let packet ← parseCPSPacket cps
      pure (packet.filter (· ≠ []))

end Bind

def Act.kind : Act → Kind
  | i1 => .i1
  | junk => .junk
  | signature _ => .signature

/-- The call's buffers contain a handshake initiation. -/
def Call.initiates (c : Call ε) : Bool := c.bufs.any handshakeInitiation

/-- The test of `maybeSendPostHandshakeJunk` on the buffers, which does not look at their
length. -/
def Call.requestsHandshake (c : Call ε) : Bool :=
  c.bufs.any fun buf ↦ 0 < buf.length ∧ buf.headD 0 = 1

namespace State

def setPc (s : State ε) (i : Nat) (c : Call ε) (pc : Pc) : State ε :=
  { s with calls := s.calls.set i { c with pc := pc } }

/-- The destination may be served: nothing is recorded for it, or the interval has passed. -/
def permits (b : Bind ε) (s : State ε) (dst : Addr) (now : Nat) : Prop :=
  match s.lastSent dst with
  | none => True
  | some last => ¬ ((now : Int) - last < b.interval.toInt)

instance (b : Bind ε) (s : State ε) (dst : Addr) (now : Nat) : Decidable (s.permits b dst now) :=
  match h : s.lastSent dst with
  | none => isTrue (by simp [permits, h])
  | some last => decidable_of_iff (¬ ((now : Int) - last < b.interval.toInt)) (by simp [permits, h])

/-- The locked section of `maybePreflightUsingSameSocket`. -/
def lockStep (b : Bind ε) (s : State ε) (i : Nat) (c : Call ε) (now : Nat) : State ε :=
  let dst := b.dstIP c.ep
  if s.permits b dst now then
    { s.setPc i c (.preflight b.preflightActs) with
      lastSent := Function.update s.lastSent dst (some now)
      started := s.started ++ [⟨i, dst, now⟩] }
  else s.setPc i c .post

/-- The number of junk packets that `maybeSendPostHandshakeJunk` leaves to a goroutine, if
it starts one. -/
def remainingJunk (b : Bind ε) (s : State ε) (c : Call ε) : Option Nat :=
  match b.config with
  | none => none
  | some config =>
    let remainingJunk := config.jc - config.jcBeforeHS
    if remainingJunk ≤ 0 then none
    else if !c.requestsHandshake then none
    else if s.postHandshakeSent (b.dstIP c.ep) then none
    else some remainingJunk.toNatClampNeg

/-- `maybeSendPostHandshakeJunk`. -/
def postStep (b : Bind ε) (s : State ε) (i : Nat) (c : Call ε) : State ε :=
  match s.remainingJunk b c with
  | none => s.setPc i c .own
  | some remaining =>
    { s.setPc i c .own with
      postHandshakeSent := Function.update s.postHandshakeSent (b.dstIP c.ep) true
      junkers := s.junkers ++ [⟨i, c.ep, remaining⟩] }

def next (b : Bind ε) (s : State ε) (a : Label) : Option (State ε) :=
  if s.crashed then none
  else
    match a with
    | .scan i now => do
        let c ← s.calls[i]?
        match c.pc with
        | .start =>
          if c.initiates then
            if s.clock ≤ now then some { s.setPc i c (.clocked now) with clock := now } else none
          else some (s.setPc i c .post)
        | _ => none
    | .lock i => do
        let c ← s.calls[i]?
        match c.pc with
        | .clocked now => some (s.lockStep b i c now)
        | _ => none
    | .act i draws err => do
        let c ← s.calls[i]?
        match c.pc with
        | .preflight (act :: todo) =>
          match (b.packet act).run draws with
          | none => some { s with crashed := true }
          | some none => some (s.setPc i c (.preflight todo))
          | some (some packet) =>
            some { s.setPc i c (.preflight todo) with
              sent := s.sent ++ [⟨i, act.kind, [packet], c.ep, err⟩] }
        | _ => none
    | .done i => do
        let c ← s.calls[i]?
        match c.pc with
        | .preflight [] => some (s.setPc i c .post)
        | _ => none
    | .post i => do
        let c ← s.calls[i]?
        match c.pc with
        | .post => some (s.postStep b i c)
        | _ => none
    | .own i err => do
        let c ← s.calls[i]?
        match c.pc with
        | .own =>
          some { s.setPc i c (.returned err) with
            sent := s.sent ++ [⟨i, .own, c.bufs, c.ep, err⟩] }
        | _ => none
    | .junk k draws err => do
        let g ← s.junkers[k]?
        match g.remaining with
        | 0 => none
        | remaining + 1 =>
          match (generateJunkPacket (b.config.getD default)).run draws with
          | none => some { s with crashed := true }
          | some junkPacket =>
            some { s with
              junkers := s.junkers.set k { g with remaining := remaining }
              sent := s.sent ++ [⟨g.call, .afterJunk, [junkPacket], g.ep, err⟩] }

end State

/-- Runs of the calls `reqs`, from any contents of the two maps. -/
def machine (b : Bind ε) (reqs : List (List Bytes × ε)) : Machine (State ε) Label where
  start s := s.calls = reqs.map (fun r ↦ ⟨r.1, r.2, .start⟩) ∧ s.junkers = [] ∧ s.sent = [] ∧
    s.started = [] ∧ s.crashed = false
  next := State.next b

/-- A `Bind` that has just been made, and the calls. -/
def State.fresh (reqs : List (List Bytes × ε)) : State ε :=
  ⟨0, fun _ ↦ none, fun _ ↦ false, reqs.map fun r ↦ ⟨r.1, r.2, .start⟩, [], [], [], false⟩

theorem start_fresh (b : Bind ε) (reqs : List (List Bytes × ε)) :
    (machine b reqs).start (State.fresh reqs) := ⟨rfl, rfl, rfl, rfl, rfl⟩

/-! ## What a step can do -/

/-- What a step of a process that has not crashed can do. -/
inductive Step (b : Bind ε) (s : State ε) : Label → State ε → Prop
  | clock {i now c} : s.calls[i]? = some c → c.pc = .start →
      c.initiates = true → s.clock ≤ now →
      Step b s (.scan i now) { s.setPc i c (.clocked now) with clock := now }
  | pass {i now c} : s.calls[i]? = some c → c.pc = .start →
      c.initiates = false → Step b s (.scan i now) (s.setPc i c .post)
  | permit {i now c} : s.calls[i]? = some c → c.pc = .clocked now →
      s.permits b (b.dstIP c.ep) now →
      Step b s (.lock i)
        { s.setPc i c (.preflight b.preflightActs) with
          lastSent := Function.update s.lastSent (b.dstIP c.ep) (some now)
          started := s.started ++ [⟨i, b.dstIP c.ep, now⟩] }
  | refuse {i now c} : s.calls[i]? = some c → c.pc = .clocked now →
      ¬ s.permits b (b.dstIP c.ep) now → Step b s (.lock i) (s.setPc i c .post)
  | crash {i draws err c act todo} : s.calls[i]? = some c → c.pc = .preflight (act :: todo) →
      (b.packet act).run draws = none → Step b s (.act i draws err) { s with crashed := true }
  | skip {i draws err c act todo} : s.calls[i]? = some c → c.pc = .preflight (act :: todo) →
      (b.packet act).run draws = some none →
      Step b s (.act i draws err) (s.setPc i c (.preflight todo))
  | send {i draws err c act todo packet} : s.calls[i]? = some c →
      c.pc = .preflight (act :: todo) → (b.packet act).run draws = some (some packet) →
      Step b s (.act i draws err)
        { s.setPc i c (.preflight todo) with
          sent := s.sent ++ [⟨i, act.kind, [packet], c.ep, err⟩] }
  | done {i c} : s.calls[i]? = some c → c.pc = .preflight [] →
      Step b s (.done i) (s.setPc i c .post)
  | quiet {i c} : s.calls[i]? = some c → c.pc = .post →
      s.remainingJunk b c = none → Step b s (.post i) (s.setPc i c .own)
  | spawn {i c remaining} : s.calls[i]? = some c → c.pc = .post →
      s.remainingJunk b c = some remaining →
      Step b s (.post i)
        { s.setPc i c .own with
          postHandshakeSent := Function.update s.postHandshakeSent (b.dstIP c.ep) true
          junkers := s.junkers ++ [⟨i, c.ep, remaining⟩] }
  | own {i err c} : s.calls[i]? = some c → c.pc = .own →
      Step b s (.own i err)
        { s.setPc i c (.returned err) with sent := s.sent ++ [⟨i, .own, c.bufs, c.ep, err⟩] }
  | junkCrash {k remaining draws err g} :
      s.junkers[k]? = some g → g.remaining = remaining + 1 →
      (generateJunkPacket (b.config.getD default)).run draws = none →
      Step b s (.junk k draws err) { s with crashed := true }
  | junk {k remaining draws err g junkPacket} : s.junkers[k]? = some g →
      g.remaining = remaining + 1 →
      (generateJunkPacket (b.config.getD default)).run draws = some junkPacket →
      Step b s (.junk k draws err)
        { s with
          junkers := s.junkers.set k { g with remaining := remaining }
          sent := s.sent ++ [⟨g.call, .afterJunk, [junkPacket], g.ep, err⟩] }

variable {b : Bind ε} {s t : State ε} {a : Label}

theorem step_of_next (h : s.next b a = some t) : s.crashed = false ∧ Step b s a t := by
  unfold State.next at h
  split at h
  · cases h
  · refine ⟨Bool.eq_false_iff.mpr ‹_›, ?_⟩
    cases a with
    | scan i now =>
      obtain ⟨c, hc, h⟩ := Option.bind_eq_some_iff.mp h
      (repeat' split at h) <;> cases h
      · exact .clock hc ‹_› ‹_› ‹_›
      · exact .pass hc ‹_› (Bool.eq_false_iff.mpr ‹_›)
    | lock i =>
      obtain ⟨c, hc, h⟩ := Option.bind_eq_some_iff.mp h
      split at h <;> cases h
      unfold State.lockStep
      dsimp only
      split
      · exact .permit hc ‹_› ‹_›
      · exact .refuse hc ‹_› ‹_›
    | act i draws err =>
      obtain ⟨c, hc, h⟩ := Option.bind_eq_some_iff.mp h
      (repeat' split at h) <;> cases h
      · exact .crash hc ‹_› ‹_›
      · exact .skip hc ‹_› ‹_›
      · exact .send hc ‹_› ‹_›
    | done i =>
      obtain ⟨c, hc, h⟩ := Option.bind_eq_some_iff.mp h
      split at h <;> cases h
      exact .done hc ‹_›
    | post i =>
      obtain ⟨c, hc, h⟩ := Option.bind_eq_some_iff.mp h
      split at h <;> cases h
      unfold State.postStep
      split
      · exact .quiet hc ‹_› ‹_›
      · exact .spawn hc ‹_› ‹_›
    | own i err =>
      obtain ⟨c, hc, h⟩ := Option.bind_eq_some_iff.mp h
      split at h <;> cases h
      exact .own hc ‹_›
    | junk k draws err =>
      obtain ⟨g, hg, h⟩ := Option.bind_eq_some_iff.mp h
      (repeat' split at h) <;> cases h
      · exact .junkCrash hg ‹_› ‹_›
      · exact .junk hg ‹_› ‹_›

theorem next_of_step (hcrashed : s.crashed = false) (h : Step b s a t) : s.next b a = some t := by
  unfold State.next
  rw [if_neg (Bool.eq_false_iff.mp hcrashed)]
  cases h with
  | clock hc hpc hinit hclock => simp [hc, hpc, hinit, hclock]
  | pass hc hpc hinit => simp [hc, hpc, hinit]
  | permit hc hpc hpermits | refuse hc hpc hpermits => simp [hc, hpc, State.lockStep, hpermits]
  | crash hc hpc hrun | skip hc hpc hrun | send hc hpc hrun => simp [hc, hpc, hrun]
  | done hc hpc | own hc hpc => simp [hc, hpc]
  | quiet hc hpc hjunk | spawn hc hpc hjunk => simp [hc, hpc, State.postStep, hjunk]
  | junkCrash hg hrem hrun | junk hg hrem hrun => simp [hg, hrem, hrun]

theorem reachable_of_step {reqs : List (List Bytes × ε)} (h : (machine b reqs).Reachable s)
    (hcrashed : s.crashed = false) (hstep : Step b s a t) : (machine b reqs).Reachable t :=
  h.step trivial (next_of_step hcrashed hstep)

end Vwarp.Wireguard.PreflightBind
