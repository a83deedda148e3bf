import Vwarp.Lib.Machine
import Vwarp.Masque.Noize.Packet
import Mathlib.Logic.Function.Basic

/-!
# `NoizeUDPConn` and `ObfuscateWrite` under every schedule

A `NoizeUDPConn` passes what is written to it through `Noize.ObfuscateWrite` as long as it
is enabled.  `ObfuscateWrite` keeps a state for each destination and starts goroutines that
write to the socket on their own: the sequence before the handshake, the one after it, and
the fragments of an Initial packet.

The machine runs any number of calls at once, of the writing methods of `NoizeUDPConn` or
of `ObfuscateWrite` itself, together with the goroutines and with calls that enable or
disable the layer.  A label stands for what happens between two points where another
goroutine can move.  Destinations are told apart by `addr.String()`.
-/

namespace Vwarp.Masque.Noize

open Vwarp.Go Vwarp.Lib

/-- What a goroutine does, one after the other. -/
inductive Act
  | /-- Write a junk packet; an empty one only if `zeroSize` is set. -/
    junk (zeroSize : Bool)
  | /-- `applyJunkDelay`. -/
    delay
  | /-- Write the signature packet `I1`, ..., `I5` with this text, if it can be parsed and is
    not empty. -/
    signature (k : Fin 5) (cps : Bytes)
  | fragment (bytes : Bytes)

/-- What was written to the socket. -/
inductive Kind
  | raw
  | /-- What `ObfuscateWrite` returned. -/
    obfuscated
  | junk
  | signature (k : Fin 5)
  | fragment
deriving DecidableEq

/-- The method that is called, with the address it works on. -/
inductive Entry (δ : Type)
  | writeToUDP (addr : δ)
  | /-- `WriteTo`; there is no address if it is not a `*net.UDPAddr`. -/
    writeTo (addr : Option δ)
  | /-- `Write`, with the stored or the remote address, if there is one. -/
    write (remote : Option δ)
  | /-- `Noize.ObfuscateWrite` itself. -/
    obfuscateWrite (addr : δ)

inductive Pc (δ : Type)
  | start
  | /-- `Write` has found the layer enabled and calls `WriteToUDP`. -/
    delegated (addr : δ)
  | /-- At the beginning of `ObfuscateWrite`. -/
    obfuscate (addr : δ)
  | seen (addr : δ)
  | /-- At `addPadding`. -/
    pad (addr : δ)
  | /-- `ObfuscateWrite` has returned this. -/
    out (addr : δ) (packet : Bytes)
  | returned

structure Call (δ : Type) where
  entry : Entry δ
  buf : Bytes
  pc : Pc δ

/-- A goroutine: its destination and what it still does. -/
structure Task (δ : Type) where
  dst : δ
  acts : List Act

/-- A datagram on the socket, and whether the layer was disabled when it was written.  There
is no destination if the socket's own is used. -/
structure Sent (δ : Type) where
  kind : Kind
  dst : Option δ
  bytes : Bytes
  disabled : Bool

inductive Sequence
  | preHandshake
  | postHandshake
deriving DecidableEq

/-- A sequence that was started: by which call, and for which destination. -/
structure Start (δ : Type) where
  sequence : Sequence
  call : Nat
  dst : δ
deriving DecidableEq

/-- The state.  `hsState` has no entry, or the flag `postSent`. -/
structure State (δ : Type) where
  enabled : Bool
  hsState : δ → Option Bool
  calls : List (Call δ)
  tasks : List (Task δ)
  sent : List (Sent δ)
  /-- The calls that went through the first critical section, in order. -/
  seen : List (Nat × δ)
  started : List (Start δ)
  crashed : Bool

inductive Label
  | enter (i : Nat)
  | /-- The first critical section of `ObfuscateWrite`. -/
    first (i : Nat)
  | /-- From there to `addPadding`, with the second critical section. -/
    second (i : Nat)
  | finish (i : Nat) (draws : List (Option Nat))
  | /-- The call returns; a method of the connection writes the packet before that. -/
    emit (i : Nat)
  | act (k : Nat) (draws : List (Option Nat))
  | /-- `Disable` or `DisableObfuscation`. -/
    disable
  | /-- `Enable`. -/
    enable

/-! ## What a goroutine does -/

def junks (zeroSize : Bool) (count : Int64) : List Act :=
  (List.replicate count.toNatClampNeg [Act.junk zeroSize, .delay]).flatten

/-- The signature packet with this text, unless the text is empty. -/
def signatureAct (k : Fin 5) (cps : Bytes) : List Act :=
  if cps = [] then [] else [.signature k cps]

/-- `executePreHandshake`. -/
def preHandshakeActs (config : NoizeConfig) : List Act :=
  junks false config.jcBeforeHS ++ signatureAct 0 config.i1 ++ junks false config.jcAfterI1 ++
    signatureAct 1 config.i2 ++ signatureAct 2 config.i3 ++ signatureAct 3 config.i4 ++
    signatureAct 4 config.i5 ++ junks false config.jcDuringHS

/-- `executePostHandshake`. -/
def postHandshakeActs (config : NoizeConfig) : List Act := junks true config.jcAfterHS

/-- The goroutine of `fragmentInitialPacket`. -/
def fragmentActs (config : NoizeConfig) (packet : Bytes) : List Act :=
  (delayedFragments packet config.fragmentSize.toNatClampNeg).map .fragment

/-- The packet of an act, if it writes one. -/
def Act.packet (config : NoizeConfig) : Act → Draw (Option Bytes)
  | .junk zeroSize => do
      let junk ← generateJunkPacket config
      pure (if junk = [] ∧ !zeroSize then none else some junk)
  | .delay => do
      let _ ← applyJunkDelay config
      pure none
  | .signature _ cps => do
      let packet ← parseCPSPacket cps
      pure (packet.filter (· ≠ []))
  | .fragment bytes => pure (some bytes)

def Act.kind : Act → Kind
  | .junk _ => .junk
  | .delay => .junk
  | .signature k _ => .signature k
  | .fragment _ => .fragment

/-! ## The machine -/

/-- The test of `WriteToUDP` for a configuration that does nothing. -/
def NoizeConfig.allOff (config : NoizeConfig) : Bool :=
  config.jc = 0 ∧ config.jcBeforeHS = 0 ∧ config.jcAfterI1 = 0 ∧ config.jcDuringHS = 0 ∧
    config.jcAfterHS = 0 ∧ config.paddingMax = 0 ∧ !config.fragmentInitial ∧ config.i1 = [] ∧
    config.i2 = []

/-- The end of `ObfuscateWrite`. -/
def padAndWrap (config : NoizeConfig) (packet : Bytes) : Draw Bytes := do
  let packet ← addPadding config packet
  let packet ← if config.mimicProtocol ≠ [] then wrapProtocol config packet else pure packet
  let _ ← applyDelay config
  pure packet

/-- What a call finds at the flag: its buffer goes to the socket as it is, or it goes on. -/
inductive Route (δ : Type)
  | raw (dst : Option δ)
  | goto (pc : Pc δ)

variable {δ : Type}

/-- `WriteToUDP` up to `ObfuscateWrite`. -/
def routeUDP (config : NoizeConfig) (enabled : Bool) (addr : δ) : Route δ :=
  if !enabled ∨ config.allOff then .raw (some addr) else .goto (.obfuscate addr)

/-- The step of a call at the flag; there is none elsewhere. -/
def Call.route (config : NoizeConfig) (enabled : Bool) (c : Call δ) : Option (Route δ) :=
  match c.pc with
  | .start =>
    match c.entry with
    | .writeToUDP addr => some (routeUDP config enabled addr)
    | .writeTo (some addr) => some (routeUDP config enabled addr)
    | .writeTo none => some (.raw none)
    | .write remote =>
      if !enabled then some (.raw none)
      else
        match remote with
        | none => some (.raw none)
        | some addr => some (.goto (.delegated addr))
    | .obfuscateWrite addr => some (.goto (.obfuscate addr))
  | .delegated addr => some (routeUDP config enabled addr)
  | _ => none

/-- The call is of a method of the connection, which writes what `ObfuscateWrite` returns. -/
def Entry.writes : Entry δ → Bool
  | .obfuscateWrite _ => false
  | _ => true

/-- The layer: its configuration, and whether it has a socket. -/
structure Layer where
  config : NoizeConfig
  conn : Bool

/-- `New`: the configuration of a layer that is made with a pointer to one, or `nil`. -/
def newConfig (config : Option NoizeConfig) : NoizeConfig := config.getD defaultConfig

/-- What a goroutine of the layer does; without a socket it returns. -/
def Layer.acts (n : Layer) (acts : List Act) : List Act := if n.conn then acts else []

namespace State

def setPc (s : State δ) (i : Nat) (c : Call δ) (pc : Pc δ) : State δ :=
  { s with calls := s.calls.set i { c with pc := pc } }

def write (s : State δ) (kind : Kind) (dst : Option δ) (bytes : Bytes) : State δ :=
  { s with sent := s.sent ++ [⟨kind, dst, bytes, !s.enabled⟩] }

def go (n : Layer) (s : State δ) (addr : δ) (acts : List Act) : State δ :=
  { s with tasks := s.tasks ++ [⟨addr, n.acts acts⟩] }

def startSequence (n : Layer) (s : State δ) (sequence : Sequence) (i : Nat) (addr : δ)
    (acts : List Act) : State δ :=
  { s.go n addr acts with started := s.started ++ [⟨sequence, i, addr⟩] }

variable [DecidableEq δ]

/-- The first critical section of `ObfuscateWrite`, and the start of the sequence before the
handshake. -/
def firstStep (n : Layer) (s : State δ) (i : Nat) (c : Call δ) (addr : δ) : State δ :=
  let t := { s.setPc i c (.seen addr) with seen := s.seen ++ [(i, addr)] }
  match s.hsState addr with
  | some _ => t
  | none =>
    { t.startSequence n .preHandshake i addr (preHandshakeActs n.config) with
      hsState := Function.update s.hsState addr (some false) }

/-- From the first critical section to `addPadding`. -/
def secondStep (n : Layer) (s : State δ) (i : Nat) (c : Call δ) (addr : δ) : State δ :=
  if fragments n.config c.buf then
    (s.go n addr (fragmentActs n.config c.buf)).setPc i c
      (.out addr (c.buf.take n.config.fragmentSize.toNatClampNeg))
  else
    let t := s.setPc i c (.pad addr)
    if detectQUICPacketType c.buf = .oneRTT ∧ s.hsState addr = some false then
      { t.startSequence n .postHandshake i addr (postHandshakeActs n.config) with
        hsState := Function.update s.hsState addr (some true) }
    else t

def next (n : Layer) (s : State δ) (a : Label) : Option (State δ) :=
  if s.crashed then none
  else
    match a with
    | .enter i => do
        let c ← s.calls[i]?
        match ← c.route n.config s.enabled with
        | .raw dst => some ((s.write .raw dst c.buf).setPc i c .returned)
        | .goto pc => some (s.setPc i c pc)
    | .first i => do
        let c ← s.calls[i]?
        match c.pc with
        | .obfuscate addr =>
          if c.buf = [] then some (s.setPc i c (.out addr c.buf))
          else some (s.firstStep n i c addr)
        | _ => none
    | .second i => do
        let c ← s.calls[i]?
        match c.pc with
        | .seen addr => some (s.secondStep n i c addr)
        | _ => none
    | .finish i draws => do
        let c ← s.calls[i]?
        match c.pc with
        | .pad addr =>
          match (padAndWrap n.config c.buf).run draws with
          | none => some { s with crashed := true }
          | some packet => some (s.setPc i c (.out addr packet))
        | _ => none
    | .emit i => do
        let c ← s.calls[i]?
        match c.pc with
        | .out addr packet =>
          if c.entry.writes then some ((s.write .obfuscated (some addr) packet).setPc i c .returned)
          else some (s.setPc i c .returned)
        | _ => none
    | .act k draws => do
        let g ← s.tasks[k]?
        match g.acts with
        | [] => none
        | act :: acts =>
          match (act.packet n.config).run draws with
          | none => some { s with crashed := true }
          | some none => some { s with tasks := s.tasks.set k { g with acts := acts } }
          | some (some packet) =>
            some { s.write act.kind (some g.dst) packet with
              tasks := s.tasks.set k { g with acts := acts } }
    | .disable => some { s with enabled := false }
    | .enable => some { s with enabled := true }

/-- A connection that was just wrapped, and the calls. -/
def fresh (reqs : List (Entry δ × Bytes)) : State δ :=
  ⟨true, fun _ ↦ none, reqs.map fun r ↦ ⟨r.1, r.2, .start⟩, [], [], [], [], false⟩

end State

/-- Runs of the calls `reqs` on a connection that was just wrapped. -/
def machine [DecidableEq δ] (n : Layer) (reqs : List (Entry δ × Bytes)) :
    Machine (State δ) Label where
  start s := s = .fresh reqs
  next := State.next n

/-! ## What a step can do -/

variable [DecidableEq δ]

/-- What a step of a process that has not crashed can do. -/
inductive Step (n : Layer) (s : State δ) : Label → State δ → Prop
  | raw {i c dst} : s.calls[i]? = some c →
      c.route n.config s.enabled = some (.raw dst) →
      Step n s (.enter i) ((s.write .raw dst c.buf).setPc i c .returned)
  | goto {i c pc} : s.calls[i]? = some c →
      c.route n.config s.enabled = some (.goto pc) → Step n s (.enter i) (s.setPc i c pc)
  | empty {i : Nat} {c : Call δ} {addr : δ} : s.calls[i]? = some c → c.pc = .obfuscate addr →
      c.buf = [] → Step n s (.first i) (s.setPc i c (.out addr c.buf))
  | again {i : Nat} {c : Call δ} {addr : δ} {postSent : Bool} : s.calls[i]? = some c →
      c.pc = .obfuscate addr → c.buf ≠ [] → s.hsState addr = some postSent →
      Step n s (.first i) { s.setPc i c (.seen addr) with seen := s.seen ++ [(i, addr)] }
  | /-- The destination gets a state, and the sequence before the handshake is started. -/
    pre {i : Nat} {c : Call δ} {addr : δ} : s.calls[i]? = some c → c.pc = .obfuscate addr →
      c.buf ≠ [] → s.hsState addr = none →
      Step n s (.first i)
        { s.setPc i c (.seen addr) with
          seen := s.seen ++ [(i, addr)]
          tasks := s.tasks ++ [⟨addr, n.acts (preHandshakeActs n.config)⟩]
          started := s.started ++ [⟨.preHandshake, i, addr⟩]
          hsState := Function.update s.hsState addr (some false) }
  | fragment {i c addr} : s.calls[i]? = some c → c.pc = .seen addr →
      fragments n.config c.buf = true →
      Step n s (.second i)
        { s.setPc i c (.out addr (c.buf.take n.config.fragmentSize.toNatClampNeg)) with
          tasks := s.tasks ++ [⟨addr, n.acts (fragmentActs n.config c.buf)⟩] }
  | post {i c addr} : s.calls[i]? = some c → c.pc = .seen addr →
      detectQUICPacketType c.buf = .oneRTT → s.hsState addr = some false →
      Step n s (.second i)
        { s.setPc i c (.pad addr) with
          tasks := s.tasks ++ [⟨addr, n.acts (postHandshakeActs n.config)⟩]
          started := s.started ++ [⟨.postHandshake, i, addr⟩]
          hsState := Function.update s.hsState addr (some true) }
  | plain {i c addr} : s.calls[i]? = some c → c.pc = .seen addr →
      Step n s (.second i) (s.setPc i c (.pad addr))
  | /-- The end of `ObfuscateWrite` panics. -/
    panic {i draws c addr} : s.calls[i]? = some c →
      c.pc = .pad addr → (padAndWrap n.config c.buf).run draws = none →
      Step n s (.finish i draws) { s with crashed := true }
  | /-- `ObfuscateWrite` returns. -/
    padded {i draws c addr packet} :
      s.calls[i]? = some c → c.pc = .pad addr →
      (padAndWrap n.config c.buf).run draws = some packet →
      Step n s (.finish i draws) (s.setPc i c (.out addr packet))
  | /-- A method of the connection writes what `ObfuscateWrite` returned. -/
    emit {i c addr packet} : s.calls[i]? = some c →
      c.pc = .out addr packet → c.entry.writes = true →
      Step n s (.emit i) ((s.write .obfuscated (some addr) packet).setPc i c .returned)
  | /-- A call of `ObfuscateWrite` itself returns. -/
    ret {i c addr packet} : s.calls[i]? = some c →
      c.pc = .out addr packet → c.entry.writes = false →
      Step n s (.emit i) (s.setPc i c .returned)
  | crash {k draws g act acts} :
      s.tasks[k]? = some g → g.acts = act :: acts → (act.packet n.config).run draws = none →
      Step n s (.act k draws) { s with crashed := true }
  | skip {k draws g act acts} :
      s.tasks[k]? = some g → g.acts = act :: acts →
      (act.packet n.config).run draws = some none →
      Step n s (.act k draws) { s with tasks := s.tasks.set k { g with acts := acts } }
  | send {k draws g act acts packet} : s.tasks[k]? = some g → g.acts = act :: acts →
      (act.packet n.config).run draws = some (some packet) →
      Step n s (.act k draws)
        { s.write act.kind (some g.dst) packet with
          tasks := s.tasks.set k { g with acts := acts } }
  | disable : Step n s .disable { s with enabled := false }
  | enable : Step n s .enable { s with enabled := true }

theorem step_of_next {n : Layer} {s t : State δ} {a : Label} (h : s.next n a = some t) :
    s.crashed = false ∧ Step n s a t := by
  unfold State.next at h
  split at h
  · cases h
  · refine ⟨Bool.eq_false_iff.mpr ‹_›, ?_⟩
    cases a with
    | enter i =>
      obtain ⟨c, hc, h⟩ := Option.bind_eq_some_iff.mp h
      obtain ⟨dst | pc, hroute, ⟨⟩⟩ := Option.bind_eq_some_iff.mp h
      · exact .raw hc hroute
      · exact .goto hc hroute
    | first i =>
      obtain ⟨c, hc, h⟩ := Option.bind_eq_some_iff.mp h
      (repeat' split at h) <;> cases h
      · exact .empty hc ‹_› ‹_›
      · unfold State.firstStep
        split
        · exact .again hc ‹_› ‹_› ‹_›
        · exact .pre hc ‹_› ‹_› ‹_›
    | second i =>
      obtain ⟨c, hc, h⟩ := Option.bind_eq_some_iff.mp h
      split at h <;> cases h
      unfold State.secondStep
      split
      · exact .fragment hc ‹_› ‹_›
      · dsimp only
        split_ifs with hpost
        · exact .post hc ‹_› hpost.1 hpost.2
        · exact .plain hc ‹_›
    | finish i draws =>
      obtain ⟨c, hc, h⟩ := Option.bind_eq_some_iff.mp h
      (repeat' split at h) <;> cases h
      · exact .panic hc ‹_› ‹_›
      · exact .padded hc ‹_› ‹_›
    | emit i =>
      obtain ⟨c, hc, h⟩ := Option.bind_eq_some_iff.mp h
      (repeat' split at h) <;> cases h
      · exact .emit hc ‹_› ‹_›
      · exact .ret hc ‹_› (Bool.eq_false_iff.mpr ‹_›)
    | act k draws =>
      obtain ⟨g, hg, h⟩ := Option.bind_eq_some_iff.mp h
      (repeat' split at h) <;> cases h
      · exact .crash hg ‹_› ‹_›
      · exact .skip hg ‹_› ‹_›
      · exact .send hg ‹_› ‹_›
    | disable =>
      cases h
      exact .disable
    | enable =>
      cases h
      exact .enable

end Vwarp.Masque.Noize
