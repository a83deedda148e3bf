import Vwarp.Go.Strings
import Vwarp.Lib.Machine

/-!
# `maintainMasqueTunnel`: the five goroutines

`app/masque_tun_adapter.go` runs five goroutines over a shared flag
`connectionBroken`, a channel `connectionDown` with one slot, an adapter behind a
read-write mutex and a handful of atomic counters and timestamps.  Each goroutine
is a small program-counter machine here: one step is one atomic operation on the
shared state (a load, a store, an add, a channel operation, a lock operation) or
one call into the environment, together with the local computation around it.
Interleaving the steps in any order is `machine`.

## What a label carries

A label names the goroutine that moves and an `Env`: the clock reading a
`time.Now().Unix()` returns in that step and the outcome of the device, adapter
or factory call made in it.  Steps that make no such call ignore it.  Since
`Env` is unconstrained, every behaviour of the adapter, the device, the factory,
the tickers and the clock is covered.

## What is left out

The context is never cancelled, so the `ctx.Done()` branches and the
`ctx.Err()` tests have no counterpart.  Sleeps take no time, log calls and the
packet counters, which nothing reads, are dropped, and a packet is its length.
`adapterMutex.RLock`, the copy of the adapter pointer and `RUnlock` are one step,
enabled while recovery does not hold the lock.
-/

namespace Vwarp.App.MasqueTunnel

open Vwarp.Go

/-! ## Error classification -/

/-- The standard network errors of `isConnectionError`. -/
def connectionErrors : List Bytes :=
  [ str "use of closed network connection",
    str "connection reset by peer",
    str "broken pipe",
    str "network is unreachable",
    str "no route to host",
    str "connection refused",
    str "connection timed out",
    str "i/o timeout",
    str "context deadline exceeded",
    str "context canceled",
    str "connection aborted",
    str "transport endpoint is not connected",
    str "socket is not connected",
    str "network interface is down",
    str "connection reset by peer",
    str "EOF",
    str "broken pipe" ]

/-- The platform-specific errors of `isConnectionError`. -/
def androidErrors : List Bytes :=
  [ str "permission denied",
    str "operation not permitted",
    str "protocol not available",
    str "address family not supported",
    str "network protocol is not available" ]

/-- `isConnectionError`: some listed text occurs in the lower-cased message. -/
def isConnectionError : Option Bytes → Bool
  | none => false
  | some msg => (connectionErrors ++ androidErrors).any fun pattern ↦ contains (toLower msg) pattern

/-- The read forwarder's `isTimeout`, on the message as it came. -/
def isTimeoutText (errStr : Bytes) : Bool :=
  contains errStr (str "timeout") || contains errStr (str "deadline")

/-! ## Constants, in seconds -/

/-- `StaleConnectionThreshold`. -/
def staleConnectionThreshold : Int := 120

/-- `RecoveryCooldownPeriod`. -/
def recoveryCooldownPeriod : Int := 60

/-- `MaxRecoveryAttempts`. -/
def maxRecoveryAttempts : Nat := 5

/-- `MaxReconnectionAttempts`. -/
def maxReconnectionAttempts : Nat := 5

/-! ## Program counters -/

/-- The goroutine that forwards packets from the device to the adapter. -/
inductive WriterPc
  | head | sleep | readPacket | rlock | writeWithICMP
  | addFailure | trackFailure | check | storeBroken | send
  | pause | storeWrite | writeICMP
deriving DecidableEq, Repr

/-- The goroutine that forwards packets from the adapter to the device. -/
inductive ReaderPc
  | head | sleep | rlock | read
  | addFailure | trackFailure | check | storeBroken | send | backoff
  | pause | storeRead | writePacket
deriving DecidableEq, Repr

inductive HealthPc
  | tick | loadRead | loadWrite | loadRecovery | loadFailures | check | send
deriving DecidableEq, Repr

/-- The connection failure monitor. -/
inductive FailurePc
  | tick | loadReset | loadFailures | loadGlobalFailures | loadGlobalReset
  | check | storeBroken | send | reset | storeFailures | storeReset
deriving DecidableEq, Repr

/-- The recovery goroutine. -/
inductive RecoveryPc
  | idle | settle | backoff | lock | factory | unlockFailed
  | storeRead | storeWrite | unlock | pause | clear
  | dnsTest | httpTest | storeRecovery
  | resetFailures | resetTime | resetGlobal | resetGlobalTime | drain
  | failed | delay | resend
deriving DecidableEq, Repr

/-! ## State -/

/-- The write forwarder and its local variables. -/
structure Writer where
  pc : WriterPc
  writeErrors : Nat
  currentAdapter : Nat
  icmp : Nat
deriving DecidableEq, Repr

/-- The read forwarder and its local variables. -/
structure Reader where
  pc : ReaderPc
  consecutiveErrors : Nat
  readTimeouts : Nat
  isTimeout : Bool
  currentAdapter : Nat
deriving DecidableEq, Repr

/-- The health monitor and its local variables. -/
structure Health where
  pc : HealthPc
  now : Int
  lastRead : Int
  lastWrite : Int
  lastRecovery : Int
  failures : Int
deriving DecidableEq, Repr

/-- The failure monitor and its local variables. -/
structure Failure where
  pc : FailurePc
  now : Int
  lastReset : Int
  failures : Int
  globalFailures : Int
  globalLastReset : Int
deriving DecidableEq, Repr

/-- The recovery goroutine and its local variables. -/
structure Recovery where
  pc : RecoveryPc
  recoveryAttempts : Nat
  attempt : Nat
  now : Int
deriving DecidableEq, Repr

/-- The shared variables and the five goroutines. -/
structure State where
  connectionBroken : Bool
  /-- The one-slot channel holds a signal. -/
  connectionDown : Bool
  lastSuccessfulRead : Int
  lastSuccessfulWrite : Int
  lastRecoveryTime : Int
  connectionFailures : Int
  lastFailureReset : Int
  globalConnectionFailures : Int
  globalLastFailureReset : Int
  adapter : Nat
  /-- Recovery holds `adapterMutex` for writing. -/
  locked : Bool
  writer : Writer
  reader : Reader
  health : Health
  failure : Failure
  recovery : Recovery
deriving DecidableEq, Repr

/-- What the environment answers in one step. -/
structure Env where
  /-- `time.Now().Unix()`. -/
  now : Int
  /-- The outcome of a device, adapter or factory call: an error text, or a length
  or the identity of a new adapter. -/
  res : Except Bytes Nat

/-! ## Steps -/

def stepWriter (e : Env) (s : State) : Option State :=
  let w := s.writer
  match w.pc with
  | .head => some { s with writer.pc := if s.connectionBroken then .sleep else .readPacket }
  | .sleep => some { s with writer.pc := .head }
  | .readPacket =>
    match e.res with
    | .error _ => some { s with writer.pc := .pause }
    | .ok _ => some { s with writer.pc := .rlock }
  | .rlock =>
    if s.locked then none
    else some { s with writer.pc := .writeWithICMP, writer.currentAdapter := s.adapter }
  | .writeWithICMP =>
    match e.res with
    | .error err =>
      if isConnectionError (some err) then
        some { s with writer.pc := .addFailure, writer.writeErrors := w.writeErrors + 1 }
      else some { s with writer.pc := .pause, writer.writeErrors := w.writeErrors + 1 }
    | .ok icmp =>
      some { s with writer.pc := .storeWrite, writer.writeErrors := 0, writer.icmp := icmp }
  | .addFailure =>
    some { s with writer.pc := .trackFailure, connectionFailures := s.connectionFailures + 1 }
  | .trackFailure =>
    some { s with writer.pc := .check, globalConnectionFailures := s.globalConnectionFailures + 1 }
  | .check =>
    if 3 ≤ w.writeErrors ∧ ¬ s.connectionBroken then some { s with writer.pc := .storeBroken }
    else some { s with writer.pc := .head }
  | .storeBroken => some { s with writer.pc := .send, connectionBroken := true }
  | .send => some { s with writer.pc := .head, connectionDown := true }
  | .pause => some { s with writer.pc := .head }
  | .storeWrite =>
    some { s with
      writer.pc := if 0 < w.icmp then .writeICMP else .head
      lastSuccessfulWrite := e.now }
  | .writeICMP => some { s with writer.pc := .head }

def stepReader (e : Env) (s : State) : Option State :=
  let r := s.reader
  match r.pc with
  | .head => some { s with reader.pc := if s.connectionBroken then .sleep else .rlock }
  | .sleep => some { s with reader.pc := .head }
  | .rlock =>
    if s.locked then none
    else some { s with reader.pc := .read, reader.currentAdapter := s.adapter }
  | .read =>
    match e.res with
    | .error err =>
      if isConnectionError (some err) then
        some { s with
          reader.pc := .addFailure
          reader.consecutiveErrors := r.consecutiveErrors + 1
          reader.isTimeout := isTimeoutText err }
      else some { s with reader.pc := .pause, reader.consecutiveErrors := r.consecutiveErrors + 1 }
    | .ok _ =>
      some { s with
        reader.pc := .storeRead, reader.consecutiveErrors := 0, reader.readTimeouts := 0 }
  | .addFailure =>
    some { s with reader.pc := .trackFailure, connectionFailures := s.connectionFailures + 1 }
  | .trackFailure =>
    some { s with
      reader.pc := .check
      reader.readTimeouts := if r.isTimeout then r.readTimeouts + 1 else r.readTimeouts
      globalConnectionFailures := s.globalConnectionFailures + 1 }
  | .check =>
    if 3 ≤ r.consecutiveErrors ∧ ¬ s.connectionBroken then some { s with reader.pc := .storeBroken }
    else some { s with reader.pc := .backoff }
  | .storeBroken => some { s with reader.pc := .send, connectionBroken := true }
  | .send => some { s with reader.pc := .backoff, connectionDown := true }
  | .backoff => some { s with reader.pc := .head }
  | .pause => some { s with reader.pc := .head }
  | .storeRead => some { s with reader.pc := .writePacket, lastSuccessfulRead := e.now }
  | .writePacket => some { s with reader.pc := .head }

/-- The health monitor's decision, on the values it loaded. -/
def Health.connectionIssues (h : Health) : Bool :=
  h.now - h.lastRead > staleConnectionThreshold || h.now - h.lastWrite > staleConnectionThreshold ||
    h.failures ≥ 3

def Health.recoveryCooldown (h : Health) : Bool := h.now - h.lastRecovery < recoveryCooldownPeriod

def stepHealth (e : Env) (s : State) : Option State :=
  let h := s.health
  match h.pc with
  | .tick => some { s with health.pc := .loadRead, health.now := e.now }
  | .loadRead => some { s with health.pc := .loadWrite, health.lastRead := s.lastSuccessfulRead }
  | .loadWrite =>
    some { s with health.pc := .loadRecovery, health.lastWrite := s.lastSuccessfulWrite }
  | .loadRecovery =>
    some { s with health.pc := .loadFailures, health.lastRecovery := s.lastRecoveryTime }
  | .loadFailures => some { s with health.pc := .check, health.failures := s.connectionFailures }
  | .check =>
    if ¬ s.connectionBroken ∧ ¬ h.recoveryCooldown ∧ h.connectionIssues then
      some { s with health.pc := .send }
    else some { s with health.pc := .tick }
  | .send => some { s with health.pc := .tick, connectionDown := true }

/-- The failure monitor's decision, on the values it loaded. -/
def Failure.highFailures (f : Failure) : Bool :=
  (f.failures ≥ 5 && f.now - f.lastReset < 120) ||
    (f.globalFailures ≥ 8 && f.now - f.globalLastReset < 180)

def stepFailure (e : Env) (s : State) : Option State :=
  let f := s.failure
  match f.pc with
  | .tick => some { s with failure.pc := .loadReset, failure.now := e.now }
  | .loadReset =>
    some { s with failure.pc := .loadFailures, failure.lastReset := s.lastFailureReset }
  | .loadFailures =>
    some { s with failure.pc := .loadGlobalFailures, failure.failures := s.connectionFailures }
  | .loadGlobalFailures =>
    some { s with
      failure.pc := .loadGlobalReset
      failure.globalFailures := s.globalConnectionFailures }
  | .loadGlobalReset =>
    some { s with failure.pc := .check, failure.globalLastReset := s.globalLastFailureReset }
  | .check =>
    if f.highFailures ∧ ¬ s.connectionBroken then some { s with failure.pc := .storeBroken }
    else some { s with failure.pc := .reset }
  | .storeBroken => some { s with failure.pc := .send, connectionBroken := true }
  | .send => some { s with failure.pc := .reset, connectionDown := true }
  | .reset =>
    if f.now - f.lastReset > 300 ∧ f.failures > 0 then some { s with failure.pc := .storeFailures }
    else some { s with failure.pc := .tick }
  | .storeFailures => some { s with failure.pc := .storeReset, connectionFailures := 0 }
  | .storeReset => some { s with failure.pc := .tick, lastFailureReset := f.now }

def stepRecovery (e : Env) (s : State) : Option State :=
  let r := s.recovery
  match r.pc with
  | .idle =>
    if s.connectionDown then some { s with recovery.pc := .settle, connectionDown := false }
    else none
  | .settle => some { s with recovery.pc := .backoff, recovery.attempt := 1 }
  | .backoff => some { s with recovery.pc := .lock }
  | .lock => if s.locked then none else some { s with recovery.pc := .factory, locked := true }
  | .factory =>
    match e.res with
    | .error _ => some { s with recovery.pc := .unlockFailed }
    | .ok newAdapter => some { s with recovery.pc := .storeRead, adapter := newAdapter }
  | .unlockFailed =>
    if r.attempt + 1 ≤ maxReconnectionAttempts then
      some { s with recovery.pc := .backoff, recovery.attempt := r.attempt + 1, locked := false }
    else some { s with recovery.pc := .failed, locked := false }
  | .storeRead =>
    some { s with recovery.pc := .storeWrite, recovery.now := e.now, lastSuccessfulRead := e.now }
  | .storeWrite => some { s with recovery.pc := .unlock, lastSuccessfulWrite := r.now }
  | .unlock => some { s with recovery.pc := .pause, locked := false }
  | .pause => some { s with recovery.pc := .clear }
  | .clear => some { s with recovery.pc := .dnsTest, connectionBroken := false }
  | .dnsTest =>
    match e.res with
    | .error _ => some { s with recovery.pc := .httpTest }
    | .ok _ => some { s with recovery.pc := .storeRecovery }
  -- an established tunnel is accepted whatever the HTTP test says
  | .httpTest => some { s with recovery.pc := .storeRecovery }
  | .storeRecovery => some { s with recovery.pc := .resetFailures, lastRecoveryTime := e.now }
  | .resetFailures =>
    some { s with
      recovery.pc := .resetTime, recovery.recoveryAttempts := 0, connectionFailures := 0 }
  | .resetTime => some { s with recovery.pc := .resetGlobal, lastFailureReset := e.now }
  | .resetGlobal => some { s with recovery.pc := .resetGlobalTime, globalConnectionFailures := 0 }
  | .resetGlobalTime => some { s with recovery.pc := .drain, globalLastFailureReset := e.now }
  | .drain =>
    if s.connectionDown then some { s with connectionDown := false }
    else some { s with recovery.pc := .idle }
  | .failed =>
    some { s with recovery.pc := .delay, recovery.recoveryAttempts := r.recoveryAttempts + 1 }
  | .delay =>
    if maxRecoveryAttempts ≤ r.recoveryAttempts then
      some { s with recovery.pc := .resend, recovery.recoveryAttempts := 0 }
    else some { s with recovery.pc := .resend }
  | .resend => some { s with recovery.pc := .idle, connectionDown := true }

/-! ## The machine -/

inductive Goroutine
  | writer | reader | health | failure | recovery
deriving DecidableEq, Repr

def next (s : State) (a : Goroutine × Env) : Option State :=
  match a.1 with
  | .writer => stepWriter a.2 s
  | .reader => stepReader a.2 s
  | .health => stepHealth a.2 s
  | .failure => stepFailure a.2 s
  | .recovery => stepRecovery a.2 s

/-- The state in which the goroutines are started, at time `now`, with the global
failure counters as other tunnels left them. -/
def start (now : Int) (globalFailures globalReset : Int) (adapter : Nat) : State where
  connectionBroken := false
  connectionDown := false
  lastSuccessfulRead := now
  lastSuccessfulWrite := now
  lastRecoveryTime := 0
  connectionFailures := 0
  lastFailureReset := now
  globalConnectionFailures := globalFailures
  globalLastFailureReset := globalReset
  adapter := adapter
  locked := false
  writer := ⟨.head, 0, 0, 0⟩
  reader := ⟨.head, 0, 0, false, 0⟩
  health := ⟨.tick, 0, 0, 0, 0, 0⟩
  failure := ⟨.tick, 0, 0, 0, 0, 0⟩
  recovery := ⟨.idle, 0, 0, 0⟩

/-- `maintainMasqueTunnel` as a machine over its goroutines' steps. -/
def machine : Lib.Machine State (Goroutine × Env) where
  start s :=
    ∃ now globalFailures globalReset adapter, s = start now globalFailures globalReset adapter
  next := next

end Vwarp.App.MasqueTunnel
