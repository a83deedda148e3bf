import Vwarp.Go.Strings
import Vwarp.Lib.Machine
import Mathlib.Data.List.TakeDrop

/-!
# `NewVtunUDPForwarder`

Two goroutines copy datagrams between a local socket and a connection of the tunnel, each
through a buffer of `mtu` bytes.  A read from a UDP socket gives what fits into the buffer and
loses the rest of the datagram.

The machine starts when both sockets are open.  It records the datagrams that arrived beside
those that were written, and `Whole` says that they are the same.
-/

namespace Vwarp.Wiresocks.Udpfw

open Vwarp.Go Vwarp.Lib

/-- The state, with the addresses of clients in `ε`. -/
structure State (ε : Type) where
  clientAddr : Option ε
  done : Bool
  /-- The goroutine that reads from clients runs. -/
  up : Bool
  /-- The goroutine that reads from the destination runs. -/
  down : Bool
  closed : Bool
  /-- The datagrams that were read from clients, as they arrived. -/
  fromClient : List Bytes
  toDest : List Bytes
  /-- The datagrams that were read from the destination, as they arrived, with the client
  they are for; those that arrive before there is a client are dropped. -/
  fromDest : List (ε × Bytes)
  toClient : List (ε × Bytes)

inductive Label (ε : Type)
  | /-- `listener.ReadFrom` returns a datagram. -/
    client (cAddr : ε) (datagram : Bytes)
  | /-- `listener.ReadFrom` returns an error. -/
    clientError
  | /-- `rconn.ReadFrom` returns a datagram. -/
    dest (datagram : Bytes)
  | /-- `rconn.ReadFrom` returns an error. -/
    destError
  | cancel
  | stopUp
  | stopDown
  | /-- Both have returned, and the sockets are closed. -/
    close

variable {ε : Type}

/-- A read into a buffer of `mtu` bytes. -/
def readFrom (mtu : Nat) (datagram : Bytes) : Bytes := datagram.take mtu

def State.next (mtu : Nat) (s : State ε) : Label ε → Option (State ε)
  | .client cAddr datagram =>
    if s.up then
      some { s with
        clientAddr := some cAddr
        fromClient := s.fromClient ++ [datagram]
        toDest := s.toDest ++ [readFrom mtu datagram] }
    else none
  | .clientError => if s.up then some s else none
  | .dest datagram =>
    if s.down then
      match s.clientAddr with
      | none => some s
      | some cAddr =>
        some { s with
          fromDest := s.fromDest ++ [(cAddr, datagram)]
          toClient := s.toClient ++ [(cAddr, readFrom mtu datagram)] }
    else none
  | .destError => if s.down then some s else none
  | .cancel => some { s with done := true }
  | .stopUp => if s.done ∧ s.up then some { s with up := false } else none
  | .stopDown => if s.done ∧ s.down then some { s with down := false } else none
  | .close => if !s.up ∧ !s.down ∧ !s.closed then some { s with closed := true } else none

/-- The forwarder after both sockets were opened. -/
def State.fresh : State ε := ⟨none, false, true, true, false, [], [], [], []⟩

def forwarder (ε : Type) (mtu : Nat) : Machine (State ε) (Label ε) where
  start s := s = .fresh
  next := State.next mtu

structure State.Whole (s : State ε) : Prop where
  up : s.toDest = s.fromClient
  down : s.toClient = s.fromDest

/-- The datagram of a step fits into the buffer. -/
def Label.fits (mtu : Nat) : Label ε → Prop
  | .client _ datagram | .dest datagram => datagram.length ≤ mtu
  | _ => True

theorem readFrom_eq_self {mtu : Nat} {datagram : Bytes} :
    readFrom mtu datagram = datagram ↔ datagram.length ≤ mtu := List.take_eq_self_iff datagram

/-- A step with a datagram that fits does not change that everything is whole. -/
theorem State.Whole.step {mtu : Nat} {s t : State ε} {a : Label ε} (h : s.Whole)
    (hfits : a.fits mtu) (hnext : s.next mtu a = some t) : t.Whole := by
  cases a with
  | client cAddr datagram =>
    obtain ⟨-, hnext⟩ := Option.ite_none_right_eq_some.mp hnext
    cases hnext
    refine ⟨?_, h.down⟩
    show s.toDest ++ [readFrom mtu datagram] = s.fromClient ++ [datagram]
    rw [h.up, readFrom_eq_self.mpr hfits]
  | dest datagram =>
    obtain ⟨-, hnext⟩ := Option.ite_none_right_eq_some.mp hnext
    split at hnext
    · cases hnext
      exact h
    · rename_i cAddr _
      cases hnext
      refine ⟨h.up, ?_⟩
      show s.toClient ++ [(cAddr, readFrom mtu datagram)] = s.fromDest ++ [(cAddr, datagram)]
      rw [h.down, readFrom_eq_self.mpr hfits]
  | cancel =>
    cases hnext
    exact { h with }
  | _ =>
    -- an error, the return of a loop or the close: nothing is read or written
    obtain ⟨-, hnext⟩ := Option.ite_none_right_eq_some.mp hnext
    cases hnext
    exact { h with }

theorem whole_of_fits {mtu : Nat} {s : State ε}
    (h : (forwarder ε mtu).Reach (fun _ a ↦ a.fits mtu) s) : s.Whole := by
  refine Machine.Reach.invariant ?_ ?_ h
  · rintro s rfl
    exact ⟨rfl, rfl⟩
  · intro s a t hs hfits hnext
    exact hs.step hfits hnext

end Vwarp.Wiresocks.Udpfw
