import Vwarp.Wireguard.Device.Send
import Vwarp.Wiresocks.Udpfw

/-!
# Warp in warp

`runWarpInWarp` runs a second WireGuard device through the tunnel of a first one, with a
`NewVtunUDPForwarder` between them.  Both MTUs are 1280, but the datagram of a packet of the
inner device is longer than the packet, so that the longest do not fit into the buffers of the
forwarder.
-/

namespace Vwarp.App.WarpInWarp

open Vwarp.Go Vwarp.Lib Vwarp.Wireguard.Device Vwarp.Wiresocks.Udpfw

/-- `singleMTU`, the size of the buffers of the forwarder. -/
def singleMTU : Nat := 1280

/-- `doubleMTU`, the MTU of the inner device. -/
def doubleMTU : Nat := 1280

/-- The datagram that the inner device sends for a packet. -/
def datagram (inner : Keypair) (nonce : Nat) (packet : Bytes) : Bytes :=
  inner.transport (Int64.ofNat doubleMTU) nonce packet

/-- Steps in which the forwarder reads the datagrams of these packets, or, from the other
side, datagrams that are not longer. -/
def carries {ε : Type} (inner : Keypair) (packets : Bytes → Prop) : Label ε → Prop
  | .client _ d => ∃ nonce packet, packets packet ∧ d = datagram inner nonce packet
  | .dest d => ∃ nonce packet, packets packet ∧ d.length ≤ (datagram inner nonce packet).length
  | _ => True

theorem length_datagram (inner : Keypair) (nonce : Nat) {packet : Bytes}
    (hlen : packet.length ≤ doubleMTU) :
    (datagram inner nonce packet).length = 32 + min ((packet.length + 15) / 16 * 16) doubleMTU :=
  length_transport inner rfl (by decide) (by decide) nonce hlen

theorem length_datagram_le_iff (inner : Keypair) (nonce : Nat) {packet : Bytes}
    (hlen : packet.length ≤ doubleMTU) :
    (datagram inner nonce packet).length ≤ singleMTU ↔ packet.length ≤ 1248 := by
  have hdouble : doubleMTU = 1280 := rfl
  have hsingle : singleMTU = 1280 := rfl
  rw [length_datagram inner nonce hlen]
  omega

/-- Every datagram of the inner device fits into the buffers of the forwarder, and every run of
the forwarder passes on whole datagrams, exactly if every packet has at most 1248 bytes. -/
theorem forwards_whole_iff {ε : Type} (cAddr : ε) (inner : Keypair) {packets : Bytes → Prop}
    (hpackets : ∀ packet, packets packet → packet.length ≤ doubleMTU) :
    ((∀ nonce packet, packets packet → (datagram inner nonce packet).length ≤ singleMTU) ↔
      ∀ packet, packets packet → packet.length ≤ 1248) ∧
    ((∀ s : State ε, (forwarder ε singleMTU).Reach (fun _ a ↦ carries inner packets a) s →
      s.Whole) ↔
      ∀ packet, packets packet → packet.length ≤ 1248) := by
  have hfit : (∀ nonce packet, packets packet → (datagram inner nonce packet).length ≤ singleMTU) ↔
      ∀ packet, packets packet → packet.length ≤ 1248 := by
    constructor
    · intro hfit packet hpacket
      exact (length_datagram_le_iff inner 0 (hpackets packet hpacket)).mp (hfit 0 packet hpacket)
    · intro hshort nonce packet hpacket
      exact (length_datagram_le_iff inner nonce (hpackets packet hpacket)).mpr
        (hshort packet hpacket)
  refine ⟨hfit, ?_⟩
  rw [← hfit]
  constructor
  · intro hwhole nonce packet hpacket
    -- a run in which the client sends this one datagram
    have hreach := Machine.Reach.step (G := fun _ a ↦ carries inner packets a)
      (M := forwarder ε singleMTU) (.start rfl)
      (show carries inner packets (.client cAddr _) from ⟨nonce, packet, hpacket, rfl⟩) rfl
    have hup := (hwhole _ hreach).up
    exact readFrom_eq_self.mp (List.singleton_inj.mp hup)
  · intro hfit s hreach
    refine whole_of_fits (hreach.mono fun s a hcarries ↦ ?_)
    cases a with
    | client cAddr d =>
      obtain ⟨nonce, packet, hpacket, rfl⟩ := hcarries
      exact hfit nonce packet hpacket
    | dest d =>
      obtain ⟨nonce, packet, hpacket, hle⟩ := hcarries
      exact Nat.le_trans hle (hfit nonce packet hpacket)
    | _ => trivial

def zeroTag : Keypair := ⟨1, fun _ packet ↦ packet ++ List.replicate 16 0, by simp⟩

/-- A packet of three bytes, among packets of up to 1000 bytes. -/
theorem forwards_whole_small : ∃ s : State Nat,
    (forwarder Nat singleMTU).Reach
      (fun _ a ↦ carries zeroTag (fun packet ↦ packet.length ≤ 1000) a) s ∧
    s.fromClient = [datagram zeroTag 0 [1, 2, 3]] ∧ s.Whole := by
  have hsmall : ∀ packet : Bytes, packet.length ≤ 1000 → packet.length ≤ 1248 :=
    fun _ h ↦ Nat.le_trans h (by decide)
  have hreach := Machine.Reach.step (M := forwarder Nat singleMTU)
    (G := fun _ a ↦ carries zeroTag (fun packet ↦ packet.length ≤ 1000) a)
    (a := .client 7 (datagram zeroTag 0 [1, 2, 3])) (.start rfl) ⟨0, [1, 2, 3], by decide, rfl⟩ rfl
  refine ⟨_, hreach, rfl, ?_⟩
  exact (forwards_whole_iff 7 zeroTag fun _ h ↦ Nat.le_trans h (by decide)).2.mpr hsmall _ hreach

/-- The datagram of a packet as long as the MTU of the inner device has 1312 bytes, of which
1280 are passed on. -/
theorem full_packet_truncated : ∃ s : State Nat,
    (forwarder Nat singleMTU).Reach
      (fun _ a ↦ carries zeroTag (fun packet ↦ packet = List.replicate doubleMTU 0) a) s ∧
    s.fromClient = [datagram zeroTag 0 (List.replicate doubleMTU 0)] ∧
    s.fromClient.map List.length = [1312] ∧ s.toDest.map List.length = [1280] := by
  have hlen := length_datagram zeroTag 0
    (Nat.le_of_eq (List.length_replicate (n := doubleMTU) (a := (0 : UInt8))))
  rw [List.length_replicate] at hlen
  refine ⟨_, Machine.Reach.step (a := .client 7 (datagram zeroTag 0 (List.replicate doubleMTU 0)))
    (.start rfl) ⟨0, _, rfl, rfl⟩ rfl, rfl, ?_, ?_⟩
  · exact congrArg (fun n ↦ [n]) hlen
  · refine congrArg (fun n ↦ [n]) ?_
    show (List.take singleMTU _).length = 1280
    rw [List.length_take, hlen]
    rfl

end Vwarp.App.WarpInWarp
