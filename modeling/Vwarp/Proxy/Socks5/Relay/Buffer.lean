import Vwarp.Proxy.Socks5.Embed

/-!
# The buffer of the embedded relay

`embedHandleAssociate` reads every datagram into one array of `maxUdpPacket` bytes.  A reply of the
target is shifted inside that array to make room for the header, and the header is copied in front
of it.  `relayStep` is the loop at that level: the array is part of the state, and a slice
expression that is out of range is a panic.

`relay_eq` says that this is the loop of `Vwarp.Proxy.Socks5.Associate`, which has no array: the
array is left exactly when header and reply together are longer than it.
-/

namespace Vwarp.Proxy.Socks5

open Vwarp.Go Vwarp.Lib

/-! ## The loop over its array -/

/-- The slice expression `buf[lo:hi]` of an array. -/
def sliceOf (buf : Bytes) (lo hi : Nat) : Option Bytes :=
  if lo ≤ hi ∧ hi ≤ buf.length then some ((buf.take hi).drop lo) else none

/-- `copy(buf[lo:hi], src)`: the array afterwards. -/
def copyAt (buf : Bytes) (lo hi : Nat) (src : Bytes) : Option Bytes :=
  (sliceOf buf lo hi).map fun dst ↦ buf.take lo ++ copyInto dst src ++ buf.drop hi

/-- The variables of the loop with the array. -/
structure Relay where
  vars : Embed
  buf : Bytes

def Relay.init : Relay := ⟨.init, List.replicate maxUdpPacket 0⟩

/-- The branch for a datagram of `n` bytes from the source. -/
def relayFromSource (writeTo : Write → Option Error) (r : Relay) (n : Nat) :
    Relay × List Write × Flow :=
  if n < 3 then (r, [], .continue)
  else match sliceOf r.buf 3 n with
    | none => (r, [], .panic)
    | some bytes =>
      match readAddr (Buffer.mk bytes) with
      | .error _ => (r, [], .continue)
      | .ok (addr, reader) =>
        let targetAddr := r.vars.targetAddr.getD ⟨addr.ip, addr.port⟩
        let vars := { r.vars with targetAddr := some targetAddr }
        if addr.string ≠ targetAddr.string then (⟨vars, r.buf⟩, [], .continue)
        else
          let w := Write.toTarget reader.bytes targetAddr
          (⟨vars, r.buf⟩, [w], if writeTo w = none then .continue else .return)

/-- The array after a reply of `n` bytes was put behind its header. -/
def shiftReply (buf replyPrefix : Bytes) (n : Nat) : Option Bytes :=
  (sliceOf buf 0 n).bind fun reply ↦
    (copyAt buf replyPrefix.length (replyPrefix.length + n) reply).bind fun buf ↦
      copyAt buf 0 replyPrefix.length replyPrefix

/-- The branch for a datagram of `n` bytes from the target. -/
def relayFromTarget (writeTo : Write → Option Error) (r : Relay) (n : Nat) (source : Bytes)
    (target : UDPAddr) : Relay × List Write × Flow :=
  match r.vars.replyPrefix.or (writeAddrWithStr target.string |>.map ([0, 0, 0] ++ ·)) with
  | none => (r, [], .return)
  | some replyPrefix =>
    let vars := { r.vars with replyPrefix := some replyPrefix }
    match shiftReply r.buf replyPrefix n with
    | none => (⟨vars, r.buf⟩, [], .panic)
    | some buf =>
      match sliceOf buf 0 (replyPrefix.length + n) with
      | none => (⟨vars, buf⟩, [], .panic)
      | some packet =>
        let w := Write.toSource packet source
        (⟨vars, buf⟩, [w], if writeTo w = none then .continue else .return)

/-- One iteration of `embedHandleAssociate`. -/
def relayStep (writeTo : Write → Option Error) (r : Relay) (d : Datagram) :
    Relay × List Write × Flow :=
  let n := d.read.length
  let sourceAddr := r.vars.sourceAddr.getD d.source
  let r : Relay := ⟨{ r.vars with sourceAddr := some sourceAddr }, copyInto r.buf d.read⟩
  if sourceAddr = d.source then relayFromSource writeTo r n
  else match r.vars.targetAddr with
    | some target =>
      if target.string = d.source then relayFromTarget writeTo r n sourceAddr target
      else (r, [], .continue)
    | none => (r, [], .continue)

/-- `embedHandleAssociate` on the datagrams that arrive before the socket is closed, if it is. -/
def relay (writeTo : Write → Option Error) (closed : Option Error) :
    Relay → List Datagram → Relay × List Write × Flow
  | r, [] => (r, [], if closed = none then .continue else .return)
  | r, d :: ds =>
    match relayStep writeTo r d with
    | (r, ws, .continue) =>
      let rest := relay writeTo closed r ds
      (rest.1, ws ++ rest.2.1, rest.2.2)
    | (r, ws, flow) => (r, ws, flow)

/-! ## The loop without its array -/

variable {writeTo : Write → Option Error}

theorem length_read_le (d : Datagram) : d.read.length ≤ maxUdpPacket := by
  rw [Datagram.read, List.length_take]
  exact Nat.min_le_left _ _

variable {buf replyPrefix : Bytes}

theorem take_read (hbuf : buf.length = maxUdpPacket) (d : Datagram) :
    (copyInto buf d.read).take d.read.length = d.read :=
  take_copyInto (hbuf ▸ length_read_le d)

theorem copyAt_eq {src : Bytes} {lo hi : Nat} (hlo : lo + src.length = hi) (hhi : hi ≤ buf.length) :
    copyAt buf lo hi src = some (buf.take lo ++ src ++ buf.drop hi) := by
  have hdst : ((buf.take hi).drop lo).length = src.length := by
    rw [List.length_drop, List.length_take_of_le hhi, ← hlo, Nat.add_sub_cancel_left]
  have hcopy : copyInto ((buf.take hi).drop lo) src = src := by
    rw [copyInto_of_le (Nat.le_of_eq hdst), hdst, List.take_length]
  rw [copyAt, sliceOf, if_pos ⟨by omega, hhi⟩, Option.map_some, hcopy]

theorem shiftReply_eq {n : Nat} (hfits : replyPrefix.length + n ≤ buf.length) :
    ∃ buf', shiftReply buf replyPrefix n = some buf' ∧ buf'.length = buf.length ∧
      sliceOf buf' 0 (replyPrefix.length + n) = some (replyPrefix ++ buf.take n) := by
  have hn : n ≤ buf.length := by omega
  have hreply : (buf.take n).length = n := List.length_take_of_le hn
  have hfront : (buf.take replyPrefix.length).length = replyPrefix.length :=
    List.length_take_of_le (by omega)
  have hslice : sliceOf buf 0 n = some (buf.take n) := if_pos ⟨Nat.zero_le n, hn⟩
  -- the reply is moved, and then the header is written over the bytes in front of it
  have hmove : copyAt buf replyPrefix.length (replyPrefix.length + n) (buf.take n) =
      some (buf.take replyPrefix.length ++ (buf.take n ++ buf.drop (replyPrefix.length + n))) := by
    rw [copyAt_eq (by rw [hreply]) hfits, List.append_assoc]
  have hhead :
      copyAt (buf.take replyPrefix.length ++ (buf.take n ++ buf.drop (replyPrefix.length + n)))
      0 replyPrefix.length replyPrefix =
        some (replyPrefix ++ (buf.take n ++ buf.drop (replyPrefix.length + n))) := by
    rw [copyAt_eq (Nat.zero_add _), List.take_zero, List.nil_append, List.drop_left' hfront]
    rw [List.length_append, hfront]
    exact Nat.le_add_right _ _
  have hlen : (replyPrefix ++ (buf.take n ++ buf.drop (replyPrefix.length + n))).length =
      buf.length := by
    rw [List.length_append, List.length_append, hreply, List.length_drop]
    omega
  refine ⟨_, ?_, hlen, ?_⟩
  · rw [shiftReply, hslice, Option.bind_some, hmove, Option.bind_some, hhead]
  · rw [sliceOf, if_pos ⟨Nat.zero_le _, hlen ▸ hfits⟩, List.drop_zero, ← List.append_assoc,
      List.take_left' (by rw [List.length_append, hreply])]

theorem shiftReply_eq_none {n : Nat} (hfits : buf.length < replyPrefix.length + n) :
    shiftReply buf replyPrefix n = none := by
  have hslice : sliceOf buf replyPrefix.length (replyPrefix.length + n) = none := by
    rw [sliceOf, if_neg]
    omega
  rw [shiftReply]
  cases sliceOf buf 0 n with
  | none => rfl
  | some reply =>
    rw [Option.bind_some, copyAt, hslice]
    rfl

theorem relayFromSource_eq (vars : Embed) (hbuf : buf.length = maxUdpPacket) (d : Datagram) :
    relayFromSource writeTo ⟨vars, copyInto buf d.read⟩ d.read.length =
      (⟨(embedFromSource writeTo vars d).1, copyInto buf d.read⟩,
        (embedFromSource writeTo vars d).2) := by
  unfold relayFromSource embedFromSource
  split_ifs with hshort
  · rfl
  · have hslice : sliceOf (copyInto buf d.read) 3 d.read.length = some (d.read.drop 3) := by
      rw [sliceOf, if_pos, take_read hbuf]
      rw [length_copyInto, hbuf]
      exact ⟨by omega, length_read_le d⟩
    rw [hslice]
    dsimp only
    cases readAddr (Buffer.mk (d.read.drop 3)) with
    | error err => rfl
    | ok result =>
      obtain ⟨addr, reader⟩ := result
      dsimp only
      split <;> rfl

/-- The branch for a datagram of the target leaves the array exactly if header and reply do not
fit into it. -/
theorem relayFromTarget_eq (vars : Embed) (hbuf : buf.length = maxUdpPacket)
    (d : Datagram) (source : Bytes) (target : UDPAddr) :
    ∃ buf', buf'.length = maxUdpPacket ∧
      relayFromTarget writeTo ⟨vars, copyInto buf d.read⟩ d.read.length source target =
        (⟨(embedFromTarget writeTo vars d source target).1, buf'⟩,
          (embedFromTarget writeTo vars d source target).2) := by
  have hlen : (copyInto buf d.read).length = maxUdpPacket := (length_copyInto _ _).trans hbuf
  unfold relayFromTarget embedFromTarget
  dsimp only
  cases vars.replyPrefix.or (writeAddrWithStr target.string |>.map ([0, 0, 0] ++ ·)) with
  | none => exact ⟨_, hlen, rfl⟩
  | some replyPrefix =>
    dsimp only
    by_cases hfits : maxUdpPacket < replyPrefix.length + d.read.length
    · rw [if_pos hfits, shiftReply_eq_none (hlen ▸ hfits)]
      exact ⟨_, hlen, rfl⟩
    · obtain ⟨buf', hshift, hlen', hpacket⟩ :=
        shiftReply_eq (hlen ▸ Nat.le_of_not_lt hfits)
      rw [take_read hbuf] at hpacket
      rw [if_neg hfits, hshift]
      dsimp only
      rw [hpacket]
      exact ⟨buf', hlen'.trans hlen, rfl⟩

theorem relayStep_eq (writeTo : Write → Option Error) (vars : Embed)
    (hbuf : buf.length = maxUdpPacket) (d : Datagram) :
    ∃ buf', buf'.length = maxUdpPacket ∧
      relayStep writeTo ⟨vars, buf⟩ d = (⟨(embedStep writeTo vars d).1, buf'⟩,
        (embedStep writeTo vars d).2) := by
  have hlen : (copyInto buf d.read).length = maxUdpPacket := (length_copyInto _ _).trans hbuf
  unfold relayStep embedStep
  dsimp only
  split
  · exact ⟨_, hlen, relayFromSource_eq _ hbuf d⟩
  · cases vars.targetAddr with
    | none => exact ⟨_, hlen, rfl⟩
    | some target =>
      dsimp only
      split
      · exact relayFromTarget_eq _ hbuf d _ target
      · exact ⟨_, hlen, rfl⟩

/-- The loop over its array is the loop without it. -/
theorem relay_eq (writeTo : Write → Option Error) (closed : Option Error) (vars : Embed)
    (hbuf : buf.length = maxUdpPacket) (ds : List Datagram) :
    (relay writeTo closed ⟨vars, buf⟩ ds).1.vars = (embedHandleAssociate writeTo closed vars ds).1 ∧
      (relay writeTo closed ⟨vars, buf⟩ ds).2 =
        (embedHandleAssociate writeTo closed vars ds).2 := by
  induction ds generalizing vars buf with
  | nil => exact ⟨rfl, rfl⟩
  | cons d ds ih =>
    obtain ⟨buf', hbuf', hstep⟩ := relayStep_eq writeTo vars hbuf d
    rw [relay, embedHandleAssociate, hstep]
    obtain ⟨vars', ws, flow⟩ := embedStep writeTo vars d
    cases flow with
    | «continue» =>
      obtain ⟨hvars, hrest⟩ := ih vars' hbuf'
      dsimp only
      rw [hvars, hrest]
      exact ⟨rfl, rfl⟩
    | «return» => exact ⟨rfl, rfl⟩
    | panic => exact ⟨rfl, rfl⟩

theorem relay_init (writeTo : Write → Option Error) (closed : Option Error) (ds : List Datagram) :
    (relay writeTo closed .init ds).2 = (embedHandleAssociate writeTo closed .init ds).2 :=
  (relay_eq writeTo closed .init List.length_replicate ds).2

end Vwarp.Proxy.Socks5
