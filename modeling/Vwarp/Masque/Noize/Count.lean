import Vwarp.Masque.Noize.Buffers
import Vwarp.Masque.Noize.Shape

/-!
# What the writing methods return

`Write`, `WriteTo` and `WriteToUDP` of a `NoizeUDPConn` return what the socket returns for the
datagram that they give to it, and not the length of what the caller gave to them.
`write_count_iff` says when the two are the same: when the datagram is the packet of the caller,
whatever is drawn.

A socket need not take every datagram: one that is connected takes none with a destination, one that
is not takes none without, and none takes more than fits into a packet.  What is asked of the
methods concerns only the runs in which the socket takes the datagram that it is given.
-/

namespace Vwarp.Masque.Noize

open Vwarp.Go Vwarp.Lib

/-- What a socket returns for a datagram: a count and an error.  There is no destination if the
socket has its own, or if it is not an address of UDP. -/
abbrev Socket (δ : Type) := Option δ → Bytes → Nat × Option Bytes

/-- What a method has given to the socket, and what it returns. -/
structure Written (δ : Type) where
  dst : Option δ
  datagram : Bytes
  result : Nat × Option Bytes

def Socket.give {δ : Type} (socket : Socket δ) (dst : Option δ) (datagram : Bytes) : Written δ :=
  ⟨dst, datagram, socket dst datagram⟩

/-- `NoizeUDPConn`: the configuration of its layer, the flag, and the stored or the remote address,
if it is one of UDP. -/
structure NoizeUDPConn (δ : Type) where
  config : NoizeConfig
  enabled : Bool
  remote : Option δ

namespace NoizeUDPConn

variable {δ : Type} (c : NoizeUDPConn δ) (b : Bytes)

/-- `WriteToUDP`. -/
def writeToUDP (addr : δ) (socket : Socket δ) : Draw (Written δ) :=
  match routeUDP c.config c.enabled addr with
  | .raw dst => pure (socket.give dst b)
  | .goto _ => do
      let obfuscated ← obfuscateWrite c.config b
      pure (socket.give (some addr) obfuscated)

/-- `WriteTo`; there is no address if it is not a `*net.UDPAddr`. -/
def writeTo (addr : Option δ) (socket : Socket δ) : Draw (Written δ) :=
  match addr with
  | none => pure (socket.give none b)
  | some addr => c.writeToUDP b addr socket

/-- `Write`. -/
def write (socket : Socket δ) : Draw (Written δ) :=
  if !c.enabled then pure (socket.give none b)
  else
    match c.remote with
    | none => pure (socket.give none b)
    | some addr => c.writeToUDP b addr socket

end NoizeUDPConn

/-- In every run, with every socket, the method returns, and if the socket takes the datagram that
it is given in this run, it returns the length of the packet and no error. -/
def Counts {δ : Type} (b : Bytes) (method : Socket δ → Draw (Written δ)) : Prop :=
  ∀ socket draws, ∃ w, (method socket).run draws = some w ∧
    (socket w.dst w.datagram = (w.datagram.length, none) → w.result = (b.length, none))

/-! ## Packets that keep their length -/

variable {config : NoizeConfig} {b : Bytes}

/-- A packet is not padded, whatever is drawn: it is too short, nothing is to be added, or it is too
long, in which case the sizes are added to its length nevertheless. -/
def Unpadded (config : NoizeConfig) (b : Bytes) : Prop :=
  b.length < 16 ∨ config.paddingMax = 0 ∨
    (config.randomPadding = true → 0 < config.paddingMax - config.paddingMin + 1) ∧
      ∀ size, DrawnPadding config size →
        size.toInt ≤ 0 ∨ 1200 ≤ b.length ∧ size.toInt + b.length < 2 ^ 63

/-- Padding by a size leaves a packet as it is exactly if the size is not positive, or the packet is
too long and the sum does not wrap. -/
theorem ensures_padBy_self (hlen : (b.length : Int) ≤ maxAlloc) (size : Int64) :
    (padBy b.length b (addPadding.append b) size).Ensures False (· = b) ↔
      size.toInt ≤ 0 ∨ 1200 ≤ b.length ∧ size.toInt + b.length < 2 ^ 63 := by
  have hmax : maxAlloc = 2 ^ 48 := rfl
  by_cases hfits : size.toInt + b.length < 2 ^ 63
  · have hpad := ensures_padBy hlen hfits
    constructor
    · intro hself
      obtain ⟨padded, hrun⟩ := Option.ne_none_iff_exists'.mp (hpad.run_ne_none [])
      obtain ⟨pad, rfl, hlength⟩ := hpad.of_run hrun
      rw [List.append_right_eq_self.mp (hself.of_run hrun), List.length_nil] at hlength
      omega
    · intro hnone
      refine hpad.mono ?_
      rintro _ ⟨pad, rfl, hlength⟩
      have hnil : pad = [] := List.eq_nil_of_length_eq_zero (by omega)
      rw [hnil, List.append_nil]
  · -- the sum wraps, and the size is too large for `make`
    refine iff_of_false (fun h ↦ hfits ((safe_padBy hlen size).mp h.safe)) ?_
    omega

/-- `addPadding` leaves a packet as it is. -/
theorem ensures_addPadding_self (hlen : (b.length : Int) ≤ maxAlloc) :
    (addPadding config b).Ensures False (· = b) ↔ Unpadded config b := by
  rw [addPadding_eq, ensures_pad, Unpadded]
  simp only [ensures_padBy_self hlen]
  split_ifs with hnone
  · exact iff_of_true trivial (hnone.elim (.inr ∘ .inl) .inl)
  · rw [not_or] at hnone
    rw [or_iff_right hnone.2, or_iff_right hnone.1]
    simp only [imp_false, not_not]

/-- `addPadding` appends something. -/
theorem ensures_addPadding_append (config : NoizeConfig) (b : Bytes) :
    (addPadding config b).Ensures True fun padded ↦ ∃ pad, padded = b ++ pad := by
  have hself : ∃ pad, b = b ++ pad := ⟨[], (List.append_nil b).symm⟩
  rw [addPadding_eq, ensures_pad]
  split_ifs
  · exact hself
  · refine ⟨fun _ _ ↦ trivial, fun size _ ↦ ?_⟩
    unfold padBy
    split
    · rw [addPadding.append, Draw.ensures_bind]
      exact (Draw.ensures_true _).mono fun pad _ ↦ ⟨pad, rfl⟩
    · exact hself

/-- A header makes a packet longer by its length, and the delay must not panic. -/
theorem ensures_wrap_length (config : NoizeConfig) (packet : Bytes) (size : Nat) :
    (wrapProtocol config packet >>= fun packet ↦
        applyDelay config >>= fun _ ↦ pure packet).Ensures False (fun out ↦ out.length = size) ↔
      headerLength config.mimicProtocol + packet.length = size ∧ DelayFits config := by
  have hdelay (packet : Bytes) : (applyDelay config >>= fun _ ↦ pure packet).Ensures False
      (fun out ↦ out.length = size) ↔ DelayFits config ∧ packet.length = size := by
    rw [Draw.ensures_bind, ← safe_applyDelay]
    exact Draw.ensures_const_iff
  have hheader : (wrapProtocol config packet).Ensures True fun wrapped ↦
      wrapped.length = headerLength config.mimicProtocol + packet.length := by
    refine ((ensures_wrapProtocol config packet).mono ?_).of_false
    rintro _ ⟨header, rfl, hheader⟩
    rw [List.length_append, hheader.length_eq]
  have hwrap : (wrapProtocol config packet).Ensures False
      (fun wrapped ↦ DelayFits config ∧ wrapped.length = size) ↔
      (wrapProtocol config packet).Ensures False fun _ ↦
        DelayFits config ∧ headerLength config.mimicProtocol + packet.length = size :=
    Draw.ensures_congr_of hheader fun wrapped hwrapped ↦ by rw [hwrapped]
  rw [Draw.ensures_bind, Draw.ensures_congr hdelay, hwrap, Draw.ensures_const_iff,
    and_iff_right (safe_wrapProtocol packet), and_comm]

/-- The end of `ObfuscateWrite` keeps the length of a packet exactly if nothing is put before or
behind it, and the delay cannot panic. -/
theorem ensures_padAndWrap_length (hlen : (b.length : Int) ≤ maxAlloc) :
    (padAndWrap config b).Ensures False (fun out ↦ out.length = b.length) ↔
      headerLength config.mimicProtocol = 0 ∧ DelayFits config ∧ Unpadded config b := by
  have hpad : (addPadding config b).Ensures False
      (fun padded ↦ headerLength config.mimicProtocol + padded.length = b.length ∧
        DelayFits config) ↔
      (addPadding config b).Ensures False fun padded ↦
        padded = b ∧ headerLength config.mimicProtocol = 0 ∧ DelayFits config := by
    refine Draw.ensures_congr_of (ensures_addPadding_append config b) ?_
    rintro _ ⟨pad, rfl⟩
    rw [List.length_append, List.append_right_eq_self, ← List.length_eq_zero_iff, ← and_assoc]
    refine and_congr_left fun _ ↦ ?_
    omega
  rw [padAndWrap_eq, Draw.ensures_bind,
    Draw.ensures_congr fun packet ↦ ensures_wrap_length config packet _, hpad]
  constructor
  · intro h
    have hself := (ensures_addPadding_self hlen).mp (h.mono fun _ hpacket ↦ hpacket.1)
    obtain ⟨hheader, hdelay⟩ := (h.mono fun _ hpacket ↦ hpacket.2).const
    exact ⟨hheader, hdelay, hself⟩
  · rintro ⟨hheader, hdelay, hself⟩
    exact ((ensures_addPadding_self hlen).mpr hself).mono fun _ hpacket ↦ ⟨hpacket, hheader, hdelay⟩

theorem length_fragment_lt (hlen : (b.length : Int) ≤ maxAlloc) (h : fragments config b = true) :
    (b.take config.fragmentSize.toNatClampNeg).length < b.length := by
  have hl := toInt_len hlen
  have hzero : (0 : Int64).toInt = 0 := rfl
  simp only [fragments, decide_eq_true_eq, Int64.lt_iff_toInt_lt, hl, hzero] at h
  have hsize : config.fragmentSize.toNatClampNeg = config.fragmentSize.toInt.toNat := rfl
  rw [List.length_take, hsize]
  omega

/-- `ObfuscateWrite` keeps the length of a packet exactly if the packet is empty, or it is neither
fragmented nor wrapped nor padded, and the delay cannot panic. -/
theorem ensures_obfuscateWrite_length (hlen : (b.length : Int) ≤ maxAlloc) :
    (obfuscateWrite config b).Ensures False (fun out ↦ out.length = b.length) ↔
      b = [] ∨ fragments config b = false ∧ headerLength config.mimicProtocol = 0 ∧
        DelayFits config ∧ Unpadded config b := by
  unfold obfuscateWrite
  by_cases hempty : b = []
  · rw [if_pos hempty]
    exact iff_of_true rfl (.inl hempty)
  rw [if_neg hempty, or_iff_right hempty]
  cases hfragments : fragments config b with
  | true =>
    rw [if_pos rfl]
    exact iff_of_false (length_fragment_lt hlen hfragments).ne nofun
  | false =>
    rw [if_neg Bool.false_ne_true, and_iff_right rfl]
    exact ensures_padAndWrap_length hlen

/-! ## The counts -/

namespace NoizeUDPConn

variable {δ : Type}

/-- The connection gives the packet itself to the socket, or another of the same length. -/
def Keeps (c : NoizeUDPConn δ) (b : Bytes) : Prop :=
  c.enabled = false ∨ c.config.allOff = true ∨ b = [] ∨
    fragments c.config b = false ∧ headerLength c.config.mimicProtocol = 0 ∧ DelayFits c.config ∧
      Unpadded c.config b

theorem counts_iff {method : Socket δ → Draw (Written δ)} : Counts b method ↔ ∀ socket,
    (method socket).Ensures False fun w ↦
      socket w.dst w.datagram = (w.datagram.length, none) → w.result = (b.length, none) := by
  refine forall_congr' fun socket ↦ ?_
  rw [Draw.ensures_iff_run]
  refine forall_congr' fun draws ↦ ?_
  cases (method socket).run draws with
  | none => simp
  | some w => simp

/-- The packet itself has its length. -/
theorem counts_give (b : Bytes) (dst : Option δ) : Counts b fun socket ↦ pure (socket.give dst b) :=
  fun _ _ ↦ ⟨_, rfl, id⟩

/-- `WriteToUDP` returns the length of the packet. -/
theorem counts_writeToUDP {c : NoizeUDPConn δ} (hlen : (b.length : Int) ≤ maxAlloc) (addr : δ) :
    Counts b (c.writeToUDP b addr) ↔ c.Keeps b := by
  unfold writeToUDP routeUDP Keeps
  split_ifs with hraw
  · refine iff_of_true (counts_give b _) ?_
    rw [Bool.not_eq_true'] at hraw
    exact hraw.elim .inl fun h ↦ .inr (.inl h)
  · rw [not_or, Bool.not_eq_true'] at hraw
    rw [or_iff_right hraw.1, or_iff_right hraw.2, ← ensures_obfuscateWrite_length hlen, counts_iff]
    simp only [Draw.ensures_bind, Draw.ensures_pure, Socket.give]
    constructor
    · intro h
      -- a socket that takes everything
      refine (h fun _ datagram ↦ (datagram.length, none)).mono fun obfuscated hcount ↦ ?_
      exact congrArg Prod.fst (hcount rfl)
    · intro h socket
      refine h.mono fun obfuscated hlength htaken ↦ ?_
      rw [htaken, hlength]

end NoizeUDPConn

/-- The methods return the length of the packet and no error whenever the socket takes the datagram
that it is given, whatever is drawn, if and only if the packet goes to the socket as it is, or
`ObfuscateWrite` can neither cut it, nor put anything before or behind it, nor panic. -/
theorem write_count_iff {δ : Type} (c : NoizeUDPConn δ) (b : Bytes)
    (hlen : (b.length : Int) ≤ maxAlloc) :
    (∀ addr, Counts b (c.writeToUDP b addr) ↔ c.Keeps b) ∧
    (∀ addr, Counts b (c.writeTo b addr) ↔ addr = none ∨ c.Keeps b) ∧
    (Counts b (c.write b) ↔ c.remote = none ∨ c.Keeps b) := by
  have hudp (addr : δ) := NoizeUDPConn.counts_writeToUDP (c := c) hlen addr
  refine ⟨hudp, fun addr ↦ ?_, ?_⟩
  · cases addr with
    | none => exact iff_of_true (NoizeUDPConn.counts_give b none) (.inl rfl)
    | some addr =>
      rw [or_iff_right (Option.some_ne_none addr)]
      exact hudp addr
  · unfold NoizeUDPConn.write
    split_ifs with hdisabled
    · rw [Bool.not_eq_true'] at hdisabled
      exact iff_of_true (NoizeUDPConn.counts_give b none) (.inr (.inl hdisabled))
    · split
      · rename_i hremote
        exact iff_of_true (NoizeUDPConn.counts_give b none) (.inl hremote)
      · rename_i addr hremote
        rw [hremote, or_iff_right (Option.some_ne_none addr)]
        exact hudp addr

/-- A connection with one junk packet, and a stored address. -/
def countedConn (config : NoizeConfig) : NoizeUDPConn Nat :=
  ⟨{ config with jc := 1 }, true, some 7⟩

/-- A socket that is not connected. -/
def unconnected : Socket Nat
  | none, _ => (0, some (str "destination address required"))
  | some _, datagram =>
    if datagram.length ≤ 65507 then (datagram.length, none) else (0, some (str "message too long"))

/-- Without a header and without padding the count is that of the packet. -/
theorem write_count_plain :
    ∃ w, ((countedConn default).write [0x40, 0x00] unconnected).run [] = some w ∧
    w.result = (2, none) := by
  have hkeeps : (countedConn default).Keeps [0x40, 0x00] :=
    .inr (.inr (.inr ⟨by decide, by decide, by decide, .inl (by decide)⟩))
  obtain ⟨w, hrun, hcount⟩ :=
    (write_count_iff (countedConn default) [0x40, 0x00] (by decide)).2.2.mpr
      (.inr hkeeps) unconnected []
  cases hrun
  exact ⟨_, rfl, hcount rfl⟩

/-- A socket that is not connected takes one byte with a header, which counts as six, and the first
fragment of an Initial packet of six bytes, which counts as five. -/
theorem write_count_differs :
    ((countedConn { (default : NoizeConfig) with mimicProtocol := str "h3" }).writeToUDP
        [0x40] 7 unconnected).run [] = some ⟨some 7, [0x17, 0x03, 0x03, 0, 1, 0x40], 6, none⟩ ∧
      ((countedConn { (default : NoizeConfig) with
          fragmentInitial := true, fragmentSize := 5 }).writeToUDP
        [0xc0, 0, 0, 0, 1, 0] 7 unconnected).run [] = some ⟨some 7, [0xc0, 0, 0, 0, 1], 5, none⟩ :=
  ⟨rfl, rfl⟩

end Vwarp.Masque.Noize
