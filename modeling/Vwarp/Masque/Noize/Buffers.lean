import Vwarp.Go.Slice
import Vwarp.Masque.Noize.Safety

/-!
# The buffer of a caller

`net.PacketConn` may not keep the slice that `WriteTo` is given, nor write to it.  Here the
slice is a window on an array of the caller, who overwrites the array at any time after the
call has returned, as a pool of buffers does.

`addPadding` appends to the slice, in place if there is capacity left behind it, and the
goroutine that sends the fragments of an Initial packet reads them from the slice, long after
the call.  Everything else that is sent is made anew.  `keeps_iff` says for which calls the
contract is kept, and `fragments_of_untouched` that the fragments are right as long as the caller
leaves the array alone.

The bytes are those of the machine without memory: `bytes_addPaddingTo`, `bytes_wrapSlice`.
-/

namespace Vwarp.Masque.Noize

open Vwarp.Go Vwarp.Lib

/-- A slice of a caller, inside its array. -/
structure Buffer extends Window where
  array : Bytes
  inside : offset + cap ≤ array.length
  alloc : (array.length : Int) ≤ maxAlloc

/-- The packet in the buffer when the call is made. -/
def Buffer.packet (b : Buffer) : Bytes := b.bytes b.array

theorem Buffer.length_packet (b : Buffer) : b.packet.length = b.len := Window.length_bytes b.inside

/-! ## Padding and wrapping of slices -/

/-- `addPadding`. -/
def addPaddingTo (config : NoizeConfig) (m : Shared) (packet : Window) : Draw (Shared × Slice) :=
  if config.paddingMax = 0 then pure (m, .shared packet)
  else if packet.len < 16 then pure (m, .shared packet)
  else if config.randomPadding then do
    let n ← intn (config.paddingMax - config.paddingMin + 1)
    padBy (config.paddingMin + Int64.ofNat n)
  else padBy config.paddingMax
where
  /-- The rest of `addPadding`, from the test of `paddingSize` on. -/
  padBy (paddingSize : Int64) : Draw (Shared × Slice) :=
    if paddingSize ≤ 0 then pure (m, .shared packet)
    else if Int64.ofNat packet.len + paddingSize > 1200 then
      if 1200 - Int64.ofNat packet.len ≤ 0 then pure (m, .shared packet)
      else append (1200 - Int64.ofNat packet.len)
    else append paddingSize
  /-- `append(packet, padding...)`. -/
  append (paddingSize : Int64) : Draw (Shared × Slice) := do
    let padding ← randomBytes paddingSize
    pure (m.append packet padding)

/-- The protocols that `wrapProtocol` knows. -/
def protocols : List Bytes := [str "dns", str "https", str "h3", str "dtls", str "stun"]

/-- `wrapProtocol`: the packet is appended to a header, which has an array of its own. -/
def wrapSlice (config : NoizeConfig) (array : Bytes) (packet : Slice) : Draw Slice :=
  if config.mimicProtocol ∈ protocols then do
    let wrapped ← wrapProtocol config (packet.bytes array)
    pure (.own wrapped)
  else pure packet

section Bytes

variable {config : NoizeConfig}

theorem addPaddingTo_eq (m : Shared) (w : Window) :
    addPaddingTo config m w = pad config w.len (m, .shared w) (addPaddingTo.append m w) := by
  simp only [pad, padBy_eq]
  rfl

theorem view_pad {α β : Type} (f : α → β) {len : Nat} {whole : α} {append : Int64 → Draw α} :
    Draw.view f (pad config len whole append) =
      pad config len (f whole) fun size ↦ Draw.view f (append size) := by
  have hpadBy (size : Int64) : Draw.view f (padBy len whole append size) =
      padBy len (f whole) (fun size ↦ Draw.view f (append size)) size := by
    unfold padBy
    split
    all_goals rfl
  unfold pad
  split_ifs
  · rfl
  · rfl
  · rw [Draw.view_bind]
    simp only [hpadBy]
  · exact hpadBy _

/-- The bytes after padding are those of `addPadding`. -/
theorem bytes_addPaddingTo {m : Shared} {w : Window} (h : w.offset + w.cap ≤ m.array.length) :
    Draw.view (fun r ↦ r.2.bytes r.1.array) (addPaddingTo config m w) =
      addPadding config (w.bytes m.array) := by
  have happend (size : Int64) :
      Draw.view (fun r ↦ r.2.bytes r.1.array) (addPaddingTo.append m w size) =
      addPadding.append (w.bytes m.array) size := by
    rw [addPaddingTo.append, Draw.view_bind]
    show (randomBytes size >>= fun padding ↦ pure _) = _
    simp only [Shared.bytes_append h]
    rfl
  rw [addPaddingTo_eq, view_pad, addPadding_eq, Window.length_bytes h]
  exact congrArg (pad config w.len (w.bytes m.array)) (funext happend)

/-- The bytes after wrapping are those of `wrapProtocol`. -/
theorem bytes_wrapSlice (array : Bytes) (s : Slice) :
    Draw.view (fun r ↦ r.bytes array) (wrapSlice config array s) =
      wrapProtocol config (s.bytes array) := by
  unfold wrapSlice
  split_ifs with hunknown
  · rw [Draw.view_bind]
    exact Draw.view_id _
  · simp only [protocols, List.mem_cons, List.not_mem_nil, or_false, not_or] at hunknown
    obtain ⟨hdns, hhttps, hh3, hdtls, hstun⟩ := hunknown
    rw [wrapProtocol, if_neg hdns, if_neg (not_or.mpr ⟨hhttps, hh3⟩), if_neg hdtls, if_neg hstun]
    rfl

end Bytes

/-! ## Where the padding goes -/

/-- The packet can be padded, and the padding fits behind it. -/
def PadsInPlace (config : NoizeConfig) (w : Window) : Prop :=
  16 ≤ w.len ∧ ∃ size, DrawnPadding config size ∧ 0 < size ∧ 0 < limitedPadding w.len size ∧
    w.len + (limitedPadding w.len size).toInt.toNat ≤ w.cap

section Padding

variable {config : NoizeConfig} {m : Shared} {w : Window}

/-- Random bytes that are appended leave the array alone exactly if they do not fit. -/
theorem ensures_append_written (hm : m.written = []) (hcap : (w.cap : Int) ≤ maxAlloc)
    {size : Int64} (hpos : 0 < size) :
    (addPaddingTo.append m w size).Ensures True (fun r ↦ r.1.written = []) ↔
      w.cap < w.len + size.toInt.toNat := by
  have hzero : (0 : Int64).toInt = 0 := rfl
  rw [Int64.lt_iff_toInt_lt, hzero] at hpos
  have hwritten (bs : Bytes) (hbs : (bs.length : Int) = size.toInt) :
      (m.append w bs).1.written = [] ↔ w.cap < w.len + size.toInt.toNat := by
    have hlength : bs.length = size.toInt.toNat := by omega
    have hne : bs ≠ [] := by
      rintro rfl
      rw [List.length_nil] at hbs
      omega
    rw [← hm, Shared.written_append, hlength]
    exact or_iff_right hne
  rw [addPaddingTo.append, Draw.ensures_bind, ensures_randomBytes]
  split_ifs with halloc
  · constructor
    · intro h
      have hlength : (List.replicate size.toInt.toNat (0 : UInt8)).length = size.toInt.toNat :=
        List.length_replicate
      exact (hwritten _ (by omega)).mp (h (List.replicate size.toInt.toNat 0) (by omega))
    · intro h bs hbs
      exact (hwritten bs hbs).mpr h
  · refine iff_of_true trivial ?_
    have hbig : maxAlloc < size.toInt := by
      by_contra hle
      exact halloc ⟨hpos.le, not_lt.mp hle⟩
    omega

theorem ensures_padBy_written (hm : m.written = []) (hcap : (w.cap : Int) ≤ maxAlloc)
    (size : Int64) :
    (padBy w.len (m, .shared w) (addPaddingTo.append m w) size).Ensures True
      (fun r ↦ r.1.written = []) ↔
      ¬(0 < size ∧ 0 < limitedPadding w.len size ∧
        w.len + (limitedPadding w.len size).toInt.toNat ≤ w.cap) := by
  unfold padBy
  split_ifs with hpos
  · rw [ensures_append_written hm hcap hpos.2]
    simp [hpos]
  · exact iff_of_true hm fun h ↦ hpos ⟨h.1, h.2.1⟩

/-- `addPadding` leaves the array alone, whatever it draws, exactly if it cannot pad in place. -/
theorem ensures_addPaddingTo_written (hm : m.written = []) (hcap : (w.cap : Int) ≤ maxAlloc) :
    (addPaddingTo config m w).Ensures True (fun r ↦ r.1.written = []) ↔ ¬PadsInPlace config w := by
  rw [addPaddingTo_eq, ensures_pad]
  simp only [ensures_padBy_written hm hcap]
  split_ifs with hnone
  · refine iff_of_true hm ?_
    rintro ⟨hlong, size, hsize, -⟩
    exact hnone.elim hsize.1 (by omega)
  · rw [not_or] at hnone
    constructor
    · rintro ⟨-, h⟩ ⟨-, size, hsize, hfits⟩
      exact h size hsize hfits
    · intro h
      exact ⟨fun _ _ ↦ trivial, fun size hsize hfits ↦ h ⟨by omega, size, hsize, hfits⟩⟩

end Padding

/-! ## A call, its goroutines and its caller -/

/-- A call of `WriteToUDP`, or of `WriteTo`, whose address may be of another type; and whether
the layer is enabled when the call looks at the flag. -/
structure Invocation where
  config : NoizeConfig
  enabled : Bool
  udp : Bool
  buffer : Buffer

def Invocation.bypasses (c : Invocation) : Bool := !c.udp ∨ !c.enabled ∨ c.config.allOff

/-- `FragmentSize`. -/
def Invocation.fragmentSize (c : Invocation) : Nat := c.config.fragmentSize.toNatClampNeg

inductive Stage
  | start
  | obfuscate
  | seen
  | pad
  | wrap (packet : Slice)
  | out (packet : Slice)
  | returned

/-- The state: the array of the caller, the call, its goroutines, and what each of them wrote to
the socket.  `fragment` is the offset of the goroutine that sends fragments, once it runs. -/
structure Writing where
  mem : Shared
  stage : Stage
  sequences : List (List Act)
  fragment : Option Nat
  direct : List Bytes
  noise : List Bytes
  fragments : List Bytes
  crashed : Bool

inductive Move
  | enter
  | /-- The first critical section; other calls decide whether there is a state for the address. -/
    first (known : Bool)
  | second (postSent : Bool)
  | /-- `addPadding`. -/
    pad (draws : List (Option Nat))
  | /-- `wrapProtocol` and `applyDelay`. -/
    wrap (draws : List (Option Nat))
  | emit
  | /-- A goroutine with a sequence of junk and signature packets moves. -/
    act (k : Nat) (draws : List (Option Nat))
  | fragment
  | overwrite (i : Nat) (v : UInt8)

/-- `wrapProtocol`, if there is a protocol, and `applyDelay`. -/
def wrapAndDelay (config : NoizeConfig) (array : Bytes) (packet : Slice) : Draw Slice := do
  let packet ← if config.mimicProtocol ≠ [] then wrapSlice config array packet else pure packet
  let _ ← applyDelay config
  pure packet

/-- The slice that a call hands to the socket has the bytes that `padAndWrap` makes of the packet,
whether or not they are in the array of the caller. -/
theorem bytes_padAndWrap (config : NoizeConfig) (b : Buffer) :
    (addPaddingTo config ⟨b.array, []⟩ b.toWindow >>= fun r ↦
      Draw.view (·.bytes r.1.array) (wrapAndDelay config r.1.array r.2)) =
        padAndWrap config b.packet := by
  have hwrap (array : Bytes) (s : Slice) :
      Draw.view (·.bytes array) (wrapAndDelay config array s) = (do
        let packet ← if config.mimicProtocol ≠ [] then wrapProtocol config (s.bytes array)
          else pure (s.bytes array)
        let _ ← applyDelay config
        pure packet) := by
    unfold wrapAndDelay
    split
    · simp only [← bytes_wrapSlice, Draw.view, bind_assoc, pure_bind]
    · simp only [Draw.view, bind_assoc, pure_bind]
  simp only [hwrap]
  rw [padAndWrap, Buffer.packet, ← bytes_addPaddingTo (m := ⟨b.array, []⟩) b.inside, Draw.view,
    bind_assoc]
  simp only [pure_bind]

def Writing.next (c : Invocation) (s : Writing) (a : Move) : Option Writing :=
  if s.crashed then none
  else
    match a with
    | .enter =>
      match s.stage with
      | .start =>
        if c.bypasses then
          some { s with direct := s.direct ++ [c.buffer.bytes s.mem.array], stage := .returned }
        else some { s with stage := .obfuscate }
      | _ => none
    | .first known =>
      match s.stage with
      | .obfuscate =>
        if c.buffer.len = 0 then some { s with stage := .out (.shared c.buffer.toWindow) }
        else if known then some { s with stage := .seen }
        else some
          { s with stage := .seen, sequences := s.sequences ++ [preHandshakeActs c.config] }
      | _ => none
    | .second postSent =>
      match s.stage with
      | .seen =>
        if Noize.fragments c.config (c.buffer.bytes s.mem.array) then
          some { s with
            fragment := some c.fragmentSize
            stage := .out (.shared (c.buffer.upTo c.fragmentSize)) }
        else if detectQUICPacketType (c.buffer.bytes s.mem.array) = .oneRTT ∧ !postSent then
          some { s with stage := .pad, sequences := s.sequences ++ [postHandshakeActs c.config] }
        else some { s with stage := .pad }
      | _ => none
    | .pad draws =>
      match s.stage with
      | .pad =>
        match (addPaddingTo c.config s.mem c.buffer.toWindow).run draws with
        | none => some { s with crashed := true }
        | some (mem, packet) => some { s with mem := mem, stage := .wrap packet }
      | _ => none
    | .wrap draws =>
      match s.stage with
      | .wrap packet =>
        match (wrapAndDelay c.config s.mem.array packet).run draws with
        | none => some { s with crashed := true }
        | some packet => some { s with stage := .out packet }
      | _ => none
    | .emit =>
      match s.stage with
      | .out packet =>
        some { s with direct := s.direct ++ [packet.bytes s.mem.array], stage := .returned }
      | _ => none
    | .act k draws =>
      match s.sequences[k]? with
      | some (act :: acts) =>
        match (act.packet c.config).run draws with
        | none => some { s with crashed := true }
        | some none => some { s with sequences := s.sequences.set k acts }
        | some (some packet) =>
          some { s with sequences := s.sequences.set k acts, noise := s.noise ++ [packet] }
      | _ => none
    | .fragment =>
      match s.fragment with
      | some offset =>
        if offset < c.buffer.len then
          some { s with
            fragments := s.fragments ++
              [((c.buffer.bytes s.mem.array).drop offset).take c.fragmentSize]
            fragment := some (offset + c.fragmentSize) }
        else none
      | none => none
    | .overwrite i v =>
      match s.stage with
      | .returned => some { s with mem := { s.mem with array := s.mem.array.set i v } }
      | _ => none

def Writing.fresh (c : Invocation) : Writing :=
  ⟨⟨c.buffer.array, []⟩, .start, [], none, [], [], [], false⟩

def writing (c : Invocation) : Machine Writing Move where
  start s := s = .fresh c
  next := Writing.next c

/-- What a step can do to the memory, to the call and to the fragments. -/
inductive Moves (c : Invocation) (s : Writing) : Move → Writing → Prop
  | raw : s.stage = .start → c.bypasses = true → Moves c s .enter
      { s with direct := s.direct ++ [c.buffer.bytes s.mem.array], stage := .returned }
  | enter : s.stage = .start → c.bypasses = false → Moves c s .enter { s with stage := .obfuscate }
  | /-- The call is between the flag and `addPadding`. -/
    inside {a stage sequences} :
      (s.stage = .obfuscate ∨ s.stage = .seen) →
      (stage = .seen ∨ stage = .pad ∨ ∃ packet, stage = .out packet) →
      Moves c s a { s with stage := stage, sequences := sequences }
  | cut {postSent} : s.stage = .seen →
      Noize.fragments c.config (c.buffer.bytes s.mem.array) = true → Moves c s (.second postSent)
        { s with
          fragment := some c.fragmentSize
          stage := .out (.shared (c.buffer.upTo c.fragmentSize)) }
  | pad {draws mem packet} : s.stage = .pad →
      (addPaddingTo c.config s.mem c.buffer.toWindow).run draws = some (mem, packet) →
      Moves c s (.pad draws) { s with mem := mem, stage := .wrap packet }
  | wrap {draws packet packet'} : s.stage = .wrap packet →
      Moves c s (.wrap draws) { s with stage := .out packet' }
  | emit {packet} : s.stage = .out packet → Moves c s .emit
      { s with direct := s.direct ++ [packet.bytes s.mem.array], stage := .returned }
  | fragment {offset} : s.fragment = some offset → offset < c.buffer.len →
      Moves c s .fragment
        { s with
          fragments := s.fragments ++
            [((c.buffer.bytes s.mem.array).drop offset).take c.fragmentSize]
          fragment := some (offset + c.fragmentSize) }
  | other {a sequences noise crashed} :
      Moves c s a { s with sequences := sequences, noise := noise, crashed := crashed }
  | overwrite {i v} : s.stage = .returned → Moves c s (.overwrite i v)
      { s with mem := { s.mem with array := s.mem.array.set i v } }

theorem moves_of_next {c : Invocation} {s t : Writing} {a : Move} (h : s.next c a = some t) :
    Moves c s a t := by
  unfold Writing.next at h
  split at h
  · cases h
  · cases a with
    | enter =>
      dsimp only at h
      (repeat' split at h) <;> cases h
      · exact .raw ‹_› ‹_›
      · exact .enter ‹_› (Bool.eq_false_iff.mpr ‹_›)
    | first known =>
      dsimp only at h
      (repeat' split at h) <;> cases h
      · exact .inside (.inl ‹_›) (.inr (.inr ⟨_, rfl⟩))
      all_goals exact .inside (.inl ‹_›) (.inl rfl)
    | second postSent =>
      dsimp only at h
      (repeat' split at h) <;> cases h
      · exact .cut ‹_› ‹_›
      all_goals exact .inside (.inr ‹_›) (.inr (.inl rfl))
    | pad draws =>
      dsimp only at h
      (repeat' split at h) <;> cases h
      · exact .other
      · exact .pad ‹_› ‹_›
    | wrap draws =>
      dsimp only at h
      (repeat' split at h) <;> cases h
      · exact .other
      · exact .wrap ‹_›
    | emit =>
      dsimp only at h
      (repeat' split at h) <;> cases h
      exact .emit ‹_›
    | act k draws =>
      dsimp only at h
      (repeat' split at h) <;> cases h
      all_goals exact .other
    | fragment =>
      dsimp only at h
      (repeat' split at h) <;> cases h
      exact .fragment ‹_› ‹_›
    | overwrite i v =>
      dsimp only at h
      (repeat' split at h) <;> cases h
      exact .overwrite ‹_›

/-! ## The contract -/

/-- The fragments that were sent, the first of them by the call. -/
def Writing.pieces (s : Writing) : List Bytes := s.direct ++ s.fragments

/-- Everything of a packet that is fragmented was sent. -/
def Writing.Complete (c : Invocation) (s : Writing) : Prop :=
  s.stage = .returned ∧ ∃ offset, s.fragment = some offset ∧ c.buffer.len ≤ offset

/-- Fragments are right: none is empty or too long, and together they are the packet that the
buffer held when the call was made. -/
structure Fragmented (c : Invocation) (s : Writing) : Prop where
  size : s.fragment.isSome → ∀ piece ∈ s.pieces, piece ≠ [] ∧ piece.length ≤ c.fragmentSize
  whole : s.Complete c → s.pieces.flatten = c.buffer.packet

/-- No cell of the caller's array was written, and fragments are right. -/
structure Keeps (c : Invocation) (s : Writing) : Prop extends Fragmented c s where
  untouched : s.mem.written = []

/-- The call does nothing that depends on the array afterwards. -/
def Invocation.Detached (c : Invocation) : Prop :=
  c.bypasses = true ∨
    Noize.fragments c.config c.buffer.packet = false ∧ ¬PadsInPlace c.config c.buffer.toWindow

section Contract

variable {c : Invocation}

theorem Buffer.cap_le (b : Buffer) : (b.cap : Int) ≤ maxAlloc := by
  have hinside := b.inside
  have halloc := b.alloc
  omega

/-- The call has not come to `addPadding`. -/
def Stage.early : Stage → Bool
  | start => true
  | obfuscate => true
  | seen => true
  | _ => false

/-- What holds throughout a call that is detached. -/
structure Calm (c : Invocation) (s : Writing) : Prop where
  written : s.mem.written = []
  fragment : s.fragment = none
  array : s.stage.early = true → s.mem.array = c.buffer.array
  bypassed : c.bypasses = true → s.stage = .start ∨ s.stage = .returned

theorem Calm.inside (hc : c.Detached) {s : Writing} (hs : Calm c s) (hstart : s.stage ≠ .start)
    (hreturned : s.stage ≠ .returned) :
    c.bypasses = false ∧ Noize.fragments c.config c.buffer.packet = false ∧
      ¬PadsInPlace c.config c.buffer.toWindow := by
  have hbypasses : c.bypasses ≠ true := by
    intro hbypasses
    rcases hs.bypassed hbypasses with hstage | hstage
    · exact hstart hstage
    · exact hreturned hstage
  exact ⟨Bool.eq_false_iff.mpr hbypasses, hc.resolve_left hbypasses⟩

/-- A call that is detached does not write to the array and starts no fragments. -/
theorem Calm.step (hc : c.Detached) {s t : Writing} {a : Move} (hs : Calm c s)
    (h : s.next c a = some t) : Calm c t := by
  have hnot {P : Prop} (hbypasses : c.bypasses = false) : c.bypasses = true → P := by
    rw [hbypasses]
    nofun
  cases moves_of_next h with
  | raw _ _ | emit _ => exact { hs with array := nofun, bypassed := fun _ ↦ .inr rfl }
  | enter hstage hbypasses =>
    exact { hs with array := fun _ ↦ hs.array (hstage ▸ rfl), bypassed := hnot hbypasses }
  | inside hstage _ =>
    have hearly : s.stage.early = true ∧ s.stage ≠ .start ∧ s.stage ≠ .returned := by
      rcases hstage with hstage | hstage <;> simp [hstage, Stage.early]
    exact { hs with
      array := fun _ ↦ hs.array hearly.1
      bypassed := hnot (hs.inside hc hearly.2.1 hearly.2.2).1 }
  | cut hstage hfragments =>
    rw [hs.array (hstage ▸ rfl)] at hfragments
    have hwhole := (hs.inside hc (hstage ▸ nofun) (hstage ▸ nofun)).2.1
    exact absurd hfragments (Bool.eq_false_iff.mp hwhole)
  | pad hstage hrun =>
    obtain ⟨hbypasses, -, hpads⟩ := hs.inside hc (hstage ▸ nofun) (hstage ▸ nofun)
    have hwritten := (ensures_addPaddingTo_written hs.written c.buffer.cap_le).mpr hpads
    exact ⟨hwritten.of_run hrun, hs.fragment, nofun, hnot hbypasses⟩
  | wrap hstage =>
    have hbypasses := (hs.inside hc (hstage ▸ nofun) (hstage ▸ nofun)).1
    exact { hs with array := nofun, bypassed := hnot hbypasses }
  | fragment hfragment _ =>
    rw [hs.fragment] at hfragment
    cases hfragment
  | other => exact { hs with }
  | overwrite hstage =>
    refine { hs with array := ?_, bypassed := fun _ ↦ .inr hstage }
    rw [hstage]
    nofun

theorem keeps_of_detached (hc : c.Detached) {s : Writing} (h : (writing c).Reachable s) :
    Keeps c s := by
  have hcalm : Calm c s := by
    refine Machine.Reach.invariant (I := Calm c) ?_ (fun _ _ _ hs _ hn ↦ hs.step hc hn) h
    rintro _ rfl
    exact ⟨rfl, rfl, fun _ ↦ rfl, fun _ ↦ .inl rfl⟩
  refine ⟨⟨?_, ?_⟩, hcalm.written⟩
  · rw [hcalm.fragment]
    nofun
  · rintro ⟨-, offset, hfragment, -⟩
    rw [hcalm.fragment] at hfragment
    cases hfragment

/-- The call is at a stage, and nothing was written yet. -/
def Writing.reached (c : Invocation) (stage : Stage) : Writing :=
  ⟨⟨c.buffer.array, []⟩, stage, [], none, [], [], [], false⟩

theorem reach_seen (hbypasses : c.bypasses = false) (hlen : c.buffer.len ≠ 0) :
    (writing c).Reachable (.reached c .seen) := by
  have hrun : (writing c).run (.fresh c) [.enter, .first true] = some (.reached c .seen) := by
    simp [writing, Machine.run, Writing.next, Writing.fresh, Writing.reached, hbypasses, hlen]
  exact .of_run (.start rfl) (fun _ _ _ ↦ trivial) hrun

/-- A packet that is padded in place breaks the contract. -/
theorem not_keeps_of_padsInPlace (hbypasses : c.bypasses = false)
    (hwhole : Noize.fragments c.config c.buffer.packet = false)
    (hpads : PadsInPlace c.config c.buffer.toWindow) :
    ∃ s, (writing c).Reachable s ∧ s.mem.written ≠ [] := by
  have hensures := mt (ensures_addPaddingTo_written (m := ⟨c.buffer.array, []⟩) rfl
    c.buffer.cap_le).mp (not_not.mpr hpads)
  rw [Draw.ensures_iff_run, not_forall] at hensures
  obtain ⟨draws, hdraws⟩ := hensures
  cases hrun : (addPaddingTo c.config ⟨c.buffer.array, []⟩ c.buffer.toWindow).run draws with
  | none =>
    rw [hrun] at hdraws
    exact absurd trivial hdraws
  | some r =>
    rw [hrun] at hdraws
    have hlen : c.buffer.len ≠ 0 := by
      have hlong := hpads.1
      omega
    have hwhole' : Noize.fragments c.config (c.buffer.bytes c.buffer.array) = false := hwhole
    have hpads : (writing c).run (.reached c .seen) [.second true, .pad draws] =
        some { Writing.reached c (.wrap r.2) with mem := r.1 } := by
      simp [writing, Machine.run, Writing.next, Writing.reached, hwhole', hrun]
    exact ⟨_, .of_run (reach_seen hbypasses hlen) (fun _ _ _ ↦ trivial) hpads, hdraws⟩

/-- What `fragments` asks for. -/
theorem fragments_spec (h : Noize.fragments c.config c.buffer.packet = true) :
    0 < c.fragmentSize ∧ c.fragmentSize < c.buffer.len := by
  have hspec : detectQUICPacketType c.buffer.packet = .initial ∧ c.config.fragmentInitial ∧
      0 < c.config.fragmentSize ∧ c.config.fragmentSize < len c.buffer.packet := of_decide_eq_true h
  obtain ⟨-, -, hpos, hlt⟩ := hspec
  have hlen : (c.buffer.packet.length : Int) ≤ maxAlloc := by
    have hcap := c.buffer.cap_le
    have hle := c.buffer.len_le
    rw [c.buffer.length_packet]
    omega
  have hzero : (0 : Int64).toInt = 0 := rfl
  rw [Int64.lt_iff_toInt_lt, hzero] at hpos
  rw [Int64.lt_iff_toInt_lt, toInt_len hlen, c.buffer.length_packet] at hlt
  show 0 < c.config.fragmentSize.toInt.toNat ∧ c.config.fragmentSize.toInt.toNat < c.buffer.len
  omega

theorem exists_complete (hsize : 0 < c.fragmentSize) {s : Writing} (h : (writing c).Reachable s)
    (halive : s.crashed = false) {offset : Nat} (hfragment : s.fragment = some offset) :
    ∃ t rest, (writing c).Reachable t ∧ t.stage = s.stage ∧ t.direct = s.direct ∧
      t.fragments = s.fragments ++ rest ∧ ∃ offset, t.fragment = some offset ∧
        c.buffer.len ≤ offset := by
  induction hn : c.buffer.len - offset using Nat.strongRecOn generalizing s offset with
  | ind n ih =>
    by_cases hlt : offset < c.buffer.len
    · have hnext : (writing c).next s .fragment = some { s with
          fragments := s.fragments ++
            [((c.buffer.bytes s.mem.array).drop offset).take c.fragmentSize]
          fragment := some (offset + c.fragmentSize) } := by
        simp [writing, Writing.next, halive, hfragment, hlt]
      obtain ⟨t, rest, ht, hstage, hdirect, hfragments, hdone⟩ :=
        ih (c.buffer.len - (offset + c.fragmentSize)) (by omega) (h.step trivial hnext) halive
          rfl rfl
      exact ⟨t, _, ht, hstage, hdirect, hfragments.trans (List.append_assoc _ _ _), hdone⟩
    · exact ⟨s, [], h, rfl, rfl, (List.append_nil _).symm, offset, hfragment, not_lt.mp hlt⟩

/-- A packet that is fragmented breaks the contract, if the caller changes the first byte that
the goroutine is to send. -/
theorem not_keeps_of_fragments (hbypasses : c.bypasses = false)
    (hcut : Noize.fragments c.config c.buffer.packet = true) :
    ∃ s, (writing c).Reachable s ∧ s.Complete c ∧ s.pieces.flatten ≠ c.buffer.packet := by
  obtain ⟨hpos, hlt⟩ := fragments_spec hcut
  have hcut' : Noize.fragments c.config (c.buffer.bytes c.buffer.array) = true := hcut
  have hinside := c.buffer.inside
  have hle := c.buffer.len_le
  have hcell : c.buffer.offset + c.fragmentSize < c.buffer.array.length := by omega
  generalize hi : c.buffer.offset + c.fragmentSize = i at hcell
  have hbyte : c.buffer.packet[c.fragmentSize]? = some c.buffer.array[i] := by
    rw [Buffer.packet, Window.bytes, List.getElem?_take_of_lt hlt, List.getElem?_drop, hi,
      List.getElem?_eq_getElem hcell]
  generalize harray : c.buffer.array.set i (c.buffer.array[i] + 1) = array
  have hchanged : (c.buffer.bytes array)[c.fragmentSize]? = some (c.buffer.array[i] + 1) := by
    rw [Window.bytes, List.getElem?_take_of_lt hlt, List.getElem?_drop, hi, ← harray,
      List.getElem?_set_self hcell]
  -- the call returns, the caller changes the next byte, and the goroutine sends it
  have hrun : (writing c).run (.reached c .seen)
      [.second true, .emit, .overwrite i (c.buffer.array[i] + 1), .fragment] =
      some { Writing.reached c .returned with
        mem := ⟨array, []⟩
        fragment := some (c.fragmentSize + c.fragmentSize)
        direct := [c.buffer.packet.take c.fragmentSize]
        fragments := [((c.buffer.bytes array).drop c.fragmentSize).take c.fragmentSize] } := by
    simp [writing, Machine.run, Writing.next, Writing.reached, hcut', Slice.bytes,
      Window.bytes_upTo, Buffer.packet, hlt, harray]
  have hreach := (reach_seen hbypasses (by omega)).of_run (fun _ _ _ ↦ trivial) hrun
  obtain ⟨t, rest, ht, hstage, hdirect, hfragments, hdone⟩ := exists_complete hpos hreach rfl rfl
  refine ⟨t, ht, ⟨hstage, hdone⟩, ?_⟩
  intro hwhole
  have hindex : t.pieces.flatten[c.fragmentSize]? = some (c.buffer.array[i] + 1) := by
    have hfirst : (c.buffer.packet.take c.fragmentSize).length = c.fragmentSize := by
      rw [List.length_take, c.buffer.length_packet]
      omega
    have hsent : (((c.buffer.bytes array).drop c.fragmentSize).take c.fragmentSize)[0]? =
        some (c.buffer.array[i] + 1) := by
      rw [List.getElem?_take_of_lt hpos, List.getElem?_drop, Nat.add_zero, hchanged]
    obtain ⟨hlength, -⟩ := List.getElem?_eq_some_iff.mp hsent
    rw [Writing.pieces, hdirect, hfragments, List.flatten_append, List.flatten_append,
      List.flatten_singleton, List.flatten_singleton, List.getElem?_append_right (by omega), hfirst,
      Nat.sub_self, List.getElem?_append_left hlength, hsent]
  rw [hwhole, hbyte] at hindex
  have hne : c.buffer.array[i] ≠ c.buffer.array[i] + 1 := by simp
  exact hne (Option.some.inj hindex)

/-- The caller's array is left alone exactly by the calls that are detached from it. -/
theorem keeps_iff (c : Invocation) : (∀ s, (writing c).Reachable s → Keeps c s) ↔ c.Detached := by
  constructor
  · intro h
    by_contra hattached
    rw [Invocation.Detached, not_or] at hattached
    obtain ⟨hbypasses, hattached⟩ := hattached
    have hbypasses : c.bypasses = false := Bool.eq_false_iff.mpr hbypasses
    cases hcut : Noize.fragments c.config c.buffer.packet with
    | true =>
      obtain ⟨s, hs, hcomplete, hne⟩ := not_keeps_of_fragments hbypasses hcut
      exact hne ((h s hs).whole hcomplete)
    | false =>
      have hpads : PadsInPlace c.config c.buffer.toWindow := by
        by_contra hpads
        exact hattached ⟨hcut, hpads⟩
      obtain ⟨s, hs, hwritten⟩ := not_keeps_of_padsInPlace hbypasses hcut hpads
      exact hwritten (h s hs).untouched
  · intro hc s hs
    exact keeps_of_detached hc hs

/-- Sixteen bytes in a buffer with room for as many, and four bytes of padding. -/
def roomyCall : Invocation where
  config := { (default : NoizeConfig) with paddingMax := 4 }
  enabled := true
  udp := true
  buffer :=
    { array := List.replicate 32 0x40, offset := 0, len := 16, cap := 32
      len_le := by decide, inside := by decide, alloc := by decide }

/-- An Initial packet of five bytes, in fragments of two. -/
def initialCall : Invocation where
  config := { (default : NoizeConfig) with fragmentInitial := true, fragmentSize := 2 }
  enabled := true
  udp := true
  buffer :=
    { array := [0xc0, 1, 2, 3, 4], offset := 0, len := 5, cap := 5
      len_le := by decide, inside := by decide, alloc := by decide }

/-- Padding is written into the caller's array, and fragments are read from it after the caller
has used it for something else. -/
theorem buffer_misused :
    (∃ s, (writing roomyCall).Reachable s ∧ s.mem.written = [16, 17, 18, 19]) ∧
    ∃ s, (writing initialCall).Reachable s ∧ s.Complete initialCall ∧
      s.pieces.flatten = [0xc0, 1, 9, 9, 4] ∧ initialCall.buffer.packet = [0xc0, 1, 2, 3, 4] := by
  have hpad : (writing roomyCall).run (.fresh roomyCall)
      [.enter, .first true, .second true, .pad []] = some _ := rfl
  have hcut : (writing initialCall).run (.fresh initialCall)
      [.enter, .first true, .second true, .emit, .overwrite 2 9, .overwrite 3 9, .fragment,
        .fragment] = some _ := rfl
  constructor
  · exact ⟨_, .of_run (.start rfl) (fun _ _ _ ↦ trivial) hpad, rfl⟩
  · exact ⟨_, .of_run (.start rfl) (fun _ _ _ ↦ trivial) hcut, ⟨rfl, 6, rfl, by decide⟩, rfl, rfl⟩

/-! ## Callers that leave the array alone -/

/-- The goroutine that sends fragments has come to an offset. -/
structure Cutting (c : Invocation) (s : Writing) (offset : Nat) : Prop where
  array : s.mem.array = c.buffer.array
  size_pos : 0 < c.fragmentSize
  size_lt : c.fragmentSize < c.buffer.len
  size_le : c.fragmentSize ≤ offset
  sent : s.fragments.flatten =
    (c.buffer.packet.drop c.fragmentSize).take (offset - c.fragmentSize)
  size : ∀ piece ∈ s.fragments, piece ≠ [] ∧ piece.length ≤ c.fragmentSize
  call : s.stage = .out (.shared (c.buffer.upTo c.fragmentSize)) ∧ s.direct = [] ∨
    s.stage = .returned ∧ s.direct = [c.buffer.packet.take c.fragmentSize]

/-- What holds as long as the caller leaves the array alone. -/
structure Untouched (c : Invocation) (s : Writing) : Prop where
  early : s.stage.early = true → s.mem.array = c.buffer.array ∧ s.direct = []
  idle : s.fragment = none → s.fragments = []
  cutting : ∀ offset, s.fragment = some offset → Cutting c s offset

namespace Untouched

variable {s t : Writing}

/-- Before the packet is on its way out there is no fragment. -/
theorem fragment_eq_none (hs : Untouched c s) (hout : ∀ packet, s.stage ≠ .out packet)
    (hreturned : s.stage ≠ .returned) : s.fragment = none := by
  by_contra hsome
  obtain ⟨offset, hoffset⟩ := Option.ne_none_iff_exists'.mp hsome
  rcases (hs.cutting offset hoffset).call with ⟨hstage, -⟩ | ⟨hstage, -⟩
  · exact hout _ hstage
  · exact hreturned hstage

/-- Without a fragment nothing is said about the goroutine. -/
theorem of_none (hs : Untouched c s) (hnone : s.fragment = none)
    (hfragment : t.fragment = s.fragment) (hfragments : t.fragments = s.fragments)
    (hearly : t.stage.early = true → t.mem.array = c.buffer.array ∧ t.direct = []) :
    Untouched c t := by
  refine ⟨hearly, fun _ ↦ hfragments.trans (hs.idle hnone), fun offset hsome ↦ ?_⟩
  rw [hfragment, hnone] at hsome
  cases hsome

theorem fragment (hs : Untouched c s) {offset : Nat} (hfragment : s.fragment = some offset)
    (hlt : offset < c.buffer.len) :
    Untouched c { s with
      fragments := s.fragments ++ [((c.buffer.bytes s.mem.array).drop offset).take c.fragmentSize]
      fragment := some (offset + c.fragmentSize) } := by
  have hcutting := hs.cutting offset hfragment
  have hle := hcutting.size_le
  refine ⟨hs.early, nofun, ?_⟩
  rintro _ ⟨⟩
  rw [hcutting.array]
  refine { hcutting with size_le := Nat.le_add_left _ _, sent := ?_, size := ?_ }
  · have hsplit : offset + c.fragmentSize - c.fragmentSize =
        offset - c.fragmentSize + c.fragmentSize := by omega
    have hdrop : c.fragmentSize + (offset - c.fragmentSize) = offset := by omega
    rw [List.flatten_append, hcutting.sent, List.flatten_singleton, hsplit, List.take_add,
      List.drop_drop, hdrop]
    rfl
  · refine forall_mem_concat.mpr ⟨hcutting.size, ?_, List.length_take_le _ _⟩
    have hlength := c.buffer.length_packet
    have hpos := hcutting.size_pos
    rw [← List.length_pos_iff, List.length_take, List.length_drop]
    show 0 < min c.fragmentSize (c.buffer.packet.length - offset)
    omega

theorem step (hs : Untouched c s) {a : Move} (ha : ∀ i v, a ≠ .overwrite i v)
    (h : s.next c a = some t) : Untouched c t := by
  cases moves_of_next h with
  | raw hstage _ | pad hstage _ | wrap hstage =>
    exact hs.of_none (hs.fragment_eq_none (by simp [hstage]) (by simp [hstage])) rfl rfl nofun
  | enter hstage _ =>
    have hnone := hs.fragment_eq_none (by simp [hstage]) (by simp [hstage])
    exact hs.of_none hnone rfl rfl fun _ ↦ hs.early (hstage ▸ rfl)
  | inside hstage _ =>
    refine hs.of_none (hs.fragment_eq_none ?_ ?_) rfl rfl fun _ ↦ hs.early ?_
    all_goals rcases hstage with hstage | hstage <;> simp [hstage, Stage.early]
  | cut hstage hcut =>
    obtain ⟨harray, hdirect⟩ := hs.early (hstage ▸ rfl)
    rw [harray] at hcut
    obtain ⟨hpos, hlt⟩ := fragments_spec hcut
    -- the goroutine is new, so nothing was sent
    have hempty := hs.idle (hs.fragment_eq_none (by simp [hstage]) (by simp [hstage]))
    refine ⟨nofun, nofun, ?_⟩
    rintro _ ⟨⟩
    exact ⟨harray, hpos, hlt, le_rfl, by simp [hempty], by simp [hempty], .inl ⟨rfl, hdirect⟩⟩
  | emit hstage =>
    refine ⟨nofun, hs.idle, fun offset hoffset ↦ ?_⟩
    have hcutting := hs.cutting offset hoffset
    refine { hcutting with call := .inr ⟨rfl, ?_⟩ }
    rcases hcutting.call with ⟨hout, hnone⟩ | ⟨hreturned, -⟩
    · cases hstage.symm.trans hout
      rw [hnone, hcutting.array]
      exact congrArg (fun piece ↦ [piece]) (Window.bytes_upTo _ _ _)
    · cases hstage.symm.trans hreturned
  | fragment hfragment hlt => exact hs.fragment hfragment hlt
  | other => exact ⟨hs.early, hs.idle, fun offset hoffset ↦ { hs.cutting offset hoffset with }⟩
  | overwrite _ => exact absurd rfl (ha _ _)

theorem fragmented (hs : Untouched c s) : Fragmented c s := by
  have hlength := c.buffer.length_packet
  refine ⟨?_, ?_⟩
  · intro hsome piece hpiece
    obtain ⟨offset, hfragment⟩ := Option.isSome_iff_exists.mp hsome
    have hcutting := hs.cutting offset hfragment
    have hpos := hcutting.size_pos
    have hlt := hcutting.size_lt
    rcases List.mem_append.mp hpiece with hpiece | hpiece
    · rcases hcutting.call with ⟨-, hnone⟩ | ⟨-, hfirst⟩
      · rw [hnone] at hpiece
        cases hpiece
      · rw [hfirst, List.mem_singleton] at hpiece
        rw [hpiece, ← List.length_pos_iff, List.length_take]
        omega
    · exact hcutting.size piece hpiece
  · rintro ⟨hstage, offset, hfragment, hdone⟩
    have hcutting := hs.cutting offset hfragment
    rcases hcutting.call with ⟨hout, -⟩ | ⟨-, hfirst⟩
    · cases hstage.symm.trans hout
    · have hrest : (c.buffer.packet.drop c.fragmentSize).take (offset - c.fragmentSize) =
          c.buffer.packet.drop c.fragmentSize := by
        apply List.take_of_length_le
        rw [List.length_drop]
        omega
      rw [Writing.pieces, List.flatten_append, hfirst, hcutting.sent, hrest, List.flatten_singleton,
        List.take_append_drop]

end Untouched

theorem fragments_of_untouched {s : Writing}
    (h : (writing c).Reach (fun _ a ↦ ∀ i v, a ≠ .overwrite i v) s) : Fragmented c s := by
  have hs : Untouched c s := by
    refine Machine.Reach.invariant (I := Untouched c) ?_ (fun _ _ _ hs ha hn ↦ hs.step ha hn) h
    rintro _ rfl
    exact ⟨fun _ ↦ ⟨rfl, rfl⟩, fun _ ↦ rfl, nofun⟩
  exact hs.fragmented

theorem fragments_of_initialCall :
    ∃ s, (writing initialCall).Reach (fun _ a ↦ ∀ i v, a ≠ .overwrite i v) s ∧
      s.Complete initialCall ∧ Fragmented initialCall s := by
  have hrun : (writing initialCall).run (.fresh initialCall)
      [.enter, .first true, .second true, .emit, .fragment, .fragment] = some _ := rfl
  have h := Machine.Reach.of_run (G := fun _ a ↦ ∀ i v, a ≠ .overwrite i v) (.start rfl)
    (by simp) hrun
  exact ⟨_, h, ⟨rfl, 6, rfl, by decide⟩, fragments_of_untouched h⟩

end Contract

end Vwarp.Masque.Noize
