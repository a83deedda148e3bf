import Vwarp.Go.NetText
import Vwarp.Go.Writer
import Vwarp.Proxy.Socks5.Common

/-!
# The address codec

`readAddr` and `writeAddr` are inverse to each other.  What `writeAddr` writes for an address with
an IP, or with a name that is not too long, is read back, whatever follows it; and what `readAddr`
accepts is what `writeAddr` writes for the address that was read, unless that is the sixteen-byte
form of an IPv4 address, which is written in four bytes, or has neither a name nor an IP, which is
written as `0.0.0.0`.

`writeAddr` is modelled call by call here (`writeAddrTo`), over a writer that may fail, and
`writeAddrTo_new` connects it with the bytes it writes to a writer that does not.  The two
directions of `addr_codec` come from `encodes_writeAddr` and `writeAddr_of_encodes`, which are about
the encodings that `readAddr` is specified by.
-/

namespace Vwarp.Proxy.Socks5

open Vwarp.Go Vwarp.Lib

universe u

/-- What writing an address can fail with. -/
inductive WriteError
  | io (err : Error)
  | stringTooLong
deriving DecidableEq, Repr

/-- `if _, err := w.Write(p); err != nil { return err }`, for one slice after the other. -/
def writeEach (w : Writer) : List Bytes → Option WriteError × Writer
  | [] => (none, w)
  | p :: ps =>
    match w.write p with
    | (⟨_, some err⟩, w) => (some (.io err), w)
    | (⟨_, none⟩, w) => writeEach w ps

/-- The slices that `writeAddr` writes for the host of an address, one call for each, or
`errStringTooLong`. -/
def hostSlices (addr : Address) : Except WriteError (List Bytes) :=
  if addr.ip ≠ [] then
    match to4 addr.ip with
    | some ip4 => .ok [[ipv4Address], ip4]
    | none =>
      match to16 addr.ip with
      | some ip6 => .ok [[ipv6Address], ip6]
      | none => .ok [[ipv4Address, 0, 0, 0, 0]]
  else if addr.name ≠ [] then
    if 255 < addr.name.length then .error .stringTooLong
    else .ok [[fqdnAddress, addr.name.length.toUInt8], addr.name]
  else .ok [[ipv4Address, 0, 0, 0, 0]]

/-- `writeAddr`, call by call. -/
def writeAddrTo (w : Writer) : Option Address → Option WriteError × Writer
  | none => writeEach w [[ipv4Address, 0, 0, 0, 0, 0, 0]]
  | some addr =>
    match hostSlices addr with
    | .error err => (some err, w)
    | .ok slices => writeEach w (slices ++ [putUint16 (UInt16.ofNat addr.port)])

/-- `IP.Equal`. -/
def ipEqual (ip x : Bytes) : Bool :=
  if ip.length = x.length then ip == x
  else if ip.length = 4 ∧ x.length = 16 then x.take 12 == v4InV6Prefix && ip == x.drop 12
  else if ip.length = 16 ∧ x.length = 4 then ip.take 12 == v4InV6Prefix && ip.drop 12 == x
  else false

def Mapped (ip : Bytes) : Prop := ip.length = 16 ∧ ip.take 12 = v4InV6Prefix

/-- The addresses that can be written: an IP, or a name that is not too long, and a port. -/
structure Writable (a : Address) : Prop where
  port : a.port ≤ 65535
  host :
    (a.ip.length = 4 ∨ a.ip.length = 16) ∨ (a.ip = [] ∧ 1 ≤ a.name.length ∧ a.name.length ≤ 255)

/-- The same address: an equal IP, or the same name if there is none. -/
structure SameAddress (a b : Address) : Prop where
  port : b.port = a.port
  ip : a.ip ≠ [] → ipEqual a.ip b.ip = true
  name : a.ip = [] → b.ip = [] ∧ b.name = a.name

/-! ## Writing -/

theorem writeEach_accepting (offered accepted : Bytes) (ps : List Bytes) :
    writeEach ⟨offered, accepted, []⟩ ps =
      (none, ⟨offered ++ ps.flatten, accepted ++ ps.flatten, []⟩) := by
  induction ps generalizing offered accepted with
  | nil => simp [writeEach]
  | cons p ps ih =>
    rw [writeEach, Writer.write]
    refine (ih (offered ++ p) (accepted ++ p)).trans ?_
    rw [List.flatten_cons, List.append_assoc, List.append_assoc]

theorem writeHost_eq (addr : Address) :
    writeHost addr = match hostSlices addr with
      | .ok slices => some slices.flatten
      | .error _ => none := by
  unfold writeHost hostSlices
  by_cases hip : addr.ip = []
  · by_cases hname : addr.name = []
    · simp [hip, hname]
    · by_cases hlen : 255 < addr.name.length
      all_goals simp [hip, hname, hlen]
  · rw [if_pos hip, if_pos hip]
    cases hto4 : to4 addr.ip with
    | some ip4 => simp
    | none =>
      have hnot4 : addr.ip.length ≠ 4 := by
        intro h4
        rw [to4, if_pos h4] at hto4
        cases hto4
      by_cases hlen : addr.ip.length = 16
      · simp [to16, hlen]
      · simp [to16, hlen, hnot4]

theorem hostSlices_eq_error_iff {addr : Address} {err : WriteError} :
    hostSlices addr = .error err ↔
      err = .stringTooLong ∧ addr.ip = [] ∧ 255 < addr.name.length := by
  unfold hostSlices
  by_cases hip : addr.ip = []
  · by_cases hlen : 255 < addr.name.length
    · have hname : addr.name ≠ [] :=
        List.length_pos_iff.mp (Nat.lt_of_le_of_lt (Nat.zero_le _) hlen)
      simp [hip, hname, hlen, eq_comm]
    · by_cases hname : addr.name = []
      · simp [hip, hname]
      · simp [hip, hname, hlen]
  · rw [if_pos hip]
    constructor
    · intro h
      split at h
      · cases h
      · split at h
        · cases h
        · cases h
    · rintro ⟨-, hnil, -⟩
      exact absurd hnil hip

/-- To a writer that accepts everything, `writeAddr` writes its bytes or nothing. -/
theorem writeAddrTo_new (addr : Address) :
    writeAddrTo .new (some addr) = match writeAddr (some addr) with
      | some bs => (none, ⟨bs, bs, []⟩)
      | none => (some .stringTooLong, .new) := by
  cases hslices : hostSlices addr with
  | error err =>
    obtain ⟨rfl, -⟩ := hostSlices_eq_error_iff.mp hslices
    have hhost : writeHost addr = none := by rw [writeHost_eq, hslices]
    simp only [writeAddrTo, writeAddr, hslices, hhost, Option.map_none]
  | ok slices =>
    have hhost : writeHost addr = some slices.flatten := by rw [writeHost_eq, hslices]
    simp only [writeAddrTo, writeAddr, hslices, hhost, Option.map_some]
    refine (writeEach_accepting [] [] _).trans ?_
    simp

/-! ## Reading what was written -/

theorem putUint16_uint16 {port : Bytes} (h : port.length = 2) :
    putUint16 (UInt16.ofNat (uint16 port).toNat) = port := by
  have hlt : ofBE port < 2 ^ 16 := by simpa [h] using ofBE_lt port
  rw [UInt16.ofNat_toNat, putUint16, uint16, List.take_of_length_le (Nat.le_of_eq h),
    UInt16.toNat_ofNat_of_lt' hlt, ← h]
  exact toBE_ofBE port

theorem toNat_uint16_putUint16 {port : Nat} (h : port ≤ 65535) :
    (uint16 (putUint16 (UInt16.ofNat port))).toNat = port := by
  have hread := uint16_putUint16 (UInt16.ofNat port) []
  rw [List.append_nil] at hread
  rw [hread]
  exact UInt16.toNat_ofNat_of_lt' (Nat.lt_succ_of_le h)

/-- What is written for an address encodes it. -/
theorem encodes_writeAddr {a : Address} (h : Writable a) :
    ∃ enc b, writeAddr (some a) = some enc ∧ Encodes enc b ∧ SameAddress a b := by
  have hport := toNat_uint16_putUint16 h.port
  -- an encoding of the host and the port is one of the address
  have hencodes {t : UInt8} {host : Bytes} {b : Address} (hhost : writeHost a = some (t :: host))
      (he : EncodesHost t host b) (hsame : SameAddress a { b with port := a.port }) :
      ∃ enc b, writeAddr (some a) = some enc ∧ Encodes enc b ∧ SameAddress a b := by
    refine ⟨t :: host ++ putUint16 (UInt16.ofNat a.port), _, ?_, .mk he (length_putUint16 _), ?_⟩
    · rw [writeAddr, hhost]
      rfl
    · rw [hport]
      exact hsame
  rcases h.host with hip | ⟨hip, hpos, hlen⟩
  · have hne : a.ip ≠ [] := List.length_pos_iff.mp (by omega)
    cases hto4 : to4 a.ip with
    | some ip4 =>
      have hhost : writeHost a = some (ipv4Address :: ip4) := by
        rw [writeHost, if_pos hne, hto4]
      obtain ⟨w, x, y, z, rfl, hforms⟩ := exists_of_to4 hto4
      refine hencodes hhost (.ipv4 rfl) ⟨rfl, fun _ ↦ ?_, fun hnil ↦ absurd hnil hne⟩
      rcases hforms with hforms | hforms
      · rw [hforms]
        simp [ipEqual]
      · rw [hforms]
        simp [ipEqual, netIPv4, v4InV6Prefix]
    | none =>
      have hlen : a.ip.length = 16 := by
        refine hip.resolve_left fun h4 ↦ ?_
        rw [to4, if_pos h4] at hto4
        cases hto4
      have hhost : writeHost a = some (ipv6Address :: a.ip) := by
        rw [writeHost, if_pos hne, hto4, if_pos hlen]
      refine hencodes hhost (.ipv6 hlen) ⟨rfl, fun _ ↦ ?_, fun hnil ↦ absurd hnil hne⟩
      simp [ipEqual]
  · have hname : a.name ≠ [] := List.length_pos_iff.mp hpos
    have hhost : writeHost a =
        some (fqdnAddress :: a.name.length.toUInt8 :: a.name) := by
      rw [writeHost, if_neg (not_not_intro hip), if_pos hname, if_neg (Nat.not_lt_of_le hlen)]
    have hbyte : a.name.length.toUInt8.toNat = a.name.length :=
      UInt8.toNat_ofNat_of_lt' (Nat.lt_succ_of_le hlen)
    exact hencodes hhost (.fqdn hbyte) ⟨rfl, fun hne ↦ absurd hip hne, fun _ ↦ ⟨rfl, rfl⟩⟩

/-- An encoding is what is written for its address, unless that is the sixteen-byte form of an IPv4
address or has neither a name nor an IP. -/
theorem writeAddr_of_encodes {enc : Bytes} {a : Address} (h : Encodes enc a)
    (hhost : a.name ≠ [] ∨ (a.ip ≠ [] ∧ ¬Mapped a.ip)) : writeAddr (some a) = some enc := by
  obtain @⟨t, host, port, a₀, he, hport⟩ := h
  have hwrite : writeHost { a₀ with port := (uint16 port).toNat } = some (t :: host) := by
    cases he with
    | ipv4 hlen =>
      have hne : host ≠ [] := List.length_pos_iff.mp (by omega)
      rw [writeHost, if_pos hne, to4, if_pos hlen]
    | ipv6 hlen =>
      have hne : host ≠ [] := List.length_pos_iff.mp (by omega)
      have hmapped : ¬(host.length = 16 ∧ host.take 12 = v4InV6Prefix) :=
        (hhost.resolve_left fun hname ↦ hname rfl).2
      have hto4 : to4 host = none := by
        rw [to4, if_neg (by omega), if_neg hmapped]
      rw [writeHost, if_pos hne, hto4]
      exact if_pos hlen
    | @fqdn len name hlen =>
      have hname : name ≠ [] := hhost.resolve_right fun hip ↦ hip.1 rfl
      have hlt := len.toNat_lt
      have hbyte : name.length.toUInt8 = len := by
        rw [← hlen]
        exact UInt8.ofNat_toNat
      have hshort : ¬255 < name.length := by omega
      rw [writeHost, if_neg (not_not_intro rfl), if_pos hname, if_neg hshort, hbyte]
  rw [writeAddr, hwrite, Option.map_some, putUint16_uint16 hport]

/-- What is written to a writer that accepts everything. -/
def written (a : Address) : Bytes := (writeAddrTo .new (some a)).2.accepted

theorem writeAddrTo_of_some {a : Address} {enc : Bytes} (h : writeAddr (some a) = some enc) :
    (writeAddrTo .new (some a)).1 = none ∧ written a = enc := by
  rw [written, writeAddrTo_new, h]
  exact ⟨rfl, rfl⟩

/-- The codec: what is written is read back, whatever follows it; what is read is what is written
for it; and nothing is written of a name that is too long. -/
theorem addr_codec {ρ : Type u} [Source ρ] (hs : Source.Serves ρ 255) :
    (∀ (a : Address) (rest : Bytes) (r : ρ), Writable a → Source.Ready r →
      Source.content r = written a ++ rest →
        (writeAddrTo .new (some a)).1 = none ∧
          ∃ b r', readAddr r = .ok (b, r') ∧ SameAddress a b ∧ Source.content r' = rest) ∧
    (∀ (a : Address) (r r' : ρ), Source.Ready r → readAddr r = .ok (a, r') →
      (a.name ≠ [] ∨ (a.ip ≠ [] ∧ ¬Mapped a.ip)) →
        (writeAddrTo .new (some a)).1 = none ∧
          Source.content r = written a ++ Source.content r') ∧
    ∀ (a : Address) (w : Writer), a.ip = [] → 255 < a.name.length →
      writeAddrTo w (some a) = (some .stringTooLong, w) := by
  refine ⟨?_, ?_, ?_⟩
  · intro a rest r hwritable hr hcontent
    obtain ⟨enc, b, hwrite, hencodes, hsame⟩ := encodes_writeAddr hwritable
    obtain ⟨hnone, hwritten⟩ := writeAddrTo_of_some hwrite
    rw [hwritten] at hcontent
    obtain ⟨r', hread, hafter⟩ := readAddr_of_encodes hr hs hencodes hcontent
    refine ⟨hnone, b, r', hread, hsame, ?_⟩
    rw [hafter.content, hcontent, List.drop_left]
  · intro a r r' hr hread hhost
    obtain ⟨enc, hencodes, hcontent, -⟩ := encodes_of_readAddr hr hs hread
    obtain ⟨hnone, hwritten⟩ := writeAddrTo_of_some (writeAddr_of_encodes hencodes hhost)
    rw [hwritten]
    exact ⟨hnone, hcontent⟩
  · intro a w hip hlen
    have hslices : hostSlices a = .error .stringTooLong :=
      hostSlices_eq_error_iff.mpr ⟨rfl, hip, hlen⟩
    simp only [writeAddrTo, hslices]

/-- The sixteen-byte form of `8.8.8.8:53` is written in four bytes and read back before a byte
that does not belong to it. -/
theorem addr_codec_mapped :
    ∃ b, readAddr (⟨[1, 8, 8, 8, 8, 0, 53, 7]⟩ : Buffer) = .ok (b, ⟨[7]⟩) ∧
      SameAddress ⟨[], netIPv4 8 8 8 8, 53⟩ b := by
  obtain ⟨-, b, ⟨rest⟩, hread, hsame, hrest⟩ := (addr_codec (ρ := Buffer) trivial).1
    ⟨[], netIPv4 8 8 8 8, 53⟩ [7] ⟨[1, 8, 8, 8, 8, 0, 53, 7]⟩
    ⟨by decide, .inl (.inr rfl)⟩ trivial rfl
  cases hrest
  exact ⟨b, hread, hsame⟩

end Vwarp.Proxy.Socks5
