import Vwarp.Go.Net
import Vwarp.Go.Reader

/-!
# SOCKS5 addresses on the wire

`readAddr` and `writeAddr`, over any reader.  On a source, `readAddr` accepts exactly
the encodings of an address (`Encodes`) and consumes exactly the encoding, whatever
the reads it is cut into: `readAddr_of_encodes` and `encodes_of_readAddr`.
-/

namespace Vwarp.Proxy.Socks5

open Vwarp.Go
open Source (Ready Serves content serves_of_le)

universe u v

/-- `socks5Version`. -/
def socks5Version : UInt8 := 0x05

/-- `ipv4Address`. -/
def ipv4Address : UInt8 := 0x01

/-- `fqdnAddress`. -/
def fqdnAddress : UInt8 := 0x03

/-- `ipv6Address`. -/
def ipv6Address : UInt8 := 0x04

/-- `maxUdpPacket`. -/
def maxUdpPacket : Nat := 2048

/-- `address`: either the name or the IP is used; a `nil` IP is the empty one. -/
structure Address where
  name : Bytes
  ip : Bytes
  port : Nat
deriving DecidableEq, Repr

/-- `address.Address`, which is also `address.String`. -/
def Address.string (a : Address) : Bytes :=
  if a.ip ≠ [] then joinHostPort (ipString a.ip) (itoa a.port)
  else joinHostPort a.name (itoa a.port)

/-- What reading a request can fail with. -/
inductive ReadError
  | io (err : Error)
  | unrecognizedAddrType
deriving DecidableEq, Repr

section Read

variable {ρ : Type u} [Reader ρ]

/-- `readByte`. -/
def readByte (r : ρ) : Except ReadError (UInt8 × ρ) :=
  match Reader.read r [0] with
  | (res, r) =>
    match res.err with
    | some err => .error (.io err)
    | none => .ok (res.buf.headD 0, r)

/-- `io.ReadFull` into a new slice of length `n`. -/
def readN (r : ρ) (n : Nat) : Except ReadError (Bytes × ρ) :=
  match readFull r (List.replicate n 0) with
  | (res, r) =>
    match res.err with
    | some err => .error (.io err)
    | none => .ok (res.buf, r)

/-- `readBytes`: a length and that many bytes. -/
def readBytes (r : ρ) : Except ReadError (Bytes × ρ) := do
  let (len, r) ← readByte r
  readN r len.toNat

/-- The `switch` of `readAddr` on the address type. -/
def readHost (addrType : UInt8) (r : ρ) : Except ReadError (Address × ρ) :=
  if addrType = ipv4Address then do
    let (ip, r) ← readN r 4
    .ok (⟨[], ip, 0⟩, r)
  else if addrType = ipv6Address then do
    let (ip, r) ← readN r 16
    .ok (⟨[], ip, 0⟩, r)
  else if addrType = fqdnAddress then do
    let (len, r) ← readByte r
    let (name, r) ← readN r len.toNat
    .ok (⟨name, [], 0⟩, r)
  else .error .unrecognizedAddrType

/-- `readAddr`. -/
def readAddr (r : ρ) : Except ReadError (Address × ρ) := do
  let (addrType, r) ← readByte r
  let (address, r) ← readHost addrType r
  let (port, r) ← readN r 2
  .ok ({ address with port := (uint16 port).toNat }, r)

end Read

/-! ## Writing -/

/-- The host part of `writeAddr` for an address that is not `nil`; `none` is
`errStringTooLong`. -/
def writeHost (addr : Address) : Option Bytes :=
  if addr.ip ≠ [] then
    match to4 addr.ip with
    | some ip4 => some (ipv4Address :: ip4)
    | none =>
      if addr.ip.length = 16 then some (ipv6Address :: addr.ip)
      else some [ipv4Address, 0, 0, 0, 0]
  else if addr.name ≠ [] then
    if 255 < addr.name.length then none
    else some (fqdnAddress :: addr.name.length.toUInt8 :: addr.name)
  else some [ipv4Address, 0, 0, 0, 0]

/-- `writeAddr`: everything it writes. -/
def writeAddr : Option Address → Option Bytes
  | none => some [ipv4Address, 0, 0, 0, 0, 0, 0]
  | some addr => (writeHost addr).map (· ++ putUint16 (UInt16.ofNat addr.port))

/-- `splitHostPort`. -/
def splitHostPort (address : Bytes) : Option (Bytes × Nat) :=
  (Go.splitHostPort address).bind fun (host, port) ↦
    (atoi port).bind fun portnum ↦
      if 0 > portnum ∨ portnum > 0xffff then none else some (host, portnum.toNat)

/-- `writeAddrWithStr`. -/
def writeAddrWithStr (addr : Bytes) : Option Bytes :=
  (splitHostPort addr).bind fun (host, port) ↦
    match parseIP host with
    | some ip => writeAddr (some ⟨[], ip, port⟩)
    | none => writeAddr (some ⟨host, [], port⟩)

/-- `sendReply`: everything it writes. -/
def sendReply (resp : UInt8) (addr : Option Address) : Option Bytes :=
  (writeAddr addr).map ([socks5Version, resp, 0] ++ ·)

/-! ## Reading from a source -/

/-- What an address type announces, and the host it stands for. -/
inductive EncodesHost : UInt8 → Bytes → Address → Prop
  | ipv4 {ip} : ip.length = 4 → EncodesHost ipv4Address ip ⟨[], ip, 0⟩
  | ipv6 {ip} : ip.length = 16 → EncodesHost ipv6Address ip ⟨[], ip, 0⟩
  | fqdn {len : UInt8} {name : Bytes} : len.toNat = name.length →
      EncodesHost fqdnAddress (len :: name) ⟨name, [], 0⟩

/-- `Encodes enc a`: the bytes `enc` are a complete address of type 1, 3 or 4, and `a` is
the address they encode. -/
inductive Encodes : Bytes → Address → Prop
  | /-- A type, a host of that type, and a port. -/
    mk {t host port a} : EncodesHost t host a → port.length = 2 →
      Encodes (t :: host ++ port) { a with port := (uint16 port).toNat }

theorem bind_eq_ok {ε : Type v} {α β : Type u} {x : Except ε α} {f : α → Except ε β} {b : β} :
    (x >>= f) = .ok b ↔ ∃ a, x = .ok a ∧ f a = .ok b := by
  cases x with
  | error e => exact iff_of_false (fun h ↦ nomatch h) (fun ⟨_, h, _⟩ ↦ nomatch h)
  | ok a => exact ⟨fun h ↦ ⟨a, rfl, h⟩, fun ⟨_, h, h'⟩ ↦ Except.ok.inj h ▸ h'⟩

section Source

variable {ρ : Type u} [Source ρ] {r : ρ}

variable {c t : UInt8} {bs rest : Bytes} {a : Address}

variable (hr : Ready r)

include hr

theorem readByte_cons (hs : Serves ρ 1) {cs : Bytes} (h : content r = c :: cs) :
    ∃ r', readByte r = .ok (c, r') ∧ After r 1 r' := by
  obtain ⟨r', hr', hafter⟩ := read_one hr hs h 0
  exact ⟨r', by simp [readByte, hr'], hafter⟩

theorem readByte_nil (h : content r = []) : readByte r = .error (.io (Source.final r)) := by
  have hres := Source.read_end r (p := [0]) hr (by simp) h
  simp only [readByte, hres]

/-- Reading `n` bytes takes the first `n` of the content. -/
theorem readN_of_le {n : Nat} (hs : Serves ρ n) (h : n ≤ (content r).length) :
    ∃ r', readN r n = .ok ((content r).take n, r') ∧ After r n r' := by
  obtain ⟨r', hr', hafter⟩ :=
    readFull_of_le hr (p := List.replicate n 0) (by simpa using hs) (by simpa using h)
  simp only [List.length_replicate] at hr' hafter
  exact ⟨r', by simp only [readN, hr'], hafter⟩

theorem readN_of_lt {n : Nat} (hs : Serves ρ n) (h : (content r).length < n) :
    readN r n = .error (.io (shortError r)) := by
  have hres := readFull_of_lt hr (p := List.replicate n 0) (by simpa using hs) (by simpa using h)
  simp only [readN, hres]

/-- Reading `n` bytes succeeds only if they are there. -/
theorem readN_ok {n : Nat} (hs : Serves ρ n) {r' : ρ} (h : readN r n = .ok (bs, r')) :
    bs.length = n ∧ content r = bs ++ content r' ∧ After r n r' := by
  rcases Nat.lt_or_ge (content r).length n with hlt | hle
  · rw [readN_of_lt hr hs hlt] at h
    cases h
  · obtain ⟨r'', hr'', hafter⟩ := readN_of_le hr hs hle
    obtain ⟨rfl, rfl⟩ : _ = bs ∧ r'' = r' := by simpa [hr''] using h
    exact ⟨by simp [hle], by rw [hafter.content, List.take_append_drop], hafter⟩

theorem readByte_ok (hs : Serves ρ 1) {r' : ρ} (h : readByte r = .ok (c, r')) :
    content r = c :: content r' ∧ After r 1 r' := by
  cases hc : content r with
  | nil => rw [readByte_nil hr hc] at h; cases h
  | cons b bs =>
    obtain ⟨r'', hr'', hafter⟩ := readByte_cons hr hs hc
    obtain ⟨rfl, rfl⟩ : b = c ∧ r'' = r' := by simpa [hr''] using h
    exact ⟨by rw [hafter.content, hc]; rfl, hafter⟩

theorem readHost_ok (hs : Serves ρ 255) {r' : ρ} (h : readHost t r = .ok (a, r')) :
    ∃ host, EncodesHost t host a ∧ content r = host ++ content r' ∧
      After r host.length r' := by
  have hsmall {n : Nat} (hn : n ≤ 255) : Serves ρ n := serves_of_le hn hs
  unfold readHost at h
  split at h
  · rename_i ht
    obtain ⟨⟨ip, r₁⟩, h₁, h⟩ := bind_eq_ok.mp h
    obtain ⟨rfl, rfl⟩ : _ = a ∧ r₁ = r' := by simpa using h
    obtain ⟨hlen, hcont, hafter⟩ := readN_ok hr (hsmall (by decide)) h₁
    exact ⟨ip, ht ▸ .ipv4 hlen, hcont, hlen ▸ hafter⟩
  split at h
  · rename_i ht
    obtain ⟨⟨ip, r₁⟩, h₁, h⟩ := bind_eq_ok.mp h
    obtain ⟨rfl, rfl⟩ : _ = a ∧ r₁ = r' := by simpa using h
    obtain ⟨hlen, hcont, hafter⟩ := readN_ok hr (hsmall (by decide)) h₁
    exact ⟨ip, ht ▸ .ipv6 hlen, hcont, hlen ▸ hafter⟩
  split at h
  · rename_i ht
    obtain ⟨⟨len, r₁⟩, h₁, h⟩ := bind_eq_ok.mp h
    obtain ⟨⟨name, r₂⟩, h₂, h⟩ := bind_eq_ok.mp h
    obtain ⟨rfl, rfl⟩ : _ = a ∧ r₂ = r' := by simpa using h
    obtain ⟨hcont₁, hafter₁⟩ := readByte_ok hr (hsmall (by decide)) h₁
    obtain ⟨hlen, hcont₂, hafter₂⟩ :=
      readN_ok hafter₁.ready (hsmall (Nat.le_of_lt_succ len.toNat_lt)) h₂
    refine ⟨len :: name, ht ▸ .fqdn hlen.symm, by rw [hcont₁, hcont₂]; rfl, ?_⟩
    rw [List.length_cons, hlen, Nat.add_comm]
    exact hafter₁.trans hafter₂
  · cases h

theorem readHost_of_encodes (hs : Serves ρ 255) {host : Bytes}
    (he : EncodesHost t host a) (h : content r = host ++ rest) :
    ∃ r', readHost t r = .ok (a, r') ∧ After r host.length r' := by
  have hsmall {n : Nat} (hn : n ≤ 255) : Serves ρ n := serves_of_le hn hs
  cases he with
  | ipv4 hlen =>
    obtain ⟨r', hr', hafter⟩ := readN_of_le hr (n := 4) (hsmall (by decide)) (by simp [h, hlen])
    rw [h, List.take_left' hlen] at hr'
    exact ⟨r', by simp [readHost, hr', bind, Except.bind], hlen ▸ hafter⟩
  | ipv6 hlen =>
    obtain ⟨r', hr', hafter⟩ := readN_of_le hr (n := 16) (hsmall (by decide)) (by simp [h, hlen])
    rw [h, List.take_left' hlen] at hr'
    refine ⟨r', ?_, hlen ▸ hafter⟩
    simp [readHost, ipv6Address, ipv4Address, hr', bind, Except.bind]
  | @fqdn len name hlen =>
    obtain ⟨r₁, h₁, hafter₁⟩ := readByte_cons hr (hsmall (by decide)) h
    have hc : content r₁ = name ++ rest := by rw [hafter₁.content, h]; rfl
    obtain ⟨r₂, h₂, hafter₂⟩ := readN_of_le hafter₁.ready (n := len.toNat)
      (hsmall (Nat.le_of_lt_succ len.toNat_lt)) (by simp [hc, hlen])
    rw [hc, hlen, List.take_left' rfl, ← hlen] at h₂
    refine ⟨r₂, ?_, ?_⟩
    · simp [readHost, ipv6Address, ipv4Address, fqdnAddress, h₁, h₂, bind, Except.bind]
    · rw [List.length_cons, ← hlen, Nat.add_comm]
      exact hafter₁.trans hafter₂

/-- An address that is read is an address that was encoded. -/
theorem encodes_of_readAddr (hs : Serves ρ 255) {r' : ρ} (h : readAddr r = .ok (a, r')) :
    ∃ enc, Encodes enc a ∧ content r = enc ++ content r' ∧
      After r enc.length r' := by
  have hsmall {n : Nat} (hn : n ≤ 255) : Serves ρ n := serves_of_le hn hs
  obtain ⟨⟨t, r₁⟩, h₁, h⟩ := bind_eq_ok.mp h
  obtain ⟨⟨a₀, r₂⟩, h₂, h⟩ := bind_eq_ok.mp h
  obtain ⟨⟨port, r₃⟩, h₃, h⟩ := bind_eq_ok.mp h
  obtain ⟨rfl, rfl⟩ : _ = a ∧ r₃ = r' := by simpa using h
  obtain ⟨hcont₁, hafter₁⟩ := readByte_ok hr (hsmall (by decide)) h₁
  obtain ⟨host, he, hcont₂, hafter₂⟩ := readHost_ok hafter₁.ready hs h₂
  obtain ⟨hport, hcont₃, hafter₃⟩ := readN_ok hafter₂.ready (hsmall (by decide)) h₃
  refine ⟨t :: host ++ port, .mk he hport, by rw [hcont₁, hcont₂, hcont₃]; simp, ?_⟩
  have hafter := (hafter₁.trans hafter₂).trans hafter₃
  rwa [show (t :: host ++ port).length = 1 + host.length + 2 by simp [hport]; omega]

/-- An encoded address is read, and nothing beyond it. -/
theorem readAddr_of_encodes (hs : Serves ρ 255) {enc : Bytes}
    (he : Encodes enc a) (h : content r = enc ++ rest) :
    ∃ r', readAddr r = .ok (a, r') ∧ After r enc.length r' := by
  have hsmall {n : Nat} (hn : n ≤ 255) : Serves ρ n := serves_of_le hn hs
  obtain @⟨t, host, port, a₀, he, hport⟩ := he
  have hc : content r = t :: (host ++ (port ++ rest)) := by simp [h]
  obtain ⟨r₁, h₁, hafter₁⟩ := readByte_cons hr (hsmall (by decide)) hc
  have hc₁ : content r₁ = host ++ (port ++ rest) := by rw [hafter₁.content, h]; simp
  obtain ⟨r₂, h₂, hafter₂⟩ := readHost_of_encodes hafter₁.ready hs he hc₁
  have hc₂ : content r₂ = port ++ rest := by rw [hafter₂.content, hc₁, List.drop_left]
  obtain ⟨r₃, h₃, hafter₃⟩ :=
    readN_of_le hafter₂.ready (n := 2) (hsmall (by decide)) (by simp [hc₂, hport])
  rw [hc₂, List.take_left' hport] at h₃
  refine ⟨r₃, by simp [readAddr, h₁, h₂, h₃, bind, Except.bind], ?_⟩
  have hafter := (hafter₁.trans hafter₂).trans hafter₃
  rwa [show (t :: host ++ port).length = 1 + host.length + 2 by simp [hport]; omega]

theorem readBytes_ok (hs : Serves ρ 255) {r' : ρ} (h : readBytes r = .ok (bs, r')) :
    ∃ len : UInt8, len.toNat = bs.length ∧ content r = len :: (bs ++ content r') ∧
      Ready r' := by
  obtain ⟨⟨len, r₁⟩, h₁, h⟩ := bind_eq_ok.mp h
  obtain ⟨hcont₁, hafter₁⟩ := readByte_ok hr (serves_of_le (by decide) hs) h₁
  obtain ⟨hlen, hcont₂, hafter₂⟩ := readN_ok hafter₁.ready
    (serves_of_le (Nat.le_of_lt_succ len.toNat_lt) hs) h
  exact ⟨len, hlen.symm, by rw [hcont₁, hcont₂], hafter₂.ready⟩

theorem readBytes_of_content (hs : Serves ρ 255) {len : UInt8} (hlen : len.toNat = bs.length)
    (h : content r = len :: (bs ++ rest)) :
    ∃ r', readBytes r = .ok (bs, r') ∧ Ready r' ∧ content r' = rest := by
  obtain ⟨r₁, h₁, hafter₁⟩ := readByte_cons hr (serves_of_le (by decide) hs) h
  have hc : content r₁ = bs ++ rest := by rw [hafter₁.content, h]; rfl
  obtain ⟨r₂, h₂, hafter₂⟩ := readN_of_le hafter₁.ready (n := len.toNat)
    (serves_of_le (Nat.le_of_lt_succ len.toNat_lt) hs) (by simp [hc, hlen])
  rw [hc, hlen, List.take_left' rfl, ← hlen] at h₂
  refine ⟨r₂, by simp [readBytes, h₁, h₂, bind, Except.bind], hafter₂.ready, ?_⟩
  rw [hafter₂.content, hc, hlen, List.drop_left]

end Source

/-! ## Independence of segmentation -/

/-- Two sources with the same bytes to deliver, however they cut them. -/
structure Same {ρ : Type u} {σ : Type v} [Source ρ] [Source σ] (r : ρ) (r' : σ) : Prop where
  left : Ready r
  right : Ready r'
  content : content r = content r'

/-- Two outcomes of reading that agree: the same value and sources with the same bytes
left, or errors of the same kind. -/
inductive ReadAlike {ρ σ α : Type u} [Source ρ] [Source σ] :
    Except ReadError (α × ρ) → Except ReadError (α × σ) → Prop
  | ok {a r r'} : Same r r' → ReadAlike (.ok (a, r)) (.ok (a, r'))
  | /-- Both fail to read; what they fail with comes from the source. -/
    io {e e'} : ReadAlike (.error (.io e)) (.error (.io e'))
  | unrecognizedAddrType : ReadAlike (.error .unrecognizedAddrType) (.error .unrecognizedAddrType)

section Segmentation

variable {ρ σ α β : Type} [Source ρ] [Source σ] {r : ρ} {r' : σ}

theorem ReadAlike.bind {x : Except ReadError (α × ρ)} {y : Except ReadError (α × σ)}
    {f : α × ρ → Except ReadError (β × ρ)} {g : α × σ → Except ReadError (β × σ)}
    (h : ReadAlike x y) (hfg : ∀ a r r', Same r r' → ReadAlike (f (a, r)) (g (a, r'))) :
    ReadAlike (x >>= f) (y >>= g) := by
  cases h with
  | ok hsame => exact hfg _ _ _ hsame
  | io => exact .io
  | unrecognizedAddrType => exact .unrecognizedAddrType

/-- Reading `n` bytes does not depend on the segmentation. -/
theorem Same.readN (h : Same r r') {n : Nat} (hs : Serves ρ n) (hs' : Serves σ n) :
    ReadAlike (Socks5.readN r n) (Socks5.readN r' n) := by
  rcases Nat.lt_or_ge (Source.content r).length n with hlt | hle
  · rw [readN_of_lt h.left hs hlt, readN_of_lt h.right hs' (h.content ▸ hlt)]
    exact .io
  · obtain ⟨r₁, h₁, hafter₁⟩ := readN_of_le h.left hs hle
    obtain ⟨r₂, h₂, hafter₂⟩ := readN_of_le h.right hs' (h.content ▸ hle)
    rw [h₁, h₂, h.content]
    exact .ok ⟨hafter₁.ready, hafter₂.ready, by rw [hafter₁.content, hafter₂.content, h.content]⟩

theorem Same.readByte (h : Same r r') (hs : Serves ρ 1) (hs' : Serves σ 1) :
    ReadAlike (Socks5.readByte r) (Socks5.readByte r') := by
  cases hc : Source.content r with
  | nil =>
    rw [readByte_nil h.left hc, readByte_nil h.right (h.content ▸ hc)]
    exact .io
  | cons c cs =>
    obtain ⟨r₁, h₁, hafter₁⟩ := readByte_cons h.left hs hc
    obtain ⟨r₂, h₂, hafter₂⟩ := readByte_cons h.right hs' (h.content ▸ hc)
    rw [h₁, h₂]
    exact .ok ⟨hafter₁.ready, hafter₂.ready, by rw [hafter₁.content, hafter₂.content, h.content]⟩

variable (hs : Serves ρ 255) (hs' : Serves σ 255)

include hs hs'

theorem Same.readBytes (h : Same r r') : ReadAlike (Socks5.readBytes r) (Socks5.readBytes r') := by
  refine (h.readByte (serves_of_le (by decide) hs) (serves_of_le (by decide) hs')).bind ?_
  intro len r r' h
  have hlen : len.toNat ≤ 255 := Nat.le_of_lt_succ len.toNat_lt
  exact h.readN (serves_of_le hlen hs) (serves_of_le hlen hs')

theorem Same.readAddr (h : Same r r') : ReadAlike (Socks5.readAddr r) (Socks5.readAddr r') := by
  have hN {n : Nat} (hn : n ≤ 255) {r : ρ} {r' : σ} (h : Same r r') :
      ReadAlike (Socks5.readN r n) (Socks5.readN r' n) :=
    h.readN (serves_of_le hn hs) (serves_of_le hn hs')
  have hbyte {r : ρ} {r' : σ} (h : Same r r') :
      ReadAlike (Socks5.readByte r) (Socks5.readByte r') :=
    h.readByte (serves_of_le (by decide) hs) (serves_of_le (by decide) hs')
  refine (hbyte h).bind ?_
  intro addrType r r' h
  refine ReadAlike.bind ?_ ?_
  · unfold readHost
    split
    · exact (hN (by decide) h).bind fun _ _ _ h ↦ .ok h
    split
    · exact (hN (by decide) h).bind fun _ _ _ h ↦ .ok h
    split
    · refine (hbyte h).bind fun len _ _ h ↦ ?_
      exact (hN (Nat.le_of_lt_succ len.toNat_lt) h).bind fun _ _ _ h ↦ .ok h
    · exact .unrecognizedAddrType
  · intro address r r' h
    exact (hN (by decide) h).bind fun _ _ _ h ↦ .ok h

end Segmentation

end Vwarp.Proxy.Socks5
