import Vwarp.Go.Strings
import Vwarp.Lib.BigEndian

/-!
# `net/netip` and the byte forms of `net.IP`

A `netip.Addr` is invalid, an IPv4 address, or an IPv6 address with a zone.  The
IPv4-mapped IPv6 addresses `::ffff:a.b.c.d` are IPv6 addresses that `unmap` turns
into IPv4 ones; `AddrFromSlice` makes one of them out of the 16-byte form of an
IPv4 address, which is the form `net.IPv4` returns.
-/

namespace Vwarp.Go

open Vwarp.Lib

/-- `netip.Addr`. -/
inductive Addr
  | invalid
  | v4 (a : BitVec 32)
  | v6 (a : BitVec 128) (zone : Bytes)
deriving DecidableEq, Repr

namespace Addr

/-- `Addr.IsValid`. -/
def isValid : Addr → Bool
  | invalid => false
  | _ => true

/-- `Addr.Is4`. -/
def is4 : Addr → Bool
  | v4 _ => true
  | _ => false

theorem is4_iff {ip : Addr} : ip.is4 = true ↔ ∃ a, ip = v4 a := by
  cases ip with
  | invalid | v4 a | v6 a zone => simp [is4]

/-- `Addr.Is6`, which holds of IPv4-mapped addresses too. -/
def is6 : Addr → Bool
  | v6 _ _ => true
  | _ => false

/-- The first number of the IPv4-mapped block `::ffff:0:0/96`. -/
def mappedBase : Nat := 0xffff00000000

/-- `Addr.Is4In6`. -/
def is4In6 : Addr → Bool
  | v6 a _ => a.toNat / 2 ^ 32 = 0xffff
  | _ => false

/-- `Addr.BitLen`. -/
def bitLen : Addr → Nat
  | invalid => 0
  | v4 _ => 32
  | v6 _ _ => 128

/-- `Addr.Zone`. -/
def zone : Addr → Bytes
  | v6 _ z => z
  | _ => []

/-- `Addr.WithZone("")`. -/
def withoutZone : Addr → Addr
  | v6 a _ => v6 a []
  | ip => ip

/-- `Addr.Unmap`. -/
def unmap : Addr → Addr
  | v6 a z => if (v6 a z).is4In6 then v4 (a.setWidth 32) else v6 a z
  | ip => ip

/-- The address as a number: its own 32 or 128 bits. -/
def toNat : Addr → Nat
  | invalid => 0
  | v4 a => a.toNat
  | v6 a _ => a.toNat

/-- The number of the 16-byte form, in which an IPv4 address is IPv4-mapped. -/
def toNat16 : Addr → Nat
  | invalid => 0
  | v4 a => mappedBase + a.toNat
  | v6 a _ => a.toNat

/-- `Addr.AsSlice`. -/
def asSlice : Addr → Bytes
  | invalid => []
  | v4 a => toBE 4 a.toNat
  | v6 a _ => toBE 16 a.toNat

/-- `Addr.As16`. -/
def as16 (ip : Addr) : Bytes := toBE 16 ip.toNat16

end Addr

/-- `netip.AddrFromSlice`: a 16-byte form stays an IPv6 address. -/
def addrFromSlice (s : Bytes) : Option Addr :=
  if s.length = 4 then some (.v4 (BitVec.ofNat 32 (ofBE s)))
  else if s.length = 16 then some (.v6 (BitVec.ofNat 128 (ofBE s)) [])
  else none

/-- `netip.AddrPort`. -/
structure AddrPort where
  addr : Addr
  port : UInt16
deriving DecidableEq, Repr

/-- The first twelve bytes of the 16-byte form of an IPv4 address. -/
def v4InV6Prefix : Bytes := [0, 0, 0, 0, 0, 0, 0, 0, 0, 0, 0xff, 0xff]

/-- `net.IPv4`: an address in its 16-byte form. -/
def netIPv4 (a b c d : UInt8) : Bytes := v4InV6Prefix ++ [a, b, c, d]

/-- `binary.BigEndian.PutUint16`. -/
def putUint16 (n : UInt16) : Bytes := toBE 2 n.toNat

/-- `binary.BigEndian.Uint16`. -/
def uint16 (s : Bytes) : UInt16 := UInt16.ofNat (ofBE (s.take 2))

/-! ## Slices of addresses -/

@[simp] theorem length_asSlice_v4 (a : BitVec 32) : (Addr.v4 a).asSlice.length = 4 :=
  length_toBE _ _

@[simp] theorem length_asSlice_v6 (a : BitVec 128) (z : Bytes) :
    (Addr.v6 a z).asSlice.length = 16 := length_toBE _ _

theorem addrFromSlice_asSlice_v6 (a : BitVec 128) (z : Bytes) :
    addrFromSlice (Addr.v6 a z).asSlice = some (.v6 a []) := by
  have ha : ofBE (Addr.v6 a z).asSlice = a.toNat := ofBE_toBE_of_lt a.isLt
  rw [addrFromSlice, length_asSlice_v6, ha, if_neg (by decide), if_pos rfl, BitVec.ofNat_toNat,
    BitVec.setWidth_eq]

theorem addrFromSlice_netIPv4 (a b c d : UInt8) :
    ∃ v, addrFromSlice (netIPv4 a b c d) = some (.v6 v []) := by
  refine ⟨BitVec.ofNat 128 (ofBE (netIPv4 a b c d)), ?_⟩
  rw [addrFromSlice, if_neg (by simp [netIPv4, v4InV6Prefix]),
    if_pos (by simp [netIPv4, v4InV6Prefix])]

@[simp] theorem length_putUint16 (n : UInt16) : (putUint16 n).length = 2 := length_toBE _ _

theorem uint16_putUint16 (n : UInt16) (rest : Bytes) : uint16 (putUint16 n ++ rest) = n := by
  have hn : ofBE (putUint16 n) = n.toNat := ofBE_toBE_of_lt n.toNat_lt
  rw [uint16, List.take_left' (length_putUint16 n), hn, UInt16.ofNat_toNat]

end Vwarp.Go
