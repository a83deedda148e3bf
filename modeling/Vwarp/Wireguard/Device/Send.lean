import Vwarp.Go.Runtime

/-!
# Transport messages

`calculatePaddingSize` and what `RoutineEncryption` makes of a packet: a header, and the
packet with its padding, sealed.  The AEAD is a parameter that makes everything sixteen bytes
longer.
-/

namespace Vwarp.Wireguard.Device

open Vwarp.Go Vwarp.Lib

/-- `PaddingMultiple`. -/
def paddingMultiple : Int64 := 16

/-- `MessageTransportType`. -/
def messageTransportType : Nat := 4

/-- `calculatePaddingSize`. -/
def calculatePaddingSize (packetSize mtu : Int64) : Int64 :=
  let lastUnit := packetSize
  if mtu = 0 then
    ((lastUnit + paddingMultiple - 1) &&& ~~~(paddingMultiple - 1)) - lastUnit
  else
    let lastUnit := if lastUnit > mtu then lastUnit % mtu else lastUnit
    let paddedSize := (lastUnit + paddingMultiple - 1) &&& ~~~(paddingMultiple - 1)
    let paddedSize := if paddedSize > mtu then mtu else paddedSize
    paddedSize - lastUnit

/-- The sending half of a keypair. -/
structure Keypair where
  remoteIndex : Nat
  /-- `send.Seal` with a nonce, without additional data. -/
  sealed : Nat → Bytes → Bytes
  /-- The tag has sixteen bytes. -/
  length_sealed (nonce : Nat) (packet : Bytes) : (sealed nonce packet).length = packet.length + 16

def toLE (len n : Nat) : Bytes := (toBE len n).reverse

/-- `RoutineEncryption`: the datagram of a packet. -/
def Keypair.transport (keypair : Keypair) (mtu : Int64) (nonce : Nat) (packet : Bytes) : Bytes :=
  let header := toLE 4 messageTransportType ++ toLE 4 keypair.remoteIndex ++ toLE 8 nonce
  let paddingSize := calculatePaddingSize (Int64.ofNat packet.length) mtu
  header ++ keypair.sealed nonce (packet ++ List.replicate paddingSize.toNatClampNeg 0)

/-! ## Padding -/

theorem and_not_fifteen (x : BitVec 64) : x &&& ~~~15#64 = (x >>> 4) <<< 4 := by
  ext i hi
  have h15 : (15#64)[i] = decide (i < 4) := by
    rw [← BitVec.getLsbD_eq_getElem hi, BitVec.getLsbD_ofNat, decide_eq_true hi, Bool.true_and]
    exact Nat.testBit_two_pow_sub_one 4 i
  rw [BitVec.getElem_and, BitVec.getElem_not, h15, BitVec.getElem_shiftLeft]
  by_cases h : i < 4
  · simp [h]
  · simp [h, Nat.add_sub_cancel' (Nat.le_of_not_lt h), BitVec.getLsbD_eq_getElem hi]

variable {m n : Nat} {mtu size : Int64}

/-- The bits of an `int` that is not negative. -/
theorem toNat_toBitVec {x : Int64} (h : x.toInt = n) : x.toBitVec.toNat = n := by
  rw [← Int64.toInt_toBitVec, BitVec.toInt_eq_toNat_cond] at h
  have hlt := x.toBitVec.isLt
  split at h
  · omega
  · omega

theorem toInt_roundUp (hsize : size.toInt = n) (hn : n < 2 ^ 62) :
    ((size + paddingMultiple - 1) &&& ~~~(paddingMultiple - 1)).toInt =
      ((n + 15) / 16 * 16 : Nat) := by
  have h16 : paddingMultiple.toInt = 16 := rfl
  have h1 : (1 : Int64).toInt = 1 := rfl
  have hadd : (size + paddingMultiple).toInt = n + 16 := by
    rw [toInt_add_of_fits (by omega) (by omega), h16, hsize]
  have hsum : (size + paddingMultiple - 1).toInt = (n + 15 : Nat) := by
    rw [toInt_sub_of_fits (by omega) (by omega), hadd, h1]
    omega
  have hbits : ((size + paddingMultiple - 1) &&& ~~~(paddingMultiple - 1)).toBitVec =
      ((size + paddingMultiple - 1).toBitVec >>> 4) <<< 4 := by
    rw [Int64.toBitVec_and]
    exact and_not_fifteen _
  have hnat : ((size + paddingMultiple - 1) &&& ~~~(paddingMultiple - 1)).toBitVec.toNat =
      (n + 15) / 16 * 16 := by
    rw [hbits, BitVec.toNat_shiftLeft, BitVec.toNat_ushiftRight, toNat_toBitVec hsum,
      Nat.shiftRight_eq_div_pow, Nat.shiftLeft_eq, Nat.mod_eq_of_lt (by omega)]
  rw [← Int64.toInt_toBitVec, BitVec.toInt_eq_toNat_of_lt (by omega), hnat]

/-- The padding of a packet that is not longer than the MTU: up to a multiple of sixteen, but
not beyond the MTU. -/
theorem calculatePaddingSize_eq (hsize : size.toInt = n)
    (hmtu : mtu.toInt = m) (hpos : 0 < m) (hle : n ≤ m) (hm : m < 2 ^ 62) :
    (calculatePaddingSize size mtu).toInt = (min ((n + 15) / 16 * 16) m - n : Nat) := by
  have hzero : mtu ≠ 0 := by
    rintro rfl
    have h0 : (0 : Int64).toInt = 0 := rfl
    omega
  have hunit : ¬ size > mtu := by
    rw [gt_iff_lt, Int64.lt_iff_toInt_lt, hsize, hmtu]
    omega
  have hround := toInt_roundUp hsize (by omega)
  unfold calculatePaddingSize
  dsimp only
  rw [if_neg hzero, if_neg hunit]
  generalize (size + paddingMultiple - 1) &&& ~~~(paddingMultiple - 1) = padded at hround ⊢
  have hpadded : (if padded > mtu then mtu else padded).toInt =
      (min ((n + 15) / 16 * 16) m : Nat) := by
    split_ifs with hgt
    · rw [gt_iff_lt, Int64.lt_iff_toInt_lt, hround, hmtu] at hgt
      rw [hmtu]
      omega
    · rw [gt_iff_lt, Int64.lt_iff_toInt_lt, hround, hmtu] at hgt
      rw [hround]
      omega
  rw [toInt_sub_of_fits (by omega) (by omega), hpadded, hsize]
  omega

theorem length_transport (keypair : Keypair) (hmtu : mtu.toInt = m)
    (hpos : 0 < m) (hm : m < 2 ^ 62) (nonce : Nat) {packet : Bytes} (hle : packet.length ≤ m) :
    (keypair.transport mtu nonce packet).length =
      32 + min ((packet.length + 15) / 16 * 16) m := by
  have hlen : (Int64.ofNat packet.length).toInt = packet.length :=
    Int64.toInt_ofNat_of_lt (by omega)
  have hpadding := calculatePaddingSize_eq hlen hmtu hpos hle hm
  have hclamp : (calculatePaddingSize (Int64.ofNat packet.length) mtu).toNatClampNeg =
      min ((packet.length + 15) / 16 * 16) m - packet.length := by
    show (calculatePaddingSize (Int64.ofNat packet.length) mtu).toInt.toNat = _
    omega
  unfold Keypair.transport toLE
  simp only [List.length_append, List.length_reverse, length_toBE, keypair.length_sealed,
    List.length_replicate, hclamp]
  omega

end Vwarp.Wireguard.Device
