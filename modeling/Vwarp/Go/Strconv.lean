import Vwarp.Go.Strings

/-!
# `strconv`: decimal numbers

`Atoi` accepts a sign and any `int`; `ParseUint` accepts no sign and a bounded
value.  The modelled code validates a port with the one and reads it with the
other, so the difference is kept.
-/

namespace Vwarp.Go

def ch (c : Char) : UInt8 := c.toNat.toUInt8

def digit? (c : UInt8) : Option Nat :=
  if ch '0' ≤ c ∧ c ≤ ch '9' then some (c.toNat - (ch '0').toNat) else none

/-- The value of a string of decimal digits, read after the value `n`. -/
def decimalFrom (n : Nat) : Bytes → Option Nat
  | [] => some n
  | c :: cs => (digit? c).bind fun d ↦ decimalFrom (n * 10 + d) cs

/-- The value of a non-empty string of decimal digits. -/
def decimal (s : Bytes) : Option Nat := if s = [] then none else decimalFrom 0 s

/-- `strconv.Atoi`; `none` is an error. -/
def atoi (s : Bytes) : Option Int :=
  match s with
  | [] => none
  | c :: cs =>
    let neg := c = ch '-'
    let digits := if neg ∨ c = ch '+' then cs else s
    (decimal digits).bind fun n ↦
      if neg then if n ≤ 2 ^ 63 then some (-n) else none
      else if n < 2 ^ 63 then some n else none

/-- `strconv.ParseUint(s, 10, bitSize)`; `none` is an error. -/
def parseUint (s : Bytes) (bitSize : Nat) : Option Nat :=
  (decimal s).bind fun n ↦ if n < 2 ^ bitSize then some n else none

/-- `strconv.Itoa` of a number that is not negative. -/
def itoa (n : Nat) : Bytes := (Nat.toDigits 10 n).map ch

/-- An `int` in decimal, as `%d` writes it. -/
def formatInt (n : Int64) : Bytes :=
  if n < 0 then ch '-' :: itoa n.toInt.natAbs else itoa n.toInt.natAbs

end Vwarp.Go
