import DatabaseOperator.Json.Binary

namespace DatabaseOperator

/-- A numeral without fraction and exponent that fits in 64 bits, signed when negative, denotes itself; every
other one denotes a binary number, given by its bits. -/
inductive Number
  | whole (n : Int)
  | binary (bits : UInt64)
  deriving DecidableEq, Repr

/-- A numeral as written: its digits before and after the point, and its exponent. -/
structure Numeral where
  negative : Bool
  digits : List Nat
  decimals : Option (List Nat)
  exponent : Option Int

namespace Number

def largest : Nat := 0xffffffffffffffff

/-- Appends digits to a number as long as it stays within 64 bits; the digits left over come with
it. -/
def appendDigits (n : Nat) : List Nat → Nat × List Nat
  | [] => (n, [])
  | d :: ds => if largest < 10 * n + d then (n, d :: ds) else appendDigits (10 * n + d) ds

/-- The binary number of a numeral. Digits that do not fit into 64 bits count only as places before
the point, and not at all after it. -/
def ofDecimal (x : Numeral) : Option Number :=
  let front := appendDigits 0 x.digits
  let decimals := x.decimals.getD []
  let back := appendDigits front.1 decimals
  let places : Int := front.2.length - (decimals.length - back.2.length)
  let exp := places + x.exponent.getD 0
  (Binary.scaleByTen (Binary.ofNat back.1) exp).map fun bits =>
    binary (UInt64.ofNat (if x.negative then Binary.signBit + bits else bits))

/-- The number of a numeral, none when it is beyond the largest binary number. -/
def ofNumeral (x : Numeral) : Option Number :=
  let front := appendDigits 0 x.digits
  if x.decimals.isSome ∨ x.exponent.isSome ∨ front.2 ≠ [] then ofDecimal x
  else if ¬ x.negative then some (whole front.1)
  else if 0 < front.1 ∧ front.1 ≤ 0x8000000000000000 then some (whole (-front.1))
  else ofDecimal x

def render : Number → String
  | whole n => toString n
  | binary bits => Binary.render bits.toNat

end Number

end DatabaseOperator
