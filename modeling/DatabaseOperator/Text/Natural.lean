namespace DatabaseOperator

/-- Why a text is not the numeral of a number within the limit. -/
inductive NumeralFault
  | empty
  | invalidDigit
  | tooLarge
  deriving DecidableEq, Repr

def NumeralFault.message : NumeralFault → String
  | .empty => "cannot parse integer from empty string"
  | .invalidDigit => "invalid digit found in string"
  | .tooLarge => "number too large to fit in target type"

/-- The value of an ASCII digit. -/
def digitValue? (c : Char) : Option Nat :=
  if '0' ≤ c ∧ c ≤ '9' then some (c.toNat - '0'.toNat) else none

/-- Reads digits after those that denote `n`. At each character a wrong digit is reported before an
exceeded limit, and what follows the first fault is not looked at. -/
def readDigits (limit : Nat) (n : Nat) : List Char → Except NumeralFault Nat
  | [] => .ok n
  | c :: rest =>
    match digitValue? c with
    | none => .error .invalidDigit
    | some d => if limit < 10 * n + d then .error .tooLarge else readDigits limit (10 * n + d) rest

def readNatural (limit : Nat) : List Char → Except NumeralFault Nat
  | [] => .error .empty
  | ['+'] => .error .invalidDigit
  | '+' :: rest => readDigits limit 0 rest
  | cs => readDigits limit 0 cs

/-- The limits of numbers of 16 and of 64 bits. -/
def limit16 : Nat := 0xffff

def limit64 : Nat := 0xffffffffffffffff

end DatabaseOperator
