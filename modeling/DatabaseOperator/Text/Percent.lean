import DatabaseOperator.Text.Base64

namespace DatabaseOperator

namespace Percent

def digit (n : Nat) : Char :=
  if n < 10 then Char.ofNat (48 + n) else Char.ofNat (55 + n)

def escape (b : UInt8) : List Char :=
  ['%', digit (b.toNat / 16), digit (b.toNat % 16)]

/-- Escapes every character that is not kept. -/
def encode (keep : Char → Bool) (cs : List Char) : List Char :=
  cs.flatMap fun c => if keep c then [c] else (utf8Bytes (String.singleton c)).flatMap escape

def hexDigit? (c : Char) : Option Nat :=
  if '0' ≤ c ∧ c ≤ '9' then some (c.toNat - 48)
  else if 'a' ≤ c ∧ c ≤ 'f' then some (c.toNat - 87)
  else if 'A' ≤ c ∧ c ≤ 'F' then some (c.toNat - 55)
  else none

/-- The bytes of a text with its escapes undone; a percent sign that starts no escape stands for
itself. -/
def decode : List Char → List UInt8
  | '%' :: a :: b :: rest =>
    match hexDigit? a, hexDigit? b with
    | some x, some y => UInt8.ofNat (16 * x + y) :: decode rest
    | _, _ => utf8Bytes "%" ++ decode (a :: b :: rest)
  | c :: rest => utf8Bytes (String.singleton c) ++ decode rest
  | [] => []

/-- The characters that need no escape in the path of an address. -/
def keptInPath (c : Char) : Bool :=
  0x20 < c.toNat && c.toNat < 0x7f && !(c ∈ ['"', '#', '<', '>', '?', '^', '\x60', '\x7b', '\x7d'])

/-- The characters that need no escape in the query of an address. -/
def keptInQuery (c : Char) : Bool :=
  0x20 < c.toNat && c.toNat < 0x7f && !(c ∈ ['"', '#', '<', '>', '\x27'])

/-- A byte in a form: letters, digits and four marks stand for themselves, a blank is a plus sign. -/
def formByte (b : UInt8) : List Char :=
  let c := Char.ofNat b.toNat
  if c.isAlphanum ∨ c = '*' ∨ c = '-' ∨ c = '.' ∨ c = '_' then [c]
  else if c = ' ' then ['+']
  else escape b

def form (s : String) : String :=
  String.ofList ((utf8Bytes s).flatMap formByte)

end Percent

end DatabaseOperator
