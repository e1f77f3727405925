import DatabaseOperator.Json.Value
import DatabaseOperator.Text.Natural

namespace DatabaseOperator

namespace Json

/-- How deep arrays and objects can be in each other. -/
def depthLimit : Nat := 127

def isGap (c : Char) : Bool :=
  c = ' ' || c = '\n' || c = '\t' || c = '\r'

def skipGaps (cs : List Char) : List Char :=
  cs.dropWhile isGap

def hexValue? (c : Char) : Option Nat :=
  if '0' ≤ c ∧ c ≤ '9' then some (c.toNat - 48)
  else if 'a' ≤ c ∧ c ≤ 'f' then some (c.toNat - 87)
  else if 'A' ≤ c ∧ c ≤ 'F' then some (c.toNat - 55)
  else none

def hexUnit? (a b c d : Char) : Option Nat := do
  let a ← hexValue? a
  let b ← hexValue? b
  let c ← hexValue? c
  let d ← hexValue? d
  some (((a * 16 + b) * 16 + c) * 16 + d)

def plainEscape? (c : Char) : Option Char :=
  if c = '"' then some '"'
  else if c = '\\' then some '\\'
  else if c = '/' then some '/'
  else if c = 'b' then some '\x08'
  else if c = 'f' then some '\x0c'
  else if c = 'n' then some '\n'
  else if c = 'r' then some '\r'
  else if c = 't' then some '\t'
  else none

/-- A part of a string: a character, or half of a surrogate pair. -/
inductive Unit16
  | char (c : Char)
  | high (n : Nat)
  | low (n : Nat)

def Unit16.ofNat (n : Nat) : Unit16 :=
  if 0xd800 ≤ n ∧ n < 0xdc00 then .high n
  else if 0xdc00 ≤ n ∧ n < 0xe000 then .low n
  else .char (Char.ofNat n)

/-- Joins the halves of surrogate pairs; none when a half stands alone. -/
def joinUnits : List Unit16 → Option (List Char)
  | [] => some []
  | .char c :: rest => (joinUnits rest).map (c :: ·)
  | .high h :: .low l :: rest =>
    (joinUnits rest).map (Char.ofNat ((h - 0xd800) * 0x400 + (l - 0xdc00) + 0x10000) :: ·)
  | .high _ :: _ => none
  | .low _ :: _ => none

/-- The units of a string after its opening quote, last first, and what follows its closing
quote. -/
def scanString (acc : List Unit16) : List Char → Option (List Unit16 × List Char)
  | [] => none
  | '"' :: rest => some (acc, rest)
  | '\\' :: 'u' :: a :: b :: c :: d :: rest =>
    match hexUnit? a b c d with
    | none => none
    | some n => scanString (Unit16.ofNat n :: acc) rest
  | '\\' :: e :: rest =>
    match plainEscape? e with
    | none => none
    | some c => scanString (.char c :: acc) rest
  | c :: rest => if c.toNat < 32 ∨ c = '\\' then none else scanString (.char c :: acc) rest

/-- The characters of a string, none for one with half of a surrogate pair, and the rest. -/
def readString (cs : List Char) : Option (Option String × List Char) :=
  (scanString [] cs).map fun (units, rest) =>
    ((joinUnits units.reverse).map String.ofList, rest)

/-- A run of digits and what follows it. -/
def readRun : List Char → List Nat × List Char
  | [] => ([], [])
  | c :: rest =>
    match digitValue? c with
    | none => ([], c :: rest)
    | some d =>
      let r := readRun rest
      (d :: r.1, r.2)

def ofDigits (ds : List Nat) : Nat :=
  ds.foldl (fun n d => 10 * n + d) 0

def readExponent : List Char → Option (Option Int × List Char)
  | c :: rest =>
    if c = 'e' ∨ c = 'E' then
      let (negative, rest) :=
        match rest with
        | '+' :: r => (false, r)
        | '-' :: r => (true, r)
        | r => (false, r)
      match readRun rest with
      | ([], _) => none
      | (ds, rest) =>
        let n : Int := ofDigits ds
        some (some (if negative then -n else n), rest)
    else some (none, c :: rest)
  | [] => some (none, [])

def readDecimals : List Char → Option (Option (List Nat) × List Char)
  | '.' :: rest =>
    match readRun rest with
    | ([], _) => none
    | (ds, rest) => some (some ds, rest)
  | cs => some (none, cs)

/-- A numeral: no zero before other digits, and a digit on both sides of a point. -/
def readNumeral (cs : List Char) : Option (Numeral × List Char) := do
  let (negative, cs) :=
    match cs with
    | '-' :: rest => (true, rest)
    | cs => (false, cs)
  let (digits, cs) ←
    match readRun cs with
    | ([], _) => none
    | (0 :: _ :: _, _) => none
    | (ds, rest) => some (ds, rest)
  let (decimals, cs) ← readDecimals cs
  let (exponent, cs) ← readExponent cs
  some (⟨negative, digits, decimals, exponent⟩, cs)

def readWord (word : List Char) (v : Json) (cs : List Char) : Option (Json × List Char) :=
  if word.isPrefixOf cs then some (v, cs.drop word.length) else none

/-- Members with their names, or unreadable when a name is. -/
def ofMembers (members : List (Option String × Json)) : Json :=
  match members.mapM fun m => m.1.map fun name => (name, m.2) with
  | none => unreadable
  | some ms => object ms

mutual

def readValue (depth : Nat) : Nat → List Char → Option (Json × List Char)
  | 0, _ => none
  | fuel + 1, cs =>
    match cs with
    | '\x7b' :: rest =>
      match skipGaps rest with
      | '\x7d' :: rest => some (if depth < depthLimit then object [] else unreadable, rest)
      | rest => do
        let (members, rest) ← readMembers (depth + 1) [] fuel rest
        some (if depth < depthLimit then ofMembers members else unreadable, rest)
    | '[' :: rest =>
      match skipGaps rest with
      | ']' :: rest => some (if depth < depthLimit then array [] else unreadable, rest)
      | rest => do
        let (items, rest) ← readItems (depth + 1) [] fuel rest
        some (if depth < depthLimit then array items else unreadable, rest)
    | '"' :: rest => do
      let (s, rest) ← readString rest
      some ((s.map string).getD unreadable, rest)
    | 'n' :: _ => readWord "null".toList null cs
    | 't' :: _ => readWord "true".toList (bool true) cs
    | 'f' :: _ => readWord "false".toList (bool false) cs
    | _ => do
      let (n, rest) ← readNumeral cs
      some (((Number.ofNumeral n).map number).getD unreadable, rest)

/-- The items of an array up to its end; those read before stand in `acc`, last first. -/
def readItems (depth : Nat) (acc : List Json) : Nat → List Char → Option (List Json × List Char)
  | 0, _ => none
  | fuel + 1, cs =>
    match readValue depth fuel cs with
    | none => none
    | some (v, rest) =>
      match skipGaps rest with
      | ']' :: rest => some ((v :: acc).reverse, rest)
      | ',' :: rest => readItems depth (v :: acc) fuel (skipGaps rest)
      | _ => none

def readMembers (depth : Nat) (acc : List (Option String × Json)) :
    Nat → List Char → Option (List (Option String × Json) × List Char)
  | 0, _ => none
  | fuel + 1, cs =>
    match cs with
    | '"' :: rest =>
      match readString rest with
      | none => none
      | some (name, rest) =>
        match skipGaps rest with
        | ':' :: rest =>
          match readValue depth fuel (skipGaps rest) with
          | none => none
          | some (v, rest) =>
            match skipGaps rest with
            | '\x7d' :: rest => some (((name, v) :: acc).reverse, rest)
            | ',' :: rest => readMembers depth ((name, v) :: acc) fuel (skipGaps rest)
            | _ => none
        | _ => none
    | _ => none

end

/-- The value of a text, none when the text is not well formed. -/
def read (text : String) : Option Json :=
  let cs := skipGaps text.toList
  match readValue 0 (cs.length + 1) cs with
  | some (v, rest) => if (skipGaps rest).isEmpty then some v else none
  | none => none

end Json

end DatabaseOperator
