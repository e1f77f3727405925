import DatabaseOperator.Json.Value

namespace DatabaseOperator

namespace Yaml

/-- Words that do not read as texts. -/
def reserved : List String :=
  ["null", "true", "false", "yes", "no", "on", "off"]

def isLetter (c : Char) : Bool :=
  c.isAlpha

/-- A text may start plain with a letter, or with a point before a letter. -/
def startsPlain : List Char → Bool
  | '.' :: c :: _ => isLetter c
  | c :: _ => isLetter c
  | [] => false

/-- Nothing inside ends a plain text or starts a comment. -/
def continuesPlain : List Char → Bool
  | [':'] => false
  | [' '] => false
  | ':' :: ' ' :: _ => false
  | ' ' :: '#' :: _ => false
  | c :: rest => 32 ≤ c.toNat && continuesPlain rest
  | [] => true

def isPlain (s : String) : Bool :=
  startsPlain s.toList && continuesPlain s.toList && !(s.toLower ∈ reserved)

def scalarText (s : String) : String :=
  if isPlain s then s
  else "'" ++ String.join (s.toList.map fun c => if c = '\x27' then "''" else String.singleton c) ++ "'"

/-- A value that takes one line. -/
def inline : Json → String
  | .string s => scalarText s
  | .array _ => "[]"
  | .object _ => "\x7b\x7d"
  | v => v.render

def isBlock : Json → Bool
  | .array items => !items.isEmpty
  | .object members => !members.isEmpty
  | _ => false

def isList : Json → Bool
  | .array _ => true
  | _ => false

def indented (lines : List String) : List String :=
  lines.map fun l => "  " ++ l

mutual

def lines : Json → List String
  | .array (v :: rest) => itemLines (v :: rest)
  | .object (m :: rest) => memberLines (m :: rest)
  | v => [inline v]

def itemLines : List Json → List String
  | [] => []
  | v :: rest =>
    (match lines v with
      | [] => []
      | l :: ls => ("- " ++ l) :: indented ls) ++ itemLines rest

def memberLines : List (String × Json) → List String
  | [] => []
  | (name, v) :: rest =>
    let below := lines v
    (if !isBlock v then [scalarText name ++ ": " ++ inline v]
      else (scalarText name ++ ":") :: if isList v then below else indented below) ++
      memberLines rest

end

/-- A document with a line end after each line. -/
def render (v : Json) : String :=
  String.join ((lines v).map fun l => l ++ "\n")

end Yaml

end DatabaseOperator
