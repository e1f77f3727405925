import DatabaseOperator.Dictionary
import DatabaseOperator.Json.Number
import DatabaseOperator.Text.Quoted

namespace DatabaseOperator

/-- A JSON value. What is well formed as a text but has no value is `unreadable`: a numeral that is
too large, a string or a member name with half of a surrogate pair, a nesting beyond the limit. -/
inductive Json
  | null
  | bool (b : Bool)
  | number (n : Number)
  | string (s : String)
  | array (items : List Json)
  | object (members : List (String × Json))
  | unreadable

namespace Json

instance : Inhabited Json := ⟨null⟩

def ofInt (n : Int) : Json :=
  number (.whole n)

def escaped (c : Char) : String :=
  if c = '"' then "\\\""
  else if c = '\\' then "\\\\"
  else if c = '\n' then "\\n"
  else if c = '\r' then "\\r"
  else if c = '\t' then "\\t"
  else if c = '\x08' then "\\b"
  else if c = '\x0c' then "\\f"
  else if c.toNat < 16 then "\\u000" ++ hexDigits c.toNat
  else if c.toNat < 32 then "\\u00" ++ hexDigits c.toNat
  else String.singleton c

def renderString (s : String) : String :=
  "\"" ++ String.join (s.toList.map escaped) ++ "\""

mutual

/-- The text of a value without blanks. -/
def render : Json → String
  | null => "null"
  | bool true => "true"
  | bool false => "false"
  | number n => n.render
  | string s => renderString s
  | array items => "[" ++ ",".intercalate (renderItems items) ++ "]"
  | object members => "\x7b" ++ ",".intercalate (renderMembers members) ++ "\x7d"
  | unreadable => "null"

def renderItems : List Json → List String
  | [] => []
  | v :: rest => v.render :: renderItems rest

def renderMembers : List (String × Json) → List String
  | [] => []
  | (name, v) :: rest => (renderString name ++ ":" ++ v.render) :: renderMembers rest

end

mutual

/-- The value with the members of each object in the order of their names, the last one of a
repeated name; none when a part of it is unreadable. -/
def settled : Json → Option Json
  | array items => (settledItems items).map array
  | object members =>
    (settledMembers members).map fun ms => object (Dictionary.ofList ms).entries
  | unreadable => none
  | v => some v

def settledItems : List Json → Option (List Json)
  | [] => some []
  | v :: rest => do
    let w ← v.settled
    let ws ← settledItems rest
    some (w :: ws)

def settledMembers : List (String × Json) → Option (List (String × Json))
  | [] => some []
  | (name, v) :: rest => do
    let w ← v.settled
    let ws ← settledMembers rest
    some ((name, w) :: ws)

end

/-- Members that are left out when absent. -/
def present (name : String) (v : Option Json) : List (String × Json) :=
  match v with
  | none => []
  | some v => [(name, v)]

/-- A text member that is left out when empty. -/
def nonEmpty (name : String) (s : String) : List (String × Json) :=
  if s.isEmpty then [] else [(name, string s)]

end Json

end DatabaseOperator
