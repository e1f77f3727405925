import DatabaseOperator.Text.Hidden

namespace DatabaseOperator

/-- The digits of a number in lower case hexadecimal. -/
def hexDigits (n : Nat) : String :=
  String.ofList (Nat.toDigits 16 n)

def quotedChar (c : Char) : String :=
  if c = '\x00' then "\\0"
  else if c = '\t' then "\\t"
  else if c = '\r' then "\\r"
  else if c = '\n' then "\\n"
  else if c = '"' then "\\\""
  else if c = '\\' then "\\\\"
  else if isHidden c then "\\u\x7b" ++ hexDigits c.toNat ++ "\x7d"
  else String.singleton c

def quoted (s : String) : String :=
  "\"" ++ String.join (s.toList.map quotedChar) ++ "\""

/-- A record on one line. -/
def recordLine (name : String) (fields : List (String × String)) : String :=
  name ++ " \x7b " ++ ", ".intercalate (fields.map fun f => f.1 ++ ": " ++ f.2) ++ " \x7d"

/-- A record with each field on a line of its own. -/
def recordBlock (name : String) (fields : List (String × String)) : String :=
  name ++ " \x7b\n" ++ String.join (fields.map fun f => "    " ++ f.1 ++ ": " ++ f.2 ++ ",\n") ++
    "\x7d"

end DatabaseOperator
