import DatabaseOperator.Text.Quoted

namespace DatabaseOperator

def redacted : String := "[REDACTED]"

/-- A connection string under the name that the provider gives it. -/
structure ConnectionUrl where
  name : String
  value : String
  deriving DecidableEq

namespace ConnectionUrl

def text (u : ConnectionUrl) : String :=
  "\x7b Name: " ++ u.name ++ ", Value: " ++ redacted ++ " \x7d"

def shownFields (u : ConnectionUrl) : List (String × String) :=
  [("name", quoted u.name), ("value", quoted redacted)]

end ConnectionUrl

/-- One key of a secret in a namespace. -/
structure Secret where
  namespaceName : String
  name : String
  key : String
  value : String
  deriving DecidableEq

namespace Secret

def text (s : Secret) : String :=
  "\x7b Namespace: " ++ s.namespaceName ++ ", Name: " ++ s.name ++ ", Key: " ++ s.key ++
    ", Value: " ++ redacted ++ " \x7d"

def shownFields (s : Secret) : List (String × String) :=
  [("namespace", quoted s.namespaceName), ("name", quoted s.name), ("key", quoted s.key),
    ("value", quoted redacted)]

end Secret

/-- The key of the connection string: the declared name with an ending, or the name that the provider
uses when none is declared. -/
def connectionKey (declared provided : String) : String :=
  if declared.isEmpty then provided else declared ++ "_URL"

end DatabaseOperator
