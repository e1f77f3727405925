import DatabaseOperator.Json.Value

namespace DatabaseOperator

namespace Probe

def programName : String := "scalingo-operator"

def programVersion : String := "0.1.0"

structure Answer where
  status : Nat
  body : String
  deriving DecidableEq, Repr

def healthBody : Json :=
  .object [("status", .string "healthy"), ("service", .string programName),
    ("version", .string programVersion)]

def readyBody (ready : Bool) : Json :=
  .object [("status", .string (if ready then "ready" else "starting"))]

def isSchemeChar (c : Char) : Bool :=
  c.isAlphanum || c = '+' || c = '-' || c = '.'

/-- What follows the host of an absolute address, none for a text that is not one. -/
def afterHost? (cs : List Char) : Option (List Char) :=
  match cs.dropWhile isSchemeChar with
  | ':' :: '/' :: '/' :: rest => some (rest.dropWhile fun c => c ≠ '/' && c ≠ '?' && c ≠ '#')
  | _ => none

/-- The path of a target, without its query. A target is a path or an absolute address; any other
has no path. -/
def pathOf (target : String) : String :=
  let cs := target.toList
  let cs := if cs.head? = some '/' then cs else (afterHost? cs).getD []
  String.ofList (cs.takeWhile fun c => c ≠ '?' && c ≠ '#')

/-- What a probe gives when it is read. -/
def page? (ready : Bool) (target : String) : Option (Nat × Json) :=
  if pathOf target = "/health" then some (200, healthBody)
  else if pathOf target = "/ready" then some (if ready then 200 else 503, readyBody ready)
  else none

/-- A probe can be read, with its content or without. -/
def answer (ready : Bool) (method target : String) : Answer :=
  match page? ready target with
  | none => ⟨404, ""⟩
  | some (status, body) =>
    if method = "GET" then ⟨status, body.render⟩
    else if method = "HEAD" then ⟨status, ""⟩
    else ⟨405, ""⟩

end Probe

end DatabaseOperator
