import DatabaseOperator.Text.Natural

namespace DatabaseOperator

inductive Command
  | run (healthPort : Option Nat)
  | crd
  deriving DecidableEq, Repr

/-- Why the arguments name no command to carry out. -/
inductive UsageFault
  | helpWanted
  | versionWanted
  | missingCommand
  | unknownCommand
  | unknownArgument
  | missingValue
  | surplusValue
  | badValue
  | repeatedOption
  deriving DecidableEq, Repr

namespace CommandLine

def commandNames : List String :=
  ["run", "crd", "help"]

/-- A port may have a minus sign only if it is zero. -/
def readPort (text : String) : Except UsageFault Nat :=
  match text.toList with
  | '-' :: d :: ds => if (d :: ds).all (· = '0') then .ok 0 else .error .badValue
  | cs =>
    match readNatural limit16 cs with
    | .ok n => .ok n
    | .error _ => .error .badValue

/-- What an argument looks like. -/
inductive Shape
  | escape
  | long (name : String) (value : Option String)
  | short (flag : Char)
  | plain

def splitAtEquals (cs : List Char) : String × Option String :=
  let name := cs.takeWhile (· ≠ '=')
  match cs.dropWhile (· ≠ '=') with
  | [] => (String.ofList name, none)
  | _ :: value => (String.ofList name, some (String.ofList value))

def shape (arg : String) : Shape :=
  match arg.toList with
  | ['-', '-'] => .escape
  | '-' :: '-' :: cs =>
    let s := splitAtEquals cs
    .long s.1 s.2
  | '-' :: c :: _ => .short c
  | _ => .plain

/-- The port option while arguments are read: the port that is settled, and the value that waits to
be, which is still missing at first. -/
structure PortOption where
  port : Option Nat
  waiting : Option (Option String)

namespace PortOption

def start : PortOption :=
  ⟨none, none⟩

def settle (o : PortOption) : Except UsageFault (Option Nat) :=
  match o.waiting with
  | none => .ok o.port
  | some none => .error .missingValue
  | some (some text) =>
    if o.port.isSome then .error .repeatedOption else (readPort text).map some

/-- Refuses what is settled before the fault. -/
def fail (o : PortOption) (fault : UsageFault) : Except UsageFault Command := do
  let _ ← o.settle
  throw fault

end PortOption

def parseRun (o : PortOption) : List String → Except UsageFault Command
  | [] => do
    let port ← o.settle
    pure (.run port)
  | arg :: rest =>
    match shape arg with
    | .escape =>
      match rest with
      | [] => do
        let port ← o.settle
        pure (.run port)
      | _ => .error .unknownArgument
    | .long name value =>
      if name = "health-port" then do
        let port ← o.settle
        match value with
        | none => parseRun ⟨port, some none⟩ rest
        | some text => do
          let port ← PortOption.settle ⟨port, some (some text)⟩
          parseRun ⟨port, none⟩ rest
      else if name = "help" then
        if value.isSome then .error .surplusValue else o.fail .helpWanted
      else .error .unknownArgument
    | .short flag => if flag = 'h' then o.fail .helpWanted else .error .unknownArgument
    | .plain =>
      match o.waiting with
      | some none => parseRun ⟨o.port, some (some arg)⟩ rest
      | _ => .error .unknownArgument

def parseCrd : List String → Except UsageFault Command
  | [] => .ok .crd
  | arg :: rest =>
    match shape arg with
    | .escape => if rest.isEmpty then .ok .crd else .error .unknownArgument
    | .long name value =>
      if name = "help" then
        if value.isSome then .error .surplusValue else .error .helpWanted
      else .error .unknownArgument
    | .short flag => if flag = 'h' then .error .helpWanted else .error .unknownArgument
    | .plain => .error .unknownArgument

/-- Help is given on the program and on each of its commands. -/
def parseHelp : List String → Except UsageFault Command
  | [] => .error .helpWanted
  | [arg] => .error (if arg ∈ commandNames then .helpWanted else .unknownCommand)
  | _ => .error .unknownCommand

def parse : List String → Except UsageFault Command
  | [] => .error .missingCommand
  | arg :: rest =>
    if arg = "run" then parseRun .start rest
    else if arg = "crd" then parseCrd rest
    else if arg = "help" then parseHelp rest
    else
      match shape arg with
      | .escape =>
        match rest with
        | [] => .error .missingCommand
        | next :: _ =>
          .error (if next ∈ commandNames then .unknownArgument else .unknownCommand)
      | .long name value =>
        if name = "help" ∨ name = "version" then
          if value.isSome then .error .surplusValue
          else .error (if name = "help" then .helpWanted else .versionWanted)
        else .error .unknownArgument
      | .short flag =>
        if flag = 'h' then .error .helpWanted
        else if flag = 'V' then .error .versionWanted
        else .error .unknownArgument
      | .plain => .error .unknownCommand

end CommandLine

end DatabaseOperator
