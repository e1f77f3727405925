import DatabaseOperator.Text.Natural
import DatabaseOperator.Text.Percent

namespace DatabaseOperator

structure Url where
  origin : String
  segments : List String
  query : Option String
  deriving DecidableEq, Repr

namespace Url

/-- Control characters and the blank, which are dropped at both ends. -/
def isEdge (c : Char) : Bool :=
  c.toNat ≤ 0x20

def isBreak (c : Char) : Bool :=
  c = '\t' || c = '\n' || c = '\r'

/-- The text that is read. -/
def tidy (cs : List Char) : List Char :=
  let cs := cs.dropWhile isEdge
  let cs := (cs.reverse.dropWhile isEdge).reverse
  cs.filter fun c => !isBreak c

def isSlash (c : Char) : Bool :=
  c = '/' || c = '\\'

def lower (cs : List Char) : List Char :=
  cs.map Char.toLower

/-- What follows `http:` or `https:`, with that scheme. -/
def readScheme (cs : List Char) : Option (String × List Char) :=
  let scheme := lower (cs.takeWhile (· ≠ ':'))
  if scheme = "http".toList ∨ scheme = "https".toList then
    match cs.dropWhile (· ≠ ':') with
    | _ :: rest => some (String.ofList scheme, rest)
    | [] => none
  else none

/-- A character that no name of a host can have. -/
def isForbiddenInHost (c : Char) : Bool :=
  c.toNat ≤ 0x20 || c.toNat = 0x7f || c ∈ ['#', '%', '/', ':', '<', '>', '?', '@', '[', '\\', ']', '^', '|']

def isHost (cs : List Char) : Bool :=
  match cs with
  | [] => false
  | '[' :: rest =>
    rest.getLast? = some ']' &&
      rest.dropLast.all fun c => c = ':' || c = '.' || (Percent.hexDigit? c).isSome
  | _ => !cs.any isForbiddenInHost

def isPort (cs : List Char) : Bool :=
  match cs with
  | [] => true
  | '+' :: _ => false
  | _ => (readNatural limit16 cs).toOption.isSome

/-- What follows the last colon outside brackets is a port. -/
def splitPort (cs : List Char) : List Char × List Char :=
  let tail := (cs.reverse.takeWhile fun c => c ≠ ':' && c ≠ ']').reverse
  let head := cs.take (cs.length - tail.length)
  if head.getLast? = some ':' then (head.dropLast, tail) else (cs, [])

/-- The host and the port of an authority, in which a user may come before the last at sign. -/
def readAuthority (cs : List Char) : Option String :=
  let named := (cs.reverse.takeWhile (· ≠ '@')).reverse
  let (host, port) := splitPort named
  if isHost host && isPort port then
    some (String.ofList (lower host ++ if port.isEmpty then [] else ':' :: port))
  else none

/-- A segment with escaped dots as dots. -/
def plainDots : List Char → List Char
  | '%' :: '2' :: e :: rest => if e = 'e' ∨ e = 'E' then '.' :: plainDots rest
    else '%' :: '2' :: e :: plainDots rest
  | c :: rest => c :: plainDots rest
  | [] => []

def isSingleDot (cs : List Char) : Bool :=
  plainDots cs = ['.']

def isDoubleDot (cs : List Char) : Bool :=
  plainDots cs = ['.', '.']

/-- Text cut at every slash. -/
def splitSlashes : List Char → List (List Char)
  | [] => [[]]
  | c :: rest =>
    if isSlash c then [] :: splitSlashes rest
    else
      match splitSlashes rest with
      | [] => [[c]]
      | s :: ss => (c :: s) :: ss

/-- The segments of a path, the ones read so far last first. A dot segment at the end leaves an empty
one. -/
def resolve (path : List String) : List (List Char) → List String
  | [] => path.reverse
  | s :: rest =>
    let last := rest.isEmpty
    if isDoubleDot s then resolve (if last then "" :: path.drop 1 else path.drop 1) rest
    else if isSingleDot s then resolve (if last then "" :: path else path) rest
    else resolve (String.ofList (Percent.encode Percent.keptInPath s) :: path) rest

def readPath (cs : List Char) : List String :=
  let cs :=
    match cs with
    | c :: rest => if isSlash c then rest else c :: rest
    | [] => []
  resolve [] (splitSlashes cs)

/-- Reads an address as a browser does. The fragment is dropped, and dot segments are resolved. -/
def parse (text : String) : Option Url := do
  let cs := tidy text.toList
  let cs := cs.takeWhile (· ≠ '#')
  let (scheme, cs) ← readScheme cs
  let cs := cs.dropWhile isSlash
  let authority ← readAuthority (cs.takeWhile fun c => !isSlash c && c ≠ '?')
  let cs := cs.dropWhile fun c => !isSlash c && c ≠ '?'
  let path := cs.takeWhile (· ≠ '?')
  let query :=
    match cs.dropWhile (· ≠ '?') with
    | _ :: q => some (String.ofList (Percent.encode Percent.keptInQuery q))
    | [] => none
  some ⟨scheme ++ "://" ++ authority, readPath path, query⟩

/-- Appends a parameter to the query. -/
def withParameter (u : Url) (name value : String) : Url :=
  let pair := Percent.form name ++ "=" ++ Percent.form value
  match u.query with
  | none => { u with query := some pair }
  | some q => { u with query := some (if q.isEmpty then pair else q ++ "&" ++ pair) }

/-- The path and the query as they are sent. -/
def target (u : Url) : String :=
  "/" ++ "/".intercalate u.segments ++
    match u.query with
    | none => ""
    | some q => "?" ++ q

end Url

end DatabaseOperator
