import DatabaseOperator.Text.Blank
import DatabaseOperator.Text.Natural

namespace DatabaseOperator

def isLeapYear (year : Int) : Bool :=
  year % 4 = 0 && (year % 100 ≠ 0 || year % 400 = 0)

def daysInMonth (year : Int) (month : Nat) : Nat :=
  if month = 2 then if isLeapYear year then 29 else 28
  else if month = 4 ∨ month = 6 ∨ month = 9 ∨ month = 11 then 30
  else 31

/-- The years a date can have. -/
def firstYear : Int := -262143

def lastYear : Int := 262142

structure Date where
  year : Int
  month : Nat
  day : Nat
  deriving DecidableEq, Repr

def Date.Valid (d : Date) : Prop :=
  firstYear ≤ d.year ∧ d.year ≤ lastYear ∧ 1 ≤ d.month ∧ d.month ≤ 12 ∧ 1 ≤ d.day ∧
    d.day ≤ daysInMonth d.year d.month

instance (d : Date) : Decidable d.Valid := by
  unfold Date.Valid; infer_instance

def Date.next (d : Date) : Date :=
  if d.day < daysInMonth d.year d.month then ⟨d.year, d.month, d.day + 1⟩
  else if d.month < 12 then ⟨d.year, d.month + 1, 1⟩
  else ⟨d.year + 1, 1, 1⟩

def Date.previous (d : Date) : Date :=
  if 1 < d.day then ⟨d.year, d.month, d.day - 1⟩
  else if 1 < d.month then ⟨d.year, d.month - 1, daysInMonth d.year (d.month - 1)⟩
  else ⟨d.year - 1, 12, 31⟩

def daySeconds : Nat := 86400

/-- The nanoseconds of a second. -/
def secondNanos : Nat := 1000000000

/-- A moment in UTC: its date, its second in the day and the nanoseconds since. A leap second counts
as the second before it with twice the nanoseconds. -/
structure Time where
  date : Date
  second : Nat
  nanos : Nat
  date_valid : date.Valid
  second_lt : second < daySeconds
  nanos_lt : nanos < 2 * secondNanos
  deriving DecidableEq

namespace Time

def epoch : Time :=
  ⟨⟨1970, 1, 1⟩, 0, 0, by decide, by decide, by decide⟩

instance : Inhabited Time := ⟨epoch⟩

/-- A number in at least so many digits. -/
def padded (width n : Nat) : String :=
  let digits := toString n
  String.ofList (List.replicate (width - digits.length) '0') ++ digits

def yearText (year : Int) : String :=
  if year < 0 then "-" ++ padded 4 year.natAbs
  else if year ≤ 9999 then padded 4 year.natAbs
  else "+" ++ padded 4 year.natAbs

/-- The second of the minute, 60 for a leap second. -/
def secondOfMinute (t : Time) : Nat :=
  if t.nanos < secondNanos then t.second % 60 else t.second % 60 + 1

def render (t : Time) : String :=
  yearText t.date.year ++ "-" ++ padded 2 t.date.month ++ "-" ++ padded 2 t.date.day ++ "T" ++
    padded 2 (t.second / 3600) ++ ":" ++ padded 2 (t.second / 60 % 60) ++ ":" ++
    padded 2 t.secondOfMinute ++ "Z"

/-- A run of at most `width` digits, of any length without a width, and what follows it. -/
def takeDigits (width : Option Nat) : List Char → List Nat × List Char
  | [] => ([], [])
  | c :: rest =>
    match width, digitValue? c with
    | some 0, _ => ([], c :: rest)
    | _, none => ([], c :: rest)
    | w, some d =>
      let r := takeDigits (w.map (· - 1)) rest
      (d :: r.1, r.2)

/-- A number of one digit or more after blanks. -/
def readNumber (width : Option Nat) (cs : List Char) : Option (Nat × List Char) :=
  match takeDigits width cs with
  | ([], _) => none
  | (ds, rest) => some (ds.foldl (fun n d => 10 * n + d) 0, rest)

/-- A year of up to four digits, or of any number of digits after a sign. -/
def readYear (cs : List Char) : Option (Int × List Char) :=
  match skipBlanks cs with
  | '-' :: rest => (readNumber none rest).map fun (n, rest) => (-(n : Int), rest)
  | '+' :: rest => (readNumber none rest).map fun (n, rest) => ((n : Int), rest)
  | rest => (readNumber (some 4) rest).map fun (n, rest) => ((n : Int), rest)

def readPair (cs : List Char) : Option (Nat × List Char) :=
  readNumber (some 2) (skipBlanks cs)

def readMark (mark : Char) (cs : List Char) : Option (List Char) :=
  match skipBlanks cs with
  | c :: rest => if c = mark then some rest else none
  | [] => none

/-- Nanoseconds after a point, of which nine digits count. -/
def readFraction : List Char → Option (Nat × List Char)
  | '.' :: rest =>
    match takeDigits (some 9) rest with
    | ([], _) => none
    | (ds, rest) =>
      some (ds.foldl (fun n d => 10 * n + d) 0 * Nat.pow 10 (9 - ds.length),
        rest.dropWhile fun c => (digitValue? c).isSome)
  | cs => some (0, cs)

/-- Minutes east of UTC. -/
def readShift : List Char → Option (Int × List Char)
  | sign :: a :: b :: rest => do
    let factor : Int ←
      if sign = '+' then some 1 else if sign = '-' ∨ sign = '\u2212' then some (-1) else none
    let a ← digitValue? a
    let b ← digitValue? b
    match rest.dropWhile fun c => c = ':' || isBlank c with
    | c :: d :: rest => do
      let c ← digitValue? c
      let d ← digitValue? d
      if c ≤ 5 then some (factor * ((10 * a + b) * 60 + (10 * c + d)), rest) else none
    | _ => none
  | _ => none

def readOffset (cs : List Char) : Option (Int × List Char) :=
  match skipBlanks cs with
  | c :: rest =>
    if c.toLower = 'z' then some (0, rest)
    else if ((c :: rest).take 3).map Char.toLower = ['u', 't', 'c'] then some (0, rest.drop 2)
    else readShift (c :: rest)
  | [] => none

/-- A moment given by its parts, so many minutes ahead of UTC. -/
def ofParts (date : Date) (hour minute second nanos : Nat) (shift : Int) : Option Time :=
  if date.Valid ∧ hour < 24 ∧ minute < 60 ∧ second ≤ 60 ∧ nanos < secondNanos ∧
      -1440 < shift ∧ shift < 1440 then
    let leap := second = 60
    let seconds : Int := (hour * 60 + minute : Nat) * 60 + (if leap then 59 else second : Nat) -
      shift * 60
    let nanos := if leap then nanos + secondNanos else nanos
    let (date, seconds) :=
      if seconds < 0 then (date.previous, seconds + daySeconds)
      else if (daySeconds : Int) ≤ seconds then (date.next, seconds - daySeconds)
      else (date, seconds)
    if h : date.Valid ∧ seconds.toNat < daySeconds ∧ nanos < 2 * secondNanos then
      some ⟨date, seconds.toNat, nanos, h.1, h.2.1, h.2.2⟩
    else none
  else none

def read (text : String) : Option Time := do
  let (year, cs) ← readYear text.toList
  let cs ← readMark '-' cs
  let (month, cs) ← readPair cs
  let cs ← readMark '-' cs
  let (day, cs) ← readPair cs
  let cs ←
    match cs with
    | c :: rest => if c = 'T' ∨ c = 't' ∨ c = ' ' then some rest else none
    | [] => none
  let (hour, cs) ← readPair cs
  let cs ← readMark ':' cs
  let (minute, cs) ← readPair cs
  let cs ← readMark ':' cs
  let (second, cs) ← readPair cs
  let (nanos, cs) ← readFraction cs
  let (shift, cs) ← readOffset cs
  if (skipBlanks cs).isEmpty then ofParts ⟨year, month, day⟩ hour minute second nanos shift
  else none

end Time

end DatabaseOperator
