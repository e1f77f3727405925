namespace DatabaseOperator

namespace Binary

def infinity : Nat := 0x7ff0000000000000

def signBit : Nat := 0x8000000000000000

/-- The least `m` of a number with all its digits, `2 ^ 52`. -/
def leading : Nat := 0x10000000000000

/-- The fraction `n * 2 ^ q / d`. -/
structure Fraction where
  num : Nat
  den : Nat

def Fraction.scale (f : Fraction) (q : Int) : Fraction :=
  if 0 ≤ q then ⟨f.num <<< q.toNat, f.den⟩ else ⟨f.num, f.den <<< (-q).toNat⟩

def Fraction.floor (f : Fraction) : Nat :=
  f.num / f.den

/-- The nearest natural number, the even one of two. -/
def Fraction.round (f : Fraction) : Nat :=
  let n := f.num / f.den
  let r := f.num % f.den
  if 2 * r < f.den then n
  else if f.den < 2 * r then n + 1
  else if n % 2 = 0 then n else n + 1

/-- The bits of the number nearest to a positive fraction, infinity when it is too large. -/
def nearest (f : Fraction) : Nat :=
  if f.num = 0 then 0
  else
    let size : Int := (f.num.log2 : Int) - (f.den.log2 : Int)
    let low := max (size - 53) (-1074)
    let exp := if 2 * leading ≤ (f.scale (-low)).floor then low + 1 else low
    let bits : Nat := (exp + 1074).toNat * leading + (f.scale (-exp)).round
    if bits < infinity then bits else infinity

/-- The `m` and `q` of the bits of a number that is not negative. -/
def parts (bits : Nat) : Nat × Int :=
  let exp := bits / leading
  let low := bits % leading
  if exp = 0 then (low, -1074) else (leading + low, (exp : Int) - 1075)

def value (bits : Nat) : Fraction :=
  let p := parts bits
  Fraction.scale ⟨p.1, 1⟩ p.2

def mul (a b : Nat) : Nat :=
  nearest ⟨(value a).num * (value b).num, (value a).den * (value b).den⟩

def div (a b : Nat) : Nat :=
  nearest ⟨(value a).num * (value b).den, (value a).den * (value b).num⟩

def ofNat (n : Nat) : Nat :=
  nearest ⟨n, 1⟩

/-- The number nearest to a power of ten. -/
def power (k : Nat) : Nat :=
  ofNat (Nat.pow 10 k)

/-- Scales the number nearest to `n` by a power of ten, rounding at each step; a number that is too
large is none. -/
def scaleByTen (bits : Nat) (exp : Int) : Option Nat :=
  if exp.natAbs ≤ 308 then
    if 0 ≤ exp then
      let r := mul bits (power exp.toNat)
      if r < infinity then some r else none
    else some (div bits (power exp.natAbs))
  else if bits = 0 then some 0
  else if 0 ≤ exp then none
  else scaleByTen (div bits (power 308)) (exp + 308)
termination_by exp.natAbs
decreasing_by omega

/-- Whether a fraction rounds to the number with these parts: it lies within half a step, the ends
included when the number is even. -/
def roundsTo (m : Nat) (q : Int) (f : Fraction) : Bool :=
  let below : Fraction :=
    if m = leading ∧ -1074 < q then Fraction.scale ⟨4 * m - 1, 1⟩ (q - 2)
    else Fraction.scale ⟨2 * m - 1, 1⟩ (q - 1)
  let above := Fraction.scale ⟨2 * m + 1, 1⟩ (q - 1)
  let low := below.num * f.den
  let mid := (f.num * below.den, f.num * above.den)
  let high := above.num * f.den
  if m % 2 = 0 then low ≤ mid.1 ∧ mid.2 ≤ high else low < mid.1 ∧ mid.2 < high

/-- A fraction of a power of ten. -/
def ofDecimal (digits : Nat) (exp : Int) : Fraction :=
  if 0 ≤ exp then ⟨digits * Nat.pow 10 exp.toNat, 1⟩ else ⟨digits, Nat.pow 10 (-exp).toNat⟩

/-- The larger of the two neighbours of a fraction on a decimal grid is chosen when it is nearer, and
when both are as near the even one. -/
def gridChoice (m : Nat) (q : Int) (exp : Int) : Option Nat :=
  let v := Fraction.scale ⟨m, 1⟩ q
  let unit := ofDecimal 1 exp
  let ratio : Fraction := ⟨v.num * unit.den, v.den * unit.num⟩
  let low := ratio.floor
  let near := ratio.round
  let far := if near = low then low + 1 else low
  if 0 < near ∧ roundsTo m q (ofDecimal near exp) then some near
  else if 0 < far ∧ roundsTo m q (ofDecimal far exp) then some far
  else none

/-- Looks on finer and finer grids for a decimal that reads back as the number. -/
def shortestFrom (m : Nat) (q : Int) : Nat → Int → Nat × Int
  | 0, exp => ((gridChoice m q exp).getD m, exp)
  | steps + 1, exp =>
    match gridChoice m q exp with
    | some d => (d, exp)
    | none => shortestFrom m q steps (exp - 1)

/-- Drops zeros at the end of a decimal. -/
def trimZeros : Nat → Nat × Int → Nat × Int
  | 0, p => p
  | steps + 1, p =>
    if p.1 ≠ 0 ∧ p.1 % 10 = 0 then trimZeros steps (p.1 / 10, p.2 + 1) else p

/-- The digits and the exponent of ten of the shortest decimal that reads back as a positive
number. -/
def shortest (bits : Nat) : Nat × Int :=
  let p := parts bits
  let v := value bits
  let size : Int := ((v.num.log2 : Int) - (v.den.log2 : Int) + 1) * 30103 / 100000 + 1
  trimZeros 20 (shortestFrom p.1 p.2 24 size)

/-- An exponent with its sign. -/
def exponentText (exp : Int) : String :=
  if 0 ≤ exp then "e+" ++ toString exp else "e" ++ toString exp

/-- A positive decimal, positional when its point lies within sixteen places after its first digit or
five before, with a point in any case; else with one digit before the point and an exponent. -/
def decimalText (digits : Nat) (exp : Int) : String :=
  let text := toString digits
  let count : Int := text.length
  let point := count + exp
  if 0 ≤ exp ∧ point ≤ 16 then text ++ String.ofList (List.replicate exp.toNat '0') ++ ".0"
  else if 0 < point ∧ point ≤ 16 then
    String.ofList (text.toList.take point.toNat) ++ "." ++
      String.ofList (text.toList.drop point.toNat)
  else if -5 < point ∧ point ≤ 0 then
    "0." ++ String.ofList (List.replicate (-point).toNat '0') ++ text
  else if count = 1 then text ++ exponentText (point - 1)
  else
    String.ofList (text.toList.take 1) ++ "." ++ String.ofList (text.toList.drop 1) ++
      exponentText (point - 1)

def render (bits : Nat) : String :=
  let sign := if signBit ≤ bits then "-" else ""
  let rest := bits % signBit
  if infinity ≤ rest then "null"
  else if rest = 0 then sign ++ "0.0"
  else
    let d := shortest rest
    sign ++ decimalText d.1 d.2

end Binary

end DatabaseOperator
