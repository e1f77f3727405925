import DatabaseOperator.Json.Value

namespace DatabaseOperator

/-- A typed reading of values. -/
abbrev Decoder (α : Type) : Type := Json → Option α

namespace Json

def text? : Decoder String
  | string s => some s
  | _ => none

def bool? : Decoder Bool
  | bool b => some b
  | _ => none

/-- A whole number within limits. -/
def int? (low high : Int) : Decoder Int
  | number (.whole n) => if low ≤ n ∧ n ≤ high then some n else none
  | _ => none

/-- A whole number that fits in 64 bits with a sign. -/
def int64? : Decoder Int :=
  int? (-0x8000000000000000) 0x7fffffffffffffff

/-- A whole number that fits in 16 bits without a sign. -/
def nat16? (v : Json) : Option Nat :=
  (int? 0 0xffff v).map Int.toNat

/-- Null is the absent value. -/
def option? {α : Type} (decode : Decoder α) : Decoder (Option α)
  | null => some none
  | v => (decode v).map some

def list? {α : Type} (decode : Decoder α) : Decoder (List α)
  | array items => items.mapM decode
  | _ => none

def dictionary? {α : Type} (decode : Decoder α) : Decoder (Dictionary α)
  | object members =>
    (members.mapM fun m => (decode m.2).map fun v => (m.1, v)).map Dictionary.ofList
  | _ => none

/-- One of a fixed set of names, as a text or as the name of a single null member. -/
def name? {α : Type} (parse : String → Option α) : Decoder α
  | string s => parse s
  | object [(name, null)] => parse name
  | _ => none

/-- The fields of a record that are present. In the form of an array the fields left out are the
last ones. -/
structure Fields where
  values : List (String × Json)
  positional : Bool

def repeated (names : List String) (members : List (String × Json)) : Bool :=
  names.any fun name => 2 ≤ members.countP fun m => m.1 = name

/-- The fields of a record with these names. -/
def fields? (names : List String) : Decoder Fields
  | object members => if repeated names members then none else some ⟨members, false⟩
  | array items => if names.length < items.length then none else some ⟨names.zip items, true⟩
  | _ => none

namespace Fields

variable {α : Type}

def get? (r : Fields) (name : String) : Option Json :=
  r.values.lookup name

def required (r : Fields) (name : String) (decode : Decoder α) : Option α := do
  let v ← r.get? name
  decode v

def withDefault (r : Fields) (name : String) (default : α) (decode : Decoder α) : Option α :=
  match r.get? name with
  | none => some default
  | some v => decode v

/-- A field that may be null, and may be left out. -/
def optional (r : Fields) (name : String) (decode : Decoder α) : Option (Option α) :=
  r.withDefault name none (option? decode)

/-- A field that may be null, and may be left out of an object but not of an array. -/
def nullable (r : Fields) (name : String) (decode : Decoder α) : Option (Option α) :=
  if r.positional then r.required name (option? decode) else r.optional name decode

end Fields

/-- A member of an object of the cluster. -/
def member? {α : Type} (members : List (String × Json)) (name : String) (decode : Decoder α) :
    Option (Option α) :=
  members.foldlM (fun last m => if m.1 = name then option? decode m.2 else some last) none

/-- A member of an object of the cluster that has a value in any case. -/
def memberOr {α : Type} (members : List (String × Json)) (name : String) (default : α)
    (decode : Decoder α) : Option α :=
  (member? members name decode).map fun v => v.getD default

/-- The members of an object of the cluster. -/
def members? : Decoder (List (String × Json))
  | object members => some members
  | _ => none

end Json

end DatabaseOperator
