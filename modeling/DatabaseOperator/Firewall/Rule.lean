import DatabaseOperator.Json.Decode
import DatabaseOperator.Validation

namespace DatabaseOperator

inductive RuleType
  | customRange
  | managedRange
  deriving DecidableEq, Repr

namespace RuleType

def name : RuleType → String
  | customRange => "custom_range"
  | managedRange => "managed_range"

def all : List RuleType :=
  [customRange, managedRange]

def parse? (s : String) : Option RuleType :=
  all.find? fun t => t.name = s

def parse (s : String) : Except ValidationError RuleType :=
  match parse? s with
  | some t => .ok t
  | none => .error (.unknownFirewallRuleType s)

/-- Custom ranges come before managed ranges. -/
def compare : RuleType → RuleType → Ordering
  | customRange, managedRange => .lt
  | managedRange, customRange => .gt
  | _, _ => .eq

def encode (t : RuleType) : Json :=
  .string t.name

def decode : Decoder RuleType :=
  Json.name? parse?

end RuleType

/-- What a rule allows: a range of addresses, or one that the provider manages under an id. -/
inductive FirewallRange
  | custom (cidr : String)
  | managed (rangeId : String)
  deriving DecidableEq, Hashable, Repr

namespace FirewallRange

def ruleType : FirewallRange → RuleType
  | custom _ => .customRange
  | managed _ => .managedRange

def cidr? : FirewallRange → Option String
  | custom cidr => some cidr
  | managed _ => none

def rangeId? : FirewallRange → Option String
  | custom _ => none
  | managed rangeId => some rangeId

/-- The text that the type of a range is about. -/
def detail : FirewallRange → String
  | custom cidr => cidr
  | managed rangeId => rangeId

/-- By type first, then by the code points of the text. -/
def compare (a b : FirewallRange) : Ordering :=
  (a.ruleType.compare b.ruleType).then (compareOfLessAndEq a.detail b.detail)

def fieldName : RuleType → String
  | .customRange => "cidr"
  | .managedRange => "range_id"

def ofDetail : RuleType → String → FirewallRange
  | .customRange => custom
  | .managedRange => managed

def members (r : FirewallRange) : List (String × Json) :=
  [("type", r.ruleType.encode), (fieldName r.ruleType, .string r.detail)]

def encode (r : FirewallRange) : Json :=
  .object r.members

/-- The range with the type `t` among members of which the type itself is one. -/
def ofMembers (t : RuleType) (members : List (String × Json)) : Option FirewallRange := do
  if Json.repeated ["type", fieldName t] members then none
  else
    let v ← members.lookup (fieldName t)
    let detail ← v.text?
    some (ofDetail t detail)

/-- A range by itself: an object with a type, or the type and the text in an array. -/
def decode : Decoder FirewallRange
  | .object members => do
    let tag ← members.lookup "type"
    let t ← RuleType.parse? (← tag.text?)
    let _ ← Json.settledMembers members
    ofMembers t members
  | .array [tag, detail] => do
    let t ← RuleType.parse? (← tag.text?)
    let detail ← detail.text?
    some (ofDetail t detail)
  | _ => none

/-- The type of a range inside a rule may be given as its number. -/
def tagInRule : Decoder RuleType
  | .string s => RuleType.parse? s
  | .number (.whole n) => if n < 0 then none else RuleType.all[n.toNat]?
  | _ => none

end FirewallRange

structure FirewallRule where
  id : Option String
  range : FirewallRange
  label : String
  deriving DecidableEq, Repr

namespace FirewallRule

def ruleType (r : FirewallRule) : RuleType :=
  r.range.ruleType

/-- A rule from declared texts, of which the one that the type asks for must not be empty. -/
def parse (ruleType cidr rangeId label : String) : Except ValidationError FirewallRule := do
  match ← RuleType.parse ruleType with
  | .customRange =>
    if cidr.isEmpty then throw .missingCidr else pure ⟨none, .custom cidr, label⟩
  | .managedRange =>
    if rangeId.isEmpty then throw .missingRangeId else pure ⟨none, .managed rangeId, label⟩

def compare (a b : FirewallRule) : Ordering :=
  a.range.compare b.range

/-- Whether two rules are the same rule. -/
def same (a b : FirewallRule) : Bool :=
  a.range = b.range

instance : LT FirewallRule := ⟨fun a b => a.compare b = .lt⟩

instance (a b : FirewallRule) : Decidable (a < b) :=
  inferInstanceAs (Decidable (a.compare b = .lt))

/-- How two rules stand by the strict order and by sameness alone. -/
def relation? (a b : FirewallRule) : Option Ordering :=
  if a < b then some .lt
  else if a.same b then some .eq
  else if b < a then some .gt
  else none

/-- The label and the id do not count. -/
instance : Hashable FirewallRule := ⟨fun r => hash r.range⟩

def text (r : FirewallRule) : String :=
  "\x7b ID: '" ++ r.id.getD "" ++ "', Type: " ++ r.ruleType.name ++ ", CIDR: '" ++
    r.range.cidr?.getD "" ++ "', Label: '" ++ r.label ++ "', RangeID: '" ++
    r.range.rangeId?.getD "" ++ "' \x7d"

def encode (r : FirewallRule) : Json :=
  .object (Json.present "id" (r.id.map .string) ++ r.range.members ++ [("label", .string r.label)])

/-- The range stands among the other members, which must all be readable. -/
def decode : Decoder FirewallRule
  | .object members =>
    if Json.repeated ["id", "label"] members then none
    else do
      let r : Json.Fields := ⟨members, false⟩
      let id ← r.optional "id" Json.text?
      let label ← r.withDefault "label" "" Json.text?
      let rest := members.filter fun m => m.1 ≠ "id" ∧ m.1 ≠ "label"
      let tag ← rest.lookup "type"
      let t ← FirewallRange.tagInRule tag
      let _ ← Json.settledMembers rest
      let range ← FirewallRange.ofMembers t rest
      some ⟨id, range, label⟩
  | _ => none

end FirewallRule

end DatabaseOperator
