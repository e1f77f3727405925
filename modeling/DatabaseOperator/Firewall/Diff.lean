import DatabaseOperator.Firewall.Rule

namespace DatabaseOperator

inductive RuleAction
  | add (rule : FirewallRule)
  | delete (rule : FirewallRule)
  deriving DecidableEq, Repr

namespace FirewallRule

/-- Puts a rule before the first one that is greater or the same. -/
def place (r : FirewallRule) : List FirewallRule → List FirewallRule
  | [] => [r]
  | x :: rest => if r.compare x = .gt then x :: place r rest else r :: x :: rest

/-- Rules in ascending order; of the same rule those that come first stay first. -/
def sort : List FirewallRule → List FirewallRule
  | [] => []
  | r :: rest => place r (sort rest)

/-- Keeps the first of neighbours that are the same rule. -/
def dropRepeats : List FirewallRule → List FirewallRule
  | [] => []
  | r :: rest =>
    match dropRepeats rest with
    | [] => [r]
    | x :: xs => if r.same x then r :: xs else r :: x :: xs

/-- The distinct rules of a list in ascending order, each with the label and the id it has first. -/
def distinct (rules : List FirewallRule) : List FirewallRule :=
  dropRepeats (sort rules)

def allowedBy (r : FirewallRule) (rules : List FirewallRule) : Bool :=
  rules.any r.same

end FirewallRule

/-- What leads from the current rules to the expected ones: first the rules to add, then the rules to
delete, each in ascending order. -/
def diffRules (current expected : List FirewallRule) : List RuleAction :=
  let current := FirewallRule.distinct current
  let expected := FirewallRule.distinct expected
  (expected.filter fun r => !r.allowedBy current).map .add ++
    (current.filter fun r => !r.allowedBy expected).map .delete

end DatabaseOperator
