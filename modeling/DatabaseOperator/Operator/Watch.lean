import DatabaseOperator.Operator.Pass

namespace DatabaseOperator

/-- What the scheduler does with an object; a delay is in milliseconds. -/
inductive Action
  | awaitChange
  | requeue (delay : Nat)
  deriving DecidableEq, Repr

def Requeue.action : Requeue → Action
  | now => .requeue 0
  | after delay => .requeue delay
  | done => .awaitChange

namespace Watch

def resourcesPath : Option String → String
  | some ns => "/apis/" ++ Names.apiVersion ++ "/namespaces/" ++ ns ++ "/" ++ Names.plural
  | none => "/apis/" ++ Names.apiVersion ++ "/" ++ Names.plural

def secretsPath : Option String → String
  | some ns => "/api/v1/namespaces/" ++ ns ++ "/secrets"
  | none => "/api/v1/secrets"

/-- A pass over a watched object. -/
def reconcile (delay : Nat) (r : Resource) : PassTask Action := do
  let requeue ← Pass.run delay r.namespaceName r.anyName
  pure requeue.action

/-- A pass that failed is tried again after a delay. -/
def afterFailure (delay : Nat) (_ : Error) : Action :=
  .requeue delay

end Watch

end DatabaseOperator
