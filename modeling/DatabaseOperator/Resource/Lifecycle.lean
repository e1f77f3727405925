import DatabaseOperator.Resource.Basic

namespace DatabaseOperator

/-- What the clock shows as each of the two conditions is set. -/
structure Times where
  available : Time
  provisioning : Time

/-- A clock that stands still shows the same time twice. -/
instance : Coe Time Times where
  coe time := ⟨time, time⟩

namespace Resource

def conditions (r : Resource) : List Condition :=
  (r.status.map Status.conditions).getD []

def hasCondition (r : Resource) (type status : String) : Bool :=
  (Condition.find? type r.conditions).any fun c => c.status = status

/-- The conditions have been written at least once. -/
def isInitialized (r : Resource) : Bool :=
  (Condition.find? Names.available r.conditions).isSome

def isAvailable (r : Resource) : Bool :=
  r.hasCondition Names.available Names.statusTrue

def isProvisioning (r : Resource) : Bool :=
  r.hasCondition Names.provisioning Names.statusTrue

/-- Puts a condition that holds for the present generation of the resource. -/
def setCondition (now : Time) (type : String) (status : Bool) (reason message : String)
    (r : Resource) : Resource × Bool :=
  let c : Condition :=
    ⟨type, if status then Names.statusTrue else Names.statusFalse, reason, message, now,
      r.metadata.generation⟩
  let put := c.put r.conditions
  ({ r with status := some { r.status.getD .blank with conditions := put.1 } }, put.2)

/-- Neither available nor provisioning. -/
def setInitial (now : Times) (r : Resource) : Resource × Bool :=
  let first := r.setCondition now.available Names.available false Names.Reason.notAvailable
    Names.Message.notAvailable
  let second := first.1.setCondition now.provisioning Names.provisioning false
    Names.Reason.notProvisioned Names.Message.notProvisioned
  (second.1, first.2 || second.2)

/-- Provisioning, whether available or not. -/
def setProvisioning (now : Time) (r : Resource) : Resource × Bool :=
  r.setCondition now Names.provisioning true Names.Reason.provisioning Names.Message.provisioning

/-- Available and no longer provisioning. -/
def setProvisioned (now : Times) (r : Resource) : Resource × Bool :=
  let first := r.setCondition now.available Names.available true Names.Reason.available
    Names.Message.available
  let second := first.1.setCondition now.provisioning Names.provisioning false
    Names.Reason.provisioned Names.Message.provisioned
  (second.1, first.2 || second.2)

/-- The running flag, none while it was never set. -/
def runningFlag? (r : Resource) : Option Bool :=
  (r.metadata.annotations.bind fun d => d.get? Names.runningAnnotation).map fun v =>
    v = Names.trueValue

def isRunning (r : Resource) : Bool :=
  r.runningFlag?.getD false

def setRunningFlag (running : Bool) (r : Resource) : Resource :=
  let value := if running then Names.trueValue else Names.falseValue
  let annotations := (r.metadata.annotations.getD .empty).insert Names.runningAnnotation value
  { r with metadata.annotations := some annotations }

def isDeletionRequested (r : Resource) : Bool :=
  r.metadata.deletionTimestamp.isSome

def finalizers (r : Resource) : List String :=
  r.metadata.finalizers.getD []

def hasFinalizer (r : Resource) : Bool :=
  r.finalizers.any fun f => f = Names.finalizer

/-- The resource with the finalizer, none when it has it already. -/
def addFinalizer? (r : Resource) : Option Resource :=
  if r.hasFinalizer then none
  else some { r with metadata.finalizers := some (r.finalizers ++ [Names.finalizer]) }

def removeFinalizer (r : Resource) : Resource :=
  { r with metadata.finalizers := some (r.finalizers.filter fun f => f ≠ Names.finalizer) }

/-- The id of the remote database, empty before it is created. -/
def databaseId (r : Resource) : String :=
  (r.status.map Status.databaseId).getD ""

def setDatabaseId (id : String) (r : Resource) : Resource :=
  { r with status := some { r.status.getD .blank with databaseId := id } }

end Resource

end DatabaseOperator
