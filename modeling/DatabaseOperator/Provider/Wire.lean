import DatabaseOperator.Database.Basic
import DatabaseOperator.Error
import DatabaseOperator.Json.Reader

namespace DatabaseOperator

namespace Wire

/-- A record with one required field. -/
def single {α : Type} (name : String) (decode : Decoder α) : Decoder α := fun v => do
  let r ← Json.fields? [name] v
  r.required name decode

/-- A record with two required texts. -/
def pair (first second : String) : Decoder (String × String) := fun v => do
  let r ← Json.fields? [first, second] v
  let a ← r.required first Json.text?
  let b ← r.required second Json.text?
  some (a, b)

def token : Decoder String :=
  single "token" Json.text?

def addonToken : Decoder String :=
  single "addon" (single "token" Json.text?)

/-- The ids of addons. -/
def addons : Decoder (List String) :=
  single "addons" (Json.list? (single "id" Json.text?))

/-- The ids and the names of plans. -/
def plans : Decoder (List (String × String)) :=
  single "plans" (Json.list? (pair "id" "name"))

/-- The names and the values of variables. -/
def variableList : Decoder (List (String × String)) :=
  single "variables" (Json.list? (pair "name" "value"))

/-- The inner part of a database, empty right after the creation. -/
structure Details where
  id : String
  typeName : String
  status : String
  features : List (String × String)

def Details.blank : Details :=
  ⟨"", "", "", []⟩

def details : Decoder Details := fun v => do
  let r ← Json.fields? ["id", "type_name", "status", "features"] v
  let id ← r.withDefault "id" "" Json.text?
  let typeName ← r.withDefault "type_name" "" Json.text?
  let status ← r.withDefault "status" "" Json.text?
  let features ← r.withDefault "features" [] (Json.list? (pair "name" "status"))
  some ⟨id, typeName, status, features⟩

structure Envelope where
  id : String
  name : String
  plan : String
  projectId : String
  appId : String
  details : Details

def app : Decoder String := fun v => do
  let r ← Json.fields? ["id"] v
  r.withDefault "id" "" Json.text?

def envelope : Decoder Envelope := fun v => do
  let v ← single "database" some v
  let r ← Json.fields? ["id", "name", "plan", "project_id", "app", "database"] v
  let id ← r.withDefault "id" "" Json.text?
  let name ← r.withDefault "name" "" Json.text?
  let plan ← r.withDefault "plan" "" Json.text?
  let projectId ← r.withDefault "project_id" "" Json.text?
  let appId ← r.withDefault "app" "" app
  let details ← r.withDefault "database" .blank details
  some ⟨id, name, plan, projectId, appId, details⟩

/-- The states in which something is still being done to a database. -/
def transitional : List String :=
  ["creating", "updating", "migrating", "upgrading"]

def databaseStatus (s : String) : Except ProviderError DatabaseStatus :=
  if s ∈ transitional then .ok .provisioning
  else if s = "running" then .ok .running
  else if s = "stopped" then .ok .stopped
  else .error (.invalidResponse ("unknown database status " ++ s))

/-- The case of ASCII letters does not count. -/
def featureStatus (s : String) : Except ProviderError FeatureStatus :=
  (FeatureStatus.parse (String.ofList (s.toList.map Char.toLower))).mapError .invalid

/-- The features in the order in which they are reported. -/
def features : Features → List (String × String) → Except ProviderError Features
  | fs, [] => .ok fs
  | fs, (name, s) :: rest => do
    let status ← featureStatus s
    features (fs.insert name status) rest

/-- The database of an answer. Without an inner id nothing but its names is known yet. -/
def Envelope.database (e : Envelope) : Except ProviderError Database := do
  let db := { Database.blank with
    id := e.id
    appId := e.appId
    name := e.name
    plan := e.plan
    projectId := e.projectId }
  if e.details.id.isEmpty then pure db
  else
    let type ← (DatabaseType.parse e.details.typeName).mapError .invalid
    let status ← databaseStatus e.details.status
    let fs ← features .empty e.details.features
    pure { db with type := some type, status := status, features := fs }

/-- A firewall rule as it is sent and received. -/
structure Rule where
  id : String
  type : String
  cidr : String
  label : String
  rangeId : String
  deriving DecidableEq

namespace Rule

def ofRule (r : FirewallRule) : Rule :=
  ⟨"", r.ruleType.name, r.range.cidr?.getD "", r.label, r.range.rangeId?.getD ""⟩

def encode (r : Rule) : Json :=
  .object (Json.nonEmpty "id" r.id ++ ("type", .string r.type) :: Json.nonEmpty "cidr" r.cidr ++
    ("label", .string r.label) :: Json.nonEmpty "range_id" r.rangeId)

def decode : Decoder Rule := fun v => do
  let r ← Json.fields? ["id", "type", "cidr", "label", "range_id"] v
  let id ← r.withDefault "id" "" Json.text?
  let type ← r.required "type" Json.text?
  let cidr ← r.withDefault "cidr" "" Json.text?
  let label ← r.withDefault "label" "" Json.text?
  let rangeId ← r.withDefault "range_id" "" Json.text?
  some ⟨id, type, cidr, label, rangeId⟩

/-- The rule that is meant; an empty id is none. -/
def rule (r : Rule) : Except ProviderError FirewallRule := do
  let rule ← (FirewallRule.parse r.type r.cidr r.rangeId r.label).mapError .invalid
  pure { rule with id := if r.id.isEmpty then none else some r.id }

end Rule

def rules : Decoder (List Rule) :=
  single "rules" (Json.list? Rule.decode)

/-- The status of a feature, and a message about it. -/
def feature : Decoder (String × String) := fun v => do
  let r ← Json.fields? ["status", "message"] v
  let status ← r.required "status" Json.text?
  let message ← r.withDefault "message" "" Json.text?
  some (status, message)

/-- The text and the details of an error. -/
def fault : Decoder (String × Json) := fun v => do
  let r ← Json.fields? ["error", "errors"] v
  let error ← r.withDefault "error" "" Json.text?
  let errors ← r.withDefault "errors" .null Json.settled
  some (error, errors)

/-- What an answer with an error says: its text, else its details, else the answer itself. -/
def faultMessage (text : String) : String :=
  match (Json.read text).bind fault with
  | none => text
  | some (error, errors) =>
    if !error.isEmpty then error
    else
      match errors with
      | .null => text
      | v => v.render

def object (members : List (String × Json)) : Json :=
  .object members

def creation (provider planId name projectId : String) : Json :=
  object [("database", object ([("addon_provider_id", .string provider), ("plan_id", .string planId),
    ("name", .string name)] ++ Json.nonEmpty "project_id" projectId))]

def planChange (planId : String) : Json :=
  object [("addon", object [("plan_id", .string planId)])]

def ruleCreation (r : FirewallRule) : Json :=
  object [("firewall_rule", (Rule.ofRule r).encode)]

def featureRequest (name : String) : Json :=
  object [("feature", object [("name", .string name)])]

end Wire

end DatabaseOperator
