import DatabaseOperator.Credential
import DatabaseOperator.Firewall.Diff
import DatabaseOperator.Provider.Calls

namespace DatabaseOperator

/-- What an update did. -/
inductive UpdateOutcome
  | unchanged
  | updated
  | provisioning
  deriving DecidableEq, Repr

namespace UpdateOutcome

def name : UpdateOutcome → String
  | unchanged => "unchanged"
  | updated => "updated"
  | provisioning => "provisioning"

end UpdateOutcome

namespace Manager

/-- The type of the databases under management. -/
def databaseType : DatabaseType :=
  .postgresql

def requireType (db : Database) : ProviderTask DatabaseType :=
  match db.validateType with
  | .ok t => pure t
  | .error e => throw (.invalid e)

def create (desired : Database) : ProviderTask Database := do
  let _ ← requireType desired
  ProviderTask.call "create database" (.createDatabase desired)

/-- The database with its firewall rules. -/
def get (id : String) : ProviderTask Database := do
  requireText "database id" id
  let db ← ProviderTask.call "get database" (.getDatabase id)
  requireText "addon id" db.addonId
  let rules ← ProviderTask.call "list firewall rules" (.listFirewallRules db.id db.addonId)
  pure { db with firewallRules := rules }

/-- The connection string, which is a variable of the application of the database. -/
def connectionUrl (db : Database) : ProviderTask ConnectionUrl := do
  let t ← requireType db
  requireText "application id" db.appId
  let value ← ProviderTask.call "find application variable" (.findVariable db.appId t.urlVariable)
  pure ⟨t.urlVariable, value⟩

/-- Turns a feature on. An answer that the feature failed is a failure. -/
def enableFeature (db : Database) (feature : String) : ProviderTask Unit := do
  let action := "enable feature " ++ feature
  let status ← ProviderTask.call action (.enableFeature db feature)
  if status = .failed then
    throw (.provider action (.featureFailed feature ("provider reported status " ++ status.name)))
  else pure ()

/-- Makes the database public or not, and says whether that took a change. Forced TLS is turned on
before public access and is never turned off. -/
def updateInternetAccess (current : Database) (wanted : Bool) : ProviderTask Bool := do
  let enabled := current.features.isActive Features.publiclyAvailable
  if enabled = wanted then pure false
  else if wanted then
    if !current.features.isActive Features.forceSsl then enableFeature current Features.forceSsl
    enableFeature current Features.publiclyAvailable
    pure true
  else
    let _ ← ProviderTask.call ("disable feature " ++ Features.publiclyAvailable)
      (.disableFeature current Features.publiclyAvailable)
    pure true

def applyAction (db : Database) : RuleAction → ProviderTask Unit
  | .add rule => ProviderTask.call "add firewall rule" (.createFirewallRule db.id db.addonId rule)
  | .delete rule =>
    match rule.id with
    | none => throw (.empty "firewall rule id")
    | some id => ProviderTask.call "delete firewall rule" (.deleteFirewallRule db.id db.addonId id)

/-- Does every action, also after one has failed; the first failure is the result. -/
def applyAll (db : Database) : List RuleAction → ProviderTask Unit
  | [] => pure ()
  | a :: rest =>
    ExceptT.mk do
      let first ← (applyAction db a).run
      let others ← (applyAll db rest).run
      pure (first.bind fun _ => others)

/-- Brings the firewall rules to the expected ones, and says whether that took a change. -/
def updateFirewallRules (current : Database) (expected : List FirewallRule) : ProviderTask Bool :=
  match diffRules current.firewallRules expected with
  | [] => pure false
  | actions => do
    applyAll current actions
    pure true

/-- Changes the plan if it differs, which only a running database admits. -/
def updatePlan (current desired : Database) : ProviderTask Bool := do
  if current.plan = desired.plan then pure false
  else if !current.isRunning then
    throw (.precondition ("invalid status " ++ current.status.name ++ " for plan update"))
  else
    ProviderTask.call "update database plan" (.updateDatabasePlan { current with plan := desired.plan })
    pure true

/-- Brings features, then firewall rules, then the plan to the desired ones. -/
def update (id : String) (desired : Database) : ProviderTask UpdateOutcome := do
  let current ← inPhase "get current database" (get id)
  let wanted := desired.features.isActive Features.publiclyAvailable
  let featuresChanged ← inPhase "update internet access" (updateInternetAccess current wanted)
  let rulesChanged ← inPhase "update firewall rules"
    (updateFirewallRules current desired.firewallRules)
  if ← updatePlan current desired then pure .provisioning
  else if featuresChanged || rulesChanged then pure .updated
  else pure .unchanged

def delete (id : String) : ProviderTask Unit := do
  requireText "database id" id
  ProviderTask.call ("delete database " ++ id) (.deleteDatabase id)

end Manager

end DatabaseOperator
