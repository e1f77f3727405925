import DatabaseOperator.Database.Basic

namespace DatabaseOperator

structure DatabasePatch where
  id : Option String
  appId : Option String
  addonId : Option String
  name : Option String
  type : Option (Option DatabaseType)
  status : Option DatabaseStatus
  plan : Option String
  projectId : Option String
  features : Option Features
  firewallRules : Option (List FirewallRule)
  deriving DecidableEq

namespace DatabasePatch

def blank : DatabasePatch :=
  ⟨none, none, none, none, none, none, none, none, none, none⟩

def apply (p : DatabasePatch) (db : Database) : Database where
  id := p.id.getD db.id
  appId := p.appId.getD db.appId
  addonId := p.addonId.getD db.addonId
  name := p.name.getD db.name
  type := p.type.getD db.type
  status := p.status.getD db.status
  plan := p.plan.getD db.plan
  projectId := p.projectId.getD db.projectId
  features := p.features.getD db.features
  firewallRules := p.firewallRules.getD db.firewallRules

/-- A field that is present has a value. -/
def field {α : Type} (members : List (String × Json)) (name : String) (decode : Decoder α) :
    Option (Option α) :=
  match members.lookup name with
  | none => some none
  | some v => (decode v).map some

def decode : Decoder DatabasePatch := fun v => do
  let ms ← v.members?
  let id ← field ms "id" Json.text?
  let appId ← field ms "app_id" Json.text?
  let addonId ← field ms "addon_id" Json.text?
  let name ← field ms "name" Json.text?
  let type ← field ms "db_type" (Json.option? DatabaseType.decode)
  let status ← field ms "status" DatabaseStatus.decode
  let plan ← field ms "plan" Json.text?
  let projectId ← field ms "project_id" Json.text?
  let features ← field ms "features" Features.decode
  let firewallRules ← field ms "firewall_rules" (Json.list? FirewallRule.decode)
  some ⟨id, appId, addonId, name, type, status, plan, projectId, features, firewallRules⟩

end DatabasePatch

end DatabaseOperator
