import DatabaseOperator.Database.Patch
import DatabaseOperator.Provider.Calls
import DatabaseOperator.Simulation.Failures

namespace DatabaseOperator

structure SimulatedProvider where
  databases : Dictionary Database
  rules : List FirewallRule
  applicationVariables : Dictionary (Dictionary String)
  /-- What the answer to a creation says beside the usual. -/
  created : DatabasePatch
  /-- What becomes of a feature that is enabled. -/
  featureResult : FeatureStatus
  /-- The number of rules made so far. -/
  ruleCount : Nat
  failures : Failures ProviderError

def ProviderCall.method : ProviderCall → String
  | createDatabase _ => "create_database"
  | getDatabase _ => "get_database"
  | updateDatabasePlan _ => "update_database_plan"
  | deleteDatabase _ => "delete_database"
  | createFirewallRule _ _ _ => "create_firewall_rule"
  | listFirewallRules _ _ => "list_firewall_rules"
  | deleteFirewallRule _ _ _ => "delete_firewall_rule"
  | enableFeature _ _ => "enable_database_feature"
  | disableFeature _ _ => "disable_database_feature"
  | findVariable _ _ => "find_application_variable"

namespace SimulatedProvider

def blank : SimulatedProvider :=
  ⟨.empty, [], .empty, .blank, .activated, 0, .empty⟩

/-- Changes a database that is there. -/
def adjust (p : SimulatedProvider) (id : String) (f : Database → Database) : SimulatedProvider :=
  match p.databases.get? id with
  | none => p
  | some db => { p with databases := p.databases.insert id (f db) }

def missing (id : String) : ProviderError :=
  .notFound ("database " ++ id)

/-- What a call does when it is not planned to fail. -/
def perform (p : SimulatedProvider) :
    (c : ProviderCall) → Except ProviderError c.Result × SimulatedProvider
  | .createDatabase db =>
    let created := p.created.apply { Database.blank with
      id := "db-1"
      appId := "app-1"
      addonId := "ad-1"
      name := db.name
      plan := db.plan
      projectId := db.projectId }
    let stored := { created with type := db.type }
    (.ok created, { p with databases := p.databases.insert created.id stored })
  | .getDatabase id =>
    match p.databases.get? id with
    | none => (.error (missing id), p)
    | some db => (.ok db, p)
  | .updateDatabasePlan db =>
    (.ok (), p.adjust db.id fun stored => { stored with plan := db.plan, status := .provisioning })
  | .deleteDatabase id =>
    match p.databases.get? id with
    | none => (.error (missing id), p)
    | some _ => (.ok (), { p with databases := p.databases.erase id })
  | .createFirewallRule _ _ rule =>
    let count := p.ruleCount + 1
    let made := { rule with id := some ("fw-new-" ++ toString count) }
    (.ok (), { p with rules := p.rules ++ [made], ruleCount := count })
  | .listFirewallRules _ _ => (.ok p.rules, p)
  | .deleteFirewallRule _ _ ruleId =>
    (.ok (), { p with rules := p.rules.filter fun r => r.id ≠ some ruleId })
  | .enableFeature db feature =>
    (.ok p.featureResult, p.adjust db.id fun stored =>
      { stored with features := stored.features.insert feature p.featureResult })
  | .disableFeature db feature =>
    (.ok .pending, p.adjust db.id fun stored =>
      { stored with features := stored.features.erase feature })
  | .findVariable appId name =>
    match (p.applicationVariables.get? appId).bind fun vs => vs.get? name with
    | none => (.error (.notFound ("variable " ++ name)), p)
    | some value => (.ok value, p)

/-- Answers a call, with the planned failure if there is one. -/
def answer (p : SimulatedProvider) (c : ProviderCall) :
    Except ProviderError c.Result × SimulatedProvider :=
  let (cause, failures) := p.failures.next c.method
  let p := { p with failures := failures }
  match cause with
  | some e => (.error e, p)
  | none => p.perform c

/-- Answers an attempt to connect. -/
def connect (p : SimulatedProvider) : Except ProviderError Unit × SimulatedProvider :=
  let (cause, failures) := p.failures.next "connect"
  let p := { p with failures := failures }
  match cause with
  | some e => (.error e, p)
  | none => (.ok (), p)

end SimulatedProvider

end DatabaseOperator
