import DatabaseOperator.Firewall.Rule

namespace DatabaseOperator

inductive DatabaseType
  | postgresql
  deriving DecidableEq, Repr

namespace DatabaseType

def name : DatabaseType → String
  | postgresql => "postgresql"

/-- The addon provider that makes databases of a type. -/
def addonProvider : DatabaseType → String
  | postgresql => "postgresql-ng"

/-- The variable of the application that holds the connection string. -/
def urlVariable : DatabaseType → String
  | postgresql => "SCALINGO_POSTGRESQL_URL"

def parse? (s : String) : Option DatabaseType :=
  if s = postgresql.name then some postgresql else none

def parse (s : String) : Except ValidationError DatabaseType :=
  match parse? s with
  | some t => .ok t
  | none => .error (.unknownDatabaseType s)

def encode (t : DatabaseType) : Json :=
  .string t.name

def decode : Decoder DatabaseType :=
  Json.name? parse?

end DatabaseType

inductive DatabaseStatus
  | provisioning
  | running
  | stopped
  deriving DecidableEq, Repr

namespace DatabaseStatus

def name : DatabaseStatus → String
  | provisioning => "provisioning"
  | running => "running"
  | stopped => "stopped"

def all : List DatabaseStatus :=
  [provisioning, running, stopped]

def parse? (s : String) : Option DatabaseStatus :=
  all.find? fun t => t.name = s

def parse (s : String) : Except ValidationError DatabaseStatus :=
  match parse? s with
  | some t => .ok t
  | none => .error (.unknownDatabaseStatus s)

def encode (t : DatabaseStatus) : Json :=
  .string t.name

def decode : Decoder DatabaseStatus :=
  Json.name? parse?

end DatabaseStatus

inductive FeatureStatus
  | activated
  | pending
  | failed
  deriving DecidableEq, Repr

namespace FeatureStatus

def name : FeatureStatus → String
  | activated => "activated"
  | pending => "pending"
  | failed => "failed"

def all : List FeatureStatus :=
  [activated, pending, failed]

/-- A feature counts as on when the change to it is done or underway. -/
def isActive : FeatureStatus → Bool
  | activated => true
  | pending => true
  | failed => false

def parse? (s : String) : Option FeatureStatus :=
  all.find? fun t => t.name = s

def parse (s : String) : Except ValidationError FeatureStatus :=
  match parse? s with
  | some t => .ok t
  | none => .error (.unknownFeatureStatus s)

def encode (t : FeatureStatus) : Json :=
  .string t.name

def decode : Decoder FeatureStatus :=
  Json.name? parse?

end FeatureStatus

/-- Features by their names. -/
abbrev Features : Type := Dictionary FeatureStatus

namespace Features

/-- Forces TLS on every connection; the provider wants it on before public access. -/
def forceSsl : String := "force-ssl"

/-- Shows the database on the public internet. -/
def publiclyAvailable : String := "publicly-available"

def isActive (fs : Features) (name : String) : Bool :=
  (fs.get? name).any FeatureStatus.isActive

def encode (fs : Features) : Json :=
  .object (fs.map FeatureStatus.encode).entries

def decode : Decoder Features :=
  Json.dictionary? FeatureStatus.decode

end Features

structure Database where
  id : String
  appId : String
  addonId : String
  name : String
  type : Option DatabaseType
  status : DatabaseStatus
  plan : String
  projectId : String
  features : Features
  firewallRules : List FirewallRule
  deriving DecidableEq

namespace Database

/-- A database of which nothing is known. -/
def blank : Database :=
  ⟨"", "", "", "", none, .provisioning, "", "", .empty, []⟩

instance : Inhabited Database := ⟨blank⟩

def validateType (db : Database) : Except ValidationError DatabaseType :=
  match db.type with
  | some t => .ok t
  | none => .error .missingDatabaseType

def isRunning (db : Database) : Bool :=
  db.status = .running

def encode (db : Database) : Json :=
  .object [("id", .string db.id), ("app_id", .string db.appId), ("addon_id", .string db.addonId),
    ("name", .string db.name), ("db_type", (db.type.map DatabaseType.encode).getD .null),
    ("status", db.status.encode), ("plan", .string db.plan), ("project_id", .string db.projectId),
    ("features", db.features.encode),
    ("firewall_rules", .array (db.firewallRules.map FirewallRule.encode))]

def fieldNames : List String :=
  ["id", "app_id", "addon_id", "name", "db_type", "status", "plan", "project_id", "features",
    "firewall_rules"]

def decode : Decoder Database := fun v => do
  let r ← Json.fields? fieldNames v
  let id ← r.required "id" Json.text?
  let appId ← r.required "app_id" Json.text?
  let addonId ← r.required "addon_id" Json.text?
  let name ← r.required "name" Json.text?
  let type ← r.nullable "db_type" DatabaseType.decode
  let status ← r.required "status" DatabaseStatus.decode
  let plan ← r.required "plan" Json.text?
  let projectId ← r.required "project_id" Json.text?
  let features ← r.required "features" Features.decode
  let firewallRules ← r.required "firewall_rules" (Json.list? FirewallRule.decode)
  some ⟨id, appId, addonId, name, type, status, plan, projectId, features, firewallRules⟩

end Database

end DatabaseOperator
