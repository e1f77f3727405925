import DatabaseOperator.Database.Basic

namespace DatabaseOperator

/-- The secret with the token for the provider. -/
structure TokenSource where
  name : String
  key : String
  deriving DecidableEq

namespace TokenSource

def defaultKey : String := "token"

def encode (s : TokenSource) : Json :=
  .object [("name", .string s.name), ("key", .string s.key)]

def decode : Decoder TokenSource := fun v => do
  let r ← Json.fields? ["name", "key"] v
  let name ← r.required "name" Json.text?
  let key ← r.withDefault "key" defaultKey Json.text?
  some ⟨name, key⟩

end TokenSource

/-- The secret that receives the connection string, and what its key starts with. -/
structure ConnectionTarget where
  name : String
  keyStart : Option String
  deriving DecidableEq

namespace ConnectionTarget

def encode (t : ConnectionTarget) : Json :=
  .object (("name", .string t.name) :: Json.present "prefix" (t.keyStart.map .string))

def decode : Decoder ConnectionTarget := fun v => do
  let r ← Json.fields? ["name", "prefix"] v
  let name ← r.required "name" Json.text?
  let keyStart ← r.optional "prefix" Json.text?
  some ⟨name, keyStart⟩

end ConnectionTarget

/-- A firewall rule as declared, of which nothing is checked yet. -/
structure DeclaredRule where
  type : String
  cidr : String
  label : String
  rangeId : String
  deriving DecidableEq

namespace DeclaredRule

def encode (r : DeclaredRule) : Json :=
  .object (("type", .string r.type) :: Json.nonEmpty "cidr" r.cidr ++ Json.nonEmpty "label" r.label ++
    Json.nonEmpty "range_id" r.rangeId)

def decode : Decoder DeclaredRule := fun v => do
  let r ← Json.fields? ["type", "cidr", "label", "range_id"] v
  let type ← r.required "type" Json.text?
  let cidr ← r.withDefault "cidr" "" Json.text?
  let label ← r.withDefault "label" "" Json.text?
  let rangeId ← r.withDefault "range_id" "" Json.text?
  some ⟨type, cidr, label, rangeId⟩

/-- The rule that is declared. -/
def check (r : DeclaredRule) : Except ValidationError FirewallRule :=
  FirewallRule.parse r.type r.cidr r.rangeId r.label

end DeclaredRule

structure Networking where
  internetAccess : Bool
  firewall : Option (List DeclaredRule)
  deriving DecidableEq

namespace Networking

def encode (n : Networking) : Json :=
  .object (("internet_access", .object [("enabled", .bool n.internetAccess)]) ::
    Json.present "firewall"
      (n.firewall.map fun rules => .object [("rules", .array (rules.map DeclaredRule.encode))]))

def decodeAccess : Decoder Bool := fun v => do
  let r ← Json.fields? ["enabled"] v
  r.required "enabled" Json.bool?

def decodeFirewall : Decoder (List DeclaredRule) := fun v => do
  let r ← Json.fields? ["rules"] v
  r.withDefault "rules" [] (Json.list? DeclaredRule.decode)

def decode : Decoder Networking := fun v => do
  let r ← Json.fields? ["internet_access", "firewall"] v
  let internetAccess ← r.withDefault "internet_access" false decodeAccess
  let firewall ← r.optional "firewall" decodeFirewall
  some ⟨internetAccess, firewall⟩

end Networking

structure Spec where
  authSecret : TokenSource
  connectionTarget : ConnectionTarget
  name : String
  plan : String
  region : String
  projectId : Option String
  networking : Option Networking
  deriving DecidableEq

namespace Spec

def defaultRegion : String := "osc-fr1"

def encode (s : Spec) : Json :=
  .object ([("authSecret", s.authSecret.encode), ("connInfoSecretTarget", s.connectionTarget.encode),
    ("name", .string s.name), ("plan", .string s.plan), ("region", .string s.region)] ++
    Json.present "projectID" (s.projectId.map .string) ++
    Json.present "networking" (s.networking.map Networking.encode))

def fieldNames : List String :=
  ["authSecret", "connInfoSecretTarget", "name", "plan", "region", "projectID", "networking"]

def decode : Decoder Spec := fun v => do
  let r ← Json.fields? fieldNames v
  let authSecret ← r.required "authSecret" TokenSource.decode
  let connectionTarget ← r.required "connInfoSecretTarget" ConnectionTarget.decode
  let name ← r.required "name" Json.text?
  let plan ← r.required "plan" Json.text?
  let region ← r.withDefault "region" defaultRegion Json.text?
  let projectId ← r.optional "projectID" Json.text?
  let networking ← r.optional "networking" Networking.decode
  some ⟨authSecret, connectionTarget, name, plan, region, projectId, networking⟩

def internetAccess (s : Spec) : Bool :=
  s.networking.any Networking.internetAccess

def declaredRules (s : Spec) : List DeclaredRule :=
  (s.networking.bind Networking.firewall).getD []

/-- The declared rules, refused with the fault of the first one that is not a rule. -/
def firewallRules (s : Spec) : Except ValidationError (List FirewallRule) :=
  s.declaredRules.mapM DeclaredRule.check

/-- The features that the declaration asks for. -/
def features (s : Spec) : Features :=
  if s.internetAccess then Dictionary.empty.insert Features.publiclyAvailable .activated else .empty

/-- The database that the declaration asks for. -/
def database (s : Spec) : Except ValidationError Database := do
  let rules ← s.firewallRules
  pure { Database.blank with
    name := s.name
    type := some .postgresql
    plan := s.plan
    projectId := s.projectId.getD ""
    features := s.features
    firewallRules := rules }

end Spec

end DatabaseOperator
