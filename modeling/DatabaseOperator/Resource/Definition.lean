import DatabaseOperator.Json.Yaml
import DatabaseOperator.Resource.Basic

namespace DatabaseOperator

namespace Definition

def described (text : String) : List (String × Json) :=
  [("description", .string text)]

def nullable : List (String × Json) :=
  [("nullable", .bool true)]

def defaulting (v : Json) : List (String × Json) :=
  [("default", v)]

def schema (type : String) (more : List (String × Json)) : Json :=
  .object (("type", .string type) :: more)

/-- A text with what else is known of it. -/
def text (more : List (String × Json)) : Json :=
  schema "string" more

def list (item : Json) (more : List (String × Json)) : Json :=
  schema "array" (("items", item) :: more)

/-- A record with its fields, of which some must be given. -/
def record (fields : List (String × Json)) (required : List String) (more : List (String × Json)) :
    Json :=
  schema "object" (("properties", .object fields) ::
    (if required.isEmpty then [] else [("required", .array (required.map .string))]) ++ more)

def tokenSource : Json :=
  record [("name", text []), ("key", text (defaulting (.string TokenSource.defaultKey)))] ["name"]
    (described "Secret holding the Scalingo API token")

def connectionTarget : Json :=
  record
    [("name", text []),
      ("prefix", text (nullable ++
        described "Prefix of the secret key, added as is. The key becomes `<prefix>_URL`."))]
    ["name"] (described "Secret receiving the connection URL once the database runs")

def declaredRule : Json :=
  record
    [("type", text (described "`custom_range` or `managed_range`")), ("cidr", text []),
      ("label", text []), ("range_id", text [])]
    ["type"]
    (described "Firewall rule as declared. Validated into a [`FirewallRule`] before use.")

def firewall : Json :=
  record [("rules", list declaredRule (defaulting (.array [])))] [] nullable

def internetAccess : Json :=
  record [("enabled", schema "boolean" [])] ["enabled"]
    (defaulting (.object [("enabled", .bool false)]))

def networking : Json :=
  record [("internet_access", internetAccess), ("firewall", firewall)] [] nullable

def spec : Json :=
  record
    [("authSecret", tokenSource), ("connInfoSecretTarget", connectionTarget),
      ("name", text (described "Database name on Scalingo")),
      ("plan", text (described "Plan name, e.g. \"postgresql-dr-starter-4096\"")),
      ("region", text (defaulting (.string Spec.defaultRegion))),
      ("projectID", text (nullable ++
        described "Scalingo project; the token's default project when absent")),
      ("networking", networking)]
    ["authSecret", "connInfoSecretTarget", "name", "plan"]
    (described "A PostgreSQL database managed on Scalingo")

def condition : Json :=
  record
    [("type", text []), ("status", text []), ("reason", text []), ("message", text []),
      ("lastTransitionTime", text []),
      ("observedGeneration", schema "integer" (("format", .string "int64") :: nullable))]
    ["lastTransitionTime", "message", "reason", "status", "type"]
    (described "Schema mirror of `meta/v1` Condition, which does not implement `JsonSchema`")

def status : Json :=
  record [("conditions", list condition []), ("scalingoDatabaseID", text [])] [] nullable

def fields : Json :=
  record [("spec", spec), ("status", status)] ["spec"]
    (("title", .string Names.kind) ::
      described "Auto-generated derived type for PostgreSQLSpec via `CustomResource`")

def column (name path : String) : Json :=
  .object [("name", .string name), ("type", .string "string"), ("jsonPath", .string path)]

/-- A column with the status of a condition. -/
def conditionColumn (type : String) : Json :=
  column type (".status.conditions[?(@.type==\"" ++ type ++ "\")].status")

def versionEntry : Json :=
  .object [("name", .string Names.version), ("served", .bool true), ("storage", .bool true),
    ("schema", .object [("openAPIV3Schema", fields)]),
    ("additionalPrinterColumns", .array [conditionColumn Names.available,
      conditionColumn Names.provisioning, column "Database ID" ".status.scalingoDatabaseID"]),
    ("subresources", .object [("status", .object [])])]

def document : Json :=
  .object [("apiVersion", .string "apiextensions.k8s.io/v1"),
    ("kind", .string "CustomResourceDefinition"),
    ("metadata", .object [("name", .string (Names.plural ++ "." ++ Names.group))]),
    ("spec", .object [("group", .string Names.group), ("scope", .string "Namespaced"),
      ("names", .object [("categories", .array []), ("kind", .string Names.kind),
        ("plural", .string Names.plural), ("singular", .string "postgresql"),
        ("shortNames", .array [.string "pg"])]),
      ("versions", .array [versionEntry])])]

/-- The definition as YAML, every part in the order of its names. -/
def yaml : String :=
  Yaml.render (document.settled.getD .null)

end Definition

end DatabaseOperator
