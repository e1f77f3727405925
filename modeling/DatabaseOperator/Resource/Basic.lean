import DatabaseOperator.Resource.Condition
import DatabaseOperator.Resource.Names
import DatabaseOperator.Resource.Spec

namespace DatabaseOperator

structure Status where
  conditions : List Condition
  databaseId : String

namespace Status

def blank : Status :=
  ⟨[], ""⟩

def encode (s : Status) : Json :=
  .object (Json.present "conditions"
      (if s.conditions.isEmpty then none else some (.array (s.conditions.map Condition.encode))) ++
    Json.nonEmpty "scalingoDatabaseID" s.databaseId)

def decode : Decoder Status := fun v => do
  let r ← Json.fields? ["conditions", "scalingoDatabaseID"] v
  let conditions ← r.withDefault "conditions" [] (Json.list? Condition.decode)
  let databaseId ← r.withDefault "scalingoDatabaseID" "" Json.text?
  some ⟨conditions, databaseId⟩

end Status

structure Resource where
  metadata : Metadata
  spec : Spec
  status : Option Status

namespace Resource

def encode (r : Resource) : Json :=
  .object ([("apiVersion", .string Names.apiVersion), ("kind", .string Names.kind),
    ("metadata", r.metadata.encode), ("spec", r.spec.encode)] ++
    Json.present "status" (r.status.map Status.encode))

def decode : Decoder Resource := fun v => do
  let r ← Json.fields? ["metadata", "spec", "status"] v
  let metadata ← r.required "metadata" Metadata.decode
  let spec ← r.required "spec" Spec.decode
  let status ← r.nullable "status" Status.decode
  some ⟨metadata, spec, status⟩

def anyName (r : Resource) : String :=
  r.metadata.anyName

/-- The namespace, empty when there is none. -/
def namespaceName (r : Resource) : String :=
  r.metadata.namespaceName.getD ""

/-- The reference that makes the resource the owner of another object. A resource that the cluster
has not given a name and an identity owns nothing. -/
def owner? (r : Resource) : Option Owner := do
  let name ← r.metadata.name
  let uid ← r.metadata.uid
  some ⟨Names.apiVersion, Names.kind, name, uid, some true, none⟩

end Resource

end DatabaseOperator
