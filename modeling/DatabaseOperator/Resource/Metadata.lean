import DatabaseOperator.Calendar
import DatabaseOperator.Json.Decode

namespace DatabaseOperator

namespace Time

def encode (t : Time) : Json :=
  .string t.render

def decode : Decoder Time := fun v => v.text?.bind read

end Time

/-- The object that owns another one, which goes when its owner goes. -/
structure Owner where
  apiVersion : String
  kind : String
  name : String
  uid : String
  controller : Option Bool
  blockOwnerDeletion : Option Bool
  deriving DecidableEq

namespace Owner

def encode (o : Owner) : Json :=
  .object (("apiVersion", .string o.apiVersion) ::
    Json.present "blockOwnerDeletion" (o.blockOwnerDeletion.map .bool) ++
    Json.present "controller" (o.controller.map .bool) ++
    [("kind", .string o.kind), ("name", .string o.name), ("uid", .string o.uid)])

def decode : Decoder Owner := fun v => do
  let ms ← v.members?
  let apiVersion ← Json.memberOr ms "apiVersion" "" Json.text?
  let kind ← Json.memberOr ms "kind" "" Json.text?
  let name ← Json.memberOr ms "name" "" Json.text?
  let uid ← Json.memberOr ms "uid" "" Json.text?
  let controller ← Json.member? ms "controller" Json.bool?
  let blockOwnerDeletion ← Json.member? ms "blockOwnerDeletion" Json.bool?
  some ⟨apiVersion, kind, name, uid, controller, blockOwnerDeletion⟩

end Owner

/-- Which part of an object a manager looks after. -/
structure FieldManagement where
  apiVersion : Option String
  fieldsType : Option String
  fields : Option Json
  manager : Option String
  operation : Option String
  subresource : Option String
  time : Option Time

namespace FieldManagement

def encode (m : FieldManagement) : Json :=
  .object (Json.present "apiVersion" (m.apiVersion.map .string) ++
    Json.present "fieldsType" (m.fieldsType.map .string) ++
    Json.present "fieldsV1" m.fields ++
    Json.present "manager" (m.manager.map .string) ++
    Json.present "operation" (m.operation.map .string) ++
    Json.present "subresource" (m.subresource.map .string) ++
    Json.present "time" (m.time.map Time.encode))

def decode : Decoder FieldManagement := fun v => do
  let ms ← v.members?
  let apiVersion ← Json.member? ms "apiVersion" Json.text?
  let fieldsType ← Json.member? ms "fieldsType" Json.text?
  let fields ← Json.member? ms "fieldsV1" Json.settled
  let manager ← Json.member? ms "manager" Json.text?
  let operation ← Json.member? ms "operation" Json.text?
  let subresource ← Json.member? ms "subresource" Json.text?
  let time ← Json.member? ms "time" Time.decode
  some ⟨apiVersion, fieldsType, fields, manager, operation, subresource, time⟩

end FieldManagement

structure Metadata where
  annotations : Option (Dictionary String)
  creationTimestamp : Option Time
  deletionGracePeriodSeconds : Option Int
  deletionTimestamp : Option Time
  finalizers : Option (List String)
  generateName : Option String
  generation : Option Int
  labels : Option (Dictionary String)
  managedFields : Option (List FieldManagement)
  name : Option String
  namespaceName : Option String
  ownerReferences : Option (List Owner)
  resourceVersion : Option String
  selfLink : Option String
  uid : Option String

namespace Metadata

def blank : Metadata :=
  ⟨none, none, none, none, none, none, none, none, none, none, none, none, none, none, none⟩

instance : Inhabited Metadata := ⟨blank⟩

def encodeTexts (d : Dictionary String) : Json :=
  .object (d.map Json.string).entries

def encode (m : Metadata) : Json :=
  .object (Json.present "annotations" (m.annotations.map encodeTexts) ++
    Json.present "creationTimestamp" (m.creationTimestamp.map Time.encode) ++
    Json.present "deletionGracePeriodSeconds" (m.deletionGracePeriodSeconds.map Json.ofInt) ++
    Json.present "deletionTimestamp" (m.deletionTimestamp.map Time.encode) ++
    Json.present "finalizers" (m.finalizers.map fun fs => .array (fs.map .string)) ++
    Json.present "generateName" (m.generateName.map .string) ++
    Json.present "generation" (m.generation.map Json.ofInt) ++
    Json.present "labels" (m.labels.map encodeTexts) ++
    Json.present "managedFields"
      (m.managedFields.map fun fs => .array (fs.map FieldManagement.encode)) ++
    Json.present "name" (m.name.map .string) ++
    Json.present "namespace" (m.namespaceName.map .string) ++
    Json.present "ownerReferences" (m.ownerReferences.map fun os => .array (os.map Owner.encode)) ++
    Json.present "resourceVersion" (m.resourceVersion.map .string) ++
    Json.present "selfLink" (m.selfLink.map .string) ++
    Json.present "uid" (m.uid.map .string))

def decode : Decoder Metadata := fun v => do
  let ms ← v.members?
  let annotations ← Json.member? ms "annotations" (Json.dictionary? Json.text?)
  let creationTimestamp ← Json.member? ms "creationTimestamp" Time.decode
  let deletionGracePeriodSeconds ← Json.member? ms "deletionGracePeriodSeconds" Json.int64?
  let deletionTimestamp ← Json.member? ms "deletionTimestamp" Time.decode
  let finalizers ← Json.member? ms "finalizers" (Json.list? Json.text?)
  let generateName ← Json.member? ms "generateName" Json.text?
  let generation ← Json.member? ms "generation" Json.int64?
  let labels ← Json.member? ms "labels" (Json.dictionary? Json.text?)
  let managedFields ← Json.member? ms "managedFields" (Json.list? FieldManagement.decode)
  let name ← Json.member? ms "name" Json.text?
  let namespaceName ← Json.member? ms "namespace" Json.text?
  let ownerReferences ← Json.member? ms "ownerReferences" (Json.list? Owner.decode)
  let resourceVersion ← Json.member? ms "resourceVersion" Json.text?
  let selfLink ← Json.member? ms "selfLink" Json.text?
  let uid ← Json.member? ms "uid" Json.text?
  some ⟨annotations, creationTimestamp, deletionGracePeriodSeconds, deletionTimestamp, finalizers,
    generateName, generation, labels, managedFields, name, namespaceName, ownerReferences,
    resourceVersion, selfLink, uid⟩

/-- The name of an object, or what it begins with when the cluster makes the name. -/
def anyName (m : Metadata) : String :=
  (m.name.or m.generateName).getD ""

end Metadata

end DatabaseOperator
