import DatabaseOperator.Cluster.Resources
import DatabaseOperator.Text.Base64

namespace DatabaseOperator

structure SecretObject where
  metadata : Metadata
  data : Option (Dictionary (List UInt8))
  immutable : Option Bool
  stringData : Option (Dictionary String)
  type : Option String

namespace SecretObject

def encodeBytes (bytes : List UInt8) : Json :=
  .string (String.ofList (Base64.encode bytes))

/-- Null stands for no bytes. -/
def decodeBytes : Decoder (List UInt8)
  | .null => some []
  | .string s => Base64.decode s.toList
  | _ => none

def encode (s : SecretObject) : Json :=
  .object ([("apiVersion", .string "v1"), ("kind", .string "Secret")] ++
    Json.present "data" (s.data.map fun d => .object (d.map encodeBytes).entries) ++
    Json.present "immutable" (s.immutable.map .bool) ++
    [("metadata", s.metadata.encode)] ++
    Json.present "stringData" (s.stringData.map Metadata.encodeTexts) ++
    Json.present "type" (s.type.map .string))

/-- Whether a member that says what an object is says what it should, wherever it stands. -/
def hasOnly (members : List (String × Json)) (name value : String) : Bool :=
  members.all fun m => m.1 ≠ name || (m.2.text? == some value)

def decode : Decoder SecretObject := fun v => do
  let ms ← v.members?
  if hasOnly ms "apiVersion" "v1" && hasOnly ms "kind" "Secret" then
    let metadata ← Json.memberOr ms "metadata" .blank Metadata.decode
    let data ← Json.member? ms "data" (Json.dictionary? decodeBytes)
    let immutable ← Json.member? ms "immutable" Json.bool?
    let stringData ← Json.member? ms "stringData" (Json.dictionary? Json.text?)
    let type ← Json.member? ms "type" Json.text?
    some ⟨metadata, data, immutable, stringData, type⟩
  else none

/-- The secret with a key of it set, and with one more owner unless the owner has it already. -/
def set (s : SecretObject) (key value : String) (owner : Option Owner) : SecretObject :=
  let data := (s.data.getD .empty).insert key (utf8Bytes value)
  match owner with
  | none => { s with data := some data }
  | some o =>
    let owners := s.metadata.ownerReferences.getD []
    let owners := if owners.any fun x => x.uid = o.uid then owners else owners ++ [o]
    { s with data := some data, metadata.ownerReferences := some owners }

/-- A new secret with one key. -/
def new (s : Secret) (owner : Option Owner) : SecretObject where
  metadata := { Metadata.blank with
    name := some s.name
    namespaceName := some s.namespaceName
    ownerReferences := owner.map fun o => [o] }
  data := some (Dictionary.empty.insert s.key (utf8Bytes s.value))
  immutable := none
  stringData := none
  type := some "Opaque"

end SecretObject

namespace Cluster

def secretText (object key : String) (s : SecretObject) : StoreTask String :=
  match s.data.bind fun d => d.get? key with
  | none => throw (.invalidData (object ++ " has no key " ++ key))
  | some bytes =>
    match ofUtf8Bytes? bytes with
    | none => throw (.invalidData (object ++ " key " ++ key ++ " is not utf-8"))
    | some text => pure text

def secretStore : (c : SecretCall) → StoreTask c.Result
  | .get ns name key => do
    let object := "secret " ++ ns ++ "/" ++ name
    match ← onObject object (read? (Watch.secretsPath (some ns)) name SecretObject.decode) with
    | none => throw (.notFound object)
    | some s => secretText object key s
  | .set s owner => do
    let object := "secret " ++ s.namespaceName ++ "/" ++ s.name
    let collection := Watch.secretsPath (some s.namespaceName)
    match ← onObject object (read? collection s.name SecretObject.decode) with
    | some stored =>
      let _ ← onObject object (replace collection s.name ""
        (stored.set s.key s.value owner).encode SecretObject.decode)
    | none =>
      let _ ← onObject object (create collection (SecretObject.new s owner).encode
        SecretObject.decode)

end Cluster

end DatabaseOperator
