import DatabaseOperator.Dialogue
import DatabaseOperator.Error
import DatabaseOperator.Http.Message
import DatabaseOperator.Json.Decode
import DatabaseOperator.Json.Reader

namespace DatabaseOperator

structure ClusterRequest where
  method : Method
  target : String
  body : Option Json

def cluster : Interface :=
  ⟨ClusterRequest, fun _ => Option Response⟩

/-- A refusal by the API server, with its code and reason, or any other fault. -/
inductive ClusterFault
  | refused (code : Nat) (reason : String)
  | other
  deriving DecidableEq, Repr

abbrev ClusterTask (α : Type) : Type :=
  ExceptT ClusterFault (Dialogue cluster) α

namespace Cluster

def isPathChar (c : Char) : Bool :=
  0x20 < c.toNat && c.toNat ≠ 0x7f && !(c ∈ ['<', '>', '\x60'])

def isQueryChar (c : Char) : Bool :=
  0x20 < c.toNat && c.toNat ≠ 0x7f && !(c ∈ ['"', '<', '>'])

/-- The longest target, in bytes. -/
def targetLimit : Nat := 65534

/-- A target as it can be sent: without a fragment, and without a question mark that nothing
follows. -/
def target? (text : String) : Option String :=
  let cs := text.toList.takeWhile (· ≠ '#')
  let path := cs.takeWhile (· ≠ '?')
  let query := cs.dropWhile (· ≠ '?')
  if text.utf8ByteSize ≤ targetLimit && path.all isPathChar && query.all isQueryChar then
    some (String.ofList (if query = ['?'] then path else cs))
  else none

/-- The fault that a refusal reports in its body, else the status under which it came. -/
def statusFault : Decoder ClusterFault := fun v => do
  let r ← Json.fields? ["status", "message", "reason", "code"] v
  let _ ← r.required "status" Json.text?
  let _ ← r.withDefault "message" "" Json.text?
  let reason ← r.withDefault "reason" "" Json.text?
  let code ← r.required "code" Json.nat16?
  some (.refused code reason)

def refusal (r : Response) : ClusterFault :=
  ((Json.read r.body).bind statusFault).getD (.refused r.status "Failed to parse error data")

def isRefusal (r : Response) : Bool :=
  400 ≤ r.status && r.status < 600

/-- Sends a request and reads the object in the answer. -/
def send {α : Type} (method : Method) (target : String) (body : Option Json) (decode : Decoder α) :
    ClusterTask α := do
  match target? target with
  | none => throw .other
  | some target =>
    let answer : Option Response ← ExceptT.lift (Dialogue.call (I := cluster) ⟨method, target, body⟩)
    match answer with
    | none => throw .other
    | some r =>
      if isRefusal r then throw (refusal r)
      else
        match (Json.read r.body).bind decode with
        | some a => pure a
        | none => throw .other

/-- The target of an object, which must have a name. -/
def objectTarget (collection name : String) : ClusterTask String :=
  if name.isEmpty then throw .other else pure (collection ++ "/" ++ name)

def read {α : Type} (collection name : String) (decode : Decoder α) : ClusterTask α := do
  send .get (← objectTarget collection name) none decode

/-- Reads an object; one that the server does not find is absent. -/
def read? {α : Type} (collection name : String) (decode : Decoder α) : ClusterTask (Option α) :=
  ExceptT.mk do
    match ← (read collection name decode).run with
    | .ok a => pure (.ok (some a))
    | .error (.refused code reason) =>
      pure (if reason = "NotFound" then .ok none else .error (.refused code reason))
    | .error .other => pure (.error .other)

def replace {α : Type} (collection name part : String) (body : Json) (decode : Decoder α) :
    ClusterTask α := do
  send .put ((← objectTarget collection name) ++ part) (some body) decode

def create {α : Type} (collection : String) (body : Json) (decode : Decoder α) : ClusterTask α :=
  send .post collection (some body) decode

/-- What a fault means for the store of an object. -/
def storeError (object : String) : ClusterFault → StoreError
  | .refused code _ =>
    if code = 409 then .conflict object
    else if code = 404 then .notFound object
    else .cluster (some code)
  | .other => .cluster none

end Cluster

end DatabaseOperator
