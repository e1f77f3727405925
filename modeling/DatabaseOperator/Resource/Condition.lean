import DatabaseOperator.Resource.Metadata

namespace DatabaseOperator

structure Condition where
  type : String
  status : String
  reason : String
  message : String
  lastTransitionTime : Time
  observedGeneration : Option Int
  deriving DecidableEq

namespace Condition

def encode (c : Condition) : Json :=
  .object (("lastTransitionTime", c.lastTransitionTime.encode) :: ("message", .string c.message) ::
    Json.present "observedGeneration" (c.observedGeneration.map Json.ofInt) ++
    [("reason", .string c.reason), ("status", .string c.status), ("type", .string c.type)])

def decode : Decoder Condition := fun v => do
  let ms ← v.members?
  let type ← Json.memberOr ms "type" "" Json.text?
  let status ← Json.memberOr ms "status" "" Json.text?
  let reason ← Json.memberOr ms "reason" "" Json.text?
  let message ← Json.memberOr ms "message" "" Json.text?
  let lastTransitionTime ← Json.member? ms "lastTransitionTime" Time.decode
  let observedGeneration ← Json.member? ms "observedGeneration" Json.int64?
  some ⟨type, status, reason, message, ← lastTransitionTime, observedGeneration⟩

/-- The entry `old` with what `new` says. The time moves only with the status. -/
def revise (old new : Condition) : Condition :=
  { old with
    status := new.status
    reason := new.reason
    message := new.message
    lastTransitionTime :=
      if old.status = new.status then old.lastTransitionTime else new.lastTransitionTime
    observedGeneration := new.observedGeneration }

/-- Whether the entry `old` says other than `new`. When it came to say so does not count. -/
def differs (old new : Condition) : Bool :=
  old.status ≠ new.status || old.reason ≠ new.reason || old.message ≠ new.message ||
    old.observedGeneration ≠ new.observedGeneration

/-- Revises the first entry of a type, or appends one, and says whether that changes the list. -/
def put (c : Condition) : List Condition → List Condition × Bool
  | [] => ([c], true)
  | x :: rest =>
    if x.type = c.type then (x.revise c :: rest, x.differs c)
    else
      let r := put c rest
      (x :: r.1, r.2)

/-- The first entry of a type. -/
def find? (type : String) (cs : List Condition) : Option Condition :=
  cs.find? fun c => c.type = type

end Condition

end DatabaseOperator
