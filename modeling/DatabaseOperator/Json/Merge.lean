import DatabaseOperator.Json.Value

namespace DatabaseOperator

namespace Json

/-- The members of an object; other values have none. -/
def membersOf : Json → Dictionary Json
  | object members => Dictionary.ofList members
  | _ => .empty

mutual

/-- A target with a patch put over it (RFC 7386). A member that is given as null is removed. -/
def mergePatch (target : Json) : Json → Json
  | object members => object (mergeMembers target.membersOf members).entries
  | patch => patch

def mergeMembers (target : Dictionary Json) : List (String × Json) → Dictionary Json
  | [] => target
  | (name, null) :: rest => mergeMembers (target.erase name) rest
  | (name, v) :: rest =>
    mergeMembers (target.insert name (mergePatch ((target.get? name).getD null) v)) rest

end

end Json

end DatabaseOperator
