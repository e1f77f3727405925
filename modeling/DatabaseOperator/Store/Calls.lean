import DatabaseOperator.Credential
import DatabaseOperator.Dialogue
import DatabaseOperator.Error
import DatabaseOperator.Resource.Basic

namespace DatabaseOperator

inductive ResourceCall
  | get (namespaceName name : String)
  | update (r : Resource)
  | updateStatus (r : Resource)

namespace ResourceCall

/-- What a call gives when it succeeds. -/
abbrev Result : ResourceCall → Type
  | get _ _ => Option Resource
  | update _ => Resource
  | updateStatus _ => Resource

end ResourceCall

def resources : Interface :=
  ⟨ResourceCall, fun c => Except StoreError c.Result⟩

inductive SecretCall
  | get (namespaceName name key : String)
  | set (s : Secret) (owner : Option Owner)
  deriving DecidableEq

namespace SecretCall

/-- What a call gives when it succeeds. -/
abbrev Result : SecretCall → Type
  | get _ _ _ => String
  | set _ _ => Unit

end SecretCall

def secrets : Interface :=
  ⟨SecretCall, fun c => Except StoreError c.Result⟩

end DatabaseOperator
