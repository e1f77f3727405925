import DatabaseOperator.Provider.Calls
import DatabaseOperator.Store.Calls

namespace DatabaseOperator

/-- Work that consists of calls to the store of secrets. -/
abbrev SecretTask (α : Type) : Type :=
  ExceptT Error (Dialogue secrets) α

namespace SecretTask

def call (action : String) (c : SecretCall) : SecretTask c.Result :=
  ExceptT.mk do
    let r ← Dialogue.call (I := secrets) c
    pure (r.mapError (Wrap.wrap action))

end SecretTask

def readSecret (namespaceName name key : String) : SecretTask String := do
  requireText "namespace" namespaceName
  requireText "name" name
  requireText "key" key
  SecretTask.call "get secret" (.get namespaceName name key)

def writeSecret (s : Secret) (owner : Option Owner) : SecretTask Unit := do
  requireText "namespace" s.namespaceName
  requireText "name" s.name
  requireText "key" s.key
  requireText "value" s.value
  SecretTask.call "create or update secret" (.set s owner)

end DatabaseOperator
