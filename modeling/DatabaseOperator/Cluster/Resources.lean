import DatabaseOperator.Cluster.Request
import DatabaseOperator.Operator.Watch
import DatabaseOperator.Store.Calls

namespace DatabaseOperator

namespace Cluster

/-- Work with the cluster as a call of a store. -/
abbrev StoreTask (α : Type) : Type :=
  ExceptT StoreError (Dialogue cluster) α

def onObject {α : Type} (object : String) (task : ClusterTask α) : StoreTask α :=
  ExceptT.mk do
    let r ← task.run
    pure (r.mapError (storeError object))

def writeResource (part : String) (r : Resource) : StoreTask Resource :=
  match r.metadata.namespaceName with
  | none => throw (.invalidData (r.anyName ++ " has no namespace"))
  | some ns =>
    onObject (ns ++ "/" ++ r.anyName)
      (replace (Watch.resourcesPath (some ns)) r.anyName part r.encode Resource.decode)

def resourceStore : (c : ResourceCall) → StoreTask c.Result
  | .get ns name =>
    onObject (ns ++ "/" ++ name) (read? (Watch.resourcesPath (some ns)) name Resource.decode)
  | .update r => writeResource "" r
  | .updateStatus r => writeResource "/status" r

end Cluster

end DatabaseOperator
