import DatabaseOperator.Cluster.Secrets
import DatabaseOperator.Store.Secrets

namespace DatabaseOperator

structure SimulatedCluster where
  answers : List Response
  received : List ClusterRequest

namespace SimulatedCluster

def answer (r : ClusterRequest) : StateM SimulatedCluster (Option Response) := do
  let s ← get
  let received := s.received ++ [r]
  match s.answers with
  | [] =>
    set (⟨[], received⟩ : SimulatedCluster)
    pure (some ⟨500, ""⟩)
  | next :: rest =>
    set (⟨rest, received⟩ : SimulatedCluster)
    pure (some next)

def resource (c : ResourceCall) : StateM SimulatedCluster (Except StoreError c.Result) :=
  (Cluster.resourceStore c).run.serve answer

def secret (c : SecretCall) : StateM SimulatedCluster (Except StoreError c.Result) :=
  (Cluster.secretStore c).run.serve answer

end SimulatedCluster

end DatabaseOperator
