import DatabaseOperator.Proofs.Convergence
import DatabaseOperator.Proofs.Pass.Amending

namespace DatabaseOperator

namespace Pass

open Manager

variable {delay : Nat} {r : Resource} {t : List (Exchange pass)} {res : Except Error Requeue}

/-- A pass that touches a part of a database shields it like the update that it runs. -/
theorem Course.shielded (h : Course delay r t res) :
    Shielded r.databaseId r.spec.internetAccess (asked t) (∃ e, res = .error e) := by
  have declared {wanted : Database} (valid : r.spec.database = .ok wanted) :
      wanted.features.isActive Features.publiclyAvailable = r.spec.internetAccess := by
    rw [(Spec.database_parts valid).2.1, Spec.isActive_features]
  rcases h.cases_of_amending with unamending | updates
  · exact .inl fun e mem _ _ toggles => unamending e mem toggles.amends
  cases updates with
  | @failed _ _ f valid update =>
    rw [← declared valid]
    exact (shielded_of_update update).mono fun _ => ⟨f, rfl⟩
  | went valid update =>
    rw [← declared valid]
    exact (shielded_of_update update).mono nofun

end Pass

/-- Whatever the provider reports and whatever fails, public access comes behind forced TLS, TLS is never
turned off, and a toggle that does not work ends the pass with a failure. -/
theorem PassRun.shields_access {delay : Nat} {namespaceName name : String}
    (p : PassRun delay namespaceName name) :
    (∃ a, p.trace = [⟨.resource (.get namespaceName name), a⟩]) ∨
      ∃ r t, p.trace = ⟨.resource (.get namespaceName name), .ok (some r)⟩ :: t ∧
        Manager.Shielded r.databaseId r.spec.internetAccess (Pass.asked t)
          (∃ e, p.result = .error e) := by
  have passing := Pass.runs_run_iff.mp p.runs
  generalize p.trace = trace at passing ⊢
  generalize p.result = result at passing ⊢
  cases passing with
  | unread e => exact .inl ⟨_, rfl⟩
  | gone => exact .inl ⟨_, rfl⟩
  | found course => exact .inr ⟨_, _, rfl, course.shielded⟩

end DatabaseOperator
