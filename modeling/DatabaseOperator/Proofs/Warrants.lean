import DatabaseOperator.Proofs.Convergence
import DatabaseOperator.Proofs.Pass.Amending
import DatabaseOperator.Proofs.Pass.Ends
import DatabaseOperator.Proofs.Resource.Declaration

namespace DatabaseOperator

open FirewallRule Manager

variable {delay : Nat} {r : Resource} {t : List (Exchange pass)} {res : Except Error Requeue}
  {rules : List FirewallRule}

namespace Pass

/-- No firewall rule is created or deleted. -/
def Unaltering (t : List (Exchange pass)) : Prop :=
  ∀ e ∈ asked t, ∀ id addonId, ¬ e.call.Alters id addonId

theorem Unamending.unaltering (h : Unamending t) : Unaltering t :=
  fun e mem _ _ alters => h e mem alters.amends

theorem Creating.of_invalid {e : ValidationError} (h : Creating delay r t res)
    (invalid : r.spec.database = .error e) :
    t = [] ∧ res = .error (.phase "translate database spec" (.invalid e)) := by
  cases h with
  | invalid other =>
    cases other.symm.trans invalid
    exact ⟨rfl, rfl⟩
  | closed valid | refused valid | nameless valid | created _ _ valid =>
    cases valid.symm.trans invalid

theorem Updating.of_invalid {e : ValidationError} (h : Updating delay r t res)
    (invalid : r.spec.database = .error e) :
    t = [] ∧ res = .error (.phase "translate database spec" (.invalid e)) := by
  cases h with
  | invalid other =>
    cases other.symm.trans invalid
    exact ⟨rfl, rfl⟩
  | closed valid | unread valid | busy valid | failed valid | arrived _ _ valid | planned _ _ valid
  | noted _ valid | renoted _ _ valid =>
    cases valid.symm.trans invalid

/-- Whatever an update does to firewall rules is warranted. -/
theorem Updating.warranted (h : Updating delay r t res) (declared : r.spec.firewallRules = .ok rules) :
    Warranted rules (asked t) := by
  have desired {wanted : Database} (valid : r.spec.database = .ok wanted) :
      wanted.firewallRules = rules :=
    Except.ok.inj ((Spec.database_parts valid).2.2.symm.trans declared)
  rcases h.cases_of_amending with unamending | updates
  · exact warranted_of_not_alters rules unamending.unaltering
  · cases updates with
    | failed valid update | went valid update => exact desired valid ▸ warranted_of_update update

/-- What a pass does to firewall rules follows from the declaration and from what was listed before. -/
structure Justified (r : Resource) (t : List (Exchange pass)) : Prop where
  serving : ∀ e ∈ asked t, ∀ id addonId, e.call.Alters id addonId →
    r.Prepared ∧ r.isAvailable = true ∧ r.isRunning = true
  informed : ∀ before e after, asked t = before ++ e :: after → ∀ id addonId,
    e.call.Alters id addonId →
    ∃ rules, (⟨.listFirewallRules id addonId, .ok rules⟩ : Exchange provider) ∈ before
  created : ∀ rule ∈ createdRules (asked t), (∃ d ∈ r.spec.declaredRules, d.check = .ok rule) ∧
    rule.id = none ∧ rule.range.detail ≠ "" ∧ rule.range ∉ ranges (listedRules (asked t))
  once : (ranges (createdRules (asked t))).Nodup
  deleted : ∀ ruleId ∈ deletedIds (asked t), ∃ rule ∈ listedRules (asked t),
    rule.id = some ruleId ∧ ¬ r.spec.Declares rule.range

theorem Unaltering.justified (h : Unaltering t) : Justified r t where
  serving e mem id addonId alters := absurd alters (h e mem id addonId)
  informed := (warranted_of_not_alters [] h).informed
  created rule mem := by
    rw [createdRules_of_not_alters h] at mem
    cases mem
  once := (warranted_of_not_alters [] h).once
  deleted ruleId mem := by
    rw [deletedIds_of_not_alters h] at mem
    cases mem

theorem Updating.justified (prepared : r.Prepared) (available : r.isAvailable = true)
    (running : r.isRunning = true) (h : Updating delay r t res) : Justified r t := by
  cases checked : r.spec.firewallRules with
  | error e =>
    have invalid : r.spec.database = .error e := by
      rw [Spec.database, checked]
      rfl
    obtain ⟨rfl, _⟩ := h.of_invalid invalid
    exact (unamending_of_unasked rfl).unaltering.justified
  | ok rules =>
    have warranted := h.warranted checked
    refine ⟨fun _ _ _ _ _ => ⟨prepared, available, running⟩, warranted.informed, fun rule mem => ?_,
      warranted.once, fun ruleId mem => ?_⟩
    · obtain ⟨wanted, unlisted⟩ := warranted.created rule mem
      obtain ⟨d, source, check⟩ := (Spec.mem_firewallRules_iff checked).mp wanted
      obtain ⟨unnumbered, named⟩ := DeclaredRule.id_and_detail_of_check check
      exact ⟨⟨d, source, check⟩, unnumbered, named, unlisted⟩
    · obtain ⟨rule, listed, number, undeclared⟩ := warranted.deleted ruleId mem
      refine ⟨rule, listed, number, fun declares => ?_⟩
      exact undeclared ((Spec.declares_iff checked).mp declares)

theorem Course.justified (h : Course delay r t res) : Justified r t := by
  cases h with
  | finalize _ h => exact h.unamending.unaltering.justified
  | mark | init | flag => exact (unamending_of_unasked rfl).unaltering.justified
  | create _ _ _ h => exact h.unamending.unaltering.justified
  | await _ _ _ h => exact h.unamending.unaltering.justified
  | update prepared available running h => exact h.justified prepared available running

/-- The resource is due for the creation of its database or for an update. -/
def Bringing (r : Resource) : Prop :=
  r.Prepared ∧ ((r.databaseId = "" ∧ r.isRunning = false) ∨ (r.isAvailable = true ∧ r.isRunning = true))

/-- What is due for a creation or an update asks nothing when the declaration is invalid. -/
theorem Course.refused {e : ValidationError} (h : Course delay r t res) (bringing : Bringing r)
    (invalid : r.spec.database = .error e) :
    t = [] ∧ ∃ err, res = .error err ∧ err.root = .invalid e := by
  obtain ⟨prepared, due⟩ := bringing
  obtain ⟨action, res', rfl, ⟨_, _, creating⟩ | ⟨awaits, _⟩ | ⟨_, _, updating⟩⟩ :=
    h.cases_of_prepared prepared
  · obtain ⟨rfl, rfl⟩ := creating.of_invalid invalid
    exact ⟨rfl, _, rfl, rfl⟩
  · exact absurd due awaits.not_bringing
  · obtain ⟨rfl, rfl⟩ := updating.of_invalid invalid
    exact ⟨rfl, _, rfl, rfl⟩

end Pass

/-- Every firewall call of a pass follows from the declared rules and those that the pass has listed, and
an invalid declaration is refused with the first fault before anything is asked. -/
theorem PassRun.justifies_rules {delay : Nat} {namespaceName name : String}
    (p : PassRun delay namespaceName name) :
    (∃ a, p.trace = [⟨.resource (.get namespaceName name), a⟩]) ∨
      ∃ r t, p.trace = ⟨.resource (.get namespaceName name), .ok (some r)⟩ :: t ∧
        Pass.Justified r t ∧
        ∀ d ∈ r.spec.declaredRules, ∀ e, d.check = .error e → Pass.Bringing r →
          t = [] ∧ ∃ first err, r.spec.FirstFault first ∧ p.result = .error err ∧
            err.root = .invalid first := by
  have passing := Pass.runs_run_iff.mp p.runs
  generalize p.trace = trace at passing ⊢
  generalize p.result = result at passing ⊢
  cases passing with
  | unread e => exact .inl ⟨_, rfl⟩
  | gone => exact .inl ⟨_, rfl⟩
  | found course =>
    refine .inr ⟨_, _, rfl, course.justified, fun d declared e invalid bringing => ?_⟩
    obtain ⟨first, fault, refused⟩ := Spec.database_of_fault declared invalid
    obtain ⟨unasked, err, failed, root⟩ := course.refused bringing refused
    exact ⟨unasked, first, err, fault, failed, root⟩

end DatabaseOperator
