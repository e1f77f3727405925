import DatabaseOperator.Proofs.Resource.Change

namespace DatabaseOperator

namespace Condition

/-- An entry without its time. -/
def timeless (c : Condition) : Condition :=
  { c with lastTransitionTime := .epoch }

theorem timeless_revise (x c : Condition) :
    (x.revise c).timeless = x.timeless.revise c.timeless := by
  unfold timeless revise
  simp only
  split <;> rfl

theorem timeless_put (c : Condition) (cs : List Condition) :
    (c.put cs).1.map timeless = (c.timeless.put (cs.map timeless)).1 := by
  induction cs with
  | nil => rfl
  | cons x rest ih =>
    by_cases same : x.type = c.type
    · have same' : x.timeless.type = c.timeless.type := same
      simp only [put, List.map_cons, if_pos same, if_pos same', timeless_revise]
    · have other : x.timeless.type ≠ c.timeless.type := same
      simp only [put, List.map_cons, if_neg same, if_neg other, ih]

theorem find?_timeless (type : String) (cs : List Condition) :
    find? type (cs.map timeless) = (find? type cs).map timeless := by
  simp only [find?, List.find?_map]
  rfl

end Condition

def Status.timeless (s : Status) : Status :=
  { s with conditions := s.conditions.map Condition.timeless }

namespace Resource

variable {r r' : Resource} {time : Time}

/-- A resource without the number of its version and the times of its conditions. -/
def timeless (r : Resource) : Resource :=
  { r with metadata.resourceVersion := none, status := r.status.map Status.timeless }

@[simp]
theorem timeless_renumbered (v : Option String) : (r.renumbered v).timeless = r.timeless := rfl

theorem conditions_timeless (r : Resource) :
    r.timeless.conditions = r.conditions.map Condition.timeless := by
  unfold conditions timeless
  cases r.status <;> rfl

theorem databaseId_timeless (r : Resource) : r.timeless.databaseId = r.databaseId := by
  unfold databaseId timeless
  cases r.status <;> rfl

theorem isInitialized_timeless (r : Resource) : r.timeless.isInitialized = r.isInitialized := by
  unfold isInitialized
  rw [conditions_timeless, Condition.find?_timeless, Option.isSome_map]

theorem timeless_setCondition (type reason message : String) (status : Bool) (r : Resource) :
    (r.setCondition time type status reason message).1.timeless =
      (r.timeless.setCondition .epoch type status reason message).1 := by
  have put := Condition.timeless_put ⟨type, if status then Names.statusTrue else Names.statusFalse,
    reason, message, time, r.metadata.generation⟩ r.conditions
  unfold setCondition
  rw [conditions_timeless]
  simp only [timeless, Option.map_some, Status.timeless, put]
  cases r.status <;> rfl

theorem timeless_setProvisioned (r : Resource) (now : Times) :
    (r.setProvisioned now).1.timeless = (r.timeless.setProvisioned .epoch).1 := by
  unfold setProvisioned
  rw [timeless_setCondition, timeless_setCondition]
  rfl

/-- What the conditions say does not depend on when it is noted. -/
theorem timeless_setProvisioned_eq (same : r.timeless = r'.timeless) (now later : Times) :
    (r.setProvisioned now).1.timeless = (r'.setProvisioned later).1.timeless := by
  rw [timeless_setProvisioned, timeless_setProvisioned, same]

theorem setCondition_eq_self {type reason message : String} {status : Bool}
    (h : (r.setCondition time type status reason message).2 = false) :
    (r.setCondition time type status reason message).1 = r := by
  have kept : ((⟨type, if status then Names.statusTrue else Names.statusFalse, reason, message, time,
      r.metadata.generation⟩ : Condition).put r.conditions).1 = r.conditions :=
    Condition.put_unchanged h
  unfold setCondition
  simp only [kept]
  cases r with
  | mk metadata spec status =>
    cases status with
    | none => cases h
    | some s => rfl

/-- What is settled is not changed. -/
theorem Settled.setProvisioned_eq (h : r.Settled) (now : Times) :
    (r.setProvisioned now).1 = r := by
  obtain ⟨first, second⟩ := Bool.or_eq_false_iff.mp (settled_iff.mp h)
  exact (setCondition_eq_self second).trans (setCondition_eq_self first)

/-- The resource waits for the database that was created for it. -/
structure Waits (r : Resource) : Prop where
  wanted : r.isDeletionRequested = false
  guarded : r.hasFinalizer = true
  initialized : r.isInitialized = true
  recorded : r.databaseId ≠ ""
  resting : r.runningFlag? = some false

/-- The resource is to be deleted, and the operator has not let it go yet. -/
structure Leaves (r : Resource) : Prop where
  deleting : r.isDeletionRequested = true
  guarded : r.hasFinalizer = true

/-- What is declared, where, and what is noted apart from the conditions, are part of what a resource
says. -/
structure Concurs (r r' : Resource) : Prop where
  spec : r'.spec = r.spec
  located : r'.namespaceName = r.namespaceName
  owner : r'.owner? = r.owner?
  deletion : r'.isDeletionRequested = r.isDeletionRequested
  finalizer : r'.hasFinalizer = r.hasFinalizer
  flag : r'.runningFlag? = r.runningFlag?
  recorded : r'.databaseId = r.databaseId

theorem Concurs.refl (r : Resource) : r.Concurs r :=
  ⟨rfl, rfl, rfl, rfl, rfl, rfl, rfl⟩

theorem Concurs.symm (h : r.Concurs r') : r'.Concurs r :=
  ⟨h.spec.symm, h.located.symm, h.owner.symm, h.deletion.symm, h.finalizer.symm, h.flag.symm,
    h.recorded.symm⟩

theorem Concurs.trans {a b c : Resource} (h : a.Concurs b) (g : b.Concurs c) : a.Concurs c :=
  ⟨g.spec.trans h.spec, g.located.trans h.located, g.owner.trans h.owner,
    g.deletion.trans h.deletion, g.finalizer.trans h.finalizer, g.flag.trans h.flag,
    g.recorded.trans h.recorded⟩

theorem concurs_of_timeless (same : r'.timeless = r.timeless) : r.Concurs r' := by
  have recorded := congrArg databaseId same
  rw [databaseId_timeless, databaseId_timeless] at recorded
  have spec := congrArg Resource.spec same
  have located := congrArg namespaceName same
  have owner := congrArg owner? same
  have deletion := congrArg isDeletionRequested same
  have finalizer := congrArg hasFinalizer same
  have flag := congrArg runningFlag? same
  exact ⟨spec, located, owner, deletion, finalizer, flag, recorded⟩

theorem concurs_setProvisioned (r : Resource) (now : Times) : r.Concurs (r.setProvisioned now).1 :=
  ⟨rfl, rfl, rfl, rfl, rfl, rfl, databaseId_setProvisioned⟩

theorem Waits.of_timeless (h : r.Waits) (same : r'.timeless = r.timeless) : r'.Waits := by
  have concurs := concurs_of_timeless same
  have initialized := congrArg isInitialized same
  rw [isInitialized_timeless, isInitialized_timeless] at initialized
  exact ⟨concurs.deletion.trans h.wanted, concurs.finalizer.trans h.guarded,
    initialized.trans h.initialized, concurs.recorded ▸ h.recorded, concurs.flag.trans h.resting⟩

theorem Waits.setProvisioned (h : r.Waits) {now : Times} : (r.setProvisioned now).1.Waits where
  wanted := h.wanted
  guarded := h.guarded
  initialized := isInitialized_setProvisioned
  recorded := by
    rw [databaseId_setProvisioned]
    exact h.recorded
  resting := h.resting

theorem Leaves.of_timeless (h : r.Leaves) (same : r'.timeless = r.timeless) : r'.Leaves := by
  have concurs := concurs_of_timeless same
  exact ⟨concurs.deletion.trans h.deleting, concurs.finalizer.trans h.guarded⟩

end Resource

end DatabaseOperator
