import DatabaseOperator.Proofs.Dictionary
import DatabaseOperator.Proofs.Resource.Condition
import DatabaseOperator.Resource.Lifecycle

namespace DatabaseOperator

def Times.epoch : Times :=
  Time.epoch

namespace Resource

variable {r : Resource} {time : Time} {now : Times}

theorem hasCondition_setCondition (type reason message : String) (status : Bool)
    (t text : String) :
    (r.setCondition time type status reason message).1.hasCondition t text =
      if t = type then decide ((if status then Names.statusTrue else Names.statusFalse) = text)
      else r.hasCondition t text := by
  let c : Condition := ⟨type, if status then Names.statusTrue else Names.statusFalse, reason,
    message, time, r.metadata.generation⟩
  change (Condition.find? t (c.put r.conditions).1).any _ = _
  split
  next eq =>
    obtain ⟨x, hx, hs⟩ := Condition.find?_put_same c r.conditions
    rw [eq, show type = c.type from rfl, hx]
    simp only [Option.any_some, hs, c]
  next ne => rw [Condition.find?_put_other (c := c) ne]; rfl

theorem isInitialized_setCondition (type reason message : String) (status : Bool) :
    (r.setCondition time type status reason message).1.isInitialized =
      (decide (Names.available = type) || r.isInitialized) := by
  let c : Condition := ⟨type, if status then Names.statusTrue else Names.statusFalse, reason,
    message, time, r.metadata.generation⟩
  change (Condition.find? Names.available (c.put r.conditions).1).isSome = _
  by_cases eq : Names.available = type
  · obtain ⟨x, hx, _⟩ := Condition.find?_put_same c r.conditions
    rw [eq, show type = c.type from rfl, hx]
    simp
  · rw [Condition.find?_put_other (c := c) eq]
    simp [eq, isInitialized]

theorem types_setCondition (type reason message : String) (status : Bool) :
    (r.setCondition time type status reason message).1.conditions.map Condition.type =
      if type ∈ r.conditions.map Condition.type then r.conditions.map Condition.type
      else r.conditions.map Condition.type ++ [type] :=
  Condition.map_type_put _ _

@[simp]
theorem databaseId_setCondition (type reason message : String) (status : Bool) :
    (r.setCondition time type status reason message).1.databaseId = r.databaseId := by
  unfold setCondition databaseId
  cases r.status <;> rfl

theorem setCondition_unchanged {type reason message : String} {status : Bool}
    (h : (r.setCondition time type status reason message).2 = false) :
    (r.setCondition time type status reason message).1.conditions = r.conditions :=
  Condition.put_unchanged h

@[simp]
theorem isAvailable_setInitial : (r.setInitial now).1.isAvailable = false := by
  unfold setInitial isAvailable
  rw [hasCondition_setCondition, if_neg (by decide), hasCondition_setCondition, if_pos rfl]
  decide

@[simp]
theorem isProvisioning_setInitial : (r.setInitial now).1.isProvisioning = false := by
  unfold setInitial isProvisioning
  rw [hasCondition_setCondition, if_pos rfl]
  decide

@[simp]
theorem isInitialized_setInitial : (r.setInitial now).1.isInitialized = true := by
  unfold setInitial
  rw [isInitialized_setCondition, isInitialized_setCondition]
  simp

@[simp]
theorem databaseId_setInitial : (r.setInitial now).1.databaseId = r.databaseId := by
  simp [setInitial]

@[simp]
theorem isAvailable_setProvisioning : (r.setProvisioning time).1.isAvailable = r.isAvailable := by
  unfold setProvisioning isAvailable
  rw [hasCondition_setCondition, if_neg (by decide)]

@[simp]
theorem isProvisioning_setProvisioning : (r.setProvisioning time).1.isProvisioning = true := by
  unfold setProvisioning isProvisioning
  rw [hasCondition_setCondition, if_pos rfl]
  decide

@[simp]
theorem isInitialized_setProvisioning :
    (r.setProvisioning time).1.isInitialized = r.isInitialized := by
  unfold setProvisioning
  rw [isInitialized_setCondition, decide_eq_false (by decide), Bool.false_or]

@[simp]
theorem databaseId_setProvisioning : (r.setProvisioning time).1.databaseId = r.databaseId :=
  databaseId_setCondition _ _ _ _

@[simp]
theorem isAvailable_setProvisioned : (r.setProvisioned now).1.isAvailable = true := by
  unfold setProvisioned isAvailable
  rw [hasCondition_setCondition, if_neg (by decide), hasCondition_setCondition, if_pos rfl]
  decide

@[simp]
theorem isProvisioning_setProvisioned : (r.setProvisioned now).1.isProvisioning = false := by
  unfold setProvisioned isProvisioning
  rw [hasCondition_setCondition, if_pos rfl]
  decide

theorem provisioned_setProvisioned :
    (r.setProvisioned now).1.hasCondition Names.provisioning Names.statusFalse = true := by
  unfold setProvisioned
  rw [hasCondition_setCondition, if_pos rfl]
  decide

@[simp]
theorem isInitialized_setProvisioned : (r.setProvisioned now).1.isInitialized = true := by
  unfold setProvisioned
  rw [isInitialized_setCondition, isInitialized_setCondition]
  simp

@[simp]
theorem databaseId_setProvisioned : (r.setProvisioned now).1.databaseId = r.databaseId := by
  simp [setProvisioned]

/-- Only a resource that is available already needs no new conditions when its database runs. -/
theorem isAvailable_of_provisioned (h : (r.setProvisioned now).2 = false) :
    r.isAvailable = true := by
  obtain ⟨first, second⟩ := Bool.or_eq_false_iff.mp h
  have conditions : (r.setProvisioned now).1.conditions = r.conditions :=
    (setCondition_unchanged second).trans (setCondition_unchanged first)
  have same : (r.setProvisioned now).1.isAvailable = r.isAvailable := by
    unfold isAvailable hasCondition
    rw [conditions]
  rw [← same]
  exact isAvailable_setProvisioned

/-- The conditions say, for the present generation, that the database is available and provisioned. -/
structure Settled (r : Resource) : Prop where
  available : ∃ x, Condition.find? Names.available r.conditions = some x ∧
    x.Says Names.statusTrue Names.Reason.available Names.Message.available r.metadata.generation
  provisioned : ∃ x, Condition.find? Names.provisioning r.conditions = some x ∧
    x.Says Names.statusFalse Names.Reason.provisioned Names.Message.provisioned
      r.metadata.generation

theorem names_differ : Names.provisioning ≠ Names.available := by
  decide

/-- Whether the conditions change does not depend on the time. -/
theorem settled_iff : r.Settled ↔ (r.setProvisioned now).2 = false := by
  let a : Condition := ⟨Names.available, Names.statusTrue, Names.Reason.available,
    Names.Message.available, now.available, r.metadata.generation⟩
  let p : Condition := ⟨Names.provisioning, Names.statusFalse, Names.Reason.provisioned,
    Names.Message.provisioned, now.provisioning, r.metadata.generation⟩
  have changed : (r.setProvisioned now).2 =
      ((a.put r.conditions).2 || (p.put (a.put r.conditions).1).2) := rfl
  have other : Condition.find? p.type (a.put r.conditions).1 =
      Condition.find? p.type r.conditions := Condition.find?_put_other names_differ _
  rw [changed, Bool.or_eq_false_iff, Condition.put_unchanged_iff, Condition.put_unchanged_iff, other]
  constructor
  · intro settled
    exact ⟨settled.available, settled.provisioned⟩
  · rintro ⟨available, provisioned⟩
    exact ⟨available, provisioned⟩

theorem Settled.of_status {r' : Resource} (h : r.Settled) (status : r'.status = r.status)
    (generation : r'.metadata.generation = r.metadata.generation) : r'.Settled := by
  have same : r'.conditions = r.conditions := by
    unfold conditions
    rw [status]
  obtain ⟨available, provisioned⟩ := h
  rw [← same, ← generation] at available provisioned
  exact ⟨available, provisioned⟩

/-- What says that the database is provisioned is settled. -/
theorem settled_setProvisioned : (r.setProvisioned now).1.Settled := by
  let a : Condition := ⟨Names.available, Names.statusTrue, Names.Reason.available,
    Names.Message.available, now.available, r.metadata.generation⟩
  let p : Condition := ⟨Names.provisioning, Names.statusFalse, Names.Reason.provisioned,
    Names.Message.provisioned, now.provisioning, r.metadata.generation⟩
  have conditions : (r.setProvisioned now).1.conditions = (p.put (a.put r.conditions).1).1 := rfl
  obtain ⟨x, found, same⟩ := Condition.find?_put_self a r.conditions
  obtain ⟨y, found', same'⟩ := Condition.find?_put_self p (a.put r.conditions).1
  refine ⟨⟨x, ?_, same⟩, ⟨y, conditions ▸ found', same'⟩⟩
  rw [conditions, Condition.find?_put_other names_differ.symm]
  exact found

@[simp]
theorem databaseId_setDatabaseId (id : String) : (r.setDatabaseId id).databaseId = id := rfl

@[simp]
theorem conditions_setDatabaseId (id : String) :
    (r.setDatabaseId id).conditions = r.conditions := by
  unfold setDatabaseId conditions
  cases r.status <;> rfl

@[simp]
theorem isAvailable_setDatabaseId (id : String) :
    (r.setDatabaseId id).isAvailable = r.isAvailable := by
  unfold isAvailable hasCondition
  rw [conditions_setDatabaseId]

@[simp]
theorem isInitialized_setDatabaseId (id : String) :
    (r.setDatabaseId id).isInitialized = r.isInitialized := by
  unfold isInitialized
  rw [conditions_setDatabaseId]

@[simp]
theorem runningFlag?_setRunningFlag (running : Bool) :
    (r.setRunningFlag running).runningFlag? = some running := by
  cases running with
  | false =>
    simp only [setRunningFlag, runningFlag?, Option.bind_some,
      Dictionary.get?_insert_same, Option.map_some]
    decide
  | true =>
    simp only [setRunningFlag, runningFlag?, Option.bind_some,
      Dictionary.get?_insert_same, Option.map_some]
    decide

@[simp]
theorem isRunning_setRunningFlag (running : Bool) :
    (r.setRunningFlag running).isRunning = running := by
  simp [isRunning]

@[simp]
theorem hasFinalizer_removeFinalizer : r.removeFinalizer.hasFinalizer = false := by
  simp [removeFinalizer, hasFinalizer, finalizers]

/-- A resource under another version. -/
def renumbered (v : Option String) (r : Resource) : Resource :=
  { r with metadata.resourceVersion := v }

end Resource

end DatabaseOperator
