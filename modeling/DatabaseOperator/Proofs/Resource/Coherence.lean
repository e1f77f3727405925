import DatabaseOperator.Proofs.Resource.Change

namespace DatabaseOperator

namespace Resource

variable {r old new : Resource} {time : Time} {now : Times}

def conditionTypes (r : Resource) : List String :=
  r.conditions.map Condition.type

/-- The notes on a resource fit together. -/
structure Coherent (r : Resource) : Prop where
  distinct : r.conditionTypes.Nodup
  complete : r.conditions ≠ [] → r.conditionTypes = [Names.available, Names.provisioning]
  available_recorded : r.isAvailable = true → r.databaseId ≠ ""
  provisioning_recorded : r.isProvisioning = true → r.databaseId ≠ ""
  recorded : r.databaseId ≠ "" → r.hasCondition Names.available Names.statusFalse = true →
    r.isProvisioning = true
  running : r.isRunning = true → r.isAvailable = true
  flagged : r.runningFlag?.isSome = true → r.isInitialized = true
  guarded : r.isInitialized = true → r.hasFinalizer = true ∨ r.isDeletionRequested = true

/-- What every change keeps: there are no conditions or both, and an id is recorded exactly while a
condition holds. -/
structure Tracked (r : Resource) : Prop where
  types : r.conditionTypes = [] ∨ r.conditionTypes = [Names.available, Names.provisioning]
  noted : r.databaseId ≠ "" ↔ r.isAvailable = true ∨ r.isProvisioning = true
  running : r.isRunning = true → r.isAvailable = true
  flagged : r.runningFlag?.isSome = true → r.isInitialized = true
  guarded : r.isInitialized = true → r.hasFinalizer = true ∨ r.isDeletionRequested = true

/-- A resource on which the operator has noted nothing. -/
structure Fresh (r : Resource) : Prop where
  unguarded : r.hasFinalizer = false
  unnoted : r.status = none
  unflagged : r.runningFlag? = none

theorem isInitialized_iff : r.isInitialized = true ↔ Names.available ∈ r.conditionTypes := by
  unfold isInitialized Condition.find? conditionTypes
  rw [List.find?_isSome, List.mem_map]
  simp only [decide_eq_true_eq]

theorem mem_conditionTypes {type text : String} (h : r.hasCondition type text = true) :
    type ∈ r.conditionTypes := by
  unfold hasCondition at h
  cases found : Condition.find? type r.conditions with
  | none => rw [found] at h; cases h
  | some c =>
    have same : c.type = type := by simpa using List.find?_some found
    exact List.mem_map.mpr ⟨c, List.mem_of_find?_eq_some found, same⟩

/-- One type has one status. -/
theorem not_hasCondition_other {type text other : String} (h : r.hasCondition type text = true)
    (differ : text ≠ other) : r.hasCondition type other = false := by
  unfold hasCondition at h ⊢
  cases found : Condition.find? type r.conditions with
  | none => rfl
  | some c =>
    rw [found] at h
    have same : c.status = text := by simpa using h
    simpa [same] using differ

namespace Tracked

theorem types_of_initialized (h : r.Tracked) (initialized : r.isInitialized = true) :
    r.conditionTypes = [Names.available, Names.provisioning] := by
  rcases h.types with none | both
  · have listed := isInitialized_iff.mp initialized
    rw [none] at listed
    cases listed
  · exact both

theorem types_of_hasCondition (h : r.Tracked) {type text : String}
    (holds : r.hasCondition type text = true) :
    r.conditionTypes = [Names.available, Names.provisioning] := by
  rcases h.types with none | both
  · have listed := mem_conditionTypes holds
    rw [none] at listed
    cases listed
  · exact both

theorem initialized (h : r.Tracked) (recorded : r.databaseId ≠ "") : r.isInitialized = true := by
  have both : r.conditionTypes = [Names.available, Names.provisioning] := by
    rcases h.noted.mp recorded with available | provisioning
    · exact h.types_of_hasCondition available
    · exact h.types_of_hasCondition provisioning
  rw [isInitialized_iff, both]
  exact List.mem_cons_self

theorem unrecorded (h : r.Tracked) (uninitialized : r.isInitialized = false) :
    r.databaseId = "" :=
  Decidable.byContradiction fun recorded => by
    rw [h.initialized recorded] at uninitialized
    cases uninitialized

theorem unflagged (h : r.Tracked) (uninitialized : r.isInitialized = false) :
    r.runningFlag? = none := by
  cases flag : r.runningFlag? with
  | none => rfl
  | some running =>
    have initialized := h.flagged (by rw [flag]; rfl)
    rw [initialized] at uninitialized
    cases uninitialized

theorem types_of_uninitialized (h : r.Tracked) (uninitialized : r.isInitialized = false) :
    r.conditionTypes = [] := by
  rcases h.types with none | both
  · exact none
  · have listed : r.isInitialized = true := by
      rw [isInitialized_iff, both]
      exact List.mem_cons_self
    rw [uninitialized] at listed
    cases listed

theorem coherent (h : r.Tracked) : r.Coherent where
  distinct := by
    rcases h.types with none | both
    · rw [none]
      exact List.nodup_nil
    · rw [both]
      decide
  complete noted := by
    rcases h.types with none | both
    · exact absurd (List.map_eq_nil_iff.mp none) noted
    · exact both
  available_recorded available := h.noted.mpr (.inl available)
  provisioning_recorded provisioning := h.noted.mpr (.inr provisioning)
  recorded recorded unavailable := by
    rcases h.noted.mp recorded with available | provisioning
    · have neither : r.hasCondition Names.available Names.statusFalse = false :=
        not_hasCondition_other available (by decide)
      rw [neither] at unavailable
      cases unavailable
    · exact provisioning
  running := h.running
  flagged := h.flagged
  guarded := h.guarded

theorem renumbered (h : r.Tracked) (v : Option String) : (r.renumbered v).Tracked :=
  ⟨h.types, h.noted, h.running, h.flagged, h.guarded⟩

end Tracked

theorem conditionTypes_setInitial (h : r.conditionTypes = []) :
    (r.setInitial now).1.conditionTypes = [Names.available, Names.provisioning] := by
  unfold conditionTypes at *
  unfold setInitial
  rw [types_setCondition, types_setCondition, h]
  decide

theorem conditionTypes_setProvisioning
    (h : r.conditionTypes = [Names.available, Names.provisioning]) :
    (r.setProvisioning time).1.conditionTypes = [Names.available, Names.provisioning] := by
  unfold conditionTypes at *
  unfold setProvisioning
  rw [types_setCondition, h]
  decide

theorem conditionTypes_setProvisioned
    (h : r.conditionTypes = [Names.available, Names.provisioning]) :
    (r.setProvisioned now).1.conditionTypes = [Names.available, Names.provisioning] := by
  unfold conditionTypes at *
  unfold setProvisioned
  rw [types_setCondition, types_setCondition, h]
  decide

@[simp]
theorem conditionTypes_setDatabaseId (id : String) :
    (r.setDatabaseId id).conditionTypes = r.conditionTypes := by
  unfold conditionTypes
  rw [conditions_setDatabaseId]

theorem Fresh.databaseId (h : r.Fresh) : r.databaseId = "" := by
  unfold Resource.databaseId
  rw [h.unnoted]
  rfl

theorem Fresh.conditions (h : r.Fresh) : r.conditions = [] := by
  unfold Resource.conditions
  rw [h.unnoted]
  rfl

theorem Fresh.tracked (h : r.Fresh) : r.Tracked where
  types := by
    unfold conditionTypes
    rw [h.conditions]
    exact .inl rfl
  noted := by
    unfold isAvailable isProvisioning hasCondition
    rw [h.databaseId, h.conditions]
    decide
  running running := by
    rw [isRunning, h.unflagged] at running
    cases running
  flagged flagged := by
    rw [h.unflagged] at flagged
    cases flagged
  guarded initialized := by
    rw [isInitialized, h.conditions] at initialized
    cases initialized

theorem Edit.tracked (h : Edit old new) (tracked : old.Tracked) : new.Tracked := by
  refine ⟨?_, ?_, ?_, ?_, ?_⟩
  · unfold conditionTypes
    rw [h.conditions]
    exact tracked.types
  · rw [h.databaseId, h.isAvailable, h.isProvisioning]
    exact tracked.noted
  · rw [h.isRunning, h.isAvailable]
    exact tracked.running
  · unfold isInitialized
    rw [h.flag, h.conditions]
    exact tracked.flagged
  · unfold isInitialized
    rw [h.conditions, h.finalizer]
    exact fun initialized => (tracked.guarded initialized).imp id h.deletion

theorem Change.tracked (h : Change r new) (tracked : r.Tracked) : new.Tracked := by
  cases h with
  | release deleting guarded =>
    exact ⟨tracked.types, tracked.noted, tracked.running, tracked.flagged, fun _ => .inr deleting⟩
  | mark wanted unguarded =>
    exact ⟨tracked.types, tracked.noted, tracked.running, tracked.flagged, fun _ => .inl (by simp)⟩
  | init now guarded uninitialized =>
    have types := tracked.types_of_uninitialized uninitialized
    have unrecorded := tracked.unrecorded uninitialized
    have unflagged := tracked.unflagged uninitialized
    refine ⟨.inr (conditionTypes_setInitial types), by simp [unrecorded], fun running => ?_,
      fun _ => by simp, fun _ => .inl guarded⟩
    have running : r.isRunning = true := running
    rw [isRunning, unflagged] at running
    cases running
  | flag guarded initialized unflagged =>
    exact ⟨tracked.types, tracked.noted, by simp, fun _ => initialized, fun _ => .inl guarded⟩
  | record id now prepared unrecorded resting named =>
    have types := tracked.types_of_initialized prepared.initialized
    exact ⟨.inr (conditionTypes_setProvisioning (by simpa using types)), by simp [named],
      fun running => absurd (resting.symm.trans running) (by decide),
      fun _ => by simp [prepared.initialized], fun _ => .inl prepared.guarded⟩
  | provision now prepared due =>
    have types := tracked.types_of_initialized prepared.initialized
    have recorded : r.databaseId ≠ "" :=
      due.elim id fun running => tracked.noted.mpr (.inl (tracked.running running))
    exact ⟨.inr (conditionTypes_setProvisioned types), by simp [recorded], fun _ => by simp,
      fun _ => by simp, fun _ => .inl prepared.guarded⟩
  | handOver prepared available =>
    exact ⟨tracked.types, tracked.noted, fun _ => available, fun _ => prepared.initialized,
      fun _ => .inl prepared.guarded⟩
  | plan now prepared available running =>
    have types := tracked.types_of_initialized prepared.initialized
    exact ⟨.inr (conditionTypes_setProvisioning types), by simp [tracked.noted, available],
      fun _ => by simpa using available, fun _ => by simp [prepared.initialized],
      fun _ => .inl prepared.guarded⟩

end Resource

end DatabaseOperator
