import DatabaseOperator.Proofs.Dictionary
import DatabaseOperator.Proofs.Resource.Change

namespace DatabaseOperator

namespace Dictionary

variable {α : Type} {k : String} {v : α}

theorem filter_put (l : List (String × α)) :
    ((put k v l).filter fun e => e.1 ≠ k) = l.filter fun e => e.1 ≠ k := by
  induction l with
  | nil => simp [put]
  | cons e rest ih =>
    unfold put
    split
    next => simp
    next =>
      split
      next same => simp [← same]
      next other =>
        have kept : e.1 ≠ k := Ne.symm other
        rw [List.filter_cons_of_pos (by simpa using kept), ih,
          List.filter_cons_of_pos (by simpa using kept)]

@[simp]
theorem erase_insert (d : Dictionary α) : (d.insert k v).erase k = d.erase k :=
  ext (filter_put d.entries)

end Dictionary

namespace Metadata

/-- The metadata without what the operator has a part in. -/
def others (m : Metadata) : Metadata :=
  { m with annotations := none, finalizers := none, resourceVersion := none }

/-- The annotations but for the one of the operator. -/
def otherAnnotations (m : Metadata) : Dictionary String :=
  (m.annotations.getD .empty).erase Names.runningAnnotation

end Metadata

namespace Resource

variable {r old new : Resource}

/-- The types of the conditions that the operator keeps. -/
def ownConditions : List String :=
  [Names.available, Names.provisioning]

def otherFinalizers (r : Resource) : List String :=
  r.finalizers.filter fun f => f ≠ Names.finalizer

def otherConditions (r : Resource) : List Condition :=
  r.conditions.filter fun c => c.type ∉ ownConditions

/-- The versions differ in nothing but what the operator keeps on a resource and the number. -/
structure Untouched (old new : Resource) : Prop where
  spec : new.spec = old.spec
  metadata : new.metadata.others = old.metadata.others
  annotations : new.metadata.otherAnnotations = old.metadata.otherAnnotations
  finalizers : new.otherFinalizers = old.otherFinalizers
  conditions : new.otherConditions = old.otherConditions

namespace Untouched

theorem refl (r : Resource) : r.Untouched r :=
  ⟨rfl, rfl, rfl, rfl, rfl⟩

theorem trans {a b c : Resource} (h : a.Untouched b) (g : b.Untouched c) : a.Untouched c :=
  ⟨g.spec.trans h.spec, g.metadata.trans h.metadata, g.annotations.trans h.annotations,
    g.finalizers.trans h.finalizers, g.conditions.trans h.conditions⟩

theorem renumbered (h : old.Untouched new) (v : Option String) : old.Untouched (new.renumbered v) :=
  ⟨h.spec, h.metadata, h.annotations, h.finalizers, h.conditions⟩

end Untouched

theorem otherConditions_setCondition {now : Time} {type reason message : String} {status : Bool}
    (known : type ∈ ownConditions) :
    (r.setCondition now type status reason message).1.otherConditions = r.otherConditions :=
  Condition.filter_put known r.conditions

theorem untouched_setCondition {now : Time} {type reason message : String} {status : Bool}
    (known : type ∈ ownConditions) :
    r.Untouched (r.setCondition now type status reason message).1 :=
  ⟨rfl, rfl, rfl, rfl, otherConditions_setCondition known⟩

theorem untouched_setInitial {now : Times} : r.Untouched (r.setInitial now).1 :=
  (untouched_setCondition (by decide)).trans (untouched_setCondition (by decide))

theorem untouched_setProvisioned {now : Times} : r.Untouched (r.setProvisioned now).1 :=
  (untouched_setCondition (by decide)).trans (untouched_setCondition (by decide))

theorem untouched_setProvisioning {time : Time} : r.Untouched (r.setProvisioning time).1 :=
  untouched_setCondition (by decide)

theorem untouched_setDatabaseId {id : String} : r.Untouched (r.setDatabaseId id) := by
  refine ⟨rfl, rfl, rfl, rfl, ?_⟩
  unfold otherConditions
  rw [conditions_setDatabaseId]

theorem untouched_setRunningFlag (running : Bool) : r.Untouched (r.setRunningFlag running) :=
  ⟨rfl, rfl, Dictionary.erase_insert _, rfl, rfl⟩

theorem untouched_removeFinalizer : r.Untouched r.removeFinalizer := by
  refine ⟨rfl, rfl, rfl, ?_, rfl⟩
  change (r.finalizers.filter _).filter _ = r.finalizers.filter _
  rw [List.filter_filter]
  simp

theorem untouched_withFinalizer : r.Untouched r.withFinalizer := by
  refine ⟨rfl, rfl, rfl, ?_, rfl⟩
  change (r.finalizers ++ [Names.finalizer]).filter _ = r.finalizers.filter _
  rw [List.filter_append]
  simp

/-- No change of a pass touches what belongs to others. -/
theorem Change.untouched (h : Change old new) : old.Untouched new := by
  cases h with
  | release => exact untouched_removeFinalizer
  | mark => exact untouched_withFinalizer
  | init now => exact untouched_setInitial
  | flag => exact untouched_setRunningFlag false
  | record id now => exact untouched_setDatabaseId.trans untouched_setProvisioning
  | provision now => exact untouched_setProvisioned
  | handOver => exact untouched_setRunningFlag true
  | plan now => exact untouched_setProvisioning

end Resource

end DatabaseOperator
