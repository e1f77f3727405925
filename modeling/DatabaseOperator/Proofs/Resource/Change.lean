import DatabaseOperator.Proofs.Resource.Lifecycle

namespace DatabaseOperator

namespace Resource

variable {r old new : Resource}

/-- What the steps after the initialisation can rely on. -/
structure Prepared (r : Resource) : Prop where
  wanted : r.isDeletionRequested = false
  guarded : r.hasFinalizer = true
  initialized : r.isInitialized = true
  flagged : r.runningFlag?.isSome = true

def withFinalizer (r : Resource) : Resource :=
  { r with metadata.finalizers := some (r.finalizers ++ [Names.finalizer]) }

@[simp]
theorem hasFinalizer_withFinalizer : r.withFinalizer.hasFinalizer = true := by
  simp [withFinalizer, hasFinalizer, finalizers]

/-- The changes of a pass to the resource that it read. -/
inductive Change (r : Resource) : Resource → Prop
  | release : r.isDeletionRequested = true → r.hasFinalizer = true → Change r r.removeFinalizer
  | mark : r.isDeletionRequested = false → r.hasFinalizer = false → Change r r.withFinalizer
  | init (now : Times) : r.hasFinalizer = true → r.isInitialized = false →
      Change r (r.setInitial now).1
  | flag : r.hasFinalizer = true → r.isInitialized = true → r.runningFlag? = none →
      Change r (r.setRunningFlag false)
  | record (id : String) (time : Time) : r.Prepared → r.databaseId = "" → r.isRunning = false →
      id ≠ "" → Change r ((r.setDatabaseId id).setProvisioning time).1
  | provision (now : Times) : r.Prepared → r.databaseId ≠ "" ∨ r.isRunning = true →
      Change r (r.setProvisioned now).1
  | handOver : r.Prepared → r.isAvailable = true → Change r (r.setRunningFlag true)
  | plan (time : Time) : r.Prepared → r.isAvailable = true → r.isRunning = true →
      Change r (r.setProvisioning time).1

/-- A change by someone else, who leaves alone what the operator notes. The cluster lets nobody take a
deletion back. -/
structure Edit (old new : Resource) : Prop where
  status : new.status = old.status
  flag : new.runningFlag? = old.runningFlag?
  finalizer : new.hasFinalizer = old.hasFinalizer
  deletion : old.isDeletionRequested = true → new.isDeletionRequested = true

/-- The versions agree in what is declared and where, and in whether the deletion is asked for. -/
structure Alike (r x : Resource) : Prop where
  spec : x.spec = r.spec
  generation : x.metadata.generation = r.metadata.generation
  located : x.namespaceName = r.namespaceName
  deletion : x.isDeletionRequested = r.isDeletionRequested

theorem alike_of_metadata (metadata : new.metadata = old.metadata) (spec : new.spec = old.spec) :
    old.Alike new :=
  ⟨spec, congrArg Metadata.generation metadata,
    congrArg (fun m : Metadata => m.namespaceName.getD "") metadata,
    congrArg (fun m : Metadata => m.deletionTimestamp.isSome) metadata⟩

theorem Alike.renumbered (h : old.Alike new) (v : Option String) : old.Alike (new.renumbered v) :=
  ⟨h.spec, h.generation, h.located, h.deletion⟩

theorem Alike.trans {a b c : Resource} (h : a.Alike b) (g : b.Alike c) : a.Alike c :=
  ⟨g.spec.trans h.spec, g.generation.trans h.generation, g.located.trans h.located,
    g.deletion.trans h.deletion⟩

theorem Alike.symm (h : old.Alike new) : new.Alike old :=
  ⟨h.spec.symm, h.generation.symm, h.located.symm, h.deletion.symm⟩

namespace Edit

theorem refl (r : Resource) : r.Edit r :=
  ⟨rfl, rfl, rfl, id⟩

theorem trans {a b c : Resource} (h : a.Edit b) (g : b.Edit c) : a.Edit c :=
  ⟨g.status.trans h.status, g.flag.trans h.flag, g.finalizer.trans h.finalizer,
    fun deleting => g.deletion (h.deletion deleting)⟩

theorem renumbered (h : old.Edit new) (v : Option String) : old.Edit (new.renumbered v) :=
  ⟨h.status, h.flag, h.finalizer, h.deletion⟩

theorem conditions (h : old.Edit new) : new.conditions = old.conditions := by
  unfold Resource.conditions
  rw [h.status]

theorem databaseId (h : old.Edit new) : new.databaseId = old.databaseId := by
  unfold Resource.databaseId
  rw [h.status]

theorem isAvailable (h : old.Edit new) : new.isAvailable = old.isAvailable := by
  unfold Resource.isAvailable hasCondition
  rw [h.conditions]

theorem isProvisioning (h : old.Edit new) : new.isProvisioning = old.isProvisioning := by
  unfold Resource.isProvisioning hasCondition
  rw [h.conditions]

theorem isRunning (h : old.Edit new) : new.isRunning = old.isRunning := by
  unfold Resource.isRunning
  rw [h.flag]

end Edit

theorem isInitialized_of_available (available : r.isAvailable = true) : r.isInitialized = true := by
  unfold isAvailable hasCondition at available
  unfold isInitialized
  cases found : Condition.find? Names.available r.conditions with
  | none => rw [found] at available; cases available
  | some c => rfl

/-- What runs has been prepared. -/
theorem prepared_of_running (wanted : r.isDeletionRequested = false) (guarded : r.hasFinalizer = true)
    (available : r.isAvailable = true) (running : r.isRunning = true) : r.Prepared where
  wanted := wanted
  guarded := guarded
  initialized := isInitialized_of_available available
  flagged := by
    unfold isRunning at running
    cases flag : r.runningFlag? with
    | none => rw [flag] at running; cases running
    | some b => rfl

/-- The notes on a later version take nothing back that those on an earlier version say. -/
structure Precedes (old new : Resource) : Prop where
  available : old.isAvailable = true → new.isAvailable = true
  running : old.isRunning = true → new.isRunning = true
  recorded : old.databaseId ≠ "" → new.databaseId = old.databaseId

theorem Precedes.refl (r : Resource) : r.Precedes r :=
  ⟨id, id, fun _ => rfl⟩

theorem Precedes.trans {a b c : Resource} (h : a.Precedes b) (g : b.Precedes c) : a.Precedes c where
  available ha := g.available (h.available ha)
  running ha := g.running (h.running ha)
  recorded ha := by
    have hb := h.recorded ha
    rw [← hb]
    exact g.recorded (by rw [hb]; exact ha)

theorem Precedes.renumbered (h : old.Precedes new) (v : Option String) :
    old.Precedes (new.renumbered v) :=
  ⟨h.available, h.running, h.recorded⟩

theorem Edit.precedes (h : Edit old new) : old.Precedes new where
  available ha := h.isAvailable.trans ha
  running ha := h.isRunning.trans ha
  recorded _ := h.databaseId

/-- A pass writes under the number that it read. -/
theorem Change.number (h : Change r new) :
    r.metadata.resourceVersion = new.metadata.resourceVersion := by
  cases h <;> rfl

/-- A pass neither asks for the deletion nor takes it back. -/
theorem Change.deletion (h : Change r new) : new.isDeletionRequested = r.isDeletionRequested := by
  cases h <;> rfl

theorem Change.precedes (h : Change r new) : r.Precedes new := by
  cases h with
  | release | mark => exact ⟨id, id, fun _ => rfl⟩
  | init now guarded uninitialized =>
    refine ⟨fun available => ?_, id, fun _ => by simp⟩
    unfold isAvailable hasCondition at available
    unfold isInitialized at uninitialized
    rw [Option.isSome_eq_false_iff.mp uninitialized |> Option.isNone_iff_eq_none.mp] at available
    cases available
  | flag guarded initialized unflagged =>
    refine ⟨id, fun running => ?_, fun _ => rfl⟩
    simp [isRunning, unflagged] at running
  | record id now prepared unrecorded resting named =>
    exact ⟨fun available => by simpa using available, fun running => running,
      fun recorded => absurd unrecorded recorded⟩
  | provision now prepared due => exact ⟨fun _ => by simp, fun running => running, fun _ => by simp⟩
  | handOver prepared available => exact ⟨fun _ => available, fun _ => by simp, fun _ => rfl⟩
  | plan now prepared available running =>
    exact ⟨fun available => by simpa using available, fun running => running, fun _ => by simp⟩

/-- Only for a deletion the finalizer is taken away. -/
theorem Change.guarded (h : Change r new) (wanted : r.isDeletionRequested = false)
    (guarded : r.hasFinalizer = true) : new.hasFinalizer = true := by
  cases h with
  | release deleting => exact absurd (wanted.symm.trans deleting) (by decide)
  | mark => exact hasFinalizer_withFinalizer
  | init | flag | record | provision | handOver | plan => exact guarded

end Resource

end DatabaseOperator
