import DatabaseOperator.Proofs.Pass.Calls

namespace DatabaseOperator

namespace Pass

variable {t : List (Exchange pass)}

/-- The answers to a deletion after which the database counts as deleted. -/
def isGone : Except ProviderError Unit → Bool
  | .ok _ => true
  | .error (.notFound _) => true
  | .error _ => false

theorem isGone_error {e : ProviderError} (action : String) :
    isGone (.error e) = (Error.provider action e).isNotFound := by
  cases e <;> rfl

theorem isGone_iff {a : Except ProviderError Unit} :
    isGone a = true ↔ a = .ok () ∨ ∃ w, a = .error (.notFound w) := by
  cases a with
  | ok => simp [isGone]
  | error e => cases e <;> simp [isGone]

/-- The courses of the step for a resource that is to be deleted. -/
inductive Finalizing (r : Resource) : List (Exchange pass) → Except Error Requeue → Prop
  | unguarded : r.hasFinalizer = false → Finalizing r [] (.ok .done)
  | unrecorded (a : Except StoreError Resource) : r.hasFinalizer = true → r.databaseId = "" →
      Finalizing r [⟨.resource (.update r.removeFinalizer), a⟩] (ended "remove finalizer" .done a)
  | closed {t : List (Exchange pass)} {e : Error} : r.hasFinalizer = true → r.databaseId ≠ "" →
      Opening r t (.error e) → Finalizing r t (.error e)
  | refused {t : List (Exchange pass)} {e : ProviderError} : r.hasFinalizer = true →
      r.databaseId ≠ "" → Opening r t (.ok ()) → isGone (.error e) = false →
      Finalizing r (t ++ [⟨.provider (.deleteDatabase r.databaseId), .error e⟩])
        (.error (.provider ("delete database " ++ r.databaseId) e))
  | deleted {t : List (Exchange pass)} (a : Except ProviderError Unit)
      (b : Except StoreError Resource) : r.hasFinalizer = true → r.databaseId ≠ "" →
      Opening r t (.ok ()) → isGone a = true →
      Finalizing r (t ++ [⟨.provider (.deleteDatabase r.databaseId), a⟩,
        ⟨.resource (.update r.removeFinalizer), b⟩]) (ended "remove finalizer" .done b)

theorem runs_delete_iff {id : String} (hid : id ≠ "") {t : List (Exchange provider)}
    {res : Except Error Unit} :
    (Manager.delete id).run.Runs t res ↔
      ∃ a : Except ProviderError Unit, t = [⟨.deleteDatabase id, a⟩] ∧
        res = a.mapError (Error.provider ("delete database " ++ id)) := by
  rw [Manager.delete, Task.requireText_eq hid, pure_bind]
  exact ProviderTask.runs_call_iff

theorem runs_deleteDatabase_iff {id : String} (hid : id ≠ "") {res : Except Error Unit} :
    (deleteDatabase id).run.Runs t res ↔
      ∃ a : Except ProviderError Unit, t = [⟨.provider (.deleteDatabase id), a⟩] ∧
        res = if isGone a then .ok () else a.mapError (Error.provider ("delete database " ++ id)) := by
  constructor
  · intro h
    obtain ⟨t₁, t₂, res₁, rfl, h₁, h₂⟩ := Dialogue.runs_bind_iff.mp h
    obtain ⟨t', rfl, h₃⟩ := runs_providerTask_iff.mp h₁
    obtain ⟨a, rfl, rfl⟩ := (runs_delete_iff hid).mp h₃
    cases a with
    | ok _ =>
      obtain ⟨rfl, rfl⟩ := Dialogue.runs_done_iff.mp h₂
      exact ⟨_, rfl, rfl⟩
    | error e =>
      obtain ⟨rfl, rfl⟩ := Dialogue.runs_done_iff.mp h₂
      exact ⟨_, rfl, by rw [isGone_error ("delete database " ++ id)]; rfl⟩
  · rintro ⟨a, rfl, rfl⟩
    refine Dialogue.runs_bind_iff.mpr ⟨_, [], _, rfl,
      runs_providerTask_iff.mpr ⟨_, rfl, (runs_delete_iff hid).mpr ⟨a, rfl, rfl⟩⟩, ?_⟩
    cases a with
    | ok _ => exact .done _
    | error e =>
      rw [isGone_error ("delete database " ++ id)]
      exact .done _

theorem finalizing_of_runs {r : Resource} {res : Except Error Requeue}
    (h : (finalize r).run.Runs t res) : Finalizing r t res := by
  unfold finalize at h
  split at h
  next unguarded =>
    obtain ⟨rfl, rfl⟩ := Task.runs_pure_iff.mp h
    exact .unguarded (by simpa using unguarded)
  next guarded =>
    have guarded : r.hasFinalizer = true := by simpa using guarded
    simp only at h
    split at h
    next recorded =>
      have recorded : r.databaseId ≠ "" := by simpa using recorded
      rcases Task.runs_bind_iff.mp h with ⟨e, rfl, h₁⟩ | ⟨t₁, t₂, _, rfl, h₁, h₂⟩
      · exact .closed guarded recorded (opening_of_runs h₁)
      have opened := opening_of_runs h₁
      rcases Task.runs_bind_iff.mp h₂ with ⟨e, rfl, h₃⟩ | ⟨t₃, t₄, _, rfl, h₃, h₄⟩
      · obtain ⟨a, rfl, ha⟩ := (runs_deleteDatabase_iff recorded).mp h₃
        cases hg : isGone a with
        | true => rw [if_pos hg] at ha; cases ha
        | false =>
          rw [if_neg (by simp [hg])] at ha
          cases a with
          | ok _ => cases ha
          | error f => cases ha; exact .refused guarded recorded opened hg
      · obtain ⟨a, rfl, ha⟩ := (runs_deleteDatabase_iff recorded).mp h₃
        obtain ⟨b, rfl, rfl⟩ := runs_lastWrite_iff.mp h₄
        cases hg : isGone a with
        | true => exact .deleted a b guarded recorded opened hg
        | false =>
          rw [if_neg (by simp [hg])] at ha
          cases a with
          | ok _ => cases hg
          | error f => cases ha
    next unrecorded =>
      obtain ⟨a, rfl, rfl⟩ := runs_lastWrite_iff.mp h
      exact .unrecorded a guarded (by simpa using unrecorded)

theorem runs_of_finalizing {r : Resource} {res : Except Error Requeue} (h : Finalizing r t res) :
    (finalize r).run.Runs t res := by
  unfold finalize
  cases h with
  | unguarded unguarded =>
    rw [if_pos (by simp [unguarded])]
    exact Task.runs_pure_iff.mpr ⟨rfl, rfl⟩
  | unrecorded a guarded unrecorded =>
    rw [if_neg (by simp [guarded])]
    simp only
    rw [if_neg (by simp [unrecorded])]
    exact runs_lastWrite_iff.mpr ⟨a, rfl, rfl⟩
  | closed guarded recorded opening =>
    rw [if_neg (by simp [guarded])]
    simp only
    rw [if_pos (by simp [recorded])]
    exact Task.runs_bind_of_error (runs_of_opening opening)
  | @refused u e guarded recorded opening refused =>
    rw [if_neg (by simp [guarded])]
    simp only
    rw [if_pos (by simp [recorded])]
    refine runs_of_opened opening ?_
    exact Task.runs_bind_of_error
      ((runs_deleteDatabase_iff recorded).mpr ⟨.error e, rfl, by rw [refused]; rfl⟩)
  | deleted a b guarded recorded opening gone =>
    rw [if_neg (by simp [guarded])]
    simp only
    rw [if_pos (by simp [recorded])]
    refine runs_of_opened opening ?_
    exact Task.runs_bind_of_single
      ((runs_deleteDatabase_iff recorded).mpr ⟨a, rfl, by rw [gone]; rfl⟩)
      (runs_lastWrite_iff.mpr ⟨b, rfl, rfl⟩)

end Pass

end DatabaseOperator
