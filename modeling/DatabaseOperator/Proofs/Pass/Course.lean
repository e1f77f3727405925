import DatabaseOperator.Proofs.Pass.Awaiting
import DatabaseOperator.Proofs.Pass.Finalizing
import DatabaseOperator.Proofs.Pass.Updating
import DatabaseOperator.Proofs.Resource.Change

namespace DatabaseOperator

namespace Pass

variable {t : List (Exchange pass)}

/-- The courses of the step that a stored resource is due for. -/
inductive Course (delay : Nat) (r : Resource) :
    List (Exchange pass) → Except Error Requeue → Prop
  | finalize {t : List (Exchange pass)} {res : Except Error Requeue} :
      r.isDeletionRequested = true → Finalizing r t res →
      Course delay r t (res.mapError (Error.phase "finalize"))
  | mark (a : Except StoreError Resource) : r.isDeletionRequested = false →
      r.hasFinalizer = false →
      Course delay r [⟨.resource (.update r.withFinalizer), a⟩]
        (ended "add finalizer" .now a)
  | init (now : Times) (a : Except StoreError Resource) : r.isDeletionRequested = false →
      r.hasFinalizer = true → r.isInitialized = false →
      Course delay r (ticks now.toList ++ [⟨.resource (.updateStatus (r.setInitial now).1), a⟩])
        (ended "init status" .now a)
  | flag (a : Except StoreError Resource) : r.isDeletionRequested = false →
      r.hasFinalizer = true → r.isInitialized = true → r.runningFlag? = none →
      Course delay r [⟨.resource (.update (r.setRunningFlag false)), a⟩]
        (ended "init running annotation" .now a)
  | create {t : List (Exchange pass)} {res : Except Error Requeue} : r.Prepared →
      r.databaseId = "" → r.isRunning = false → Creating delay r t res →
      Course delay r t (res.mapError (Error.phase "create database"))
  | await {t : List (Exchange pass)} {res : Except Error Requeue} : r.Prepared →
      (r.databaseId ≠ "" ∨ r.isRunning = true) → (r.isAvailable = false ∨ r.isRunning = false) →
      Awaiting delay r t res → Course delay r t (res.mapError (Error.phase "wait for database"))
  | update {t : List (Exchange pass)} {res : Except Error Requeue} : r.Prepared →
      r.isAvailable = true → r.isRunning = true → Updating delay r t res →
      Course delay r t (res.mapError (Error.phase "update database"))

theorem course_of_runs {delay : Nat} {r : Resource} {res : Except Error Requeue}
    (h : (step delay r).run.Runs t res) : Course delay r t res := by
  unfold step at h
  split at h
  next deleting =>
    obtain ⟨res, inner, rfl⟩ := Task.runs_inPhase_iff.mp h
    exact .finalize deleting (finalizing_of_runs inner)
  next wanted =>
    have wanted : r.isDeletionRequested = false := by simpa using wanted
    cases guarded : r.hasFinalizer with
    | false =>
      rw [show r.addFinalizer? = some _ from if_neg (by simp [guarded])] at h
      obtain ⟨a, rfl, rfl⟩ := runs_lastWrite_iff.mp h
      exact .mark a wanted guarded
    | true =>
      rw [show r.addFinalizer? = none from if_pos guarded] at h
      simp only at h
      split at h
      next uninitialized =>
        obtain ⟨now, a, rfl, rfl⟩ := reads_times.runs_write_iff.mp h
        exact .init now a wanted guarded (by simpa using uninitialized)
      next initialized =>
        have initialized : r.isInitialized = true := by simpa using initialized
        split at h
        next unflagged =>
          obtain ⟨a, rfl, rfl⟩ := runs_lastWrite_iff.mp h
          exact .flag a wanted guarded initialized (by simpa using unflagged)
        next flagged =>
          have prepared : r.Prepared := ⟨wanted, guarded, initialized,
            Option.isSome_iff_ne_none.mpr (by simpa using flagged)⟩
          split at h
          next unrecorded =>
            obtain ⟨unrecorded, resting⟩ : r.databaseId = "" ∧ r.isRunning = false := by
              simpa using unrecorded
            obtain ⟨res, inner, rfl⟩ := Task.runs_inPhase_iff.mp h
            exact .create prepared unrecorded resting (creating_of_runs inner)
          next recorded =>
            have recorded : r.databaseId ≠ "" ∨ r.isRunning = true := by
              simpa [Classical.or_iff_not_imp_left] using recorded
            split at h
            next waiting =>
              obtain ⟨res, inner, rfl⟩ := Task.runs_inPhase_iff.mp h
              exact .await prepared recorded (by simpa using waiting) (awaiting_of_runs inner)
            next ready =>
              obtain ⟨available, running⟩ : r.isAvailable = true ∧ r.isRunning = true := by
                simpa using ready
              obtain ⟨res, inner, rfl⟩ := Task.runs_inPhase_iff.mp h
              exact .update prepared available running (updating_of_runs inner)

/-- What runs is due for an update. -/
theorem Course.updating {delay : Nat} {r : Resource} {res : Except Error Requeue}
    (h : Course delay r t res) (prepared : r.Prepared) (available : r.isAvailable = true)
    (running : r.isRunning = true) :
    ∃ res', res = res'.mapError (Error.phase "update database") ∧ Updating delay r t res' := by
  cases h with
  | finalize deleting => exact absurd (prepared.wanted.symm.trans deleting) (by decide)
  | mark _ _ unguarded => exact absurd (prepared.guarded.symm.trans unguarded) (by decide)
  | init _ _ _ _ uninitialized =>
    exact absurd (prepared.initialized.symm.trans uninitialized) (by decide)
  | flag _ _ _ _ unflagged =>
    have flagged := prepared.flagged
    rw [unflagged] at flagged
    cases flagged
  | create _ _ resting => exact absurd (running.symm.trans resting) (by decide)
  | await _ _ waiting =>
    rw [available, running] at waiting
    rcases waiting with none | none <;> cases none
  | update _ _ _ h => exact ⟨_, rfl, h⟩

/-- A resource on which everything is initialised is due for creation, waiting or an update. -/
theorem runs_of_prepared {delay : Nat} {r : Resource} {res : Except Error Requeue}
    (prepared : r.Prepared)
    (h : (if r.databaseId.isEmpty && !r.isRunning then inPhase "create database" (create delay r)
      else if !r.isAvailable || !r.isRunning then
        inPhase "wait for database" (awaitRunning delay r)
      else inPhase "update database" (update delay r) : PassTask Requeue).run.Runs t res) :
    (step delay r).run.Runs t res := by
  unfold step
  rw [if_neg (by simp [prepared.wanted]), show r.addFinalizer? = none from if_pos prepared.guarded]
  simp only
  rw [if_neg (by simp [prepared.initialized]),
    if_neg (by simpa using Option.isSome_iff_ne_none.mp prepared.flagged)]
  exact h

theorem runs_of_course {delay : Nat} {r : Resource} {res : Except Error Requeue}
    (h : Course delay r t res) : (step delay r).run.Runs t res := by
  cases h with
  | finalize deleting h =>
    unfold step
    rw [if_pos deleting]
    exact Task.runs_inPhase_iff.mpr ⟨_, runs_of_finalizing h, rfl⟩
  | mark a wanted unguarded =>
    unfold step
    rw [if_neg (by simp [wanted]), show r.addFinalizer? = some _ from if_neg (by simp [unguarded])]
    exact runs_lastWrite_iff.mpr ⟨a, rfl, rfl⟩
  | init now a wanted guarded uninitialized =>
    unfold step
    rw [if_neg (by simp [wanted]), show r.addFinalizer? = none from if_pos guarded]
    simp only
    rw [if_pos (by simp [uninitialized])]
    exact reads_times.runs_write_iff.mpr ⟨now, a, rfl, rfl⟩
  | flag a wanted guarded initialized unflagged =>
    unfold step
    rw [if_neg (by simp [wanted]), show r.addFinalizer? = none from if_pos guarded]
    simp only
    rw [if_neg (by simp [initialized]), if_pos (by simp [unflagged])]
    exact runs_lastWrite_iff.mpr ⟨a, rfl, rfl⟩
  | create prepared unrecorded resting h =>
    refine runs_of_prepared prepared ?_
    rw [if_pos (by simp [unrecorded, resting])]
    exact Task.runs_inPhase_iff.mpr ⟨_, runs_of_creating h, rfl⟩
  | await prepared recorded waiting h =>
    refine runs_of_prepared prepared ?_
    rw [if_neg (by simpa [Classical.or_iff_not_imp_left] using recorded),
      if_pos (by simpa using waiting)]
    exact Task.runs_inPhase_iff.mpr ⟨_, runs_of_awaiting h, rfl⟩
  | update prepared available running h =>
    refine runs_of_prepared prepared ?_
    rw [if_neg (by simp [running]), if_neg (by simp [available, running])]
    exact Task.runs_inPhase_iff.mpr ⟨_, runs_of_updating h, rfl⟩

/-- The courses of a pass. -/
inductive Passing (delay : Nat) (namespaceName name : String) :
    List (Exchange pass) → Except Error Requeue → Prop
  | unread (e : StoreError) : Passing delay namespaceName name
      [⟨.resource (.get namespaceName name), .error e⟩] (.error (.store "get resource" e))
  | gone : Passing delay namespaceName name
      [⟨.resource (.get namespaceName name), .ok none⟩] (.ok .done)
  | found {r : Resource} {t : List (Exchange pass)} {res : Except Error Requeue} :
      Course delay r t res → Passing delay namespaceName name
        (⟨.resource (.get namespaceName name), .ok (some r)⟩ :: t) res

/-- A pass reads the resource and then takes a course of the step that it is due for. -/
theorem runs_run_iff {delay : Nat} {namespaceName name : String} {res : Except Error Requeue} :
    (run delay namespaceName name).run.Runs t res ↔ Passing delay namespaceName name t res := by
  constructor
  · intro h
    rcases Task.runs_bind_iff.mp h with ⟨e, rfl, h₁⟩ | ⟨t₁, t₂, found, rfl, h₁, h₂⟩
    · obtain ⟨a, rfl, ha⟩ := runs_resource_iff.mp h₁
      cases a with
      | ok _ => cases ha
      | error f => cases ha; exact .unread f
    obtain ⟨a, rfl, ha⟩ := runs_resource_iff.mp h₁
    cases a with
    | error f => cases ha
    | ok _ =>
      cases ha
      cases found with
      | none =>
        obtain ⟨rfl, rfl⟩ := Task.runs_pure_iff.mp h₂
        exact .gone
      | some r => exact .found (course_of_runs h₂)
  · intro h
    cases h with
    | unread e => exact Task.runs_bind_of_error (runs_resource_iff.mpr ⟨_, rfl, rfl⟩)
    | gone =>
      exact Task.runs_bind_of_single (runs_resource_iff.mpr ⟨.ok none, rfl, rfl⟩)
        (Task.runs_pure_iff.mpr ⟨rfl, rfl⟩)
    | @found r t res h =>
      exact Task.runs_bind_of_single (runs_resource_iff.mpr ⟨.ok (some r), rfl, rfl⟩)
        (runs_of_course h)

/-- The only step for a resource that is to be deleted finalizes it. -/
theorem Course.finalizing {delay : Nat} {r : Resource} {res : Except Error Requeue}
    (deleting : r.isDeletionRequested = true) (h : Course delay r t res) :
    ∃ res', res = res'.mapError (Error.phase "finalize") ∧ Finalizing r t res' := by
  cases h with
  | finalize _ h => exact ⟨_, rfl, h⟩
  | mark _ wanted | init _ _ wanted | flag _ wanted =>
    exact absurd (wanted.symm.trans deleting) (by decide)
  | create prepared | await prepared | update prepared =>
    exact absurd (prepared.wanted.symm.trans deleting) (by decide)

/-- A pass that finds a resource that is to be deleted does nothing but finalize it. -/
theorem Passing.finalizing {delay : Nat} {namespaceName name : String} {r : Resource}
    {res : Except Error Requeue} (deleting : r.isDeletionRequested = true)
    (h : Passing delay namespaceName name
      (⟨.resource (.get namespaceName name), .ok (some r)⟩ :: t) res) :
    ∃ res', Finalizing r t res' := by
  cases h with
  | found course =>
    obtain ⟨res', _, finalizing⟩ := course.finalizing deleting
    exact ⟨res', finalizing⟩

end Pass

end DatabaseOperator
