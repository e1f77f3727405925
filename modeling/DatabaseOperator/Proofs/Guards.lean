import DatabaseOperator.Proofs.History
import DatabaseOperator.Proofs.Pass.Minds

namespace DatabaseOperator

/-- A call to the provider, or one that opens the connection to it. -/
def PassCall.Remote : PassCall → Prop
  | .connect _ _ => True
  | .provider _ => True
  | _ => False

/-- A call that is to store this version of a resource. -/
def PassCall.Writes (w : Resource) (c : PassCall) : Prop :=
  c = .resource (.update w) ∨ c = .resource (.updateStatus w)

/-- The new version brings the finalizer, the first conditions or the first running flag. -/
def Resource.PreparedBy (r w : Resource) : Prop :=
  (r.hasFinalizer = false ∧ w.hasFinalizer = true) ∨
    (r.isInitialized = false ∧ w.isInitialized = true) ∨
    (r.runningFlag? = none ∧ w.runningFlag? = some false)

namespace Pass

/-- What a pass may do with the resource that it has read. -/
structure Orderly (r : Resource) (t : List (Exchange pass)) : Prop where
  guarded : ∀ e ∈ t, e.call.Remote → r.hasFinalizer = true
  created : ∀ e ∈ t, ∀ wanted, e.call = .provider (.createDatabase wanted) →
    r.hasFinalizer = true ∧ r.isDeletionRequested = false ∧ r.isInitialized = true ∧
      r.runningFlag? = some false ∧ r.databaseId = ""
  deleted : ∀ e ∈ t, ∀ id, e.call = .provider (.deleteDatabase id) →
    r.isDeletionRequested = true ∧ id = r.databaseId
  unasked : r.isDeletionRequested = true → ∀ e ∈ t, ∀ c, e.call = .provider c →
    c = .deleteDatabase r.databaseId
  unnoted : r.isDeletionRequested = true → ∀ e ∈ t, ∀ w, e.call ≠ .resource (.updateStatus w)
  unmarked : r.isDeletionRequested = true → ∀ e ∈ t, ∀ w, e.call = .resource (.update w) →
    w.finalizers ⊆ r.finalizers
  single : ∀ e ∈ t, ∀ w, e.call.Writes w → r.PreparedBy w →
    t = [e] ∨ ∃ now : Times, t = ticks now.toList ++ [e]

variable {t : List (Exchange pass)} {r w : Resource} {e : Exchange pass} {delay : Nat}
  {res : Except Error Requeue}

/-- A course of the deletion makes two calls besides the opening of the connection. -/
theorem Finalizing.cases_of_mem (h : Finalizing r t res) (mem : e ∈ t) :
    r.hasFinalizer = true ∧
      (((∀ c, e.call ≠ .provider c) ∧ ∀ c, e.call ≠ .resource c) ∨
        e.call = .provider (.deleteDatabase r.databaseId) ∨
        e.call = .resource (.update r.removeFinalizer)) := by
  cases h with
  | unguarded => cases mem
  | unrecorded a guarded =>
    cases List.mem_singleton.mp mem
    exact ⟨guarded, .inr (.inr rfl)⟩
  | closed guarded _ opening =>
    exact ⟨guarded, .inl ⟨opening.unasked e mem, opening.quiet e mem⟩⟩
  | refused guarded _ opening =>
    refine ⟨guarded, ?_⟩
    rcases List.mem_append.mp mem with early | late
    · exact .inl ⟨opening.unasked e early, opening.quiet e early⟩
    · cases List.mem_singleton.mp late
      exact .inr (.inl rfl)
  | deleted a b guarded _ opening =>
    refine ⟨guarded, ?_⟩
    rcases List.mem_append.mp mem with early | late
    · exact .inl ⟨opening.unasked e early, opening.quiet e early⟩
    simp only [List.mem_cons, List.not_mem_nil, or_false] at late
    rcases late with rfl | rfl
    · exact .inr (.inl rfl)
    · exact .inr (.inr rfl)

/-- The only call to the provider deletes the recorded database. -/
theorem Finalizing.eq_of_asked {c : ProviderCall} (h : Finalizing r t res) (mem : e ∈ t)
    (asked : e.call = .provider c) : c = .deleteDatabase r.databaseId := by
  rcases (h.cases_of_mem mem).2 with ⟨unasked, _⟩ | deleted | updated
  · exact absurd asked (unasked c)
  · exact PassCall.provider.inj (asked.symm.trans deleted)
  · cases asked.symm.trans updated

/-- The only call to the store of resources removes the finalizer. -/
theorem Finalizing.eq_of_stored {c : ResourceCall} (h : Finalizing r t res) (mem : e ∈ t)
    (stored : e.call = .resource c) : c = .update r.removeFinalizer := by
  rcases (h.cases_of_mem mem).2 with ⟨_, quiet⟩ | deleted | updated
  · exact absurd stored (quiet c)
  · cases stored.symm.trans deleted
  · exact PassCall.resource.inj (stored.symm.trans updated)

theorem Course.guarded (h : Course delay r t res) (mem : e ∈ t) (remote : e.call.Remote) :
    r.hasFinalizer = true := by
  cases h with
  | finalize _ h => exact (h.cases_of_mem mem).1
  | mark a =>
    cases List.mem_singleton.mp mem
    cases remote
  | init _ _ _ guarded => exact guarded
  | flag _ _ guarded => exact guarded
  | create prepared | await prepared | update prepared => exact prepared.guarded

theorem Course.created {wanted : Database} (h : Course delay r t res) (mem : e ∈ t)
    (asked : e.call = .provider (.createDatabase wanted)) :
    r.Prepared ∧ r.databaseId = "" ∧ r.isRunning = false := by
  cases h with
  | finalize _ h => cases h.eq_of_asked mem asked
  | mark a | flag a =>
    cases List.mem_singleton.mp mem
    cases asked
  | init now a => exact ((minds_timed _ a : Minds "" _) e mem _ asked).elim
  | create prepared unrecorded resting => exact ⟨prepared, unrecorded, resting⟩
  | await _ _ _ h => exact (h.minds e mem _ asked).elim
  | update _ _ _ h => exact (h.minds e mem _ asked).elim

theorem Course.deleting {id : String} (h : Course delay r t res) (mem : e ∈ t)
    (asked : e.call = .provider (.deleteDatabase id)) :
    r.isDeletionRequested = true ∧ id = r.databaseId := by
  cases h with
  | finalize deleting h =>
    exact ⟨deleting, ProviderCall.deleteDatabase.inj (h.eq_of_asked mem asked)⟩
  | mark a | flag a =>
    cases List.mem_singleton.mp mem
    cases asked
  | init now a => exact ((minds_timed _ a : Minds "" _) e mem _ asked).elim
  | create _ _ _ h =>
    rcases h.minds "" e mem _ asked with none | ⟨_, other⟩
    · exact none.elim
    · cases other
  | await _ _ _ h => exact (h.minds e mem _ asked).elim
  | update _ _ _ h => exact (h.minds e mem _ asked).elim

theorem not_preparedBy_of_prepared (prepared : r.Prepared) : ¬ r.PreparedBy w := by
  rintro (⟨unguarded, _⟩ | ⟨uninitialized, _⟩ | ⟨unflagged, _⟩)
  · rw [prepared.guarded] at unguarded
    cases unguarded
  · rw [prepared.initialized] at uninitialized
    cases uninitialized
  · have flagged := prepared.flagged
    rw [unflagged] at flagged
    cases flagged

theorem not_preparedBy_removeFinalizer : ¬ r.PreparedBy r.removeFinalizer := by
  rintro (⟨_, marked⟩ | ⟨uninitialized, initialized⟩ | ⟨unflagged, flagged⟩)
  · rw [Resource.hasFinalizer_removeFinalizer] at marked
    cases marked
  · cases uninitialized.symm.trans initialized
  · cases unflagged.symm.trans flagged

/-- The preparation is one write a pass. -/
theorem Course.single (h : Course delay r t res) (mem : e ∈ t) (writes : e.call.Writes w)
    (prepares : r.PreparedBy w) : t = [e] ∨ ∃ now : Times, t = ticks now.toList ++ [e] := by
  cases h with
  | finalize _ h =>
    rcases writes with update | status
    · cases h.eq_of_stored mem update
      exact absurd prepares not_preparedBy_removeFinalizer
    · cases h.eq_of_stored mem status
  | mark a | flag a =>
    cases List.mem_singleton.mp mem
    exact .inl rfl
  | init now a =>
    rcases List.mem_append.mp mem with read | last
    · rcases writes with other | other <;> exact absurd other (quiet_ticks _ e read _)
    · obtain rfl := List.mem_singleton.mp last
      exact .inr ⟨now, rfl⟩
  | create prepared | await prepared | update prepared =>
    exact absurd prepares (not_preparedBy_of_prepared prepared)

theorem Course.orderly (h : Course delay r t res) : Orderly r t where
  guarded _ mem remote := h.guarded mem remote
  created _ mem _ asked := by
    obtain ⟨prepared, unrecorded, resting⟩ := h.created mem asked
    obtain ⟨flag, flagged⟩ := Option.isSome_iff_exists.mp prepared.flagged
    have off : flag = false := by simpa [Resource.isRunning, flagged] using resting
    exact ⟨prepared.guarded, prepared.wanted, prepared.initialized, off ▸ flagged, unrecorded⟩
  deleted _ mem _ asked := h.deleting mem asked
  unasked deleting _ mem _ asked := by
    obtain ⟨_, _, finalizing⟩ := h.finalizing deleting
    exact finalizing.eq_of_asked mem asked
  unnoted deleting _ mem _ stored := by
    obtain ⟨_, _, finalizing⟩ := h.finalizing deleting
    cases finalizing.eq_of_stored mem stored
  unmarked deleting _ mem _ stored := by
    obtain ⟨_, _, finalizing⟩ := h.finalizing deleting
    cases finalizing.eq_of_stored mem stored
    exact List.filter_sublist.subset
  single _ mem _ writes prepares := h.single mem writes prepares

end Pass

/-- Whatever is stored and whatever fails, a pass that finds a resource keeps to the order of the steps,
and one that finds none only reads. -/
theorem PassRun.keeps_order {delay : Nat} {namespaceName name : String}
    (p : PassRun delay namespaceName name) :
    (∃ a, p.trace = [⟨.resource (.get namespaceName name), a⟩]) ∨
      ∃ r t, p.trace = ⟨.resource (.get namespaceName name), .ok (some r)⟩ :: t ∧
        Pass.Orderly r t := by
  have passing := Pass.runs_run_iff.mp p.runs
  generalize p.trace = trace at passing ⊢
  generalize p.result = result at passing
  cases passing with
  | unread e => exact .inl ⟨_, rfl⟩
  | gone => exact .inl ⟨_, rfl⟩
  | found course => exact .inr ⟨_, _, rfl, course.orderly⟩

end DatabaseOperator
