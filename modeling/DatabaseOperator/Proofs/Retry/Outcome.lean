import DatabaseOperator.Proofs.Aftermath
import DatabaseOperator.Proofs.Retry.Leaving
import DatabaseOperator.Proofs.Retry.Waiting

namespace DatabaseOperator

variable {π : Type} {R : Counterpart π} {l : Login} {a b c : Site π} {r r' : Resource}
  {delay : Nat} {namespaceName name : String} {t : List (Exchange pass)}
  {res : Except Error Requeue} {err : Error}

namespace Counterpart

/-- In calm times a pass comes to its end. -/
theorem exists_pass (R : Counterpart π) (a : Site π) (delay : Nat) (namespaceName name : String) :
    ∃ (p : PassRun delay namespaceName name) (b : Site π), R.Serves false .blank a p.trace b := by
  obtain ⟨t, res, b, runs, serves⟩ := R.exists_serves .blank a (Pass.run delay namespaceName name).run
  exact ⟨⟨t, res, runs⟩, b, serves⟩

/-- The resource waits for its database, and goes on to be let in once the connection string is written,
or it is to be deleted. -/
inductive Due (R : Counterpart π) (r : Resource) (a : Site π) : Prop
  | waits : r.Waits → R.Lasting r a → Due R r a
  | leaves : r.Leaves → Due R r a

theorem Due.phase (h : R.Due r a) : r.Waits ∨ r.Leaves := by
  cases h with
  | waits waits => exact .inl waits
  | leaves leaves => exact .inr leaves

theorem Due.leaves_of_deleting (h : R.Due r a) (deleting : r.isDeletionRequested = true) : r.Leaves :=
  h.phase.resolve_left fun waits => absurd (waits.wanted.symm.trans deleting) (by decide)

/-- What the step for a resource that waits or leaves comes to, and what there is then. -/
def outcome (R : Counterpart π) (delay : Nat) (r : Resource) (a : Site π) :
    Except Error Requeue × Site π :=
  if r.isDeletionRequested then
    ((R.leave r a).1.mapError (Error.phase "finalize"), (R.leave r a).2)
  else ((R.wait delay r a).1.mapError (Error.phase "wait for database"), (R.wait delay r a).2)

theorem outcome_of_leaves (leaves : r.Leaves) : R.outcome delay r a =
    ((R.leave r a).1.mapError (Error.phase "finalize"), (R.leave r a).2) :=
  if_pos leaves.deleting

theorem outcome_of_waits (waits : r.Waits) : R.outcome delay r a =
    ((R.wait delay r a).1.mapError (Error.phase "wait for database"), (R.wait delay r a).2) :=
  if_neg (by simp [waits.wanted])

end Counterpart

namespace Pass

/-- What is recorded and does not run yet is due for the wait. -/
theorem Course.awaiting (h : Course delay r t res) (waits : r.Waits) :
    ∃ res', res = res'.mapError (Error.phase "wait for database") ∧ Awaiting delay r t res' := by
  have resting : r.isRunning = false := by
    unfold Resource.isRunning
    rw [waits.resting]
    rfl
  cases h with
  | finalize deleting => exact absurd (waits.wanted.symm.trans deleting) (by decide)
  | mark _ _ unguarded => exact absurd (waits.guarded.symm.trans unguarded) (by decide)
  | init _ _ _ _ uninitialized =>
    exact absurd (waits.initialized.symm.trans uninitialized) (by decide)
  | flag _ _ _ _ unflagged => cases waits.resting.symm.trans unflagged
  | create _ unrecorded => exact absurd unrecorded waits.recorded
  | await _ _ _ h => exact ⟨_, rfl, h⟩
  | update _ _ running => exact absurd (running.symm.trans resting) (by decide)

/-- In calm times, the step comes to what it should. -/
theorem Course.calm (h : Course delay r t res) (serves : R.Serves false l a t b) (steady : R.Steady)
    (current : a.resource = some r) (phase : r.Waits ∨ r.Leaves) :
    res = (R.outcome delay r a).1 ∧ b.Like (R.outcome delay r a).2 := by
  rcases phase with waits | leaves
  · obtain ⟨res', rfl, awaiting⟩ := h.awaiting waits
    obtain ⟨rfl, like⟩ := awaiting.calm serves steady current waits.wanted
    rw [Counterpart.outcome_of_waits waits]
    exact ⟨rfl, like⟩
  · obtain ⟨res', rfl, finalizing⟩ := h.finalizing leaves.deleting
    obtain ⟨rfl, like⟩ := finalizing.calm serves steady current leaves.guarded
    rw [Counterpart.outcome_of_leaves leaves]
    exact ⟨rfl, like⟩

end Pass

namespace Counterpart

/-- A step that has failed leaves behind a resource that is due for the same, and comes to the same. -/
structure Undone (R : Counterpart π) (delay : Nat) (r : Resource) (a b : Site π) (r' : Resource) :
    Prop where
  current : b.resource = some r'
  due : R.Due r' b
  result : (R.outcome delay r' b).1 = (R.outcome delay r a).1
  left : (R.outcome delay r' b).2.Like (R.outcome delay r a).2

namespace Undone

theorem refl (current : a.resource = some r) (due : R.Due r a) : R.Undone delay r a a r :=
  ⟨current, due, rfl, .refl _⟩

theorem trans {s : Resource} (h : R.Undone delay r a b r') (g : R.Undone delay r' b c s) :
    R.Undone delay r a c s :=
  ⟨g.current, g.due, g.result.trans h.result, g.left.trans h.left⟩

end Undone

theorem Waited.exists_resource (h : R.Waited r a b) (current : a.resource = some r) (waits : r.Waits) :
    ∃ r', b.resource = some r' ∧ r.Concurs r' ∧ r'.Waits := by
  have noted := Resource.concurs_setProvisioned r .epoch
  cases h with
  | still like =>
    obtain ⟨r', current', same⟩ := like.exists_resource current
    exact ⟨r', current', Resource.concurs_of_timeless same, waits.of_timeless same⟩
  | noted _ like | handed _ _ like =>
    obtain ⟨r', current', same⟩ := like.exists_resource rfl
    exact ⟨r', current', noted.trans (Resource.concurs_of_timeless same),
      waits.setProvisioned.of_timeless same⟩

theorem Waited.undone (h : R.Waited r a b) (current : a.resource = some r) (waits : r.Waits)
    (lasting : R.Lasting r a) : ∃ r', R.Undone delay r a b r' := by
  obtain ⟨r', current', concurs, waits'⟩ := h.exists_resource current waits
  obtain ⟨result, left⟩ := h.wait_eq delay lasting current current'
  refine ⟨r', current', .waits waits' (lasting.of_waited h concurs), ?_, ?_⟩
  · rw [outcome_of_waits waits, outcome_of_waits waits', result]
  · rw [outcome_of_waits waits, outcome_of_waits waits']
    exact left

theorem Left.undone (h : R.Left r a b) (steady : R.Steady) (current : a.resource = some r)
    (leaves : r.Leaves) : ∃ r', R.Undone delay r a b r' := by
  obtain ⟨r', current', same⟩ : ∃ r', b.resource = some r' ∧ r'.timeless = r.timeless := by
    cases h with
    | still like | dropped _ like => exact like.exists_resource current
  have leaves' := leaves.of_timeless same
  obtain ⟨result, left⟩ := h.leave_eq steady current current'
  refine ⟨r', current', .leaves leaves', ?_, ?_⟩
  · rw [outcome_of_leaves leaves, outcome_of_leaves leaves', result]
  · rw [outcome_of_leaves leaves, outcome_of_leaves leaves']
    exact left

/-- Where nothing has changed, everything comes to the same. -/
theorem undone_of_like (delay : Nat) (like : b.Like a) (steady : R.Steady)
    (current : a.resource = some r) (due : R.Due r a) : ∃ r', R.Undone delay r a b r' := by
  cases due with
  | waits waits lasting => exact Waited.undone (.still like) current waits lasting
  | leaves leaves => exact Left.undone (.still like) steady current leaves

end Counterpart

/-- A step that fails has not changed what is due and what it comes to. -/
theorem Pass.Course.undone (h : Course delay r t (.error err)) (serves : R.Serves true l a t b)
    (steady : R.Steady) (current : a.resource = some r) (due : R.Due r a) :
    ∃ r', R.Undone delay r a b r' := by
  cases due with
  | waits waits lasting =>
    obtain ⟨res, failed, awaiting⟩ := h.awaiting waits
    cases res with
    | ok next => cases failed
    | error e =>
      have left := awaiting.troubled serves steady current waits.wanted
      exact left.undone current waits lasting
  | leaves leaves =>
    obtain ⟨res, failed, finalizing⟩ := h.finalizing leaves.deleting
    cases res with
    | ok next => cases failed
    | error e =>
      have left := finalizing.troubled serves steady
      exact left.undone steady current leaves

namespace PassRun

/-- In calm times, a pass comes to what its step should come to. -/
theorem calm (p : PassRun delay namespaceName name) (serves : R.Serves false l a p.trace b)
    (steady : R.Steady) (current : a.resource = some r) (phase : r.Waits ∨ r.Leaves) :
    p.result = (R.outcome delay r a).1 ∧ b.Like (R.outcome delay r a).2 := by
  have passing := Pass.runs_run_iff.mp p.runs
  generalize p.trace = trace at passing serves
  generalize p.result = result at passing ⊢
  cases passing with
  | unread e =>
    obtain ⟨_, answers, _⟩ := serves.of_calm
    cases answers.of_get.1
  | gone =>
    obtain ⟨_, answers, _⟩ := serves.of_calm
    have told := Except.ok.inj answers.of_get.1
    cases told.trans current
  | found course =>
    obtain ⟨_, answers, after⟩ := serves.of_calm
    obtain ⟨told, rfl⟩ := answers.of_get
    obtain rfl := Option.some.inj ((Except.ok.inj told).trans current)
    exact course.calm after steady current phase

/-- A pass that fails has read the resource as it is, and then its step has failed, unless it did not
even read it. -/
theorem cases_of_troubled {p : PassRun delay namespaceName name} (failed : p.result = .error err)
    (serves : R.Serves true l a p.trace b) (steady : R.Steady) :
    (b.Like a ∧ ∃ e, p.trace = [⟨.resource (.get namespaceName name), .error e⟩]) ∨
      ∃ r' t a₁, a₁.Like a ∧ a₁.resource = some r' ∧ Pass.Course delay r' t (.error err) ∧
        p.trace = ⟨.resource (.get namespaceName name), .ok (some r')⟩ :: t ∧ R.Serves true l a₁ t b := by
  rcases p.cases_of_error failed with ⟨e, unread⟩ | ⟨r', t, loaded, course⟩
  · rw [unread] at serves
    exact .inl ⟨(serves.of_idle steady Exchange.idle_of_refused).1, e, unread⟩
  · rw [loaded] at serves
    obtain ⟨a₁, a₂, like, _, answers, after⟩ := serves.of_granted trivial
    obtain ⟨told, rfl⟩ := answers.of_get
    exact .inr ⟨r', t, a₂, like, (Except.ok.inj told).symm, course, loaded, after⟩

/-- A pass that fails has not changed what is due and what it comes to. -/
theorem undone {p : PassRun delay namespaceName name} (failed : p.result = .error err)
    (serves : R.Serves true l a p.trace b) (steady : R.Steady) (current : a.resource = some r)
    (due : R.Due r a) : ∃ r', R.Undone delay r a b r' := by
  rcases cases_of_troubled failed serves steady with
    ⟨like, _⟩ | ⟨r₁, t, a₁, like, current₁, course, _, after⟩
  · exact Counterpart.undone_of_like delay like steady current due
  · obtain ⟨r₂, first⟩ := Counterpart.undone_of_like delay like steady current due
    obtain rfl := Option.some.inj (first.current.symm.trans current₁)
    obtain ⟨r₃, second⟩ := course.undone after steady current₁ first.due
    exact ⟨r₃, first.trans second⟩

/-- A database was deleted, and the provider said so. -/
def Drops (p : PassRun delay namespaceName name) : Prop :=
  ∃ id, (⟨.provider (.deleteDatabase id), .ok ()⟩ : Exchange pass) ∈ p.trace

/-- After a pass that has deleted the database and failed, all that is left to do is to let the resource
go. -/
theorem Drops.outcome_eq {p : PassRun delay namespaceName name} (drops : p.Drops)
    (failed : p.result = .error err) (serves : R.Serves true l a p.trace b) (steady : R.Steady)
    (current : a.resource = some r) (due : R.Due r a) :
    (R.outcome delay r a).1 = .ok .done ∧ (R.outcome delay r a).2.Released := by
  obtain ⟨id, deleted⟩ := drops
  rcases cases_of_troubled failed serves steady with
    ⟨_, e, unread⟩ | ⟨r₁, t, a₁, like, current₁, course, loaded, after⟩
  · rw [unread] at deleted
    cases List.mem_singleton.mp deleted
  rw [loaded] at deleted
  rcases List.mem_cons.mp deleted with first | later
  · cases first
  obtain ⟨r₂, same⟩ := Counterpart.undone_of_like delay like steady current due
  obtain rfl := Option.some.inj (same.current.symm.trans current₁)
  have asked : (⟨.provider (.deleteDatabase id), .ok ()⟩ : Exchange pass).call =
      .provider (.deleteDatabase id) := rfl
  have deleting := (course.deleting later asked).1
  have leaves : r₂.Leaves := same.due.leaves_of_deleting deleting
  obtain ⟨res, _, finalizing⟩ := course.finalizing deleting
  have dropping := finalizing.dropping after steady later
  have ended := same.result
  have left := same.left
  rw [Counterpart.outcome_of_leaves leaves, dropping.leave_eq] at ended left
  refine ⟨ended.symm, left.symm.released fun x kept => ?_⟩
  obtain rfl := Resource.eq_of_kept? kept
  exact Resource.hasFinalizer_removeFinalizer

end PassRun

namespace Counterpart

/-- Passes over one resource, one after the other, that all fail. -/
inductive Retries (R : Counterpart π) (delay : Nat) (namespaceName name : String) :
    Site π → List (PassRun delay namespaceName name) → Site π → Prop
  | rest (a : Site π) : Retries R delay namespaceName name a [] a
  | failed {a b c : Site π} {p : PassRun delay namespaceName name}
      {ps : List (PassRun delay namespaceName name)} {err : Error} : p.result = .error err →
      R.Serves true .blank a p.trace b → Retries R delay namespaceName name b ps c →
      Retries R delay namespaceName name a (p :: ps) c

theorem Retries.undone {ps : List (PassRun delay namespaceName name)}
    (h : R.Retries delay namespaceName name a ps b) (steady : R.Steady)
    (current : a.resource = some r) (due : R.Due r a) : ∃ r', R.Undone delay r a b r' := by
  -- each pass that fails leaves another version for the next one
  induction h generalizing r with
  | rest a => exact ⟨r, .refl current due⟩
  | failed failed serves _ ih =>
    obtain ⟨r₁, first⟩ := PassRun.undone failed serves steady current due
    obtain ⟨r₂, second⟩ := ih first.current first.due
    exact ⟨r₂, first.trans second⟩

/-- What is left to do stays the same, and a pass that has deleted the database does not change that. -/
theorem Retries.outcome_eq {ps : List (PassRun delay namespaceName name)}
    (h : R.Retries delay namespaceName name a ps b) (steady : R.Steady)
    (current : a.resource = some r) (due : R.Due r a) {f : PassRun delay namespaceName name} (mem : f ∈ ps)
    (drops : f.Drops) :
    (R.outcome delay r a).1 = .ok .done ∧ (R.outcome delay r a).2.Released := by
  induction h generalizing r with
  | rest a => cases mem
  | failed failed serves _ ih =>
    rcases List.mem_cons.mp mem with rfl | later
    · exact drops.outcome_eq failed serves steady current due
    · obtain ⟨r₁, first⟩ := PassRun.undone failed serves steady current due
      obtain ⟨done, released⟩ := ih first.current first.due later
      exact ⟨first.result.symm.trans done, first.left.symm.released released⟩

end Counterpart

end DatabaseOperator
