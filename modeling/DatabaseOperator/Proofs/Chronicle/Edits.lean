import DatabaseOperator.Proofs.History

namespace DatabaseOperator

namespace Chronicle

variable {s s' : Chronicle} {r w : Resource} {t : List (Exchange pass)}

theorem Evolves.of_append {u : List (Exchange pass)} (h : s.Evolves (t ++ u) s') :
    ∃ s₁, s.Evolves t s₁ ∧ s₁.Evolves u s' := by
  induction t generalizing s with
  | nil => exact ⟨s, .rest s, h⟩
  | cons e t ih =>
    obtain ⟨s₁, s₂, before, serves, after⟩ := h.of_cons
    obtain ⟨s₃, first, second⟩ := ih after
    exact ⟨s₃, before.append (.exchange serves first), second⟩

/-- Without writes the stored version is the old one with edits. -/
theorem Evolves.edited (h : s.Evolves t s') (quiet : Pass.Quiet t) (current : s.current = some r)
    (guarded : r.hasFinalizer = true) : ∃ r', s'.current = some r' ∧ r.Edit r' := by
  induction h generalizing r with
  | rest => exact ⟨r, current, .refl r⟩
  | @edit s s' old new t v unused stored edit _ ih =>
    obtain rfl : r = old := Option.some.inj (current.symm.trans stored)
    have guarded' : new.hasFinalizer = true := edit.finalizer.trans guarded
    obtain ⟨r', current', further⟩ := ih quiet (s.current_put_of_guarded guarded') guarded'
    exact ⟨r', current', (edit.renumbered v).trans further⟩
  | @exchange s s₁ s₂ e t serves _ ih =>
    obtain rfl := serves.eq_of_quiet (quiet e List.mem_cons_self)
    exact ih (fun e mem => quiet e (List.mem_cons_of_mem _ mem)) current guarded

/-- A status that was written under the number of a known version, and answered, is stored on that
version. -/
theorem Serves.current_of_updateStatus {stored : Resource} (known : r ∈ s.versions)
    (metadata : w.metadata = r.metadata) (spec : w.spec = r.spec) (guarded : r.hasFinalizer = true)
    (h : s.Serves ⟨.resource (.updateStatus w), .ok stored⟩ s') :
    ∃ v, s'.current = some (w.renumbered v) := by
  cases h with
  | @statusUpdated old _ _ v unused current number tells =>
    have same : old.metadata.resourceVersion = r.metadata.resourceVersion := by
      rw [number, metadata]
    obtain rfl := eq_of_number (mem_of_current current) known same
    have merged : { old with status := w.status } = w := by
      rw [← metadata, ← spec]
    rw [merged]
    refine ⟨v, s.current_put_of_guarded ?_⟩
    unfold Resource.hasFinalizer Resource.finalizers
    rw [metadata]
    exact guarded
  | other _ other => exact absurd rfl (other _)

/-- A pass that writes the status in the end leaves it stored, with edits after it. -/
theorem Evolves.written {stored : Resource}
    (h : s.Evolves (t ++ [⟨.resource (.updateStatus w), .ok stored⟩]) s')
    (current : s.current = some r) (metadata : w.metadata = r.metadata) (spec : w.spec = r.spec)
    (guarded : r.hasFinalizer = true) : ∃ r', s'.current = some r' ∧ w.Edit r' := by
  obtain ⟨s₁, before, after⟩ := h.of_append
  obtain ⟨s₂, s₃, edits, serves, later⟩ := after.of_cons
  have known : r ∈ s₂.versions := edits.subset (before.subset (mem_of_current current))
  obtain ⟨v, current'⟩ := serves.current_of_updateStatus known metadata spec guarded
  have guarded' : (w.renumbered v).hasFinalizer = true := by
    unfold Resource.hasFinalizer Resource.finalizers Resource.renumbered
    rw [metadata]
    exact guarded
  obtain ⟨r', current'', edit⟩ := later.edited Pass.quiet_nil current' guarded'
  exact ⟨r', current'', edit.status, edit.flag, edit.finalizer, edit.deletion⟩

/-- The stored version, if there is one, has no finalizer. -/
def Released (s : Chronicle) : Prop :=
  ∀ r, s.current = some r → r.hasFinalizer = false

theorem Released.put {v : Option String} {unused : s.Unused v} (bare : r.hasFinalizer = false) :
    (s.put r v unused).Released := by
  intro x current
  unfold Chronicle.put at current
  simp only at current
  split at current
  · cases current
  · cases current
    exact bare

theorem Evolves.released (h : s.Evolves t s') (quiet : Pass.Quiet t) (released : s.Released) :
    s'.Released := by
  induction h with
  | rest => exact released
  | edit v unused stored edit _ ih =>
    exact ih quiet (.put (edit.finalizer.trans (released _ stored)))
  | @exchange s s₁ s₂ e t serves _ ih =>
    obtain rfl := serves.eq_of_quiet (quiet e List.mem_cons_self)
    exact ih (fun e mem => quiet e (List.mem_cons_of_mem _ mem)) released

/-- A pass that removes the finalizer in the end leaves none. -/
theorem Evolves.released_of_update {stored : Resource}
    (h : s.Evolves (t ++ [⟨.resource (.update w), .ok stored⟩]) s') (bare : w.hasFinalizer = false) :
    s'.Released := by
  obtain ⟨s₁, _, after⟩ := h.of_append
  obtain ⟨s₂, s₃, _, serves, later⟩ := after.of_cons
  have released : s₃.Released := by
    cases serves with
    | updated => exact .put bare
    | other _ other => exact absurd rfl (other _)
  exact later.released Pass.quiet_nil released

end Chronicle

namespace PassRun

variable {delay : Nat} {namespaceName name : String} {s s' : Chronicle} {r : Resource}

/-- A pass over a resource with the finalizer cannot read it, or finds it with edits. -/
theorem cases_of_guarded (p : PassRun delay namespaceName name) (h : s.Evolves p.trace s')
    (current : s.current = some r) (guarded : r.hasFinalizer = true) :
    (∃ e, p.trace = [⟨.resource (.get namespaceName name), .error e⟩] ∧
        p.result = .error (.store "get resource" e) ∧ s.Evolves [] s') ∨
      ∃ (found : Resource) (s₁ : Chronicle) (t : List (Exchange pass)),
        p.trace = ⟨.resource (.get namespaceName name), .ok (some found)⟩ :: t ∧
        Pass.Course delay found t p.result ∧ s₁.current = some found ∧ r.Edit found ∧
        s₁.Evolves t s' := by
  have passing := Pass.runs_run_iff.mp p.runs
  generalize p.trace = trace at h passing ⊢
  generalize p.result = result at passing ⊢
  cases passing with
  | unread e =>
    obtain ⟨s₁, s₂, before, serves, after⟩ := h.of_cons
    obtain ⟨rfl, _⟩ := serves.of_get
    exact .inl ⟨e, rfl, rfl, before.append after⟩
  | gone =>
    obtain ⟨s₁, s₂, before, serves, _⟩ := h.of_cons
    obtain ⟨r₁, current₁, _⟩ := before.edited Pass.quiet_nil current guarded
    obtain ⟨rfl, told⟩ := serves.of_get
    rw [← told none rfl] at current₁
    cases current₁
  | found course =>
    obtain ⟨s₁, s₂, before, serves, after⟩ := h.of_cons
    obtain ⟨r₁, current₁, edit⟩ := before.edited Pass.quiet_nil current guarded
    obtain ⟨rfl, told⟩ := serves.of_get
    rw [← told _ rfl] at current₁
    cases current₁
    exact .inr ⟨_, s₂, _, rfl, course, (told _ rfl).symm, edit, after⟩

end PassRun

end DatabaseOperator
