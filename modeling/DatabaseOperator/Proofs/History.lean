import DatabaseOperator.Proofs.Chronicle.Moves

namespace DatabaseOperator

/-- A pass with what it asked and was answered. -/
structure PassRun (delay : Nat) (namespaceName name : String) where
  trace : List (Exchange pass)
  result : Except Error Requeue
  runs : (Pass.run delay namespaceName name).run.Runs trace result

namespace PassRun

variable {delay : Nat} {namespaceName name : String} {s s' : Chronicle}

/-- A pass that finds a resource and takes a course of the step that it is due for. -/
def found {r : Resource} {t : List (Exchange pass)} {res : Except Error Requeue}
    (course : Pass.Course delay r t res) : PassRun delay namespaceName name :=
  ⟨_, res, Pass.runs_run_iff.mpr (.found course)⟩

def Asks (p : PassRun delay namespaceName name) (c : PassCall) : Prop :=
  ∃ e ∈ p.trace, e.call = c

/-- The pass has read this version of the resource. -/
def Loads (p : PassRun delay namespaceName name) (r : Resource) : Prop :=
  ∃ t, p.trace = ⟨.resource (.get namespaceName name), .ok (some r)⟩ :: t

/-- The provider was asked for a database and gave this one. -/
def Creates (p : PassRun delay namespaceName name) (db : Database) : Prop :=
  ∃ wanted, (⟨.provider (.createDatabase wanted), .ok db⟩ : Exchange pass) ∈ p.trace

/-- A database with this id was created, and the status was written after that. -/
def Records (p : PassRun delay namespaceName name) (id : String) : Prop :=
  id ≠ "" ∧ (∃ db, p.Creates db ∧ db.id = id) ∧
    ∃ w stored, (⟨.resource (.updateStatus w), .ok stored⟩ : Exchange pass) ∈ p.trace

/-- The provider was asked to delete a database, and the database is gone. -/
def Deletes (p : PassRun delay namespaceName name) (id : String) : Prop :=
  ∃ a, Pass.isGone a = true ∧
    (⟨.provider (.deleteDatabase id), a⟩ : Exchange pass) ∈ p.trace

/-- The store was asked to keep a version without the finalizer. -/
def Releases (p : PassRun delay namespaceName name) : Prop :=
  ∃ w a, (⟨.resource (.update w), a⟩ : Exchange pass) ∈ p.trace ∧ w.hasFinalizer = false

/-- A pass finds nothing, or it takes a course of the step for what is stored then. -/
theorem cases_of_evolves (p : PassRun delay namespaceName name)
    (h : Chronicle.Evolves s p.trace s') :
    (∃ a, p.trace = [⟨.resource (.get namespaceName name), a⟩] ∧ Chronicle.Evolves s [] s') ∨
      ∃ (r : Resource) (s₁ : Chronicle) (t : List (Exchange pass)),
        p.trace = ⟨.resource (.get namespaceName name), .ok (some r)⟩ :: t ∧
        Pass.Course delay r t p.result ∧ Chronicle.Evolves s [] s₁ ∧ s₁.current = some r ∧
        Chronicle.Evolves s₁ t s' := by
  have passing := Pass.runs_run_iff.mp p.runs
  generalize p.trace = trace at h passing ⊢
  generalize p.result = result at passing ⊢
  cases passing with
  | unread e =>
    obtain ⟨s₁, s₂, before, serves, after⟩ := h.of_cons
    obtain ⟨rfl, _⟩ := serves.of_get
    exact .inl ⟨_, rfl, before.append after⟩
  | gone =>
    obtain ⟨s₁, s₂, before, serves, after⟩ := h.of_cons
    obtain ⟨rfl, _⟩ := serves.of_get
    exact .inl ⟨_, rfl, before.append after⟩
  | found course =>
    obtain ⟨s₁, s₂, before, serves, after⟩ := h.of_cons
    obtain ⟨rfl, told⟩ := serves.of_get
    exact .inr ⟨_, s₂, _, rfl, course, before, (told _ rfl).symm, after⟩

theorem moves (p : PassRun delay namespaceName name) (h : Chronicle.Evolves s p.trace s') :
    Chronicle.Moves s s' := by
  rcases p.cases_of_evolves h with ⟨_, _, edits⟩ | ⟨r, s₁, t, _, course, edits, current, after⟩
  · exact edits.moves_of_edits
  · exact edits.moves_of_edits.trans (after.moves (Chronicle.mem_of_current current) course.allowed)

end PassRun

/-- Passes over one resource, oldest first, with what other people do before, in and between them. -/
inductive History (delay : Nat) (namespaceName name : String) (s : Chronicle) :
    List (PassRun delay namespaceName name) → Chronicle → Prop
  | start : History delay namespaceName name s [] s
  | next {ps : List (PassRun delay namespaceName name)} {p : PassRun delay namespaceName name}
      {s' s'' : Chronicle} : History delay namespaceName name s ps s' →
      s'.Evolves p.trace s'' → History delay namespaceName name s (ps ++ [p]) s''

theorem History.of_concat {delay : Nat} {namespaceName name : String} {s s' : Chronicle}
    {ps : List (PassRun delay namespaceName name)} {p : PassRun delay namespaceName name}
    (h : History delay namespaceName name s (ps ++ [p]) s') :
    ∃ s₁, History delay namespaceName name s ps s₁ ∧ s₁.Evolves p.trace s' := by
  generalize run : ps ++ [p] = qs at h
  cases h with
  | start => simp at run
  | next before evolves =>
    obtain ⟨rfl, same⟩ := List.append_inj' run rfl
    cases same
    exact ⟨_, before, evolves⟩

/-- What a pass left stored stays known. -/
theorem History.evolves {delay : Nat} {namespaceName name : String} {s s' : Chronicle}
    {ps : List (PassRun delay namespaceName name)} (h : History delay namespaceName name s ps s') :
    ∀ p ∈ ps, ∃ s₁ s₂, Chronicle.Evolves s₁ p.trace s₂ ∧ s₂.versions ⊆ s'.versions := by
  induction h with
  | start => exact fun _ mem => nomatch mem
  | @next ps p s₁ s₂ before evolves ih =>
    intro q mem
    rcases List.mem_append.mp mem with earlier | last
    · obtain ⟨s₃, s₄, during, known⟩ := ih q earlier
      exact ⟨s₃, s₄, during, fun _ mem => evolves.subset (known mem)⟩
    · obtain rfl := List.mem_singleton.mp last
      exact ⟨s₁, s₂, evolves, fun _ => id⟩

theorem History.moves {delay : Nat} {namespaceName name : String} {s s' : Chronicle}
    {ps : List (PassRun delay namespaceName name)}
    (h : History delay namespaceName name s ps s') : s.Moves s' := by
  induction h with
  | start => exact .rest _
  | @next ps p s' s'' _ evolves ih => exact ih.trans (p.moves evolves)

end DatabaseOperator
