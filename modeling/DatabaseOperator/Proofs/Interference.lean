import DatabaseOperator.Proofs.Guards
import DatabaseOperator.Proofs.Overtaking
import DatabaseOperator.Proofs.Resource.Ownership

namespace DatabaseOperator

open Moment

namespace Error

theorem isConflict_root (err : Error) : err.root.isConflict = err.isConflict := by
  induction err with
  | phase action cause ih => exact ih
  | invalid | empty | precondition | provider | store => rfl

theorem isNotFound_root (err : Error) : err.root.isNotFound = err.isNotFound := by
  induction err with
  | phase action cause ih => exact ih
  | invalid | empty | precondition | provider | store => rfl

end Error

theorem Exchange.Refused.unique {e : Exchange pass} {f g : StoreError} (h : e.Refused f)
    (h' : e.Refused g) : f = g := by
  unfold Exchange.Refused at h h'
  split at h
  · exact h.symm.trans h'
  · exact h.elim

/-- Someone else has acted since the pass last called the store of resources. -/
def Moment.Overtaken (ms : List Moment) : Prop :=
  ∃ before m after, ms = before ++ m :: after ∧ m.isForeign = true ∧ Pass.Quiet (calls after)

namespace Chronicle

variable {s s' : Chronicle} {r w : Resource} {e : Exchange pass} {t : List (Exchange pass)}

/-- The store says why it refuses a write: something else is stored, or nothing. -/
def Explains (s : Chronicle) (e : Exchange pass) : Prop :=
  ∃ name, e.Refused (if s.current.isSome then .conflict name else .notFound name)

/-- A write of a change to a version that is not stored any more is refused. -/
theorem Keeps.refused_of_stale (h : s.Keeps e s') (allowed : Pass.Allowed r (e :: t)) (stale : s.Stale r)
    (writes : e.call.Writes w) : s' = s ∧ ∃ f, e.Refused f := by
  cases allowed with
  | other a silent =>
    rcases writes with update | status
    · exact absurd update (silent _)
    · exact absurd status (silent _)
  | update a change =>
    cases h with
    | failed c f => exact ⟨rfl, f, rfl⟩
    | updated v unused current same =>
      exact absurd (same.trans change.number.symm) (stale _ current)
    | other _ other => exact absurd rfl (other _)
  | updateStatus a change =>
    cases h with
    | failed c f => exact ⟨rfl, f, rfl⟩
    | statusUpdated v unused current same =>
      exact absurd (same.trans change.number.symm) (stale _ current)
    | other _ other => exact absurd rfl (other _)

end Chronicle

/-- What the pass has in mind stays the same while it calls others than the store of resources. -/
theorem Pass.Quiet.allowed_of_append {r : Resource} {t u : List (Exchange pass)} (quiet : Pass.Quiet t)
    (h : Pass.Allowed r (t ++ u)) : Pass.Allowed r u := by
  induction t with
  | nil => exact h
  | cons e t ih =>
    have silent := quiet e List.mem_cons_self
    cases h with
    | other a _ rest => exact ih (fun x mem => quiet x (List.mem_cons_of_mem _ mem)) rest
    | update | updateStatus => exact absurd rfl (silent _)

namespace PassRun

variable {delay : Nat} {namespaceName name : String} {p : PassRun delay namespaceName name}
  {s s₁ s₂ : Chronicle} {w : Resource} {e : Exchange pass} {before after ms : List Moment}

/-- The first call of every pass is the load. -/
theorem get_of_first {u : List (Exchange pass)} (first : p.trace = e :: u) :
    ∃ a, e = ⟨.resource (.get namespaceName name), a⟩ := by
  have passing := Pass.runs_run_iff.mp p.runs
  rw [first] at passing
  generalize p.result = result at passing
  cases passing with
  | unread | gone | found => exact ⟨_, rfl⟩

/-- A pass that goes on after its first call has loaded a resource. -/
theorem loaded_of_append {t u : List (Exchange pass)} (split : p.trace = t ++ u) (begun : t ≠ [])
    (pending : u ≠ []) : ∃ r t', t = ⟨.resource (.get namespaceName name), .ok (some r)⟩ :: t' ∧
      Pass.Course delay r (t' ++ u) p.result := by
  obtain ⟨first, t', rfl⟩ := List.exists_cons_of_ne_nil begun
  have passing := Pass.runs_run_iff.mp p.runs
  rw [split] at passing
  generalize whole : first :: t' ++ u = trace at passing
  generalize p.result = result at passing ⊢
  have single {e : Exchange pass} (only : first :: t' ++ u = [e]) : u = [] :=
    (List.append_eq_nil_iff.mp (List.cons.inj only).2).2
  cases passing with
  | unread e => exact absurd (single whole) pending
  | gone => exact absurd (single whole) pending
  | found course =>
    obtain ⟨rfl, rfl⟩ := List.cons.inj whole
    exact ⟨_, t', rfl, course⟩

/-- The version that a pass has in mind at a later call was stored before. -/
theorem known_of_unfolds {t u : List (Exchange pass)} (split : p.trace = t ++ u) (begun : t ≠ [])
    (pending : u ≠ []) (traced : calls ms = t) (h : s.Unfolds ms s₁) :
    ∃ r ∈ s₁.versions, Pass.Allowed r u := by
  obtain ⟨r, t', rfl, course⟩ := p.loaded_of_append split begun pending
  obtain ⟨s₂, later, current, rest, rfl⟩ := h.of_load traced
  exact rest.carried (Chronicle.mem_of_current current) course.allowed

section Timeline

variable (traced : calls ms = p.trace) (split : ms = before ++ .call e :: after)

include traced split

theorem trace_eq : p.trace = calls before ++ e :: calls after := by
  rw [← traced, split, calls_append, calls_call]

/-- A call of a pass changes nothing, or it stores a version on top of the stored one that leaves alone
what belongs to others. -/
theorem effect (h : s.Unfolds before s₁) (keeps : s₁.Keeps e s₂) :
    s₂ = s₁ ∨ ∃ old new v unused, s₁.current = some old ∧ old.Untouched new ∧
      s₂ = s₁.put new v unused := by
  have whole := trace_eq traced split
  by_cases first : calls before = []
  · rw [first] at whole
    obtain ⟨a, rfl⟩ := p.get_of_first whole
    exact .inl (keeps.eq_of_not_stored id)
  · obtain ⟨r, known, allowed⟩ := p.known_of_unfolds whole first (List.cons_ne_nil _ _) rfl h
    rcases keeps.of_allowed known allowed with ⟨same, _⟩ | ⟨w, v, unused, current, change, stored, _⟩
    · exact .inl same
    · exact .inr ⟨r, w, v, unused, current, change.untouched, stored⟩

/-- A write that comes after someone else has acted changes nothing, and the pass fails with the
reason. -/
theorem refused_of_overtaken (writes : e.call.Writes w) (h : s.Unfolds before s₁)
    (keeps : s₁.Keeps e s₂) (overtaken : Overtaken before) :
    s₂ = s₁ ∧ ∃ action f err, e.Refused f ∧ p.result = .error err ∧ err.root = .store action f := by
  obtain ⟨earlier, m, later, rfl, foreign, quiet⟩ := overtaken
  have whole : p.trace = calls earlier ++ (calls later ++ e :: calls after) := by
    rw [trace_eq traced split, calls_append, calls_cons_of_foreign foreign, List.append_assoc]
  have pending : calls later ++ e :: calls after ≠ [] := by simp
  -- the load is a call to the store, so it comes before the others act
  have begun : calls earlier ≠ [] := by
    intro none
    rw [none, List.nil_append] at whole
    cases between : calls later with
    | nil =>
      rw [between] at whole
      obtain ⟨a, rfl⟩ := p.get_of_first whole
      rcases writes with other | other <;> cases other
    | cons x rest =>
      rw [between] at whole quiet
      obtain ⟨a, rfl⟩ := p.get_of_first whole
      exact quiet _ List.mem_cons_self _ rfl
  obtain ⟨s₃, h₁, h₂⟩ := h.of_append
  rw [← List.singleton_append] at h₂
  obtain ⟨s₄, acted, h₃⟩ := h₂.of_append
  obtain ⟨r, known, allowed⟩ := p.known_of_unfolds whole begun pending rfl h₁
  have stale : s₁.Stale r :=
    h₃.stale (acted.subset known) (Chronicle.stale_of_foreign foreign known acted) quiet
  obtain ⟨same, f, refused⟩ :=
    keeps.refused_of_stale (quiet.allowed_of_append allowed) stale writes
  obtain ⟨r', t', _, course⟩ := p.loaded_of_append whole begun pending
  have mem : e ∈ t' ++ (calls later ++ e :: calls after) := by simp
  obtain ⟨action, err, failed, root⟩ := course.reported mem refused
  exact ⟨same, action, f, err, refused, failed, root⟩

end Timeline

/-- While the others rest, everything that belongs to them stays as it is. -/
theorem untouched_of_calls {during : List Moment} (traced : calls ms = p.trace)
    (split : ms = before ++ (during ++ after)) (resting : ∀ m ∈ during, m.isForeign = false)
    (h : s.Unfolds before s₁) (g : s₁.Unfolds during s₂) :
    ∀ new, s₂.current = some new → ∃ old, s₁.current = some old ∧ old.Untouched new := by
  induction during generalizing before s₁ with
  | nil =>
    cases g
    exact fun new current => ⟨new, current, .refl new⟩
  | cons m during ih =>
    have resting' : ∀ x ∈ during, x.isForeign = false :=
      fun x mem => resting x (List.mem_cons_of_mem _ mem)
    cases g with
    | @call _ s₃ _ e _ keeps rest =>
      have split' : ms = before ++ [.call e] ++ (during ++ after) := by
        rw [split, List.append_assoc]
        rfl
      intro new current
      obtain ⟨old, current', untouched⟩ :=
        ih split' resting' (h.append (.call keeps (.rest s₃))) rest new current
      rcases effect traced split h keeps with rfl | ⟨older, w, v, unused, stored, kept, rfl⟩
      · exact ⟨old, current', untouched⟩
      · obtain rfl := Chronicle.eq_of_current_put current'
        exact ⟨older, stored, (kept.renumbered v).trans untouched⟩
    | edit | removal => cases resting _ List.mem_cons_self

/-- How a pass deals with what others do while it runs. A write takes effect only when nobody else has
acted since the pass last called the store, and otherwise the pass fails with the reason. What takes
effect leaves alone what belongs to others, so that this always is as they left it. -/
structure Considerate (p : PassRun delay namespaceName name) (ms : List Moment) : Prop where
  refused : ∀ before e after w, ms = before ++ .call e :: after → e.call.Writes w →
    ∀ s s₁ s₂ : Chronicle, s.Unfolds before s₁ → s₁.Keeps e s₂ → Overtaken before →
      s₂ = s₁ ∧ ∃ err, p.result = .error err ∧ (s₁.Explains e →
        if s₁.current.isSome then err.isConflict = true else err.isNotFound = true)
  effect : ∀ before e after, ms = before ++ .call e :: after →
    ∀ s s₁ s₂ : Chronicle, s.Unfolds before s₁ → s₁.Keeps e s₂ →
      s₂ = s₁ ∨ ∃ old new v unused, s₁.current = some old ∧ old.Untouched new ∧
        s₂ = s₁.put new v unused
  kept : ∀ before during after, ms = before ++ (during ++ after) →
    (∀ m ∈ during, m.isForeign = false) →
    ∀ s s₁ s₂ : Chronicle, s.Unfolds before s₁ → s₁.Unfolds during s₂ →
      ∀ new, s₂.current = some new → ∃ old, s₁.current = some old ∧ old.Untouched new

/-- No change by others is lost, whenever they act. -/
theorem loses_no_edit (p : PassRun delay namespaceName name) (traced : calls ms = p.trace) :
    p.Considerate ms where
  refused before e after w split writes s s₁ s₂ h keeps overtaken := by
    obtain ⟨same, action, f, err, refused, failed, root⟩ :=
      refused_of_overtaken traced split writes h keeps overtaken
    refine ⟨same, err, failed, fun explains => ?_⟩
    obtain ⟨name, reason⟩ := explains
    have eq := refused.unique reason
    split
    next stored =>
      rw [← err.isConflict_root, root, eq, if_pos stored]
      rfl
    next missing =>
      rw [← err.isNotFound_root, root, eq, if_neg missing]
      rfl
  effect _ _ _ split _ _ _ h keeps := effect traced split h keeps
  kept _ _ _ split resting _ _ _ h g := untouched_of_calls traced split resting h g

/-- Someone chooses another plan while a pass waits: the plan stays, and the pass fails with a
conflict. -/
theorem loses_no_edit_pending :
    ∃ (p : PassRun 30000 "prod" "db") (ms : List Moment) (s : Chronicle) (r : Resource) (err : Error),
      calls ms = p.trace ∧ (Chronicle.start pending).Unfolds ms s ∧ s.current = some r ∧
      r.spec.plan = "postgresql-business-1024" ∧ p.result = .error err ∧ err.isConflict = true := by
  obtain ⟨wanted, waiting⟩ := pending_pending
  let new : Resource := { pending with spec.plan := "postgresql-business-1024" }
  have started : (Chronicle.start pending).current = some pending := rfl
  obtain ⟨p, before, w, v, s₁, _, traced, _, _, begun, unused, _⟩ :=
    exists_overtaken 30000 "prod" "db" waiting reachable_pending started new
  let s₂ := s₁.put new v unused
  let e : Exchange pass := ⟨.resource (.update w), .error (.conflict "db")⟩
  have edited : (Chronicle.start pending).Unfolds (before ++ [.edit new v]) s₂ :=
    begun.append (.edit v unused (.rest s₂))
  have current : s₂.current = some (new.renumbered v) := s₁.current_put rfl
  have refused : s₂.Keeps e s₂ := .failed _ _
  have overtaken : Overtaken (before ++ [.edit new v]) :=
    ⟨before, .edit new v, [], rfl, rfl, Pass.quiet_nil⟩
  have considerate := p.loses_no_edit traced
  obtain ⟨_, err, failed, reason⟩ :=
    considerate.refused _ e [] w rfl (.inl rfl) _ _ _ edited refused overtaken
  have stored : s₂.current.isSome = true := by rw [current]; rfl
  have explains : s₂.Explains e := by
    refine ⟨"db", ?_⟩
    rw [if_pos stored]
    rfl
  have conflict := reason explains
  rw [if_pos stored] at conflict
  have unfolds := edited.append (.call refused (.rest s₂))
  exact ⟨p, _, s₂, _, err, traced, unfolds, current, rfl, failed, conflict⟩

end PassRun

end DatabaseOperator
