import DatabaseOperator.Proofs.Interference
import DatabaseOperator.Proofs.Pass.Secrets

namespace DatabaseOperator

open Moment

variable {delay : Nat} {namespaceName name : String} {p : PassRun delay namespaceName name}
  {s s' : Chronicle} {r w stored : Resource} {ms : List Moment} {err : Error} {σ : Vault}
  {t u v : List (Exchange pass)}

theorem Vault.after_of_unsaved (unsaved : Pass.saved t = []) : σ.after t = σ :=
  congrArg (List.foldl Vault.put σ) unsaved

theorem Vault.after_of_saved {x : Secret} (saved : Pass.saved t = [x]) : σ.after t = σ.put x :=
  congrArg (List.foldl Vault.put σ) saved

namespace Chronicle

/-- A status that is written over the version that was seen last, and answered, is stored on it. -/
theorem Keeps.of_status (h : s.Keeps ⟨.resource (.updateStatus w), .ok stored⟩ s')
    (known : r ∈ s.versions) (number : w.metadata.resourceVersion = r.metadata.resourceVersion) :
    s.current = some r ∧ ∃ v unused, stored = { r with status := w.status }.renumbered v ∧
      s' = s.put { r with status := w.status } v unused := by
  cases h with
  | @statusUpdated old _ v unused current same =>
    obtain rfl : old = r := eq_of_number (mem_of_current current) known (same.trans number)
    exact ⟨current, v, unused, rfl, rfl⟩
  | other _ other => exact absurd rfl (other _)

/-- When the conditions of the version that the pass has loaded are written, and the write is answered,
then this version was stored until then, and it was stored with its new conditions. -/
theorem Unfolds.of_provisioned {now : Times} (h : s.Unfolds ms s')
    (traced : calls ms = ⟨.resource (.get namespaceName name), .ok (some r)⟩ ::
      (u ++ ⟨.resource (.updateStatus (r.setProvisioned now).1), .ok stored⟩ :: v)) :
    ∃ before after s₁ number unused, foreign ms = foreign before ++ foreign after ∧
      calls before = ⟨.resource (.get namespaceName name), .ok (some r)⟩ :: u ∧ calls after = v ∧
      s.Unfolds before s₁ ∧ s₁.current = some r ∧
      stored = (r.setProvisioned now).1.renumbered number ∧
      (s₁.put (r.setProvisioned now).1 number unused).Unfolds after s' := by
  rw [← List.cons_append] at traced
  obtain ⟨before, after, rfl, earlier, later⟩ := split_of_calls traced
  obtain ⟨s₁, s₂, first, keeps, rest⟩ := h.of_call
  -- the number that the write carries is that of a version known since the load
  obtain ⟨s₀, _, current, since, _⟩ := first.of_load earlier
  obtain ⟨current, number, unused, same, rfl⟩ :=
    keeps.of_status (since.subset (mem_of_current current)) rfl
  exact ⟨before, after, s₁, number, unused, List.filter_append .., earlier, later, first, current,
    same, rest⟩

/-- Besides what others did, the resource was noted to be available and not provisioning. -/
def Provisions (s : Chronicle) (ms : List Moment) (r : Resource) (s' : Chronicle) : Prop :=
  ∃ (before after : List Moment) (s₁ : Chronicle) (now : Times) (v : Option String)
    (unused : s₁.Unused v), foreign ms = before ++ after ∧ s.Unfolds before s₁ ∧
    s₁.current = some r ∧ (s₁.put (r.setProvisioned now).1 v unused).Unfolds after s'

end Chronicle

namespace PassRun

/-- The pass has read a version that is due for the wait for its database, and the running flag could
not be stored at the end of the wait. -/
def Halted (p : PassRun delay namespaceName name) (r : Resource) : Prop :=
  p.Loads r ∧ r.Awaits ∧ ∃ w f, w.isRunning = true ∧
    (⟨.resource (.update w), .error f⟩ : Exchange pass) ∈ p.trace

/-- What a pass leaves behind that fails while all of this happens, in the store of resources and in the
store of secrets. -/
structure LeavesBehind (p : PassRun delay namespaceName name) (ms : List Moment) (s s' : Chronicle)
    (σ : Vault) : Prop where
  resource : s.Unfolds (foreign ms) s' ∨ ∃ r, p.Loads r ∧ r.Awaits ∧ s.Provisions ms r s'
  secrets : (∀ r, ¬ p.Halted r) → σ.after p.trace = σ
  handed : ∀ r, p.Halted r → ∃ appId value,
    (⟨.provider (.findVariable appId DatabaseType.postgresql.urlVariable), .ok value⟩ :
      Exchange pass) ∈ p.trace ∧
    σ.after p.trace = σ.put (r.connectionSecret ⟨DatabaseType.postgresql.urlVariable, value⟩)
  unwritten : ∀ w stored,
    (⟨.resource (.update w), .ok stored⟩ : Exchange pass) ∉ p.trace
  unrecorded : ∀ w stored,
    (⟨.resource (.updateStatus w), .ok stored⟩ : Exchange pass) ∈ p.trace →
      ∃ r, p.Loads r ∧ w.databaseId = r.databaseId

/-- A pass that fails could not read the resource, or its step has failed. -/
theorem cases_of_error (failed : p.result = .error err) :
    (∃ e, p.trace = [⟨.resource (.get namespaceName name), .error e⟩]) ∨
      ∃ r t, p.trace = ⟨.resource (.get namespaceName name), .ok (some r)⟩ :: t ∧
        Pass.Course delay r t (.error err) := by
  have passing := Pass.runs_run_iff.mp p.runs
  rw [failed] at passing
  generalize p.trace = trace at passing
  cases passing with
  | unread e => exact .inl ⟨e, rfl⟩
  | found course => exact .inr ⟨_, _, rfl, course⟩

theorem Loads.eq (h : p.Loads r)
    (loaded : p.trace = ⟨.resource (.get namespaceName name), .ok (some stored)⟩ :: t) :
    r = stored := by
  obtain ⟨u, first⟩ := h
  rw [loaded] at first
  cases first
  rfl

/-- A pass that fails has stored nothing, but for the conditions that it found to hold when it waited. -/
theorem stored_of_error (failed : p.result = .error err) :
    (∀ e ∈ p.trace, ¬ e.Stored) ∨ ∃ (r : Resource) (u : List (Exchange pass)) (now : Times)
      (stored : Resource) (v : List (Exchange pass)), r.Awaits ∧ (∀ e ∈ u, ¬ e.Stored) ∧
      (∀ e ∈ v, ¬ e.Stored) ∧
      p.trace = ⟨.resource (.get namespaceName name), .ok (some r)⟩ ::
        (u ++ ⟨.resource (.updateStatus (r.setProvisioned now).1), .ok stored⟩ :: v) := by
  rcases p.cases_of_error failed with ⟨e, unread⟩ | ⟨r, t, loaded, course⟩
  · rw [unread]
    refine .inl fun x mem => ?_
    obtain rfl := List.mem_singleton.mp mem
    exact Exchange.not_stored_of_error
  rcases course.unstored with unstored | ⟨awaits, u, now, stored, v, early, late, rfl⟩
  · rw [loaded]
    exact .inl (List.forall_mem_cons.mpr ⟨id, unstored⟩)
  · exact .inr ⟨r, u, now, stored, v, awaits, early, late, loaded⟩

/-- Where the pass has written, it has only noted that the database is there. -/
theorem provisions_of_error (traced : calls ms = p.trace) (failed : p.result = .error err)
    (h : s.Unfolds ms s') :
    s.Unfolds (foreign ms) s' ∨ ∃ r, p.Loads r ∧ r.Awaits ∧ s.Provisions ms r s' := by
  rcases p.stored_of_error failed with unstored | ⟨r, u, now, stored, v, awaits, early, late, whole⟩
  · rw [← traced] at unstored
    exact .inl (h.foreign_of_unstored unstored)
  obtain ⟨before, after, s₁, number, unused, split, earlier, later, first, current, _, rest⟩ :=
    h.of_provisioned (traced.trans whole)
  have begun : ∀ e ∈ calls before, ¬ e.Stored := by
    rw [earlier]
    exact List.forall_mem_cons.mpr ⟨id, early⟩
  have ended : ∀ e ∈ calls after, ¬ e.Stored := by
    rw [later]
    exact late
  exact .inr ⟨r, ⟨_, whole⟩, awaits, foreign before, foreign after, s₁, now, number, unused, split,
    first.foreign_of_unstored begun, current, rest.foreign_of_unstored ended⟩

/-- All that a pass that fails has stored are the conditions of a database that is there. -/
theorem cases_of_stored (failed : p.result = .error err) {e : Exchange pass} (mem : e ∈ p.trace)
    (stored : e.Stored) : ∃ r now x, p.Loads r ∧
      e = ⟨.resource (.updateStatus (r.setProvisioned now).1), .ok x⟩ := by
  rcases p.stored_of_error failed with unstored | ⟨r, u, now, x, v, _, early, late, whole⟩
  · exact absurd stored (unstored e mem)
  rw [whole] at mem
  rcases List.mem_cons.mp mem with rfl | mem
  · exact stored.elim
  rcases List.mem_append.mp mem with before | mem
  · exact absurd stored (early e before)
  rcases List.mem_cons.mp mem with rfl | after
  · exact ⟨r, now, x, ⟨_, whole⟩, rfl⟩
  · exact absurd stored (late e after)

/-- A pass that fails has put nothing into the store of secrets, unless it was halted. -/
theorem saved_of_error (failed : p.result = .error err) (unhalted : ∀ r, ¬ p.Halted r) :
    Pass.saved p.trace = [] := by
  rcases p.cases_of_error failed with ⟨e, unread⟩ | ⟨r, t, loaded, course⟩
  · rw [unread]
    rfl
  rw [loaded]
  change Pass.saved t = []
  by_cases awaits : r.Awaits
  · rcases course.handed awaits with ⟨unsaved, _⟩ | ⟨x, ⟨_, _, f, _, _, refused⟩, _⟩
    · exact unsaved
    -- the connection string is written only right before the write that halts the pass
    · have mem : (⟨.resource (.update (x.setRunningFlag true)), .error f⟩ : Exchange pass) ∈
          p.trace := by
        rw [loaded]
        exact List.mem_cons_of_mem _ refused
      have flagged : (x.setRunningFlag true).isRunning = true := Resource.isRunning_setRunningFlag true
      exact absurd ⟨⟨t, loaded⟩, awaits, _, f, flagged, mem⟩ (unhalted r)
  · exact course.saved_eq awaits

/-- A pass that was halted has put the connection string of the resource that it has read into its
secret. -/
theorem saved_of_halted (traced : calls ms = p.trace) (failed : p.result = .error err)
    (h : s.Unfolds ms s') (halted : p.Halted r) : ∃ appId value,
      (⟨.provider (.findVariable appId DatabaseType.postgresql.urlVariable), .ok value⟩ :
        Exchange pass) ∈ p.trace ∧
      Pass.saved p.trace = [r.connectionSecret ⟨DatabaseType.postgresql.urlVariable, value⟩] := by
  obtain ⟨loads, awaits, w, f, _, refused⟩ := halted
  rcases p.cases_of_error failed with ⟨e, unread⟩ | ⟨r', t, loaded, course⟩
  · obtain ⟨_, first⟩ := loads
    rw [unread] at first
    cases first
  obtain rfl := loads.eq loaded
  rw [loaded] at refused ⊢
  have late : (⟨.resource (.update w), .error f⟩ : Exchange pass) ∈ t := by
    rcases List.mem_cons.mp refused with first | late
    · cases first
    · exact late
  rcases course.handed awaits with ⟨_, unwritten⟩ | ⟨x, ⟨appId, value, _, saved, found, _⟩, origin⟩
  · exact absurd late (unwritten w _)
  have same : x.connectionSecret = r.connectionSecret := by
    rcases origin with rfl | ⟨now, noted⟩
    · rfl
    · obtain ⟨u, v, rfl⟩ := List.append_of_mem noted
      obtain ⟨_, _, _, number, _, _, _, _, _, _, stored, _⟩ :=
        h.of_provisioned (traced.trans loaded)
      rw [stored]
      rfl
  refine ⟨appId, value, List.mem_cons_of_mem _ found, ?_⟩
  rw [← same]
  exact saved

/-- What a pass that fails leaves behind: the resource is as others left it, unless the pass has waited
and noted that the database is there, and then nothing but this is added. The secrets are as they were,
unless the running flag could not be stored at the end of a wait, and then nothing but the connection
string is added. The finalizer, the recorded id and the running flag stay. -/
theorem leaves_behind (p : PassRun delay namespaceName name) (traced : calls ms = p.trace)
    (failed : p.result = .error err) (h : s.Unfolds ms s') (σ : Vault) :
    p.LeavesBehind ms s s' σ where
  resource := provisions_of_error traced failed h
  secrets unhalted := Vault.after_of_unsaved (p.saved_of_error failed unhalted)
  handed r halted := by
    obtain ⟨appId, value, found, saved⟩ := saved_of_halted traced failed h halted
    exact ⟨appId, value, found, Vault.after_of_saved saved⟩
  unwritten w x mem := by
    obtain ⟨_, _, _, _, same⟩ := cases_of_stored failed mem trivial
    cases same
  unrecorded w x mem := by
    obtain ⟨r, now, _, loads, same⟩ := cases_of_stored failed mem trivial
    cases same
    exact ⟨r, loads, Resource.databaseId_setProvisioned⟩

/-- When a wait is overtaken, the connection string is in its secret, and nothing else is. -/
theorem leaves_behind_pending :
    ∃ (p : PassRun 30000 "prod" "db") (ms : List Moment) (s : Chronicle) (err : Error) (value : String),
      calls ms = p.trace ∧ p.result = .error err ∧ (Chronicle.start pending).Unfolds ms s ∧
      p.LeavesBehind ms (.start pending) s Vault.empty ∧ Vault.empty.after p.trace =
        Vault.empty.put (pending.connectionSecret ⟨DatabaseType.postgresql.urlVariable, value⟩) := by
  obtain ⟨wanted, waiting⟩ := pending_pending
  have started : (Chronicle.start pending).current = some pending := rfl
  obtain ⟨p, before, w, v, s₁, err, traced, loads, flagged, begun, unused, failed⟩ :=
    exists_overtaken 30000 "prod" "db" waiting reachable_pending started pending
  let s₂ := s₁.put pending v unused
  let e : Exchange pass := ⟨.resource (.update w), .error (.conflict "db")⟩
  have refused : s₂.Keeps e s₂ := .failed _ _
  have unfolds : (Chronicle.start pending).Unfolds (before ++ [.edit pending v] ++ [.call e]) s₂ :=
    (begun.append (.edit v unused (.rest s₂))).append (.call refused (.rest s₂))
  have halted : p.Halted pending := by
    refine ⟨loads, waiting.awaits, w, .conflict "db", flagged, ?_⟩
    rw [← traced, calls_append]
    exact List.mem_append_right _ (.head _)
  have left := p.leaves_behind traced failed unfolds Vault.empty
  obtain ⟨_, value, _, saved⟩ := left.handed pending halted
  exact ⟨p, _, s₂, err, value, traced, failed, unfolds, left, saved⟩

end PassRun

end DatabaseOperator
