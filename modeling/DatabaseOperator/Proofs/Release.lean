import DatabaseOperator.Proofs.Creation
import DatabaseOperator.Proofs.Launch

namespace DatabaseOperator

variable {delay : Nat} {namespaceName name : String}

namespace PassRun

variable {p : PassRun delay namespaceName name} {s s' : Chronicle} {id : String}

/-- A pass deletes the database that is recorded when it begins. -/
theorem recorded_of_deletes (h : Chronicle.Evolves s p.trace s') (deletes : p.Deletes id) :
    id ≠ "" ∧ ∃ v ∈ s.versions, v.databaseId = id := by
  obtain ⟨a, _, mem⟩ := deletes
  obtain ⟨r, s₁, t, _, mem, course, edits, current, _⟩ := found_of_mem h mem rfl
  rcases course.minds _ mem _ rfl with none | ⟨same, recorded⟩ | ⟨_, other, _⟩
  · exact none.elim
  · obtain rfl := ProviderCall.deleteDatabase.inj same
    obtain ⟨v, hv, status⟩ := edits.status_of_edits r (Chronicle.mem_of_current current)
    refine ⟨recorded, v, hv, ?_⟩
    unfold Resource.databaseId
    rw [status]
  · cases other

/-- A pass that asks for the removal of the finalizer has deleted what was recorded. -/
theorem deletes_of_releases (h : Chronicle.Evolves s p.trace s') (forward : s.Forward)
    (releases : p.Releases) (named : id ≠ "")
    (recorded : ∃ v ∈ s.versions, v.databaseId = id) : p.Deletes id := by
  obtain ⟨w, a, mem, bare⟩ := releases
  obtain ⟨v, hv, rfl⟩ := recorded
  rcases p.cases_of_evolves h with ⟨b, trace, _⟩ | ⟨r, s₁, t, trace, course, edits, current, after⟩
  · rw [trace] at mem
    cases List.mem_singleton.mp mem
  · rw [trace] at mem
    have mem := (List.mem_cons.mp mem).resolve_left nofun
    have same : r.databaseId = v.databaseId :=
      ((edits.moves_of_edits.forward forward).precedes current v (edits.subset hv)).recorded named
    obtain ⟨res, finalizing⟩ := course.finalizing_of_update mem bare fun x stored written number => by
      obtain ⟨_, old, hold, v, carried, rfl⟩ := after.mem_of_updateStatus written
      rw [Chronicle.eq_of_number hold (after.subset (Chronicle.mem_of_current current))
        (carried.trans number)]
      rfl
    obtain ⟨b, gone, deleted⟩ := finalizing.deletes mem (same ▸ named)
    refine ⟨b, gone, ?_⟩
    rw [trace, ← same]
    exact .tail _ deleted

end PassRun

variable {ps : List (PassRun delay namespaceName name)} {p : PassRun delay namespaceName name}
  {s s' : Chronicle} {r : Resource}

theorem History.recorded_of_deletes (h : History delay namespaceName name s ps s') :
    ∀ p ∈ ps, ∀ id, p.Deletes id → id ≠ "" ∧ ∃ v ∈ s'.versions, v.databaseId = id := by
  induction h with
  | start => exact fun _ hp => nomatch hp
  | @next ps p s₁ s₂ before evolves ih =>
    intro q hq id deletes
    rcases List.mem_append.mp hq with hq | hq
    · obtain ⟨named, v, hv, same⟩ := ih q hq id deletes
      exact ⟨named, v, evolves.subset hv, same⟩
    · obtain rfl := List.mem_singleton.mp hq
      obtain ⟨named, v, hv, same⟩ := PassRun.recorded_of_deletes evolves deletes
      exact ⟨named, v, evolves.subset hv, same⟩

/-- What has been deleted by the time the finalizer goes is what was recorded. -/
theorem History.deletes_iff (h : History delay namespaceName name (.start r) ps s)
    (evolves : s.Evolves p.trace s') (releases : p.Releases) (id : String) :
    (∃ q ∈ ps ++ [p], q.Deletes id) ↔ id ≠ "" ∧ ∃ v ∈ s.versions, v.databaseId = id := by
  constructor
  · rintro ⟨q, hq, deletes⟩
    rcases List.mem_append.mp hq with hq | hq
    · exact h.recorded_of_deletes q hq id deletes
    · obtain rfl := List.mem_singleton.mp hq
      exact PassRun.recorded_of_deletes evolves deletes
  · rintro ⟨named, recorded⟩
    exact ⟨p, List.mem_append_right _ List.mem_cons_self, PassRun.deletes_of_releases evolves
      (h.moves.forward (Chronicle.forward_start r)) releases named recorded⟩

/-- Whatever is declared, the database can stay behind: the write of the new id fails, then the deletion
of the resource is asked for, and the finalizer goes although no database was deleted. -/
theorem exists_orphan {wanted : Database} (delay : Nat) (namespaceName name : String)
    (db : Database) (fresh : r.Fresh)
    (wantedStill : r.isDeletionRequested = false) (creatable : r.Creatable wanted)
    (named : db.id ≠ "") :
    ∃ (ps : List (PassRun delay namespaceName name)) (q p : PassRun delay namespaceName name)
      (s s' : Chronicle), History delay namespaceName name (.start r) (ps ++ [q]) s ∧
      q.Creates db ∧ s.Evolves p.trace s' ∧
      (∃ w stored, (⟨.resource (.update w), .ok stored⟩ : Exchange pass) ∈ p.trace ∧
        w.hasFinalizer = false) ∧
      ∀ q' ∈ ps ++ [q] ++ [p], ¬ q'.Deletes db.id := by
  obtain ⟨ps, s, r', h, current, prepared, unrecorded, resting, spec, located⟩ :=
    History.exists_prepared delay namespaceName name fresh wantedStill
  obtain ⟨q, created, creates⟩ := h.exists_unrecorded db current prepared unrecorded resting
    (creatable.of_spec spec located) named
  obtain ⟨p, s', evolves, w, stored, mem, bare⟩ :=
    History.exists_released delay namespaceName name current prepared.guarded unrecorded
  refine ⟨ps, q, p, s, s', created, creates, evolves, ⟨w, stored, mem, bare⟩,
    fun q' hq deletes => ?_⟩
  obtain ⟨_, v, hv, same⟩ :=
    (created.deletes_iff evolves ⟨w, _, mem, bare⟩ db.id).mp ⟨q', hq, deletes⟩
  have precedes := (h.moves.forward (Chronicle.forward_start r)).precedes current v hv
  exact named (same.symm.trans ((precedes.recorded (same ▸ named)).symm.trans unrecorded))

/-- So it is not so that whatever was created is deleted before the finalizer goes. -/
theorem not_always_deleted :
    ¬ ∀ (delay : Nat) (namespaceName name : String) (r : Resource)
      (ps : List (PassRun delay namespaceName name)) (p : PassRun delay namespaceName name)
      (s s' : Chronicle), r.Fresh → History delay namespaceName name (.start r) ps s →
      s.Evolves p.trace s' →
      (∃ w stored, (⟨.resource (.update w), .ok stored⟩ : Exchange pass) ∈ p.trace ∧
        w.hasFinalizer = false) →
      ∀ q ∈ ps, ∀ db, q.Creates db → ∃ q' ∈ ps ++ [p], q'.Deletes db.id := by
  intro always
  obtain ⟨wanted, creatable⟩ := creatable_sample
  obtain ⟨ps, q, p, s, s', h, creates, evolves, released, kept⟩ := exists_orphan 30000 "prod" "db"
    { Database.blank with id := "db-1" } fresh_sample rfl creatable (by decide)
  obtain ⟨q', hq, deletes⟩ := always 30000 "prod" "db" sample (ps ++ [q]) p s s' fresh_sample h
    evolves released q (List.mem_append_right _ List.mem_cons_self) _ creates
  exact kept q' hq deletes

/-- When the finalizer goes, no database stays behind exactly if each that was created has an id that some
version recorded. -/
theorem no_orphan_iff (h : History delay namespaceName name (.start r) ps s)
    (evolves : s.Evolves p.trace s') (releases : p.Releases) :
    (∀ q ∈ ps, ∀ db, q.Creates db → ∃ q' ∈ ps ++ [p], q'.Deletes db.id) ↔
      ∀ q ∈ ps, ∀ db, q.Creates db → db.id ≠ "" ∧ ∃ v ∈ s.versions, v.databaseId = db.id := by
  constructor
  · intro deleted q hq db creates
    exact (h.deletes_iff evolves releases db.id).mp (deleted q hq db creates)
  · intro recorded q hq db creates
    exact (h.deletes_iff evolves releases db.id).mpr (recorded q hq db creates)

theorem no_orphan_iff_sample :
    ∃ (ps : List (PassRun 30000 "prod" "db")) (q p : PassRun 30000 "prod" "db") (s s' : Chronicle),
      History 30000 "prod" "db" (.start sample) (ps ++ [q]) s ∧ s.Evolves p.trace s' ∧
      p.Releases ∧ (∃ db, q.Creates db) ∧
      ((∀ q' ∈ ps ++ [q], ∀ db, q'.Creates db → ∃ q'' ∈ ps ++ [q] ++ [p], q''.Deletes db.id) ↔
        ∀ q' ∈ ps ++ [q], ∀ db, q'.Creates db →
          db.id ≠ "" ∧ ∃ v ∈ s.versions, v.databaseId = db.id) := by
  obtain ⟨wanted, creatable⟩ := creatable_sample
  obtain ⟨ps, q, p, s, s', h, creates, evolves, ⟨w, stored, mem, bare⟩, _⟩ :=
    exists_orphan 30000 "prod" "db" { Database.blank with id := "db-1" } fresh_sample rfl creatable
      (by decide)
  have releases : p.Releases := ⟨w, _, mem, bare⟩
  exact ⟨ps, q, p, s, s', h, evolves, releases, ⟨_, creates⟩, no_orphan_iff h evolves releases⟩

end DatabaseOperator
