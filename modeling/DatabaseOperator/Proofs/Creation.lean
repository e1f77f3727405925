import DatabaseOperator.Proofs.Launch
import DatabaseOperator.Proofs.Pass.Minds

namespace DatabaseOperator

variable {delay : Nat} {namespaceName name : String}

namespace PassRun

variable {p q : PassRun delay namespaceName name} {s s' : Chronicle} {id : String}

/-- A pass that calls the provider has found a resource. -/
theorem found_of_mem {c : ProviderCall} {e : Exchange pass} (h : Chronicle.Evolves s p.trace s')
    (mem : e ∈ p.trace) (asked : e.call = .provider c) :
    ∃ (r : Resource) (s₁ : Chronicle) (t : List (Exchange pass)),
      p.trace = ⟨.resource (.get namespaceName name), .ok (some r)⟩ :: t ∧ e ∈ t ∧
      Pass.Course delay r t p.result ∧ Chronicle.Evolves s [] s₁ ∧ s₁.current = some r ∧
      Chronicle.Evolves s₁ t s' := by
  rcases p.cases_of_evolves h with ⟨a, trace, _⟩ | ⟨r, s₁, t, trace, rest⟩
  · rw [trace] at mem
    obtain rfl := List.mem_singleton.mp mem
    cases asked
  · rw [trace] at mem
    rcases List.mem_cons.mp mem with rfl | mem
    · cases asked
    · exact ⟨r, s₁, t, trace, mem, rest⟩

theorem recorded (h : Chronicle.Evolves s p.trace s') (records : p.Records id) :
    ∃ v ∈ s'.versions, v.databaseId = id := by
  obtain ⟨_, ⟨db, ⟨wanted, made⟩, rfl⟩, w, stored, written⟩ := records
  obtain ⟨r, s₁, t, trace, made, course, _, _, after⟩ := found_of_mem h made rfl
  rw [trace] at written
  rcases List.mem_cons.mp written with first | written
  · cases first
  obtain ⟨_, res, _, creating⟩ := course.creates made rfl
  obtain ⟨mem, old, _, v, _, rfl⟩ := after.mem_of_updateStatus written
  have same : w.databaseId = db.id := creating.recorded made written
  exact ⟨_, mem, same⟩

/-- A pass that creates a database and does not fail records it. -/
theorem records_of_ok (h : Chronicle.Evolves s p.trace s') {wanted : Database}
    (asks : p.Asks (.provider (.createDatabase wanted))) {next : Requeue}
    (ok : p.result = .ok next) : ∃ id, p.Records id := by
  obtain ⟨⟨c, a⟩, made, rfl⟩ := asks
  obtain ⟨r, s₁, t, trace, made, course, _⟩ := found_of_mem h made rfl
  obtain ⟨_, res, result, creating⟩ := course.creates made rfl
  cases res with
  | error e =>
    rw [ok] at result
    cases result
  | ok next' =>
    obtain ⟨db, w, stored, named, made, written⟩ := creating.ok made
    refine ⟨db.id, named, ⟨db, ⟨wanted, ?_⟩, rfl⟩, w, stored, ?_⟩
    · rw [trace]
      exact .tail _ made
    · rw [trace]
      exact .tail _ written

/-- After an id is recorded, a pass asks for no other database. -/
theorem minds_of_recorded (h : Chronicle.Evolves s p.trace s') (forward : s.Forward)
    (recorded : ∃ v ∈ s.versions, v.databaseId = id) (named : id ≠ "") {c : ProviderCall}
    (asks : p.Asks (.provider c)) : c.Minds id ∨ c = .deleteDatabase id := by
  obtain ⟨e, mem, asked⟩ := asks
  obtain ⟨r, s₁, t, _, mem, course, edits, current, _⟩ := found_of_mem h mem asked
  obtain ⟨v, hv, rfl⟩ := recorded
  have same : r.databaseId = v.databaseId :=
    ((edits.moves_of_edits.forward forward).precedes current v (edits.subset hv)).recorded named
  rcases course.minds e mem c asked with minds | ⟨rfl, _⟩ | ⟨_, _, none⟩
  · exact .inl (same ▸ minds)
  · exact .inr (by rw [same])
  · exact absurd (same.symm.trans none) named

end PassRun

variable {ps : List (PassRun delay namespaceName name)} {s s' : Chronicle}

theorem History.recorded (h : History delay namespaceName name s ps s') :
    ∀ p ∈ ps, ∀ id, p.Records id → ∃ v ∈ s'.versions, v.databaseId = id := by
  induction h with
  | start => exact fun _ hp => nomatch hp
  | @next ps p s₁ s₂ before evolves ih =>
    intro q hq id records
    rcases List.mem_append.mp hq with hq | hq
    · obtain ⟨v, hv, same⟩ := ih q hq id records
      exact ⟨v, evolves.subset hv, same⟩
    · obtain rfl := List.mem_singleton.mp hq
      exact PassRun.recorded evolves records

/-- Once an id is recorded, no later pass creates a database, and later passes read and delete that one
only. A pass after which another one creates a database has failed. -/
theorem created_once {r : Resource} (h : History delay namespaceName name (.start r) ps s) :
    ps.Pairwise fun p q =>
      (∀ id, p.Records id →
        (∀ wanted, ¬ q.Asks (.provider (.createDatabase wanted))) ∧
        (∀ i, q.Asks (.provider (.getDatabase i)) → i = id) ∧
        ∀ i, q.Asks (.provider (.deleteDatabase i)) → i = id) ∧
      ∀ first second, p.Asks (.provider (.createDatabase first)) →
        q.Asks (.provider (.createDatabase second)) → ∃ e, p.result = .error e := by
  induction h with
  | start => exact .nil
  | @next ps q s₁ s₂ before evolves ih =>
    have forward : s₁.Forward := before.moves.forward (Chronicle.forward_start r)
    have minds {p : PassRun delay namespaceName name} (hp : p ∈ ps) {id : String}
        (records : p.Records id) {c : ProviderCall} (asks : q.Asks (.provider c)) :
        c.Minds id ∨ c = .deleteDatabase id :=
      q.minds_of_recorded evolves forward (before.recorded p hp id records) records.1 asks
    refine List.pairwise_append.mpr ⟨ih, List.pairwise_singleton _ _, fun p hp q' hq => ?_⟩
    obtain rfl := List.mem_singleton.mp hq
    refine ⟨fun id records => ⟨fun wanted asks => ?_, fun i asks => ?_, fun i asks => ?_⟩,
      fun first second asks again => ?_⟩
    · rcases minds hp records asks with none | other
      · exact none
      · cases other
    · rcases minds hp records asks with same | other
      · exact same
      · cases other
    · rcases minds hp records asks with none | same
      · exact none.elim
      · exact ProviderCall.deleteDatabase.inj same
    · cases result : p.result with
      | error e => exact ⟨e, rfl⟩
      | ok next =>
        obtain ⟨_, _, earlier, _⟩ := before.evolves p hp
        obtain ⟨id, records⟩ := PassRun.records_of_ok earlier asks result
        rcases minds hp records again with none | other
        · exact none.elim
        · cases other

theorem created_once_sample :
    ∃ (ps : List (PassRun 30000 "prod" "db")) (p q : PassRun 30000 "prod" "db") (s : Chronicle),
      History 30000 "prod" "db" (.start sample) (ps ++ [p] ++ [q]) s ∧
      (∃ db, p.Creates db) ∧ q.Records "db-2" ∧
      (ps ++ [p] ++ [q]).Pairwise fun p q =>
        (∀ id, p.Records id →
          (∀ wanted, ¬ q.Asks (.provider (.createDatabase wanted))) ∧
          (∀ i, q.Asks (.provider (.getDatabase i)) → i = id) ∧
          ∀ i, q.Asks (.provider (.deleteDatabase i)) → i = id) ∧
        ∀ first second, p.Asks (.provider (.createDatabase first)) →
          q.Asks (.provider (.createDatabase second)) → ∃ e, p.result = .error e := by
  obtain ⟨wanted, creatable⟩ := creatable_sample
  obtain ⟨ps, s, r, h, current, prepared, unrecorded, resting, spec, located⟩ :=
    History.exists_prepared 30000 "prod" "db" fresh_sample rfl
  have creatable := creatable.of_spec spec located
  obtain ⟨p, h, creates⟩ := h.exists_unrecorded { Database.blank with id := "db-1" } current
    prepared unrecorded resting creatable (by decide)
  obtain ⟨q, s, r', h, records, _⟩ := h.exists_created
    { Database.blank with id := "db-2" } current prepared unrecorded resting creatable
    (by decide)
  exact ⟨ps, p, q, s, h, ⟨_, creates⟩, records, created_once h⟩

end DatabaseOperator
