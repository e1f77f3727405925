import DatabaseOperator.Proofs.History

namespace DatabaseOperator

variable {delay : Nat} {namespaceName name : String} {s₀ s : Chronicle} {r : Resource}
  {ps : List (PassRun delay namespaceName name)}

/-- What the creation of the database takes. -/
structure Resource.Creatable (r : Resource) (wanted : Database) : Prop where
  valid : r.spec.database = .ok wanted
  located : r.namespaceName ≠ ""
  secretNamed : r.spec.authSecret.name ≠ ""
  keyNamed : r.spec.authSecret.key ≠ ""

theorem Resource.Creatable.of_spec {wanted : Database} {r' : Resource} (h : r.Creatable wanted)
    (spec : r'.spec = r.spec) (located : r'.namespaceName = r.namespaceName) :
    r'.Creatable wanted :=
  ⟨spec ▸ h.valid, located ▸ h.located, spec ▸ h.secretNamed, spec ▸ h.keyNamed⟩

theorem Pass.exists_opening {wanted : Database} (h : r.Creatable wanted) :
    ∃ t, Pass.Opening r t (.ok ()) :=
  ⟨_, .connected (.ok ()) ((runs_readSecret_iff h.located h.secretNamed h.keyNamed).mpr
    ⟨.ok "token", rfl, rfl⟩)⟩

namespace Chronicle

theorem Serves.of_current (current : s.current = some r) (namespaceName name : String) :
    Serves s ⟨.resource (.get namespaceName name), .ok (some r)⟩ s := by
  rw [← current]
  exact .got namespaceName name

theorem Evolves.of_quiet {t : List (Exchange pass)} (h : Pass.Quiet t) : Evolves s t s := by
  induction t with
  | nil => exact .rest s
  | cons e t ih =>
    exact .exchange (.other e.answer (h e List.mem_cons_self))
      (ih fun x hx => h x (List.mem_cons_of_mem _ hx))

/-- A write of a change to the stored version takes effect. -/
theorem Serves.of_update {w : Resource} {v : Option String} (current : s.current = some r)
    (unused : s.Unused v) (change : r.Change w) (status : w.status = r.status) :
    Serves s ⟨.resource (.update w), .ok (w.renumbered v)⟩ (s.put w v unused) := by
  have merged : { r with metadata := w.metadata, spec := w.spec } = w := by
    rw [← status]
  have serves := Serves.updated (w := w) (a := .ok (w.renumbered v)) v unused current change.number
    (by
      rw [merged]
      intro stored eq
      exact (Except.ok.inj eq).symm)
  rwa [merged] at serves

theorem Serves.of_updateStatus {w : Resource} {v : Option String} (current : s.current = some r)
    (unused : s.Unused v) (change : r.Change w) (metadata : w.metadata = r.metadata)
    (spec : w.spec = r.spec) :
    Serves s ⟨.resource (.updateStatus w), .ok (w.renumbered v)⟩ (s.put w v unused) := by
  have merged : { r with status := w.status } = w := by
    rw [← metadata, ← spec]
  have serves := Serves.statusUpdated (w := w) (a := .ok (w.renumbered v)) v unused current
    change.number (by
      rw [merged]
      intro stored eq
      exact (Except.ok.inj eq).symm)
  rwa [merged] at serves

theorem Evolves.of_update {w : Resource} {v : Option String} (current : s.current = some r)
    (unused : s.Unused v) (change : r.Change w) (status : w.status = r.status) :
    Evolves s [⟨.resource (.update w), .ok (w.renumbered v)⟩] (s.put w v unused) :=
  .exchange (.of_update current unused change status) (.rest _)

theorem Evolves.of_updateStatus {w : Resource} {v : Option String} (current : s.current = some r)
    (unused : s.Unused v) (change : r.Change w) (metadata : w.metadata = r.metadata)
    (spec : w.spec = r.spec) :
    Evolves s [⟨.resource (.updateStatus w), .ok (w.renumbered v)⟩] (s.put w v unused) :=
  .exchange (.of_updateStatus current unused change metadata spec) (.rest _)

end Chronicle

namespace History

theorem found {t : List (Exchange pass)} {res : Except Error Requeue} {s' : Chronicle}
    (h : History delay namespaceName name s₀ ps s) (current : s.current = some r)
    (course : Pass.Course delay r t res) (evolves : s.Evolves t s') :
    History delay namespaceName name s₀ (ps ++ [.found course]) s' :=
  .next h (.exchange (.of_current current namespaceName name) evolves)

/-- A pass whose step is a single write stores what it writes. -/
theorem exists_updated {w : Resource} (h : History delay namespaceName name s₀ ps s)
    (current : s.current = some r) (wanted : w.isDeletionRequested = false) (change : r.Change w)
    (status : w.status = r.status)
    (course : ∀ a, ∃ res, Pass.Course delay r [⟨.resource (.update w), a⟩] res) :
    ∃ (p : PassRun delay namespaceName name) (s' : Chronicle) (v : Option String),
      History delay namespaceName name s₀ (ps ++ [p]) s' ∧
      s'.current = some (w.renumbered v) := by
  obtain ⟨v, unused⟩ := s.exists_unused
  obtain ⟨res, course⟩ := course (.ok (w.renumbered v))
  exact ⟨.found course, s.put w v unused, v,
    h.found current course (.of_update current unused change status), s.current_put wanted⟩

theorem exists_marked (h : History delay namespaceName name s₀ ps s) (current : s.current = some r)
    (wanted : r.isDeletionRequested = false) (unguarded : r.hasFinalizer = false) :
    ∃ (p : PassRun delay namespaceName name) (s' : Chronicle) (v : Option String),
      History delay namespaceName name s₀ (ps ++ [p]) s' ∧
      s'.current = some (r.withFinalizer.renumbered v) :=
  h.exists_updated current wanted (.mark wanted unguarded) rfl
    fun a => ⟨_, .mark a wanted unguarded⟩

theorem exists_flagged (h : History delay namespaceName name s₀ ps s) (current : s.current = some r)
    (wanted : r.isDeletionRequested = false) (guarded : r.hasFinalizer = true)
    (initialized : r.isInitialized = true) (unflagged : r.runningFlag? = none) :
    ∃ (p : PassRun delay namespaceName name) (s' : Chronicle) (v : Option String),
      History delay namespaceName name s₀ (ps ++ [p]) s' ∧
      s'.current = some ((r.setRunningFlag false).renumbered v) :=
  h.exists_updated current wanted (.flag guarded initialized unflagged) rfl
    fun a => ⟨_, .flag a wanted guarded initialized unflagged⟩

theorem exists_initialized (h : History delay namespaceName name s₀ ps s)
    (current : s.current = some r) (wanted : r.isDeletionRequested = false)
    (guarded : r.hasFinalizer = true) (uninitialized : r.isInitialized = false) (now : Times) :
    ∃ (p : PassRun delay namespaceName name) (s' : Chronicle) (v : Option String),
      History delay namespaceName name s₀ (ps ++ [p]) s' ∧
      s'.current = some ((r.setInitial now).1.renumbered v) := by
  obtain ⟨v, unused⟩ := s.exists_unused
  let w := (r.setInitial now).1
  have change : r.Change w := .init now guarded uninitialized
  exact ⟨.found (.init now (.ok (w.renumbered v)) wanted guarded uninitialized),
    s.put w v unused, v, h.found current _ ((Chronicle.Evolves.of_quiet (Pass.quiet_ticks _)).append
      (.of_updateStatus current unused change rfl rfl)), s.current_put wanted⟩

/-- Three passes prepare a fresh resource for the creation of its database. -/
theorem exists_prepared (delay : Nat) (namespaceName name : String) (fresh : r.Fresh)
    (wanted : r.isDeletionRequested = false) :
    ∃ (ps : List (PassRun delay namespaceName name)) (s : Chronicle) (r' : Resource),
      History delay namespaceName name (.start r) ps s ∧ s.current = some r' ∧ r'.Prepared ∧
      r'.databaseId = "" ∧ r'.isRunning = false ∧ r'.spec = r.spec ∧
      r'.namespaceName = r.namespaceName := by
  have begun : History delay namespaceName name (.start r) [] (.start r) := .start
  obtain ⟨p₁, s₁, v₁, marked, current⟩ := begun.exists_marked rfl wanted fresh.unguarded
  have guarded : (r.withFinalizer.renumbered v₁).hasFinalizer = true :=
    Resource.hasFinalizer_withFinalizer
  have uninitialized : (r.withFinalizer.renumbered v₁).isInitialized = false := by
    change r.isInitialized = false
    rw [Resource.isInitialized, fresh.conditions]
    rfl
  obtain ⟨p₂, s₂, v₂, initial, current⟩ :=
    marked.exists_initialized current wanted guarded uninitialized .epoch
  obtain ⟨p₃, s₃, v₃, flagged, current⟩ := initial.exists_flagged current wanted guarded
    Resource.isInitialized_setInitial fresh.unflagged
  refine ⟨_, s₃, _, flagged, current,
    ⟨wanted, guarded, Resource.isInitialized_setInitial, ?_⟩, ?_, ?_, rfl, rfl⟩
  · exact Option.isSome_iff_exists.mpr ⟨false, Resource.runningFlag?_setRunningFlag false⟩
  · have same : (r.setInitial .epoch).1.databaseId = r.databaseId := Resource.databaseId_setInitial
    exact same.trans fresh.databaseId
  · exact Resource.isRunning_setRunningFlag false

/-- A pass over a prepared resource creates the database and records its id. -/
theorem exists_created {wanted : Database} (db : Database) (h : History delay namespaceName name s₀ ps s)
    (current : s.current = some r) (prepared : r.Prepared) (unrecorded : r.databaseId = "")
    (resting : r.isRunning = false) (creatable : r.Creatable wanted) (named : db.id ≠ "") :
    ∃ (p : PassRun delay namespaceName name) (s' : Chronicle) (r' : Resource),
      History delay namespaceName name s₀ (ps ++ [p]) s' ∧ p.Records db.id ∧
      s'.current = some r' ∧ r'.databaseId = db.id := by
  obtain ⟨v, unused⟩ := s.exists_unused
  obtain ⟨t, opening⟩ := Pass.exists_opening creatable
  let w := ((r.setDatabaseId db.id).setProvisioning .epoch).1
  have change : r.Change w := .record db.id .epoch prepared unrecorded resting named
  have creating : Pass.Creating delay r (t ++ [⟨.provider (.createDatabase wanted), .ok db⟩,
      ⟨.now, Time.epoch⟩, ⟨.resource (.updateStatus w), .ok (w.renumbered v)⟩]) _ :=
    .created .epoch _ creatable.valid opening named
  let p : PassRun delay namespaceName name := .found (.create prepared unrecorded resting creating)
  refine ⟨p, s.put w v unused, w.renumbered v, h.found current _ ?_, ⟨named, ⟨db, ⟨wanted, ?_⟩, rfl⟩,
    w, w.renumbered v, ?_⟩, s.current_put prepared.wanted, Resource.databaseId_setProvisioning⟩
  · exact (Chronicle.Evolves.of_quiet opening.quiet).append
      (.exchange (.other _ (fun _ => PassCall.noConfusion))
        (.exchange (.other _ (fun _ => PassCall.noConfusion))
          (.of_updateStatus current unused change rfl rfl)))
  · exact .tail _ (List.mem_append_right _ (.head _))
  · exact .tail _ (List.mem_append_right _ (.tail _ (.tail _ (.head _))))

/-- The write of the new id can fail after the database is created. -/
theorem exists_unrecorded {wanted : Database} (db : Database) (h : History delay namespaceName name s₀ ps s)
    (current : s.current = some r) (prepared : r.Prepared) (unrecorded : r.databaseId = "")
    (resting : r.isRunning = false) (creatable : r.Creatable wanted) (named : db.id ≠ "") :
    ∃ p : PassRun delay namespaceName name,
      History delay namespaceName name s₀ (ps ++ [p]) s ∧ p.Creates db := by
  obtain ⟨t, opening⟩ := Pass.exists_opening creatable
  let w := ((r.setDatabaseId db.id).setProvisioning .epoch).1
  have creating : Pass.Creating delay r (t ++ [⟨.provider (.createDatabase wanted), .ok db⟩,
      ⟨.now, Time.epoch⟩, ⟨.resource (.updateStatus w), .error (.conflict name)⟩]) _ :=
    .created .epoch _ creatable.valid opening named
  let p : PassRun delay namespaceName name := .found (.create prepared unrecorded resting creating)
  refine ⟨p, h.found current _ ?_, wanted, .tail _ (List.mem_append_right _ (.head _))⟩
  exact (Chronicle.Evolves.of_quiet opening.quiet).append
    (.exchange (.other _ (fun _ => PassCall.noConfusion))
      (.exchange (.other _ (fun _ => PassCall.noConfusion))
        (.exchange (.failed _ _) (.rest s))))

/-- Four passes bring a fresh resource to its database. -/
theorem exists_launched {wanted : Database} (delay : Nat) (namespaceName name : String)
    (db : Database) (fresh : r.Fresh)
    (wantedStill : r.isDeletionRequested = false) (creatable : r.Creatable wanted)
    (named : db.id ≠ "") :
    ∃ (ps : List (PassRun delay namespaceName name)) (p : PassRun delay namespaceName name)
      (s : Chronicle) (r' : Resource), History delay namespaceName name (.start r) (ps ++ [p]) s ∧
      p.Records db.id ∧ s.current = some r' ∧ r'.databaseId = db.id := by
  obtain ⟨ps, s, r', h, current, prepared, unrecorded, resting, spec, located⟩ :=
    exists_prepared delay namespaceName name fresh wantedStill
  obtain ⟨p, s', r'', created⟩ := h.exists_created db current prepared unrecorded resting
    (creatable.of_spec spec located) named
  exact ⟨ps, p, s', r'', created⟩

/-- Someone asks for the deletion of a resource without a recorded id, and the next pass removes the
finalizer. -/
theorem exists_released (delay : Nat) (namespaceName name : String) (current : s.current = some r)
    (guarded : r.hasFinalizer = true) (unrecorded : r.databaseId = "") :
    ∃ (p : PassRun delay namespaceName name) (s' : Chronicle), s.Evolves p.trace s' ∧
      ∃ w stored, (⟨.resource (.update w), .ok stored⟩ : Exchange pass) ∈ p.trace ∧
        w.hasFinalizer = false := by
  obtain ⟨v, unused⟩ := s.exists_unused
  let asked := { r with metadata.deletionTimestamp := some .epoch }
  have edit : r.Edit asked := ⟨rfl, rfl, rfl, fun _ => rfl⟩
  have current' : (s.put asked v unused).current = some (asked.renumbered v) :=
    s.current_put_of_guarded guarded
  obtain ⟨v', unused'⟩ := (s.put asked v unused).exists_unused
  let w := (asked.renumbered v).removeFinalizer
  have course : Pass.Course delay (asked.renumbered v)
      [⟨.resource (.update w), .ok (w.renumbered v')⟩] _ :=
    .finalize rfl (.unrecorded _ guarded unrecorded)
  refine ⟨.found course, (s.put asked v unused).put w v' unused', ?_, w, w.renumbered v', .tail _ (.head _),
    Resource.hasFinalizer_removeFinalizer⟩
  exact .edit v unused current edit (.exchange (.of_current current' namespaceName name)
    (.of_update current' unused' (.release rfl guarded) rfl))

end History

/-- A declared database of which the operator knows nothing yet. -/
def sample : Resource where
  metadata := { Metadata.blank with
    name := some "db", namespaceName := some "prod", resourceVersion := some "1" }
  spec :=
    { authSecret := ⟨"scalingo", "token"⟩, connectionTarget := ⟨"db-url", none⟩, name := "my-db",
      plan := "postgresql-starter-512", region := "osc-fr1", projectId := none, networking := none }
  status := none

theorem fresh_sample : sample.Fresh :=
  ⟨by decide, rfl, rfl⟩

theorem creatable_sample : ∃ wanted, sample.Creatable wanted :=
  ⟨_, rfl, by decide, by decide, by decide⟩

end DatabaseOperator
