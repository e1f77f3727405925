import DatabaseOperator.Proofs.Service

namespace DatabaseOperator

open FirewallRule

/-- The parts of a database that a declaration is about. -/
theorem Spec.database_parts {s : Spec} {db : Database} (h : s.database = .ok db) :
    db.plan = s.plan ∧ db.features = s.features ∧ s.firewallRules = .ok db.firewallRules := by
  unfold Spec.database at h
  cases checked : s.firewallRules with
  | error e => rw [checked] at h; cases h
  | ok rules => rw [checked] at h; cases h; exact ⟨rfl, rfl, rfl⟩

theorem Spec.isActive_features (s : Spec) :
    s.features.isActive Features.publiclyAvailable = s.internetAccess := by
  unfold Spec.features
  cases s.internetAccess with
  | true =>
    rw [if_pos rfl]
    exact Manager.isActive_insert rfl
  | false => rfl

variable {delay : Nat} {namespaceName name : String} {r : Resource} {db db' : Database}
  {t : List (Exchange pass)} {rules : List FirewallRule}

/-- Only an update that leaves the plan alone is done. -/
theorem Pass.Updating.of_done {next : Requeue} (h : Pass.Updating delay r t (.ok next))
    (done : next = .done) :
    ∃ (wanted : Database) (outcome : UpdateOutcome), r.spec.database = .ok wanted ∧
      (Manager.update r.databaseId wanted).run.Runs (Pass.asked t) (.ok outcome) := by
  generalize eq : Except.ok next = res at h
  subst done
  cases h with
  | invalid => cases eq
  | closed => cases eq
  | unread => cases eq
  | busy => cases eq
  | failed => cases eq
  | arrived _ a | planned _ a => cases a <;> cases eq
  | noted now valid opening _ _ update =>
    rw [opening.asked_provided_append _ rfl]
    exact ⟨_, _, valid, update⟩
  | renoted now a valid opening _ _ update =>
    rw [opening.asked_provided_append _ rfl]
    exact ⟨_, _, valid, update⟩

/-- A pass over a resource in service that is done has updated the database. -/
theorem PassRun.updated_of_done {p : PassRun delay namespaceName name}
    (found : p.trace = ⟨.resource (.get namespaceName name), .ok (some r)⟩ :: t)
    (prepared : r.Prepared) (available : r.isAvailable = true) (running : r.isRunning = true)
    (recorded : r.databaseId = db.id) (identified : Identified db.firewallRules)
    (undergoes : db.Undergoes (Pass.asked t) db') (done : p.result = .ok .done) :
    ∃ wanted, r.spec.database = .ok wanted ∧ Manager.Updated wanted db db' := by
  have passing := Pass.runs_run_iff.mp p.runs
  rw [found, done] at passing
  generalize eq : Except.ok Requeue.done = res at passing
  cases passing with
  | found course =>
    obtain ⟨res', rfl, updating⟩ := course.updating prepared available running
    cases res' with
    | error e => cases eq
    | ok next =>
      cases eq
      obtain ⟨wanted, outcome, valid, update⟩ := updating.of_done rfl
      rcases Manager.leads_update ⟨update, undergoes⟩ recorded identified with
        ⟨_, _, updated, _⟩ | ⟨_, _, error⟩
      · exact ⟨wanted, valid, updated⟩
      · cases error

/-- The remote database is as declared. -/
structure Database.Converged (db : Database) (s : Spec) (rules : List FirewallRule) : Prop where
  plan : db.plan = s.plan
  access : db.features.isActive Features.publiclyAvailable = s.internetAccess
  ranges : ∀ x, x ∈ ranges db.firewallRules ↔ x ∈ ranges rules

theorem Manager.Updated.access_of_database {wanted : Database} {s : Spec}
    (h : Manager.Updated wanted db db') (valid : s.database = .ok wanted) :
    db'.features.isActive Features.publiclyAvailable = s.internetAccess := by
  rw [h.access, (Spec.database_parts valid).2.1, Spec.isActive_features]

/-- An update that leaves the declared plan falls short exactly where rules share a range that is not
declared. -/
theorem Manager.Updated.converged_iff {wanted : Database} {s : Spec}
    (h : Manager.Updated wanted db db') (valid : s.database = .ok wanted) :
    db'.Converged s wanted.firewallRules ↔ surplus wanted.firewallRules db.firewallRules ≤ 1 := by
  rw [surplus_le_iff]
  constructor
  · intro converged x undeclared
    have absent : x ∉ ranges db'.firewallRules := fun mem => undeclared ((converged.ranges x).mp mem)
    have few : ¬ 2 ≤ (ranges db.firewallRules).count x :=
      fun many => absent (h.rules.mem_ranges_iff.mpr (.inr many))
    omega
  · intro few
    refine ⟨h.plan.trans (Spec.database_parts valid).1, h.access_of_database valid, fun x => ?_⟩
    rw [h.rules.mem_ranges_iff]
    constructor
    · rintro (declared | many)
      · exact declared
      · by_contra undeclared
        have single := few x undeclared
        omega
    · exact .inl

/-- After a pass that is done the plan and the public access are as declared, and what is declared is
allowed, together with what more than one rule allowed before. -/
theorem PassRun.remote_of_done {p : PassRun delay namespaceName name}
    (found : p.trace = ⟨.resource (.get namespaceName name), .ok (some r)⟩ :: t)
    (wanted : r.isDeletionRequested = false) (guarded : r.hasFinalizer = true)
    (available : r.isAvailable = true) (running : r.isRunning = true)
    (declared : r.spec.firewallRules = .ok rules) (recorded : r.databaseId = db.id)
    (identified : Identified db.firewallRules) (undergoes : db.Undergoes (Pass.asked t) db')
    (done : p.result = .ok .done) :
    db'.plan = r.spec.plan ∧
      db'.features.isActive Features.publiclyAvailable = r.spec.internetAccess ∧
      (∀ x, x ∈ ranges db'.firewallRules ↔
        x ∈ ranges rules ∨ 2 ≤ (ranges db.firewallRules).count x) ∧
      (db'.Converged r.spec rules ↔ surplus rules db.firewallRules ≤ 1) := by
  have prepared := Resource.prepared_of_running wanted guarded available running
  obtain ⟨target, valid, updated⟩ :=
    p.updated_of_done found prepared available running recorded identified undergoes done
  obtain ⟨plan, _, checked⟩ := Spec.database_parts valid
  cases checked.symm.trans declared
  exact ⟨updated.plan.trans plan, updated.access_of_database valid,
    fun _ => updated.rules.mem_ranges_iff, updated.converged_iff valid⟩

/-- Two rules that allow everyone. -/
def openRules : List FirewallRule :=
  [⟨some "fw-1", .custom "0.0.0.0/0", "a"⟩, ⟨some "fw-2", .custom "0.0.0.0/0", "b"⟩]

theorem identified_openRules : Identified openRules :=
  ⟨by decide, by decide⟩

/-- A pass can be done with any rules before it. -/
theorem exists_done_standing (delay : Nat) (namespaceName name : String)
    (identified : Identified rules) :
    ∃ (p : PassRun delay namespaceName name) (t : List (Exchange pass)) (db' : Database),
      p.trace = ⟨.resource (.get namespaceName name), .ok (some standing)⟩ :: t ∧
      (standingDatabase sample.spec.plan rules).Undergoes (Pass.asked t) db' ∧
      (∀ e ∈ p.trace, e.Granted) ∧ p.result = .ok .done := by
  obtain ⟨wanted, plan, _, serving⟩ :=
    exists_serving_standing sample.spec.plan identified
  have current : (Chronicle.start standing).current = some standing := rfl
  obtain ⟨t, res, db', s', unfailing, undergoes⟩ :=
    Pass.exists_updating delay serving rfl current
  have updating := unfailing.updating
  have serviced := updating.serviced serving rfl unfailing.granted undergoes
  refine ⟨.found (.update serving.prepared serving.available serving.running updating), t, db', rfl,
    undergoes, List.forall_mem_cons.mpr ⟨trivial, unfailing.granted⟩, ?_⟩
  change res.mapError (Error.phase "update database") = .ok .done
  cases serviced with
  | arrived _ _ provisioning =>
    rw [isProvisioning_standing] at provisioning
    cases provisioning
  | planned _ _ _ differs => exact absurd plan.symm differs
  | renoted => rfl
  | noted => rfl

/-- So a pass that is done can leave a database open that is declared to be closed. -/
theorem not_always_converged :
    ¬ ∀ (delay : Nat) (namespaceName name : String) (p : PassRun delay namespaceName name)
      (r : Resource) (t : List (Exchange pass)) (db db' : Database) (rules : List FirewallRule),
      p.trace = ⟨.resource (.get namespaceName name), .ok (some r)⟩ :: t →
      r.isDeletionRequested = false → r.hasFinalizer = true → r.isAvailable = true →
      r.isProvisioning = false → r.isRunning = true → r.spec.firewallRules = .ok rules →
      r.databaseId = db.id → Identified db.firewallRules → db.Undergoes (Pass.asked t) db' →
      (∀ e ∈ p.trace, e.Granted) → p.result = .ok .done → db'.Converged r.spec rules := by
  intro always
  obtain ⟨p, t, db', found, undergoes, granted, done⟩ :=
    exists_done_standing 30000 "prod" "db" identified_openRules
  have converged := always 30000 "prod" "db" p standing t _ db' [] found prepared_standing.wanted
    prepared_standing.guarded isAvailable_standing isProvisioning_standing isRunning_standing rfl
    databaseId_standing identified_openRules undergoes granted done
  obtain ⟨target, valid, updated⟩ := p.updated_of_done found prepared_standing isAvailable_standing
    isRunning_standing databaseId_standing identified_openRules undergoes done
  have left : FirewallRange.custom "0.0.0.0/0" ∈ ranges db'.firewallRules :=
    updated.rules.mem_ranges_iff.mpr (.inr (by decide))
  cases (converged.ranges _).mp left

theorem PassRun.remote_of_done_standing :
    ∃ (p : PassRun 30000 "prod" "db") (t : List (Exchange pass)) (db' : Database),
      p.trace = ⟨.resource (.get "prod" "db"), .ok (some standing)⟩ :: t ∧
      p.result = .ok .done ∧ db'.plan = sample.spec.plan ∧
      db'.features.isActive Features.publiclyAvailable = sample.spec.internetAccess ∧
      (∀ x, x ∈ ranges db'.firewallRules ↔ x ∈ ranges [] ∨ 2 ≤ (ranges openRules).count x) ∧
      (db'.Converged sample.spec [] ↔ surplus [] openRules ≤ 1) := by
  obtain ⟨p, t, db', found, undergoes, _, done⟩ :=
    exists_done_standing 30000 "prod" "db" identified_openRules
  exact ⟨p, t, db', found, done, PassRun.remote_of_done found prepared_standing.wanted
    prepared_standing.guarded isAvailable_standing isRunning_standing rfl databaseId_standing
    identified_openRules undergoes done⟩

end DatabaseOperator
