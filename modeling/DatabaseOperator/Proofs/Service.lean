import DatabaseOperator.Proofs.Pass.Service

namespace DatabaseOperator

namespace Pass

variable {t : List (Exchange pass)} {r : Resource} {db db' wanted : Database}
  {delay : Nat} {s : Chronicle}

theorem exists_granted_opening (creatable : r.Creatable wanted) :
    ∃ t, Opening r t (.ok ()) ∧ ∀ e ∈ t, e.Granted := by
  refine ⟨_, .connected (.ok ()) ((runs_readSecret_iff creatable.located creatable.secretNamed
    creatable.keyNamed).mpr ⟨.ok "token", rfl, rfl⟩), fun e mem => ?_⟩
  simp only [List.map_cons, List.map_nil, List.cons_append, List.nil_append, List.mem_cons,
    List.not_mem_nil, or_false] at mem
  rcases mem with rfl | rfl
  · trivial
  · trivial

theorem granted_ofProvider {p : List (Exchange provider)} (answered : ∀ e ∈ p, e.Answered) :
    ∀ e ∈ p.map Exchange.ofProvider, e.Granted := by
  intro e mem
  obtain ⟨⟨c, a⟩, asked, rfl⟩ := List.mem_map.mp mem
  cases a with
  | error e => exact (answered _ asked).elim
  | ok x => trivial

theorem granted_ticks (times : List Time) : ∀ e ∈ ticks times, e.Granted :=
  List.forall_mem_map.mpr fun _ _ => trivial

/-- An update in which nothing fails, with the versions before and after it. -/
structure Unfailing (delay : Nat) (s : Chronicle) (r : Resource) (t : List (Exchange pass))
    (res : Except Error Requeue) (s' : Chronicle) : Prop where
  updating : Updating delay r t res
  granted : ∀ e ∈ t, e.Granted
  evolves : s.Evolves t s'
  added : ∀ x ∈ s'.versions, x ∈ s.versions ∨ r.Alike x

/-- When a course ends with a write of the status, the write can take effect. -/
theorem exists_written {p : List (Exchange provider)} {w : Resource} {next : Requeue}
    (opening : Opening r t (.ok ())) (granted : ∀ e ∈ t, e.Granted) (answered : ∀ e ∈ p, e.Answered)
    (current : s.current = some r) (change : r.Change w) (metadata : w.metadata = r.metadata)
    (spec : w.spec = r.spec) {times : List Time}
    (ends : ∀ a, Updating delay r
      (t ++ (p.map .ofProvider ++ (ticks times ++ [⟨.resource (.updateStatus w), a⟩])))
      (ended "update status" next a)) :
    ∃ t' s', Unfailing delay s r t' (.ok next) s' ∧ asked t' = p := by
  obtain ⟨v, unused⟩ := s.exists_unused
  refine ⟨_, s.put w v unused, ⟨ends (.ok (w.renumbered v)), fun e mem => ?_, ?_, fun x mem => ?_⟩,
    opening.asked_provided_append p (asked_timed times _)⟩
  · simp only [List.mem_append, List.mem_singleton] at mem
    rcases mem with mem | mem | mem | rfl
    · exact granted e mem
    · exact granted_ofProvider answered e mem
    · exact granted_ticks times e mem
    · trivial
  · rw [append_timed]
    exact (Chronicle.Evolves.of_quiet (opening.quiet_timed p times)).append
      (.of_updateStatus current unused change metadata spec)
  · rcases List.mem_cons.mp mem with rfl | known
    · exact .inr ((Resource.alike_of_metadata metadata spec).renumbered v)
    · exact .inl known

/-- A pass that leaves the plan alone can be done. -/
theorem exists_done (delay : Nat) {p : List (Exchange provider)} {outcome : UpdateOutcome}
    (opening : Opening r t (.ok ())) (granted : ∀ e ∈ t, e.Granted) (answered : ∀ e ∈ p, e.Answered)
    (current : s.current = some r) (prepared : r.Prepared) (running : r.isRunning = true)
    (valid : r.spec.database = .ok wanted) (steadily : r.isProvisioning = false)
    (other : outcome ≠ .provisioning)
    (update : (Manager.update r.databaseId wanted).run.Runs p (.ok outcome)) :
    ∃ t' s', Unfailing delay s r t' (.ok .done) s' ∧ asked t' = p := by
  cases same : (r.setProvisioned .epoch).2 with
  | true =>
    exact exists_written opening granted answered current
      (.provision .epoch prepared (.inr running)) rfl rfl
      fun a => .renoted .epoch a valid opening steadily other update same
  | false =>
    refine ⟨_, s, ⟨.noted .epoch valid opening steadily other update same, fun e mem => ?_,
      .of_quiet (opening.quiet_timed p _), fun _ => .inl⟩, opening.asked_provided_append p rfl⟩
    simp only [List.mem_append] at mem
    rcases mem with mem | mem | mem
    · exact granted e mem
    · exact granted_ofProvider answered e mem
    · exact granted_ticks _ e mem

/-- Over a resource in service a pass is possible in which nothing fails. -/
theorem exists_updating (delay : Nat) (serving : r.Serving wanted db) (up : db.isRunning = true)
    (current : s.current = some r) :
    ∃ (t : List (Exchange pass)) (res : Except Error Requeue) (db' : Database) (s' : Chronicle),
      Unfailing delay s r t res s' ∧ db.Undergoes (asked t) db' := by
  have valid := serving.creatable.valid
  obtain ⟨t, opening, granted⟩ := exists_granted_opening serving.creatable
  cases provisioning : r.isProvisioning with
  | true =>
    obtain ⟨p, res, db', read, undergoes, answered⟩ :=
      db.exists_undergoes (Manager.get r.databaseId).run
    obtain ⟨rfl, rfl⟩ := get_of_serving read serving undergoes
    obtain ⟨t', s', unfailing, rfl⟩ := exists_written opening granted answered current
      (.provision .epoch serving.prepared (.inr serving.running)) rfl rfl
      fun a => .arrived .epoch a valid opening provisioning read up
    exact ⟨t', _, db', s', unfailing, undergoes⟩
  | false =>
    obtain ⟨p, res, db', update, undergoes, answered⟩ :=
      db.exists_undergoes (Manager.update r.databaseId wanted).run
    obtain ⟨outcome, rfl, _⟩ := update_of_serving update serving up undergoes
    by_cases plan : outcome = .provisioning
    · obtain ⟨t', s', unfailing, rfl⟩ := exists_written opening granted answered current
        (.plan .epoch serving.prepared serving.available serving.running) rfl rfl
        fun a => .planned .epoch a valid opening provisioning (plan ▸ update)
      exact ⟨t', _, db', s', unfailing, undergoes⟩
    · obtain ⟨t', s', unfailing, rfl⟩ := exists_done delay opening granted answered
        current serving.prepared serving.running valid provisioning plan update
      exact ⟨t', _, db', s', unfailing, undergoes⟩

end Pass

/-- A resource whose database has been handed over. -/
def standing : Resource :=
  ((sample.withFinalizer.setDatabaseId "db-1").setProvisioned .epoch).1.setRunningFlag true

theorem isAvailable_standing : standing.isAvailable = true :=
  Resource.isAvailable_setProvisioned

theorem isRunning_standing : standing.isRunning = true :=
  Resource.isRunning_setRunningFlag true

theorem prepared_standing : standing.Prepared :=
  Resource.prepared_of_running rfl Resource.hasFinalizer_withFinalizer isAvailable_standing
    isRunning_standing

theorem isProvisioning_standing : standing.isProvisioning = false :=
  Resource.isProvisioning_setProvisioned

theorem databaseId_standing : standing.databaseId = "db-1" :=
  Resource.databaseId_setProvisioned

/-- Its database, with some rules. -/
def standingDatabase (plan : String) (rules : List FirewallRule) : Database :=
  { Database.blank with
    id := "db-1", addonId := "addon-1", status := .running, plan := plan, firewallRules := rules }

theorem exists_serving_standing (plan : String) {rules : List FirewallRule}
    (identified : FirewallRule.Identified rules) :
    ∃ wanted, wanted.plan = sample.spec.plan ∧ wanted.firewallRules = [] ∧
      standing.Serving wanted (standingDatabase plan rules) :=
  ⟨_, rfl, rfl, prepared_standing, isAvailable_standing, isRunning_standing,
    ⟨rfl, by decide, by decide, by decide⟩, databaseId_standing, show "db-1" ≠ "" by decide,
    show "addon-1" ≠ "" by decide, identified⟩

end DatabaseOperator
