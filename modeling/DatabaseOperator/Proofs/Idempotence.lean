import DatabaseOperator.Proofs.Provider.Agreement
import DatabaseOperator.Proofs.Settling

namespace DatabaseOperator

open FirewallRule

namespace Pass

variable {delay : Nat} {r : Resource} {wanted db : Database} {t : List (Exchange pass)}
  {p : List (Exchange provider)} {res : Except Error Requeue}

theorem harmless_ofProvider (reads : ∀ e ∈ p, e.call.Reads) :
    ∀ e ∈ p.map Exchange.ofProvider, ¬ e.call.Changes := by
  intro e mem
  obtain ⟨x, asked, rfl⟩ := List.mem_map.mp mem
  exact fun changes => changes (reads x asked)

/-- All calls of a pass that change something write the conditions that say that the database is
provisioned, and the pass makes such a call exactly when the conditions do not say so already. -/
structure OnlyNotes (r : Resource) (t : List (Exchange pass)) : Prop where
  noted : ∀ e ∈ t, e.call.Changes →
    ∃ now, e.call = .resource (.updateStatus (r.setProvisioned now).1)
  notes_iff : (∃ e ∈ t, e.call.Changes) ↔ ¬ r.Settled

theorem onlyNotes_of_settled (settled : r.Settled) (harmless : ∀ e ∈ t, ¬ e.call.Changes) :
    OnlyNotes r t where
  noted e mem changes := absurd changes (harmless e mem)
  notes_iff := by
    constructor
    · rintro ⟨e, mem, changes⟩
      exact absurd changes (harmless e mem)
    · intro unsettled
      exact absurd settled unsettled

theorem onlyNotes_of_unsettled {now : Times} {a : Except StoreError Resource}
    (unsettled : ¬ r.Settled) (harmless : ∀ e ∈ t, ¬ e.call.Changes) :
    OnlyNotes r (t ++ [⟨.resource (.updateStatus (r.setProvisioned now).1), a⟩]) where
  noted e mem changes := by
    rcases List.mem_append.mp mem with early | last
    · exact absurd changes (harmless e early)
    · obtain rfl := List.mem_singleton.mp last
      exact ⟨now, rfl⟩
  notes_iff := by
    refine ⟨fun _ => unsettled, fun _ => ?_⟩
    exact ⟨_, List.mem_append_right _ (List.mem_singleton_self _), trivial⟩

theorem OnlyNotes.cons {e : Exchange pass} (h : OnlyNotes r t) (harmless : ¬ e.call.Changes) :
    OnlyNotes r (e :: t) where
  noted x mem changes := by
    rcases List.mem_cons.mp mem with rfl | mem
    · exact absurd changes harmless
    · exact h.noted x mem changes
  notes_iff := by
    rw [← h.notes_iff]
    simp [harmless]

/-- An update of a database that is as declared is done. -/
theorem Updating.onlyNotes (h : Updating delay r t res) (creatable : r.Creatable wanted)
    (steady : r.isProvisioning = false) (named : r.databaseId ≠ "") (addressed : db.addonId ≠ "")
    (granted : ∀ e ∈ t, e.Granted) (shown : ∀ e ∈ asked t, e.Shows r.databaseId db)
    (agrees : db.Agrees wanted) : res = .ok .done ∧ OnlyNotes r t := by
  have unchanged {p : List (Exchange provider)} {out : Except Error UpdateOutcome}
      (update : (Manager.update r.databaseId wanted).run.Runs p out)
      (shown : ∀ e ∈ p, e.Shows r.databaseId db) :
      out = .ok .unchanged ∧ ∀ e ∈ p, e.call.Reads := by
    obtain ⟨reading, agreeing⟩ := Manager.update_unchanged_iff update named addressed shown
    have same := agreeing.mpr agrees
    exact ⟨same, (reading.mp same).2⟩
  have quiet {u : List (Exchange pass)} {p : List (Exchange provider)} (times : List Time)
      (opening : Opening r u (.ok ())) (reads : ∀ e ∈ p, e.call.Reads) :
      ∀ e ∈ u ++ (p.map .ofProvider ++ ticks times), ¬ e.call.Changes := by
    intro e mem
    simp only [List.mem_append] at mem
    rcases mem with early | asking | timed
    · exact opening.harmless e early
    · exact harmless_ofProvider reads e asking
    · exact harmless_ticks times e timed
  cases h with
  | invalid invalid => cases creatable.valid.symm.trans invalid
  | closed _ opening => cases opening.ok_of_granted creatable granted
  | unread _ _ provisioning | busy _ _ provisioning | arrived _ _ _ _ provisioning =>
    exact absurd (steady.symm.trans provisioning) (by decide)
  | failed valid opening _ update =>
    cases creatable.valid.symm.trans valid
    rw [opening.asked_provided] at shown
    cases (unchanged update shown).1
  | planned time a valid opening _ update =>
    cases creatable.valid.symm.trans valid
    rw [opening.asked_provided_append _ rfl] at shown
    cases (unchanged update shown).1
  | noted now valid opening _ _ update same =>
    cases creatable.valid.symm.trans valid
    rw [opening.asked_provided_append _ rfl] at shown
    have settled := Resource.settled_iff.mpr same
    exact ⟨rfl, onlyNotes_of_settled settled (quiet now.toList opening (unchanged update shown).2)⟩
  | renoted now a valid opening _ _ update differs =>
    cases creatable.valid.symm.trans valid
    rw [opening.asked_provided_append _ rfl] at shown
    have unsettled : ¬ r.Settled := fun settled =>
      absurd (differs.symm.trans (Resource.settled_iff.mp settled)) (by decide)
    rw [append_timed] at granted ⊢
    obtain ⟨stored, rfl⟩ := ok_of_written granted
    exact ⟨rfl, onlyNotes_of_unsettled unsettled (quiet now.toList opening (unchanged update shown).2)⟩

end Pass

/-- An update changes nothing exactly when it succeeds by reading alone, and exactly when the database is
as desired. A pass over a resource in service whose database is as declared, in which nothing fails, is
done, and it changes nothing but conditions that are out of date. -/
theorem idempotent {id : String} {db : Database} (named : id ≠ "") (addressed : db.addonId ≠ "") :
    (∀ (desired : Database) (t : List (Exchange provider)) (res : Except Error UpdateOutcome),
      (Manager.update id desired).run.Runs t res → (∀ e ∈ t, e.Shows id db) →
        (res = .ok .unchanged ↔ (∃ outcome, res = .ok outcome) ∧ ∀ e ∈ t, e.call.Reads) ∧
        (res = .ok .unchanged ↔ db.Agrees desired)) ∧
      ∀ (delay : Nat) (namespaceName name : String) (p : PassRun delay namespaceName name)
        (r : Resource) (wanted : Database) (t : List (Exchange pass)),
        p.trace = ⟨.resource (.get namespaceName name), .ok (some r)⟩ :: t →
        r.isDeletionRequested = false → r.hasFinalizer = true → r.isAvailable = true →
        r.isProvisioning = false → r.isRunning = true → r.databaseId = id →
        r.Creatable wanted → db.Agrees wanted →
        (∀ e ∈ Pass.asked p.trace, e.Shows id db) → (∀ e ∈ p.trace, e.Granted) →
        p.result = .ok .done ∧ Pass.OnlyNotes r p.trace := by
  constructor
  · intro desired t res update shown
    exact Manager.update_unchanged_iff update named addressed shown
  · intro delay namespaceName name p r wanted t found undeleted guarded available steady running
      recorded creatable agrees shown granted
    subst recorded
    have prepared := Resource.prepared_of_running undeleted guarded available running
    have passing := Pass.runs_run_iff.mp p.runs
    rw [found] at passing shown granted ⊢
    generalize p.result = result at passing ⊢
    cases passing with
    | found course =>
      obtain ⟨res', rfl, updating⟩ := course.updating prepared available running
      obtain ⟨rfl, only⟩ := updating.onlyNotes creatable steady named addressed
        (fun e mem => granted e (List.mem_cons_of_mem _ mem)) shown agrees
      exact ⟨rfl, only.cons id⟩

/-- A resource in service whose declaration has been touched since. -/
def touched : Resource :=
  { standing with metadata.generation := some 2 }

theorem not_settled_touched : ¬ touched.Settled := by
  intro settled
  exact absurd (Resource.settled_iff.mp settled : (touched.setProvisioned .epoch).2 = false) (by decide)

/-- Two rules with one range agree with a single rule that has another label. Where the declaration has
been touched but asks for the same database, the pass writes the conditions and nothing else. -/
theorem idempotent_touched :
    (∃ (desired : Database) (t : List (Exchange provider)) (res : Except Error UpdateOutcome),
      desired.firewallRules = [⟨none, .custom "0.0.0.0/0", "open"⟩] ∧
      (Manager.update "db-1" desired).run.Runs t res ∧ res = .ok .unchanged ∧
      ∀ e ∈ t, e.call.Reads) ∧
    ∃ p : PassRun 30000 "prod" "db", p.result = .ok .done ∧ Pass.OnlyNotes touched p.trace ∧
      ∃ e ∈ p.trace, e.call.Changes := by
  have named : "db-1" ≠ "" := by decide
  have addressed (rules : List FirewallRule) :
      (standingDatabase sample.spec.plan rules).addonId ≠ "" := show "addon-1" ≠ "" by decide
  constructor
  · let db := standingDatabase sample.spec.plan openRules
    let desired := { db with firewallRules := [⟨none, .custom "0.0.0.0/0", "open"⟩] }
    have same : ∀ x, x ∈ ranges db.firewallRules ↔ x ∈ ranges desired.firewallRules := by
      intro x
      simp [db, desired, standingDatabase, openRules, ranges]
    have update : (Manager.update "db-1" desired).run.Runs _ (.ok .unchanged) :=
      Manager.runs_update_of_kept (Manager.runs_get db.firewallRules named (addressed openRules))
        rfl rfl same
    have ends := (idempotent named (addressed openRules)).1 desired _ _ update
      (Exchange.shows_of_answers "db-1" db db.firewallRules)
    exact ⟨desired, _, _, rfl, update, ends.2.mpr ⟨rfl, rfl, same⟩, (ends.1.mp rfl).2⟩
  · obtain ⟨wanted, creatable⟩ := creatable_sample
    have creatable : touched.Creatable wanted :=
      ⟨creatable.valid, creatable.located, creatable.secretNamed, creatable.keyNamed⟩
    let db := standingDatabase sample.spec.plan []
    have agrees : db.Agrees wanted := by
      obtain ⟨plan, features, rules⟩ := Spec.database_parts creatable.valid
      refine ⟨plan.symm, ?_, fun x => ?_⟩
      · rw [features]
        rfl
      · have undeclared : [] = wanted.firewallRules := Except.ok.inj rules
        rw [← undeclared]
        exact Iff.rfl
    have steady : touched.isProvisioning = false := isProvisioning_standing
    have recorded : touched.databaseId = "db-1" := databaseId_standing
    have prepared : touched.Prepared := Resource.prepared_of_running rfl
      Resource.hasFinalizer_withFinalizer isAvailable_standing isRunning_standing
    obtain ⟨u, opening, granted⟩ := Pass.exists_granted_opening creatable
    let reading : List (Exchange provider) :=
      [⟨.getDatabase "db-1", .ok db⟩, ⟨.listFirewallRules db.id db.addonId, .ok []⟩]
    have answered : ∀ e ∈ reading, e.Answered := by
      simp [reading, Exchange.Answered]
    have update : (Manager.update touched.databaseId wanted).run.Runs reading (.ok .unchanged) := by
      rw [recorded]
      exact Manager.runs_update_of_kept (Manager.runs_get [] named (addressed []))
        agrees.plan agrees.access agrees.ranges
    obtain ⟨t, s, unfailing, asked⟩ := Pass.exists_done 30000 opening granted answered
      (show (Chronicle.start touched).current = some touched from rfl) prepared isRunning_standing
      creatable.valid steady (by decide) update
    let p : PassRun 30000 "prod" "db" :=
      .found (.update prepared isAvailable_standing isRunning_standing unfailing.updating)
    have shown : ∀ e ∈ Pass.asked p.trace, e.Shows "db-1" db := by
      change ∀ e ∈ Pass.asked t, e.Shows "db-1" db
      rw [asked]
      exact Exchange.shows_of_answers "db-1" db []
    have ends := (idempotent named (addressed [])).2 30000 "prod" "db" p touched wanted t rfl rfl
      Resource.hasFinalizer_withFinalizer isAvailable_standing steady isRunning_standing recorded
      creatable agrees shown (List.forall_mem_cons.mpr ⟨trivial, unfailing.granted⟩)
    exact ⟨p, ends.1, ends.2, ends.2.notes_iff.mpr not_settled_touched⟩

end DatabaseOperator
