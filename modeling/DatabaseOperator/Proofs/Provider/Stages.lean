import DatabaseOperator.Proofs.Provider.Parts

namespace DatabaseOperator

namespace Manager

variable {id : String} {db desired : Database} {t : List (Exchange provider)}

theorem Reading.reads {res : Except Error Database} (h : Reading id t res) :
    ∀ e ∈ t, e.call.Reads := by
  intro e mem
  cases h with
  | unnamed => cases mem
  | unread | unaddressed =>
    obtain rfl := List.mem_singleton.mp mem
    trivial
  | unlisted | read =>
    rcases List.mem_pair.mp mem with rfl | rfl
    · trivial
    · trivial

/-- What an update does in each stage, and the database that it reads. -/
structure Stages where
  reading : List (Exchange provider)
  current : Except Error Database
  toggling : List (Exchange provider)
  ruling : List (Exchange provider)
  planning : List (Exchange provider)

namespace Stages

variable {s : Stages}

def trace (s : Stages) : List (Exchange provider) :=
  s.reading ++ (s.toggling ++ (s.ruling ++ s.planning))

/-- The stage of the features succeeded: all of its calls were made and did their work. -/
def Toggled (s : Stages) (desired : Database) : Prop :=
  ∃ db, s.current = .ok db ∧ (∀ e ∈ s.toggling, e.Succeeds) ∧
    calls s.toggling = dueToggles db (desired.features.isActive Features.publiclyAvailable)

/-- The stage of the firewall rules succeeded. -/
def Ruled (s : Stages) (desired : Database) : Prop :=
  ∃ db, s.current = .ok db ∧ (∀ e ∈ s.ruling, e.Succeeds) ∧ calls s.ruling = dueActions db desired ∧
    ¬ Unidentified db desired

/-- The stage of the plan succeeded. -/
def Planned (s : Stages) (desired : Database) : Prop :=
  ∃ db, s.current = .ok db ∧ (∀ e ∈ s.planning, e.Succeeds) ∧ calls s.planning = duePlan db desired ∧
    ¬ Untimely db desired

theorem toggled_iff {res : Except Error Bool} (known : s.current = .ok db)
    (h : (updateInternetAccess db
      (desired.features.isActive Features.publiclyAvailable)).run.Runs s.toggling res) :
    (∃ changed, res = .ok changed) ↔ s.Toggled desired := by
  cases carries_updateInternetAccess db _ _ _ h with
  | whole same succeeds => exact iff_of_true ⟨_, rfl⟩ ⟨db, known, succeeds, same⟩
  | broken _ fails =>
    obtain ⟨e, mem, fails⟩ := fails
    refine iff_of_false nofun ?_
    rintro ⟨_, _, succeeds, _⟩
    exact fails (succeeds e mem)

theorem ruled_iff {res : Except Error Bool} (known : s.current = .ok db)
    (h : (updateFirewallRules db desired.firewallRules).run.Runs s.ruling res) :
    (∃ changed, res = .ok changed) ↔ s.Ruled desired := by
  obtain ⟨same, ok_iff, _⟩ := actions_of_runs h
  rw [ok_iff]
  constructor
  · rintro ⟨succeeds, identified⟩
    exact ⟨db, known, succeeds, same, identified⟩
  · rintro ⟨db', known', succeeds, _, identified⟩
    obtain rfl := Except.ok.inj (known.symm.trans known')
    exact ⟨succeeds, identified⟩

theorem planned_iff {res : Except Error Bool} (known : s.current = .ok db)
    (h : Planning db desired s.planning res) :
    (∃ changed, res = .ok changed) ↔ s.Planned desired := by
  generalize made : s.planning = t at h
  cases h with
  | kept same =>
    refine iff_of_true ⟨_, rfl⟩ ⟨db, known, ?_, ?_, fun untimely => untimely.1 same⟩
    · rw [made]
      exact List.forall_mem_nil _
    · rw [made, duePlan, if_pos same]
      rfl
  | untimely untimely =>
    refine iff_of_false nofun ?_
    rintro ⟨db', known', _, _, timely⟩
    obtain rfl := Except.ok.inj (known.symm.trans known')
    exact timely untimely
  | refused =>
    refine iff_of_false nofun ?_
    rintro ⟨_, _, succeeds, _⟩
    rw [made] at succeeds
    exact succeeds _ (List.mem_singleton_self _)
  | changed differs running =>
    refine iff_of_true ⟨_, rfl⟩ ⟨db, known, ?_, ?_, ?_⟩
    · rw [made]
      intro e mem
      obtain rfl := List.mem_singleton.mp mem
      trivial
    · rw [made, duePlan, if_neg differs]
      rfl
    · rintro ⟨_, stands⟩
      cases running.symm.trans stands

/-- The stages follow on each other, each behind the success of those before it. -/
structure Ordered (s : Stages) (id : String) (desired : Database) : Prop where
  reading : Reading id s.reading s.current
  toggling : s.toggling ≠ [] → ∃ db, s.current = .ok db ∧
    calls s.toggling <+: dueToggles db (desired.features.isActive Features.publiclyAvailable)
  ruling : s.ruling ≠ [] → s.Toggled desired ∧ ∃ db, s.current = .ok db ∧
    calls s.ruling = dueActions db desired
  planning : s.planning ≠ [] → s.Toggled desired ∧ s.Ruled desired ∧ ∃ db, s.current = .ok db ∧
    db.plan ≠ desired.plan ∧ db.isRunning = true ∧
    calls s.planning = [.updateDatabasePlan { db with plan := desired.plan }]

/-- What the outcome tells about the stages. -/
structure Tells (s : Stages) (desired : Database) (res : Except Error UpdateOutcome) : Prop where
  ok : (∃ outcome, res = .ok outcome) ↔ s.Toggled desired ∧ s.Ruled desired ∧ s.Planned desired
  provisioning : res = .ok .provisioning ↔ ∃ e ∈ s.planning, e.Succeeds
  updated : res = .ok .updated ↔ s.planning = [] ∧ (s.toggling ≠ [] ∨ s.ruling ≠ []) ∧
    s.Toggled desired ∧ s.Ruled desired ∧ s.Planned desired
  unchanged : res = .ok .unchanged ↔ (∃ outcome, res = .ok outcome) ∧ ∀ e ∈ s.trace, e.call.Reads
  refused : ∀ e, (res = .error e ∧ ∃ m, e.root = .precondition m) ↔
    s.Toggled desired ∧ s.Ruled desired ∧ ∃ db, s.current = .ok db ∧ Untimely db desired ∧
      e = .precondition ("invalid status " ++ db.status.name ++ " for plan update")

/-- What is refused before there is a database to compare. -/
structure Checked (s : Stages) (id : String) (res : Except Error UpdateOutcome) : Prop where
  unread : ∀ e, s.current = .error e → s.trace = s.reading ∧
    res = .error (.phase "get current database" e)
  unnamed : id = "" → s.trace = [] ∧
    res = .error (.phase "get current database" (.empty "database id"))
  unaddressed : ∀ seen : Database, (⟨.getDatabase id, .ok seen⟩ : Exchange provider) ∈ s.reading →
    seen.addonId = "" → s.trace = [⟨.getDatabase id, .ok seen⟩] ∧
      res = .error (.phase "get current database" (.empty "addon id"))

end Stages

/-- How far an update comes. -/
inductive Progress (id : String) (desired : Database) : Stages → Except Error UpdateOutcome → Prop
  | unread {t : List (Exchange provider)} {e : Error} : Reading id t (.error e) →
      Progress id desired ⟨t, .error e, [], [], []⟩ (.error (.phase "get current database" e))
  | untoggled {t u : List (Exchange provider)} {db : Database} {e : Error} : Reading id t (.ok db) →
      (updateInternetAccess db
        (desired.features.isActive Features.publiclyAvailable)).run.Runs u (.error e) →
      Progress id desired ⟨t, .ok db, u, [], []⟩ (.error (.phase "update internet access" e))
  | unruled {t u v : List (Exchange provider)} {db : Database} {toggled : Bool} {e : Error} :
      Reading id t (.ok db) →
      (updateInternetAccess db
        (desired.features.isActive Features.publiclyAvailable)).run.Runs u (.ok toggled) →
      (updateFirewallRules db desired.firewallRules).run.Runs v (.error e) →
      Progress id desired ⟨t, .ok db, u, v, []⟩ (.error (.phase "update firewall rules" e))
  | ruled {t u v w : List (Exchange provider)} {db : Database} {toggled ruled : Bool}
      {planned : Except Error Bool} : Reading id t (.ok db) →
      (updateInternetAccess db
        (desired.features.isActive Features.publiclyAvailable)).run.Runs u (.ok toggled) →
      (updateFirewallRules db desired.firewallRules).run.Runs v (.ok ruled) →
      (updatePlan db desired).run.Runs w planned →
      Progress id desired ⟨t, .ok db, u, v, w⟩ (planned.map (.ofParts toggled ruled))

theorem progress_of_update {res : Except Error UpdateOutcome}
    (h : (update id desired).run.Runs t res) : ∃ s, t = s.trace ∧ Progress id desired s res := by
  rcases Task.runs_bind_iff.mp h with ⟨e, rfl, failed⟩ | ⟨t₀, t₁, db, rfl, read, h⟩
  · obtain ⟨read, unread, error⟩ := Task.runs_inPhase_iff.mp failed
    cases read with
    | ok => cases error
    | error e =>
      cases error
      exact ⟨⟨t, .error e, [], [], []⟩, by simp [Stages.trace], .unread (reading_of_runs unread)⟩
  have reading := reading_of_runs (Task.ok_of_inPhase read)
  rcases Task.runs_bind_iff.mp h with ⟨e, rfl, failed⟩ | ⟨u, t₂, toggled, rfl, toggling, h⟩
  · obtain ⟨toggled, toggling, error⟩ := Task.runs_inPhase_iff.mp failed
    cases toggled with
    | ok => cases error
    | error e =>
      cases error
      exact ⟨⟨t₀, .ok db, t₁, [], []⟩, by simp [Stages.trace], .untoggled reading toggling⟩
  have toggling := Task.ok_of_inPhase toggling
  rcases Task.runs_bind_iff.mp h with ⟨e, rfl, failed⟩ | ⟨v, t₃, ruled, rfl, ruling, h⟩
  · obtain ⟨ruled, ruling, error⟩ := Task.runs_inPhase_iff.mp failed
    cases ruled with
    | ok => cases error
    | error e =>
      cases error
      exact ⟨⟨t₀, .ok db, u, t₂, []⟩, by simp [Stages.trace], .unruled reading toggling ruling⟩
  have ruling := Task.ok_of_inPhase ruling
  rcases Task.runs_bind_iff.mp h with ⟨e, rfl, planning⟩ | ⟨w, t₄, planned, rfl, planning, h⟩
  · exact ⟨⟨t₀, .ok db, u, v, t₃⟩, rfl, .ruled reading toggling ruling planning⟩
  rw [UpdateOutcome.pure_ofParts] at h
  obtain ⟨rfl, rfl⟩ := Task.runs_pure_iff.mp h
  exact ⟨⟨t₀, .ok db, u, v, w⟩, by simp [Stages.trace], .ruled reading toggling ruling planning⟩

namespace Stages

variable {s : Stages} {res : Except Error UpdateOutcome}

theorem ordered_of_progress (h : Progress id desired s res) : s.Ordered id desired := by
  cases h with
  | unread reading => exact ⟨reading, nofun, nofun, nofun⟩
  | @untoggled _ _ db _ reading toggling =>
    have within := (carries_updateInternetAccess db _ _ _ toggling).within
    exact ⟨reading, fun _ => ⟨db, rfl, within⟩, nofun, nofun⟩
  | @unruled t u v db _ e reading toggling ruling =>
    have within := (carries_updateInternetAccess db _ _ _ toggling).within
    have toggled : Toggled ⟨t, .ok db, u, v, []⟩ desired := (toggled_iff rfl toggling).mp ⟨_, rfl⟩
    have same := (actions_of_runs ruling).1
    exact ⟨reading, fun _ => ⟨db, rfl, within⟩, fun _ => ⟨toggled, db, rfl, same⟩, nofun⟩
  | @ruled t u v w db _ _ planned reading toggling ruling planning =>
    have within := (carries_updateInternetAccess db _ _ _ toggling).within
    have toggled : Toggled ⟨t, .ok db, u, v, w⟩ desired := (toggled_iff rfl toggling).mp ⟨_, rfl⟩
    have same := (actions_of_runs ruling).1
    have ruled : Ruled ⟨t, .ok db, u, v, w⟩ desired := (ruled_iff rfl ruling).mp ⟨_, rfl⟩
    refine ⟨reading, fun _ => ⟨db, rfl, within⟩, fun _ => ⟨toggled, db, rfl, same⟩, fun asked => ?_⟩
    refine ⟨toggled, ruled, db, rfl, ?_⟩
    cases planning_of_runs planning with
    | kept | untimely => exact absurd rfl asked
    | refused differs running | changed differs running => exact ⟨differs, running, rfl⟩

/-- What an update tells when it fails. -/
theorem tells_of_error {e : Error} (incomplete : ¬ (s.Toggled desired ∧ s.Ruled desired ∧ s.Planned desired))
    (unplanned : ¬ ∃ e ∈ s.planning, e.Succeeds)
    (refused : ∀ f, (e = f ∧ ∃ m, f.root = .precondition m) ↔ s.Toggled desired ∧ s.Ruled desired ∧
      ∃ db, s.current = .ok db ∧ Untimely db desired ∧
        f = .precondition ("invalid status " ++ db.status.name ++ " for plan update")) :
    s.Tells desired (.error e) where
  ok := iff_of_false nofun incomplete
  provisioning := iff_of_false nofun unplanned
  updated := iff_of_false nofun fun ⟨_, _, complete⟩ => incomplete complete
  unchanged := iff_of_false nofun fun ⟨⟨_, ok⟩, _⟩ => nomatch ok
  refused f := by
    rw [← refused f]
    exact and_congr_left fun _ => ⟨Except.error.inj, congrArg Except.error⟩

/-- What an update tells that fails before it comes to the plan. -/
theorem tells_of_early_error {e : Error} (idle : s.planning = [])
    (incomplete : ¬ (s.Toggled desired ∧ s.Ruled desired)) (other : ∀ m, e.root ≠ .precondition m) :
    s.Tells desired (.error e) := by
  refine tells_of_error (fun ⟨toggled, ruled, _⟩ => incomplete ⟨toggled, ruled⟩) ?_ fun f => ?_
  · rw [idle]
    rintro ⟨_, mem, _⟩
    cases mem
  · constructor
    · rintro ⟨rfl, m, refused⟩
      exact absurd refused (other m)
    · rintro ⟨toggled, ruled, _⟩
      exact absurd ⟨toggled, ruled⟩ incomplete

/-- What an update tells when it succeeds. -/
theorem tells_of_ok {A B C : Prop} {featuresChanged rulesChanged planned : Bool}
    (reads : ∀ e ∈ s.reading, e.call.Reads)
    (toggling : Reconciles A s.toggling (.ok featuresChanged))
    (ruling : Reconciles B s.ruling (.ok rulesChanged)) (planning : Reconciles C s.planning (.ok planned))
    (complete : s.Toggled desired ∧ s.Ruled desired ∧ s.Planned desired) :
    s.Tells desired (.ok (.ofParts featuresChanged rulesChanged planned)) where
  ok := iff_of_true ⟨_, rfl⟩ complete
  provisioning := by
    obtain ⟨_, _, succeeds, _⟩ := complete.2.2
    rw [Except.ok.injEq, UpdateOutcome.ofParts_eq_provisioning_iff, told_of_reconciles planning]
    constructor
    · intro asked
      obtain ⟨e, mem⟩ := List.exists_mem_of_ne_nil _ asked
      exact ⟨e, mem, succeeds e mem⟩
    · rintro ⟨e, mem, _⟩
      exact List.ne_nil_of_mem mem
  updated := by
    have idle : planned = false ↔ s.planning = [] := by
      rw [← Bool.not_eq_true, told_of_reconciles planning, not_not]
    rw [Except.ok.injEq, UpdateOutcome.ofParts_eq_updated_iff, told_of_reconciles toggling,
      told_of_reconciles ruling, idle]
    exact and_congr_right fun _ => (and_iff_left complete).symm
  unchanged := by
    rw [Except.ok.injEq, UpdateOutcome.ofParts_eq_unchanged_iff]
    constructor
    · rintro ⟨rfl, rfl, rfl⟩
      refine ⟨⟨_, rfl⟩, ?_⟩
      rw [trace, toggling.of_false.2, ruling.of_false.2, planning.of_false.2]
      simpa using reads
    · rintro ⟨_, reads⟩
      simp only [trace, List.forall_mem_append] at reads
      obtain ⟨_, reads₁, reads₂, reads₃⟩ := reads
      exact ⟨toggling.eq_false_of_reads reads₁, ruling.eq_false_of_reads reads₂,
        planning.eq_false_of_reads reads₃⟩
  refused f := by
    refine iff_of_false nofun ?_
    rintro ⟨_, _, db, known, untimely, _⟩
    obtain ⟨db', known', _, _, timely⟩ := complete.2.2
    obtain rfl := Except.ok.inj (known.symm.trans known')
    exact timely untimely

theorem tells_of_progress (h : Progress id desired s res) : s.Tells desired res := by
  cases h with
  | unread reading =>
    refine tells_of_early_error rfl ?_ fun m => ?_
    · rintro ⟨⟨_, unknown, _⟩, _⟩
      cases unknown
    · cases reading <;> exact nofun
  | untoggled reading toggling =>
    refine tells_of_early_error rfl ?_ fun m => ?_
    · rintro ⟨toggled, _⟩
      obtain ⟨_, ok⟩ := (toggled_iff rfl toggling).mpr toggled
      cases ok
    · cases carries_updateInternetAccess _ _ _ _ toggling with
      | broken => exact nofun
  | unruled reading toggling ruling =>
    refine tells_of_early_error rfl ?_ fun m => ?_
    · rintro ⟨_, ruled⟩
      obtain ⟨_, ok⟩ := (ruled_iff rfl ruling).mpr ruled
      cases ok
    · rcases (actions_of_runs ruling).2.2 _ rfl with rfl | ⟨_, _, rfl⟩
      · exact nofun
      · exact nofun
  | @ruled t u v w db featuresChanged rulesChanged planned reading toggling ruling planning =>
    have toggled : Toggled ⟨t, .ok db, u, v, w⟩ desired := (toggled_iff rfl toggling).mp ⟨_, rfl⟩
    have ruled : Ruled ⟨t, .ok db, u, v, w⟩ desired := (ruled_iff rfl ruling).mp ⟨_, rfl⟩
    have course := planning_of_runs planning
    cases planned with
    | ok planned =>
      exact tells_of_ok reading.reads (reconciles_updateInternetAccess toggling)
        (reconciles_updateFirewallRules ruling) (reconciles_updatePlan planning)
        ⟨toggled, ruled, (planned_iff rfl course).mp ⟨_, rfl⟩⟩
    | error e =>
      have unplanned : ¬ Planned ⟨t, .ok db, u, v, w⟩ desired := by
        intro planned
        obtain ⟨_, ok⟩ := (planned_iff rfl course).mpr planned
        cases ok
      refine tells_of_error (fun complete => unplanned complete.2.2) ?_ fun f => ?_
      · cases course with
        | untimely =>
          rintro ⟨_, mem, _⟩
          cases mem
        | refused =>
          rintro ⟨_, mem, succeeds⟩
          obtain rfl := List.mem_singleton.mp mem
          exact succeeds
      · cases course with
        | untimely untimely =>
          constructor
          · rintro ⟨rfl, _⟩
            exact ⟨toggled, ruled, db, rfl, untimely, rfl⟩
          · rintro ⟨_, _, db', known, _, rfl⟩
            obtain rfl := Except.ok.inj known
            exact ⟨rfl, _, rfl⟩
        | refused _ running =>
          constructor
          · rintro ⟨rfl, _, ⟨⟩⟩
          · rintro ⟨_, _, db', known, ⟨_, stands⟩, _⟩
            obtain rfl := Except.ok.inj known
            cases running.symm.trans stands

theorem checked_of_read (known : s.current = .ok db) (reading : Reading id s.reading (.ok db)) :
    s.Checked id res := by
  refine ⟨fun e failed => (nomatch known.symm.trans failed), fun unnamed => ?_, ?_⟩
  · generalize s.reading = t at reading
    cases reading with
    | read named => exact absurd unnamed named
  · intro seen mem unaddressed
    generalize s.reading = t at mem reading
    cases reading with
    | read _ addressed =>
      rcases List.mem_pair.mp mem with same | other
      · cases same
        exact absurd unaddressed addressed
      · cases other

theorem checked_of_progress (h : Progress id desired s res) : s.Checked id res := by
  cases h with
  | @unread t e reading =>
    refine ⟨?_, fun unnamed => ?_, fun seen mem unaddressed => ?_⟩
    · rintro _ ⟨⟩
      exact ⟨List.append_nil t, rfl⟩
    · cases reading with
      | unnamed => exact ⟨rfl, rfl⟩
      | unread named | unaddressed named | unlisted named => exact absurd unnamed named
    · cases reading with
      | unnamed => cases mem
      | unread => cases List.mem_singleton.mp mem
      | unaddressed =>
        cases List.mem_singleton.mp mem
        exact ⟨rfl, rfl⟩
      | unlisted _ addressed =>
        rcases List.mem_pair.mp mem with same | other
        · cases same
          exact absurd unaddressed addressed
        · cases other
  | untoggled reading | unruled reading | ruled reading => exact checked_of_read rfl reading

end Stages

/-- An update reads the database, goes through its stages in order, and its outcome tells what they did. -/
theorem staged_of_update {res : Except Error UpdateOutcome}
    (h : (update id desired).run.Runs t res) : ∃ s : Stages, t = s.trace ∧ s.Ordered id desired ∧
      s.Tells desired res ∧ s.Checked id res := by
  obtain ⟨s, same, progress⟩ := progress_of_update h
  exact ⟨s, same, Stages.ordered_of_progress progress, Stages.tells_of_progress progress,
    Stages.checked_of_progress progress⟩

/-- A running database that is on another plan, hidden and closed. -/
def lagging : Database :=
  { Database.blank with id := "db-1", addonId := "addon-1", status := .running, plan := "sandbox" }

/-- It is to be public, open to one range and on a greater plan. -/
def leading : Database :=
  { Database.blank with
    plan := "starter"
    features := Dictionary.empty.insert Features.publiclyAvailable .activated
    firewallRules := [⟨none, .custom "10.0.0.0/8", "office"⟩] }

theorem staged_of_update_lagging :
    ∃ s : Stages, s.Ordered "db-1" leading ∧ s.Tells leading (.ok .provisioning) ∧
      calls s.trace = [.getDatabase "db-1", .listFirewallRules "db-1" "addon-1",
        .enableFeature lagging Features.forceSsl, .enableFeature lagging Features.publiclyAvailable,
        .createFirewallRule "db-1" "addon-1" ⟨none, .custom "10.0.0.0/8", "office"⟩,
        .updateDatabasePlan { lagging with plan := "starter" }] := by
  have runs : (update "db-1" leading).run.Runs
      [⟨.getDatabase "db-1", .ok lagging⟩, ⟨.listFirewallRules "db-1" "addon-1", .ok []⟩,
        ⟨.enableFeature lagging Features.forceSsl, .ok .pending⟩,
        ⟨.enableFeature lagging Features.publiclyAvailable, .ok .pending⟩,
        ⟨.createFirewallRule "db-1" "addon-1" ⟨none, .custom "10.0.0.0/8", "office"⟩, .ok ()⟩,
        ⟨.updateDatabasePlan { lagging with plan := "starter" }, .ok ()⟩] (.ok .provisioning) :=
    .ask _ (.ask _ (.ask _ (.ask _ (.ask _ (.ask _ (.done _))))))
  obtain ⟨s, same, ordered, tells, _⟩ := staged_of_update runs
  exact ⟨s, ordered, tells, by rw [← same]; rfl⟩

end Manager

end DatabaseOperator
