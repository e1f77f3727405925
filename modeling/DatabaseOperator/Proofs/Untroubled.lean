import DatabaseOperator.Proofs.Overtaking
import DatabaseOperator.Proofs.Pass.Secrets
import DatabaseOperator.Proofs.Provider.Rules
import DatabaseOperator.Proofs.Settling

namespace DatabaseOperator

instance : DecidablePred ProviderCall.Reads
  | .getDatabase _ => .isTrue trivial
  | .listFirewallRules _ _ => .isTrue trivial
  | .findVariable _ _ => .isTrue trivial
  | .createDatabase _ => .isFalse id
  | .updateDatabasePlan _ => .isFalse id
  | .deleteDatabase _ => .isFalse id
  | .createFirewallRule _ _ _ => .isFalse id
  | .deleteFirewallRule _ _ _ => .isFalse id
  | .enableFeature _ _ => .isFalse id
  | .disableFeature _ _ => .isFalse id

instance : DecidablePred PassCall.Changes
  | .resource (.update _) => .isTrue trivial
  | .resource (.updateStatus _) => .isTrue trivial
  | .resource (.get _ _) => .isFalse id
  | .secret (.set _ _) => .isTrue trivial
  | .secret (.get _ _ _) => .isFalse id
  | .connect _ _ => .isFalse id
  | .provider c => inferInstanceAs (Decidable (¬ c.Reads))
  | .now => .isFalse id

/-- The database that the provider gave in an exchange that reads one. -/
def Exchange.reading? : Exchange pass → Option Database
  | ⟨.provider (.getDatabase _), .ok db⟩ => some db
  | _ => none

namespace Pass

variable {t u : List (Exchange pass)} {r w : Resource} {wanted db : Database} {delay : Nat}
  {res : Except Error Requeue} {s s' : Chronicle}

/-- The calls that change something, in order. -/
def changes (t : List (Exchange pass)) : List PassCall :=
  (t.map Exchange.call).filter fun c => c.Changes

/-- The databases that the provider gave when it was asked for one, in order. -/
def readings (t : List (Exchange pass)) : List Database :=
  t.filterMap Exchange.reading?

@[simp]
theorem changes_append (t u : List (Exchange pass)) : changes (t ++ u) = changes t ++ changes u := by
  rw [changes, List.map_append]
  exact List.filter_append _ _

@[simp]
theorem readings_append (t u : List (Exchange pass)) :
    readings (t ++ u) = readings t ++ readings u :=
  List.filterMap_append

theorem changes_eq_nil (harmless : ∀ e ∈ t, ¬ e.call.Changes) : changes t = [] := by
  refine List.filter_eq_nil_iff.mpr fun c mem => ?_
  obtain ⟨e, asked, rfl⟩ := List.mem_map.mp mem
  simpa using harmless e asked

theorem readings_eq_nil (unasked : ∀ e ∈ t, ∀ c, e.call ≠ .provider c) : readings t = [] := by
  refine List.filterMap_eq_nil_iff.mpr fun e mem => ?_
  have other := unasked e mem
  obtain ⟨c, a⟩ := e
  cases c with
  | provider c => exact absurd rfl (other c)
  | resource | secret | connect | now => rfl

end Pass

/-- Nothing fails in a trace, and nobody else changes the resource meanwhile. -/
structure Chronicle.Untroubled (s : Chronicle) (t : List (Exchange pass)) (s' : Chronicle) : Prop where
  alone : s.Unfolds (t.map .call) s'
  granted : ∀ e ∈ t, e.Granted

namespace Chronicle.Untroubled

variable {s s' : Chronicle} {r w : Resource} {a : Except StoreError Resource}
  {t u : List (Exchange pass)} {e : Exchange pass}

theorem of_cons (h : s.Untroubled (e :: t) s') :
    ∃ s₁, s.Keeps e s₁ ∧ e.Granted ∧ s₁.Untroubled t s' := by
  obtain ⟨alone, granted⟩ := h
  cases alone with
  | call keeps after =>
    exact ⟨_, keeps, granted _ List.mem_cons_self, after, fun x mem => granted x (.tail _ mem)⟩

theorem of_quiet_cons (h : s.Untroubled (e :: t) s') (quiet : ∀ c, e.call ≠ .resource c) :
    s.Untroubled t s' := by
  obtain ⟨s₁, keeps, _, after⟩ := h.of_cons
  obtain rfl := keeps.eq_of_not_stored (Exchange.not_stored_of_quiet quiet)
  exact after

theorem of_quiet_append (h : s.Untroubled (t ++ u) s') (quiet : Pass.Quiet t) :
    s.Untroubled u s' := by
  induction t with
  | nil => exact h
  | cons e t ih =>
    exact ih (h.of_quiet_cons (quiet e List.mem_cons_self)) fun x mem => quiet x (.tail _ mem)

theorem eq_of_nil (h : s.Untroubled [] s') : s' = s := by
  cases h.alone
  rfl

/-- When nothing is written, the same version stays stored. -/
theorem eq_of_quiet (h : s.Untroubled t s') (quiet : Pass.Quiet t) : s' = s := by
  rw [← List.append_nil t] at h
  exact (h.of_quiet_append quiet).eq_of_nil

/-- A write that is granted stores the change that it carries. -/
theorem of_update (h : s.Untroubled (⟨.resource (.update w), a⟩ :: t) s') (current : s.current = some r)
    (status : w.status = r.status) (undeleted : w.isDeletionRequested = false) :
    ∃ (v : Option String) (s₁ : Chronicle), a = .ok (w.renumbered v) ∧
      s₁.current = some (w.renumbered v) ∧ s₁.Untroubled t s' := by
  obtain ⟨s₁, keeps, granted, after⟩ := h.of_cons
  cases keeps with
  | failed c e => exact granted.elim
  | @updated old _ v unused stored same =>
    obtain rfl : r = old := Option.some.inj (current.symm.trans stored)
    have merged : { r with metadata := w.metadata, spec := w.spec } = w := by
      rw [← status]
    rw [merged] at after ⊢
    exact ⟨v, _, rfl, s.current_put undeleted, after⟩
  | other _ other => exact absurd rfl (other _)

theorem of_updateStatus (h : s.Untroubled (⟨.resource (.updateStatus w), a⟩ :: t) s')
    (current : s.current = some r) (metadata : w.metadata = r.metadata) (spec : w.spec = r.spec)
    (undeleted : w.isDeletionRequested = false) :
    ∃ (v : Option String) (s₁ : Chronicle), a = .ok (w.renumbered v) ∧
      s₁.current = some (w.renumbered v) ∧ s₁.Untroubled t s' := by
  obtain ⟨s₁, keeps, granted, after⟩ := h.of_cons
  cases keeps with
  | failed c e => exact granted.elim
  | @statusUpdated old _ v unused stored same =>
    obtain rfl : r = old := Option.some.inj (current.symm.trans stored)
    have merged : { r with status := w.status } = w := by
      rw [← metadata, ← spec]
    rw [merged] at after ⊢
    exact ⟨v, _, rfl, s.current_put undeleted, after⟩
  | other _ other => exact absurd rfl (other _)

end Chronicle.Untroubled

namespace Manager

variable {id : String} {p : List (Exchange provider)}

/-- What is answered without a failure has been read. -/
theorem get_of_answered {res : Except Error Database} (h : (get id).run.Runs p res) (named : id ≠ "")
    (answered : ∀ e ∈ p, e.Answered)
    (addressed : ∀ seen, (⟨.getDatabase id, .ok seen⟩ : Exchange provider) ∈ p → seen.addonId ≠ "") :
    ∃ seen rules, res = .ok { seen with firewallRules := rules } ∧
      p = [⟨.getDatabase id, .ok seen⟩, ⟨.listFirewallRules seen.id seen.addonId, .ok rules⟩] := by
  rcases cases_of_get h named with ⟨_, f, rfl, _⟩ | ⟨seen, ⟨unaddressed, rfl, _⟩ | ⟨a, _, rfl, rfl⟩⟩
  · exact (answered _ List.mem_cons_self).elim
  · exact absurd unaddressed (addressed seen List.mem_cons_self)
  · cases a with
    | error f => exact (answered _ (.tail _ List.mem_cons_self)).elim
    | ok rules => exact ⟨seen, rules, rfl, rfl⟩

end Manager

namespace Pass

variable {t u : List (Exchange pass)} {r w : Resource} {wanted db : Database} {delay : Nat}
  {res : Except Error Requeue} {s s' : Chronicle} {next : Requeue} {cs : List PassCall}
  {dbs : List Database}

/-- What a trace leads to: how it ends, what it changes, what it has read, and what is stored after it. -/
structure Brings (t : List (Exchange pass)) (res : Except Error Requeue) (s' : Chronicle)
    (next : Requeue) (cs : List PassCall) (dbs : List Database) (w : Resource) : Prop where
  result : res = .ok next
  changed : changes t = cs
  read : readings t = dbs
  stored : ∃ v, s'.current = some (w.renumbered v)

theorem Course.marks (h : Course delay r t res) (current : s.current = some r)
    (undeleted : r.isDeletionRequested = false) (unguarded : r.hasFinalizer = false)
    (untroubled : s.Untroubled t s') :
    Brings t res s' .now [.resource (.update r.withFinalizer)] [] r.withFinalizer := by
  cases h with
  | mark a =>
    obtain ⟨v, s₁, rfl, stored, after⟩ := untroubled.of_update current rfl undeleted
    rw [after.eq_of_nil]
    exact ⟨rfl, rfl, rfl, v, stored⟩
  | finalize deleting => exact absurd (undeleted.symm.trans deleting) (by decide)
  | init _ _ _ guarded | flag _ _ guarded => exact absurd (unguarded.symm.trans guarded) (by decide)
  | create prepared | await prepared | update prepared =>
    exact absurd (unguarded.symm.trans prepared.guarded) (by decide)

theorem Course.initializes (h : Course delay r t res) (current : s.current = some r)
    (undeleted : r.isDeletionRequested = false) (guarded : r.hasFinalizer = true)
    (uninitialized : r.isInitialized = false) (untroubled : s.Untroubled t s') :
    ∃ now, Brings t res s' .now [.resource (.updateStatus (r.setInitial now).1)] []
      (r.setInitial now).1 := by
  cases h with
  | init now a =>
    obtain ⟨v, s₁, rfl, stored, after⟩ :=
      (untroubled.of_quiet_append (quiet_ticks _)).of_updateStatus current rfl rfl undeleted
    rw [after.eq_of_nil]
    exact ⟨now, rfl, rfl, rfl, v, stored⟩
  | finalize deleting => exact absurd (undeleted.symm.trans deleting) (by decide)
  | mark _ _ unguarded => exact absurd (guarded.symm.trans unguarded) (by decide)
  | flag _ _ _ initialized => exact absurd (uninitialized.symm.trans initialized) (by decide)
  | create prepared | await prepared | update prepared =>
    exact absurd (uninitialized.symm.trans prepared.initialized) (by decide)

theorem Course.flags (h : Course delay r t res) (current : s.current = some r)
    (undeleted : r.isDeletionRequested = false) (guarded : r.hasFinalizer = true)
    (initialized : r.isInitialized = true) (unflagged : r.runningFlag? = none)
    (untroubled : s.Untroubled t s') :
    Brings t res s' .now [.resource (.update (r.setRunningFlag false))] [] (r.setRunningFlag false) := by
  cases h with
  | flag a =>
    obtain ⟨v, s₁, rfl, stored, after⟩ := untroubled.of_update current rfl undeleted
    rw [after.eq_of_nil]
    exact ⟨rfl, rfl, rfl, v, stored⟩
  | finalize deleting => exact absurd (undeleted.symm.trans deleting) (by decide)
  | mark _ _ unguarded => exact absurd (guarded.symm.trans unguarded) (by decide)
  | init _ _ _ _ uninitialized => exact absurd (initialized.symm.trans uninitialized) (by decide)
  | create prepared | await prepared | update prepared =>
    have flagged := prepared.flagged
    rw [unflagged] at flagged
    cases flagged

theorem readings_of_opening {res : Except Error Unit} (h : Opening r t res) : readings t = [] :=
  readings_eq_nil h.unasked

theorem changes_of_opening {res : Except Error Unit} (h : Opening r t res) : changes t = [] :=
  changes_eq_nil h.harmless

/-- The database is created, and its id is recorded. -/
theorem Creating.records (h : Creating delay r t res) (current : s.current = some r)
    (undeleted : r.isDeletionRequested = false) (creatable : r.Creatable wanted)
    (named : ∀ c db, (⟨.provider (.createDatabase c), .ok db⟩ : Exchange pass) ∈ t → db.id ≠ "")
    (untroubled : s.Untroubled t s') :
    ∃ db time, (⟨.provider (.createDatabase wanted), .ok db⟩ : Exchange pass) ∈ t ∧
      Brings t res s' (.after delay)
        [.provider (.createDatabase wanted),
          .resource (.updateStatus ((r.setDatabaseId db.id).setProvisioning time).1)] []
        ((r.setDatabaseId db.id).setProvisioning time).1 := by
  have valid := creatable.valid
  have granted := untroubled.granted
  cases h with
  | invalid invalid => cases valid.symm.trans invalid
  | closed _ opening => cases opening.ok_of_granted creatable granted
  | refused => exact (granted _ (List.mem_append_right _ List.mem_cons_self)).elim
  | nameless _ _ nameless =>
    exact absurd nameless (named _ _ (List.mem_append_right _ List.mem_cons_self))
  | @created _ db u time a valid' opening =>
    cases valid.symm.trans valid'
    have created := untroubled.of_quiet_append opening.quiet
    have timed := created.of_quiet_cons fun _ => PassCall.noConfusion
    have written := timed.of_quiet_cons fun _ => PassCall.noConfusion
    obtain ⟨v, s₁, rfl, stored, after⟩ := written.of_updateStatus current rfl rfl undeleted
    rw [after.eq_of_nil]
    refine ⟨db, time, List.mem_append_right _ List.mem_cons_self, rfl, ?_, ?_, v, stored⟩
    · rw [changes_append, changes_of_opening opening]
      rfl
    · rw [readings_append, readings_of_opening opening]
      rfl

theorem answered_of_granted {p : List (Exchange provider)}
    (granted : ∀ e ∈ p.map Exchange.ofProvider, e.Granted) : ∀ e ∈ p, e.Answered := by
  rintro ⟨c, a⟩ mem
  have answered := granted _ (List.mem_map_of_mem mem)
  cases a with
  | error e => exact answered
  | ok x => trivial

/-- A connection string that is not found has been refused. -/
theorem not_unnamed {p : List (Exchange provider)} {e : Error} (typed : db.type = some .postgresql)
    (hosted : db.appId ≠ "") (answered : ∀ x ∈ p, x.Answered) :
    ¬ (Manager.connectionUrl db).run.Runs p (.error e) := by
  intro h
  have required : Manager.requireType db = pure .postgresql := by
    rw [Manager.requireType, Database.validateType, typed]
  rw [Manager.connectionUrl, required, pure_bind, Task.requireText_eq hosted, pure_bind] at h
  rcases Task.runs_bind_iff.mp h with ⟨_, _, refused⟩ | ⟨_, _, _, _, _, ended⟩
  · obtain ⟨a, rfl, error⟩ := ProviderTask.runs_call_iff.mp refused
    cases a with
    | error f => exact answered _ List.mem_cons_self
    | ok value => cases error
  · cases (Task.runs_pure_iff.mp ended).2

/-- A whole secret that is not written has been refused. -/
theorem not_unsaved {x : Secret} {owner : Option Owner} {y : List (Exchange secrets)} {e : Error}
    (located : x.namespaceName ≠ "") (named : x.name ≠ "") (keyed : x.key ≠ "") (valued : x.value ≠ "")
    (granted : ∀ e ∈ y.map Exchange.ofSecret, e.Granted) :
    ¬ (writeSecret x owner).run.Runs y (.error e) := by
  intro h
  rw [writeSecret, Task.requireText_eq located, Task.requireText_eq named, Task.requireText_eq keyed,
    Task.requireText_eq valued, pure_bind, pure_bind, pure_bind, pure_bind] at h
  obtain ⟨a, rfl, error⟩ := SecretTask.runs_call_iff.mp h
  cases a with
  | error f => exact granted _ List.mem_cons_self
  | ok _ => cases error

/-- The connection string is put into its secret, and then the running flag is set. -/
theorem HandingOver.brings (h : HandingOver r db t res) (current : s.current = some r)
    (undeleted : r.isDeletionRequested = false) (located : r.namespaceName ≠ "")
    (targeted : r.spec.connectionTarget.name ≠ "") (typed : db.type = some .postgresql)
    (hosted : db.appId ≠ "")
    (valued : ∀ app key value,
      (⟨.provider (.findVariable app key), .ok value⟩ : Exchange pass) ∈ t → value ≠ "")
    (untroubled : s.Untroubled t s') :
    ∃ secret owner, Brings t res s' .done
      [.secret (.set secret owner), .resource (.update (r.setRunningFlag true))] []
      (r.setRunningFlag true) := by
  have granted := untroubled.granted
  cases h with
  | unnamed unnamed => exact absurd unnamed (not_unnamed typed hosted (answered_of_granted granted))
  | unsaved named unsaved =>
    obtain ⟨value, rfl, rfl⟩ := trace_of_connectionUrl named
    have given := valued _ _ value (List.mem_append_left _ List.mem_cons_self)
    have variableNamed : DatabaseType.postgresql.urlVariable ≠ "" := by decide
    exact absurd unsaved (not_unsaved located targeted (connectionKey_ne_empty _ variableNamed) given
      fun e mem => granted e (List.mem_append_right _ mem))
  | saved a named saved =>
    obtain ⟨value, rfl, rfl⟩ := trace_of_connectionUrl named
    obtain rfl := trace_of_writeSecret saved
    have found := untroubled.of_quiet_append (quiet_ofProvider _)
    obtain ⟨v, s₁, rfl, stored, after⟩ :=
      (found.of_quiet_append (quiet_ofSecret _)).of_update current rfl undeleted
    rw [after.eq_of_nil]
    exact ⟨_, _, rfl, rfl, rfl, v, stored⟩

/-- A wait reads the database once. While it does not run, nothing else is done, and when it runs, it is
noted and handed over. -/
theorem Awaiting.cases_of_untroubled (h : Awaiting delay r t res) (current : s.current = some r)
    (pending : r.Pending wanted) (addressed : ∀ db ∈ readings t, db.addonId ≠ "")
    (untroubled : s.Untroubled t s') :
    ∃ seen : Database, (seen.isRunning = false ∧ Brings t res s' (.after delay) [] [seen] r) ∨
      (seen.isRunning = true ∧ ∃ (rules : List FirewallRule) (now : Times) (v : Option String)
        (s₁ : Chronicle) (u : List (Exchange pass)),
        HandingOver ((r.setProvisioned now).1.renumbered v) { seen with firewallRules := rules } u res ∧
        s₁.current = some ((r.setProvisioned now).1.renumbered v) ∧ s₁.Untroubled u s' ∧
        changes t = .resource (.updateStatus (r.setProvisioned now).1) :: changes u ∧
        readings t = seen :: readings u ∧ u ⊆ t) := by
  have granted := untroubled.granted
  have found {u : List (Exchange pass)} {p : List (Exchange provider)} {out : Except Error Database}
      {v : List (Exchange pass)} (same : t = u ++ (p.map .ofProvider ++ v))
      (read : (Manager.get r.databaseId).run.Runs p out) :
      ∃ seen rules, out = .ok { seen with firewallRules := rules } ∧
        p = [⟨.getDatabase r.databaseId, .ok seen⟩,
          ⟨.listFirewallRules seen.id seen.addonId, .ok rules⟩] := by
    subst same
    refine Manager.get_of_answered read pending.recorded
      (answered_of_granted fun e mem => granted e
        (List.mem_append_right _ (List.mem_append_left _ mem))) fun seen mem => addressed seen ?_
    refine List.mem_filterMap.mpr ⟨Exchange.ofProvider ⟨.getDatabase r.databaseId, .ok seen⟩, ?_, rfl⟩
    exact List.mem_append_right _ (List.mem_append_left _ (List.mem_map_of_mem mem))
  cases h with
  | closed opening => cases opening.ok_of_granted pending.creatable granted
  | unread _ read =>
    obtain ⟨_, _, ok, _⟩ := found (v := []) (by rw [List.append_nil]) read
    cases ok
  | early opening read resting =>
    obtain ⟨seen, rules, ok, rfl⟩ := found (v := []) (by rw [List.append_nil]) read
    cases ok
    refine ⟨seen, .inl ⟨resting, rfl, ?_, ?_, ?_⟩⟩
    · rw [changes_append, changes_of_opening opening]
      rfl
    · rw [readings_append, readings_of_opening opening]
      rfl
    · rw [untroubled.eq_of_quiet (opening.quiet.append (quiet_ofProvider _)), current]
      exact ⟨_, rfl⟩
  | noted now _ _ _ same =>
    exact absurd (same.symm.trans (pending.differs now)) (by decide)
  | unnoted now e =>
    exact (granted _ (List.mem_append_right _ (List.mem_append_right _
      (List.mem_append_right _ (.head _))))).elim
  | @renoted u p _ v _ now stored opening read running _ handing =>
    obtain ⟨seen, rules, ok, rfl⟩ := found rfl read
    cases ok
    have reached := (untroubled.of_quiet_append opening.quiet).of_quiet_append (quiet_ofProvider _)
    obtain ⟨number, s₁, answered, current', after⟩ :=
      (reached.of_quiet_append (quiet_ticks _)).of_updateStatus current rfl rfl
        pending.prepared.wanted
    cases answered
    refine ⟨seen, .inr ⟨running, rules, now, number, s₁, v, handing, current', after, ?_, ?_, ?_⟩⟩
    · rw [changes_append, changes_of_opening opening]
      rfl
    · rw [readings_append, readings_of_opening opening]
      rfl
    · intro e mem
      exact List.mem_append_right _ (List.mem_append_right _
        (List.mem_append_right _ (.tail _ mem)))

end Pass

variable {delay : Nat} {namespaceName name : String}

/-- Passes one after the other in which nothing fails, while nobody else changes the resource. -/
inductive Undisturbed (delay : Nat) (namespaceName name : String) :
    Chronicle → List (PassRun delay namespaceName name) → Chronicle → Prop
  | rest (s : Chronicle) : Undisturbed delay namespaceName name s [] s
  | pass {s s' s'' : Chronicle} {p : PassRun delay namespaceName name}
      {ps : List (PassRun delay namespaceName name)} : s.Untroubled p.trace s' →
      Undisturbed delay namespaceName name s' ps s'' →
      Undisturbed delay namespaceName name s (p :: ps) s''

theorem Undisturbed.of_cons {s s' : Chronicle} {p : PassRun delay namespaceName name}
    {ps : List (PassRun delay namespaceName name)}
    (h : Undisturbed delay namespaceName name s (p :: ps) s') :
    ∃ s₁, s.Untroubled p.trace s₁ ∧ Undisturbed delay namespaceName name s₁ ps s' := by
  cases h with
  | pass first rest => exact ⟨_, first, rest⟩

namespace PassRun

/-- All that passes have asked, in order. -/
def asking (ps : List (PassRun delay namespaceName name)) : List (Exchange pass) :=
  ps.flatMap trace

@[simp]
theorem asking_cons (p : PassRun delay namespaceName name) (ps : List (PassRun delay namespaceName name)) :
    asking (p :: ps) = p.trace ++ asking ps := rfl

theorem cases_of_untroubled {p : PassRun delay namespaceName name} {s s' : Chronicle} {r : Resource}
    (h : s.Untroubled p.trace s') (current : s.current = some r) :
    ∃ t, p.trace = ⟨.resource (.get namespaceName name), .ok (some r)⟩ :: t ∧
      Pass.Course delay r t p.result ∧ s.Untroubled t s' := by
  have passing := Pass.runs_run_iff.mp p.runs
  generalize p.trace = trace at h passing ⊢
  generalize p.result = result at passing ⊢
  cases passing with
  | unread e => exact (h.granted _ List.mem_cons_self).elim
  | gone =>
    obtain ⟨s₁, keeps, _, _⟩ := h.of_cons
    have told := keeps.serves.of_get.2 none rfl
    rw [current] at told
    cases told
  | @found found t res course =>
    obtain ⟨s₁, keeps, _, after⟩ := h.of_cons
    obtain ⟨rfl, told⟩ := keeps.serves.of_get
    have same := told _ rfl
    rw [current] at same
    cases same
    exact ⟨t, rfl, course, after⟩

end PassRun

end DatabaseOperator
