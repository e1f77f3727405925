import DatabaseOperator.Proofs.Dictionary
import DatabaseOperator.Proofs.Provider.Faithful
import DatabaseOperator.Proofs.Provider.Outcome

namespace DatabaseOperator

open FirewallRule RuleAction

open scoped List

variable {db db' current desired : Database} {t : List (Exchange provider)}

namespace Manager

open ProviderTask

/-- The database is read as it is. -/
theorem leads_get {id : String} {res : Except Error Database} (same : id = db.id)
    (h : Leads (get id) db t res db') :
    db' = db ∧ (res = .ok db ∨ (db.id = "" ∨ db.addonId = "") ∧ ∃ e, res = .error e) := by
  rcases cases_of_requireText h with ⟨unnamed, error, kept⟩ | ⟨_, h⟩
  · exact ⟨kept, .inr ⟨.inl (same ▸ unnamed), error⟩⟩
  obtain ⟨t₁, _, db₁, ⟨⟨rules, rfl⟩, rfl⟩, h⟩ :=
    leads_of_call h fun _ _ => Database.ok_of_getDatabase same
  rcases cases_of_requireText h with ⟨unnamed, error, kept⟩ | ⟨_, h⟩
  · exact ⟨kept, .inr ⟨.inr unnamed, error⟩⟩
  obtain ⟨t₂, _, db₂, ⟨rfl, rfl⟩, h⟩ :=
    leads_of_call h fun _ _ => Database.ok_of_listFirewallRules rfl rfl
  obtain ⟨_, rfl, rfl⟩ := leads_pure_iff.mp h
  exact ⟨rfl, .inl rfl⟩

theorem leads_enableFeature {target : Database} {feature : String} {res : Except Error Unit}
    (h : Leads (enableFeature target feature) db t res db') (same : target.id = db.id) :
    ∃ u, res = .ok u ∧ ∃ status : FeatureStatus, status.isActive = true ∧
      db' = { db with features := db.features.insert feature status } := by
  obtain ⟨t₁, status, db₁, ⟨active, rfl⟩, h⟩ :=
    leads_of_call h fun _ _ => Database.ok_of_enableFeature same
  have unfailed : status ≠ .failed := by
    rintro rfl
    cases active
  rw [if_neg unfailed] at h
  obtain ⟨_, rfl, rfl⟩ := leads_pure_iff.mp h
  exact ⟨(), rfl, status, active, rfl⟩

theorem isActive_insert {fs : Features} {name : String} {status : FeatureStatus}
    (active : status.isActive = true) :
    Features.isActive (fs.insert name status) name = true := by
  simp [Features.isActive, active]

theorem isActive_erase {fs : Features} {name : String} :
    Features.isActive (fs.erase name) name = false := by
  simp [Features.isActive]

/-- Public access is on after it was enabled last. -/
theorem leads_enablePublic {res : Except Error Bool}
    (h : Leads (do enableFeature current Features.publiclyAvailable; pure true) db t res db')
    (same : current.id = db.id) :
    ∃ changed, res = .ok changed ∧ ∃ fs, db' = { db with features := fs } ∧
      fs.isActive Features.publiclyAvailable = true := by
  obtain ⟨t₁, _, db₁, ⟨status, active, rfl⟩, h⟩ :=
    leads_of_bind h fun _ _ _ enabled => leads_enableFeature enabled same
  obtain ⟨_, rfl, rfl⟩ := leads_pure_iff.mp h
  exact ⟨true, rfl, _, rfl, isActive_insert active⟩

/-- Public access is as wanted, and nothing but features has changed. -/
theorem leads_updateInternetAccess {wanted : Bool} {res : Except Error Bool}
    (h : Leads (updateInternetAccess current wanted) db t res db') (same : current.id = db.id)
    (features : current.features = db.features) :
    ∃ changed, res = .ok changed ∧ ∃ fs, db' = { db with features := fs } ∧
      fs.isActive Features.publiclyAvailable = wanted := by
  unfold updateInternetAccess at h
  simp only [features] at h
  split at h
  next kept =>
    obtain ⟨_, rfl, rfl⟩ := leads_pure_iff.mp h
    exact ⟨false, rfl, db'.features, rfl, kept⟩
  next differs =>
    split at h
    next on =>
      rw [on]
      split at h
      next =>
        obtain ⟨t₁, _, db₁, ⟨status, _, rfl⟩, h⟩ :=
          leads_of_bind h fun _ _ _ forced => leads_enableFeature forced same
        obtain ⟨changed, rfl, fs, rfl, active⟩ := leads_enablePublic h same
        exact ⟨changed, rfl, fs, rfl, active⟩
      next => exact leads_enablePublic h same
    next off =>
      obtain ⟨t₁, _, db₁, rfl, h⟩ :=
        leads_of_call h fun _ _ => Database.ok_of_disableFeature same
      obtain ⟨_, rfl, rfl⟩ := leads_pure_iff.mp h
      refine ⟨true, rfl, _, rfl, ?_⟩
      rw [isActive_erase]
      exact (Bool.eq_false_iff.mpr off).symm

theorem leads_applyAll_cons {a : RuleAction} {rest : List RuleAction} {res : Except Error Unit}
    (h : Leads (applyAll current (a :: rest)) db t res db') :
    ∃ t₁ t₂ first db₁ others, Leads (applyAction current a) db t₁ first db₁ ∧
      Leads (applyAll current rest) db₁ t₂ others db' ∧ res = first.bind fun _ => others := by
  obtain ⟨t₁, u, first, rfl, runs, further⟩ := Dialogue.runs_bind_iff.mp h.runs
  obtain ⟨t₂, t₃, others, rfl, rest_runs, last⟩ := Dialogue.runs_bind_iff.mp further
  obtain ⟨rfl, rfl⟩ := Dialogue.runs_done_iff.mp last
  obtain ⟨db₁, before, after⟩ := Database.undergoes_append_iff.mp h.undergoes
  rw [List.append_nil] at after
  exact ⟨t₁, t₂, first, db₁, others, ⟨runs, before⟩, ⟨rest_runs, after⟩, rfl⟩

theorem leads_add {r : FirewallRule} {res : Except Error Unit} (same : current.id = db.id)
    (addon : current.addonId = db.addonId) (h : Leads (applyAction current (.add r)) db t res db') :
    res = .ok () ∧ ∃ id, id ≠ "" ∧ (∀ x ∈ db.firewallRules, x.id ≠ some id) ∧
      db' = { db with firewallRules := db.firewallRules ++ [{ r with id := some id }] } := by
  obtain ⟨_, rfl, id, named, unused, rfl⟩ :=
    ok_of_call h fun _ _ => Database.ok_of_createFirewallRule same addon
  exact ⟨rfl, id, named, unused, rfl⟩

theorem leads_delete {r : FirewallRule} {id : String} {res : Except Error Unit}
    (same : current.id = db.id) (addon : current.addonId = db.addonId) (number : r.id = some id)
    (h : Leads (applyAction current (.delete r)) db t res db') :
    res = .ok () ∧ db' = { db with firewallRules := without id db.firewallRules } := by
  unfold applyAction at h
  simp only [number] at h
  obtain ⟨_, rfl, rfl⟩ := ok_of_call h fun _ _ => Database.ok_of_deleteFirewallRule same addon
  exact ⟨rfl, rfl⟩

/-- After some actions there are the rules from before them and those that were added, less those that
were deleted. -/
theorem leads_applyAll {actions : List RuleAction} {res : Except Error Unit}
    (h : Leads (applyAll current actions) db t res db') (same : current.id = db.id)
    (addon : current.addonId = db.addonId) (identified : Identified db.firewallRules)
    (known : ∀ r ∈ removals actions, r ∈ db.firewallRules) (distinct : (removals actions).Nodup) :
    ∃ u, res = .ok u ∧ ∃ rules, db' = { db with firewallRules := rules } ∧ Identified rules ∧
      ranges rules ++ ranges (removals actions) ~
        ranges db.firewallRules ++ ranges (additions actions) := by
  induction actions generalizing db t res with
  | nil =>
    obtain ⟨_, rfl, rfl⟩ := leads_pure_iff.mp h
    exact ⟨(), rfl, db'.firewallRules, rfl, identified, .refl _⟩
  | cons a rest ih =>
    obtain ⟨t₁, t₂, first, db₁, others, applied, further, rfl⟩ := leads_applyAll_cons h
    cases a with
    | add r =>
      obtain ⟨rfl, id, named, unused, rfl⟩ := leads_add same addon applied
      obtain ⟨_, rfl, rules, rfl, identified', perm⟩ := ih further same addon
        (identified.append named unused r) (fun x hx => List.mem_append_left _ (known x hx)) distinct
      refine ⟨(), rfl, rules, rfl, identified', ?_⟩
      simpa using perm
    | delete r =>
      have mem : r ∈ db.firewallRules := known r List.mem_cons_self
      obtain ⟨id, number, _⟩ := identified.present r mem
      obtain ⟨fresh, distinct⟩ := List.nodup_cons.mp distinct
      obtain ⟨rfl, rfl⟩ := leads_delete same addon number applied
      -- no rule is deleted twice, so the rules to be deleted later are still there
      have known' : ∀ x ∈ removals rest, x ∈ without id db.firewallRules := by
        intro x hx
        apply identified.mem_without mem number (known x (List.mem_cons_of_mem _ hx))
        rintro rfl
        exact fresh hx
      obtain ⟨_, rfl, rules, rfl, identified', perm⟩ :=
        ih further same addon (identified.without id) known' distinct
      refine ⟨(), rfl, rules, rfl, identified', ?_⟩
      have dropped : r.range :: ranges (without id db.firewallRules) ~ ranges db.firewallRules :=
        (identified.cons_without_perm mem number).map range
      calc
        ranges rules ++ r.range :: ranges (removals rest)
        _ ~ r.range :: (ranges rules ++ ranges (removals rest)) := List.perm_middle
        _ ~ r.range :: (ranges (without id db.firewallRules) ++ ranges (additions rest)) :=
          perm.cons r.range
        _ ~ ranges db.firewallRules ++ ranges (additions rest) := dropped.append_right _

/-- The rules go through one round. -/
theorem leads_updateFirewallRules {declared : List FirewallRule} {res : Except Error Bool}
    (h : Leads (updateFirewallRules current declared) db t res db') (same : current.id = db.id)
    (addon : current.addonId = db.addonId) (rules : current.firewallRules = db.firewallRules)
    (identified : Identified db.firewallRules) :
    ∃ changed, res = .ok changed ∧ ∃ new, db' = { db with firewallRules := new } ∧
      Round declared db.firewallRules new := by
  unfold updateFirewallRules at h
  rw [rules] at h
  split at h
  next none =>
    obtain ⟨_, rfl, rfl⟩ := leads_pure_iff.mp h
    refine ⟨false, rfl, db'.firewallRules, rfl, round_of_perm identified ?_⟩
    rw [none]
    exact .refl _
  next =>
    obtain ⟨t₁, _, db₁, ⟨new, rfl, identified', perm⟩, h⟩ := leads_of_bind h fun _ _ _ applied =>
      leads_applyAll applied same addon identified (fun _ => mem_of_mem_removals)
        (nodup_removals db.firewallRules declared)
    obtain ⟨_, rfl, rfl⟩ := leads_pure_iff.mp h
    exact ⟨true, rfl, new, rfl, round_of_perm identified' perm⟩

/-- The plan is as desired, unless it differs and the database does not run. -/
theorem leads_updatePlan {res : Except Error Bool} (h : Leads (updatePlan current desired) db t res db')
    (same : current.id = db.id) (plan : current.plan = db.plan) :
    (db.plan = desired.plan ∧ db' = db ∧ res = .ok false) ∨
      (db.plan ≠ desired.plan ∧ db' = { db with plan := desired.plan, status := .provisioning } ∧
        res = .ok true) ∨
      (db.plan ≠ desired.plan ∧ current.isRunning = false ∧ ∃ e, res = .error e) := by
  unfold updatePlan at h
  rw [plan] at h
  split at h
  next kept =>
    obtain ⟨_, rfl, rfl⟩ := leads_pure_iff.mp h
    exact .inl ⟨kept, rfl, rfl⟩
  next differs =>
    split at h
    next resting =>
      obtain ⟨_, rfl, rfl⟩ := leads_throw h
      exact .inr (.inr ⟨differs, by simpa using resting, _, rfl⟩)
    next =>
      obtain ⟨t₁, _, db₁, rfl, h⟩ :=
        leads_of_call h fun _ _ => Database.ok_of_updateDatabasePlan same
      obtain ⟨_, rfl, rfl⟩ := leads_pure_iff.mp h
      exact .inr (.inl ⟨differs, rfl, rfl⟩)

/-- What an update leaves. -/
structure Updated (desired db db' : Database) : Prop where
  id : db'.id = db.id
  addonId : db'.addonId = db.addonId
  plan : db'.plan = desired.plan
  access : db'.features.isActive Features.publiclyAvailable =
    desired.features.isActive Features.publiclyAvailable
  rules : Round desired.firewallRules db.firewallRules db'.firewallRules

/-- An update fails only where it cannot address the database or the plan cannot be changed. -/
theorem leads_update {id : String} {res : Except Error UpdateOutcome}
    (h : Leads (update id desired) db t res db') (recorded : id = db.id)
    (identified : Identified db.firewallRules) :
    (∃ outcome, res = .ok outcome ∧ Updated desired db db' ∧
        (outcome = .provisioning ↔ db.plan ≠ desired.plan)) ∨
      (db.id = "" ∨ db.addonId = "" ∨ db.plan ≠ desired.plan ∧ db.isRunning = false) ∧
        ∃ e, res = .error e := by
  rcases cases_of_bind h with ⟨e, rfl, failed⟩ | ⟨t₁, t₂, current, db₁, rfl, read, h₁⟩
  · obtain ⟨res', failed, result⟩ := leads_of_inPhase failed
    rcases (leads_get recorded failed).2 with rfl | ⟨unnamed, _⟩
    · cases result
    · exact .inr ⟨unnamed.imp_right .inl, e, rfl⟩
  obtain ⟨res', read, result⟩ := leads_of_inPhase read
  obtain ⟨rfl, rfl | ⟨_, e, rfl⟩⟩ := leads_get recorded read
  case inr => cases result
  cases result
  obtain ⟨t₃, featuresChanged, db₂, ⟨fs, rfl, access⟩, h₂⟩ :=
    leads_of_phase h₁ fun _ _ _ opened => leads_updateInternetAccess opened rfl rfl
  obtain ⟨t₄, rulesChanged, db₃, ⟨new, rfl, round⟩, h₃⟩ :=
    leads_of_phase h₂ fun _ _ _ ruled => leads_updateFirewallRules ruled rfl rfl rfl identified
  rcases cases_of_bind h₃ with ⟨e, rfl, failed⟩ | ⟨t₅, t₆, planned, db₄, rfl, plan, h₄⟩
  · rcases leads_updatePlan failed rfl rfl with ⟨_, _, ok⟩ | ⟨_, _, ok⟩ | ⟨differs, resting, _⟩
    · cases ok
    · cases ok
    · exact .inr ⟨.inr (.inr ⟨differs, resting⟩), e, rfl⟩
  rcases leads_updatePlan plan rfl rfl with ⟨kept, rfl, ok⟩ | ⟨differs, rfl, ok⟩ | ⟨_, _, e, error⟩
  · cases ok
    rw [if_neg Bool.false_ne_true] at h₄
    split at h₄
    · obtain ⟨_, rfl, rfl⟩ := leads_pure_iff.mp h₄
      exact .inl ⟨.updated, rfl, ⟨rfl, rfl, kept, access, round⟩, by simpa using kept⟩
    · obtain ⟨_, rfl, rfl⟩ := leads_pure_iff.mp h₄
      exact .inl ⟨.unchanged, rfl, ⟨rfl, rfl, kept, access, round⟩, by simpa using kept⟩
  · cases ok
    obtain ⟨_, rfl, rfl⟩ := leads_pure_iff.mp h₄
    exact .inl ⟨.provisioning, rfl, ⟨rfl, rfl, rfl, access, round⟩, by simpa using differs⟩
  · cases error

/-- An update of a database that is as desired only reads. -/
theorem reads_update {id : String} {res : Except Error UpdateOutcome}
    (h : Leads (update id desired) db t res db') (recorded : id = db.id)
    (plan : db.plan = desired.plan)
    (access : db.features.isActive Features.publiclyAvailable =
      desired.features.isActive Features.publiclyAvailable)
    (same : ∀ x, x ∈ ranges db.firewallRules ↔ x ∈ ranges desired.firewallRules) :
    ∀ e ∈ t, e.call.Reads := by
  rcases cases_of_bind h with ⟨e, rfl, failed⟩ | ⟨t₁, t₂, current, db₁, rfl, read, h₁⟩
  · exact Task.only_inPhase reads_get t _ failed.runs
  obtain ⟨res', got, result⟩ := leads_of_inPhase read
  obtain ⟨rfl, rfl | ⟨_, e, rfl⟩⟩ := leads_get recorded got
  case inr => cases result
  cases result
  rw [kept_eq plan access same] at h₁
  obtain ⟨rfl, _⟩ := leads_pure_iff.mp h₁
  rw [List.append_nil]
  exact Task.only_inPhase reads_get t₁ _ read.runs

end Manager

end DatabaseOperator
