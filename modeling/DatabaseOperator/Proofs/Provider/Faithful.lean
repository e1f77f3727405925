import DatabaseOperator.Proofs.Firewall.Diff
import DatabaseOperator.Proofs.Pass.Calls

namespace DatabaseOperator

/-- The call is about this database. -/
def ProviderCall.Concerns (db : Database) : ProviderCall → Prop
  | .createDatabase _ => False
  | .getDatabase id => id = db.id
  | .updateDatabasePlan target => target.id = db.id
  | .deleteDatabase id => id = db.id
  | .createFirewallRule id addonId _ => id = db.id ∧ addonId = db.addonId
  | .listFirewallRules id addonId => id = db.id ∧ addonId = db.addonId
  | .deleteFirewallRule id addonId _ => id = db.id ∧ addonId = db.addonId
  | .enableFeature target _ => target.id = db.id
  | .disableFeature target _ => target.id = db.id
  | .findVariable _ _ => False

/-- The provider answered without a failure. -/
def Exchange.Answered : Exchange provider → Prop
  | ⟨_, .ok _⟩ => True
  | ⟨_, .error _⟩ => False

namespace Database

variable {db db' db'' : Database} {t u : List (Exchange provider)}

/-- A call that succeeds, with the database before and after it. A new firewall rule gets an id that no
other one has, a feature is on or about to be on once it is enabled, and a change of plan makes the
database provisioning. The rules are read by a call of their own. -/
inductive Handles (db : Database) : Exchange provider → Database → Prop
  | got {id : String} (rules : List FirewallRule) : id = db.id →
      Handles db ⟨.getDatabase id, .ok { db with firewallRules := rules }⟩ db
  | listed {id addonId : String} : id = db.id → addonId = db.addonId →
      Handles db ⟨.listFirewallRules id addonId, .ok db.firewallRules⟩ db
  | ruleCreated {id addonId : String} {rule : FirewallRule} (ruleId : String) : id = db.id →
      addonId = db.addonId → ruleId ≠ "" → (∀ x ∈ db.firewallRules, x.id ≠ some ruleId) →
      Handles db ⟨.createFirewallRule id addonId rule, .ok ()⟩
        { db with firewallRules := db.firewallRules ++ [{ rule with id := some ruleId }] }
  | ruleDeleted {id addonId ruleId : String} : id = db.id → addonId = db.addonId →
      Handles db ⟨.deleteFirewallRule id addonId ruleId, .ok ()⟩
        { db with firewallRules := FirewallRule.without ruleId db.firewallRules }
  | enabled {target : Database} {feature : String} (status : FeatureStatus) : target.id = db.id →
      status.isActive = true → Handles db ⟨.enableFeature target feature, .ok status⟩
        { db with features := db.features.insert feature status }
  | disabled {target : Database} {feature : String} (status : FeatureStatus) : target.id = db.id →
      Handles db ⟨.disableFeature target feature, .ok status⟩
        { db with features := db.features.erase feature }
  | planned {target : Database} : target.id = db.id →
      Handles db ⟨.updateDatabasePlan target, .ok ()⟩
        { db with plan := target.plan, status := .provisioning }
  | dropped {id : String} (left : Database) : id = db.id →
      Handles db ⟨.deleteDatabase id, .ok ()⟩ left
  | apart {c : ProviderCall} (a : provider.Answer c) : ¬ c.Concerns db → Handles db ⟨c, a⟩ db

section Handles

variable {id addonId ruleId feature : String} {rule : FirewallRule} {target : Database}

theorem ok_of_getDatabase {a : Except ProviderError Database} (same : id = db.id)
    (h : db.Handles ⟨.getDatabase id, a⟩ db') :
    ∃ seen, a = .ok seen ∧ (∃ rules, seen = { db with firewallRules := rules }) ∧ db' = db := by
  cases h with
  | got rules => exact ⟨_, rfl, ⟨rules, rfl⟩, rfl⟩
  | apart a apart => exact absurd same apart

theorem ok_of_listFirewallRules {a : Except ProviderError (List FirewallRule)} (same : id = db.id)
    (addon : addonId = db.addonId) (h : db.Handles ⟨.listFirewallRules id addonId, a⟩ db') :
    ∃ rules, a = .ok rules ∧ rules = db.firewallRules ∧ db' = db := by
  cases h with
  | listed => exact ⟨_, rfl, rfl, rfl⟩
  | apart a apart => exact absurd ⟨same, addon⟩ apart

theorem ok_of_createFirewallRule {a : Except ProviderError Unit} (same : id = db.id)
    (addon : addonId = db.addonId) (h : db.Handles ⟨.createFirewallRule id addonId rule, a⟩ db') :
    ∃ u, a = .ok u ∧ ∃ ruleId, ruleId ≠ "" ∧ (∀ x ∈ db.firewallRules, x.id ≠ some ruleId) ∧
      db' = { db with firewallRules := db.firewallRules ++ [{ rule with id := some ruleId }] } := by
  cases h with
  | ruleCreated ruleId _ _ named unused => exact ⟨(), rfl, ruleId, named, unused, rfl⟩
  | apart a apart => exact absurd ⟨same, addon⟩ apart

theorem ok_of_deleteFirewallRule {a : Except ProviderError Unit} (same : id = db.id)
    (addon : addonId = db.addonId) (h : db.Handles ⟨.deleteFirewallRule id addonId ruleId, a⟩ db') :
    ∃ u, a = .ok u ∧
      db' = { db with firewallRules := FirewallRule.without ruleId db.firewallRules } := by
  cases h with
  | ruleDeleted => exact ⟨(), rfl, rfl⟩
  | apart a apart => exact absurd ⟨same, addon⟩ apart

theorem ok_of_enableFeature {a : Except ProviderError FeatureStatus} (same : target.id = db.id)
    (h : db.Handles ⟨.enableFeature target feature, a⟩ db') :
    ∃ status, a = .ok status ∧ status.isActive = true ∧
      db' = { db with features := db.features.insert feature status } := by
  cases h with
  | enabled status _ active => exact ⟨status, rfl, active, rfl⟩
  | apart a apart => exact absurd same apart

theorem ok_of_disableFeature {a : Except ProviderError FeatureStatus} (same : target.id = db.id)
    (h : db.Handles ⟨.disableFeature target feature, a⟩ db') :
    ∃ status, a = .ok status ∧ db' = { db with features := db.features.erase feature } := by
  cases h with
  | disabled status => exact ⟨status, rfl, rfl⟩
  | apart a apart => exact absurd same apart

theorem ok_of_updateDatabasePlan {a : Except ProviderError Unit} (same : target.id = db.id)
    (h : db.Handles ⟨.updateDatabasePlan target, a⟩ db') :
    ∃ u, a = .ok u ∧ db' = { db with plan := target.plan, status := .provisioning } := by
  cases h with
  | planned => exact ⟨(), rfl, rfl⟩
  | apart a apart => exact absurd same apart

end Handles

/-- The provider handles these calls in this order. -/
inductive Undergoes : Database → List (Exchange provider) → Database → Prop
  | done (db : Database) : Undergoes db [] db
  | call {db db' db'' : Database} {e : Exchange provider} {t : List (Exchange provider)} :
      Handles db e db' → Undergoes db' t db'' → Undergoes db (e :: t) db''

@[simp]
theorem undergoes_nil_iff : Undergoes db [] db' ↔ db' = db := by
  constructor
  · intro h
    cases h
    rfl
  · rintro rfl
    exact .done db'

theorem undergoes_cons_iff {e : Exchange provider} :
    Undergoes db (e :: t) db'' ↔ ∃ db', Handles db e db' ∧ Undergoes db' t db'' := by
  constructor
  · intro h
    cases h with
    | call first rest => exact ⟨_, first, rest⟩
  · rintro ⟨db', first, rest⟩
    exact .call first rest

theorem undergoes_single_iff {e : Exchange provider} :
    Undergoes db [e] db' ↔ Handles db e db' := by
  simp [undergoes_cons_iff]

theorem undergoes_append_iff :
    Undergoes db (t ++ u) db'' ↔ ∃ db', Undergoes db t db' ∧ Undergoes db' u db'' := by
  induction t generalizing db with
  | nil => simp
  | cons e t ih =>
    simp only [List.cons_append, undergoes_cons_iff, ih]
    constructor
    · rintro ⟨db₁, first, db₂, rest, last⟩
      exact ⟨db₂, ⟨db₁, first, rest⟩, last⟩
    · rintro ⟨db₂, ⟨db₁, first, rest⟩, last⟩
      exact ⟨db₁, first, db₂, rest, last⟩

/-- An id that no rule has. -/
theorem exists_unused_id (rules : List FirewallRule) :
    ∃ id : String, id ≠ "" ∧ ∀ r ∈ rules, r.id ≠ some id := by
  let bound := (rules.map fun r => (r.id.getD "").length).foldr max 0
  refine ⟨String.ofList (List.replicate (bound + 1) 'r'), ?_, fun r mem same => ?_⟩
  · intro empty
    have length := congrArg String.length empty
    simp at length
  · have short : (r.id.getD "").length ≤ bound :=
      FirewallRule.foldr_max_le_iff.mp (Nat.le_refl bound) _ (List.mem_map.mpr ⟨r, mem, rfl⟩)
    rw [same] at short
    simp only [Option.getD_some, String.length_ofList, List.length_replicate] at short
    omega

/-- A provider can do whatever it is asked. -/
theorem exists_handles (db : Database) (c : ProviderCall) :
    ∃ (a : c.Result) (db' : Database), Handles db ⟨c, .ok a⟩ db' := by
  by_cases concerns : c.Concerns db
  · cases c with
    | createDatabase | findVariable => exact concerns.elim
    | getDatabase => exact ⟨_, _, .got [] concerns⟩
    | updateDatabasePlan => exact ⟨_, _, .planned concerns⟩
    | deleteDatabase => exact ⟨_, _, .dropped db concerns⟩
    | createFirewallRule =>
      obtain ⟨ruleId, named, unused⟩ := exists_unused_id db.firewallRules
      exact ⟨_, _, .ruleCreated ruleId concerns.1 concerns.2 named unused⟩
    | listFirewallRules => exact ⟨_, _, .listed concerns.1 concerns.2⟩
    | deleteFirewallRule => exact ⟨_, _, .ruleDeleted concerns.1 concerns.2⟩
    | enableFeature => exact ⟨_, _, .enabled .activated concerns rfl⟩
    | disableFeature => exact ⟨_, _, .disabled .failed concerns⟩
  · have answer : Nonempty c.Result := by
      cases c with
      | createDatabase | getDatabase => exact ⟨blank⟩
      | updateDatabasePlan | deleteDatabase | createFirewallRule | deleteFirewallRule => exact ⟨()⟩
      | listFirewallRules => exact ⟨[]⟩
      | enableFeature | disableFeature => exact ⟨.activated⟩
      | findVariable => exact ⟨""⟩
    obtain ⟨a⟩ := answer
    exact ⟨a, db, .apart _ concerns⟩

/-- So every program has a run with it in which no call fails. -/
theorem exists_undergoes {α : Type} (x : Dialogue provider α) (db : Database) :
    ∃ t a db', x.Runs t a ∧ Undergoes db t db' ∧
      ∀ e ∈ t, e.Answered := by
  induction x generalizing db with
  | done a => exact ⟨[], a, db, .done a, .done db, fun _ mem => nomatch mem⟩
  | ask c next ih =>
    obtain ⟨answer, db₁, handles⟩ := exists_handles db c
    obtain ⟨t, a, db₂, runs, rest, answered⟩ := ih (.ok answer) db₁
    refine ⟨_, a, db₂, .ask _ runs, .call handles rest, fun e mem => ?_⟩
    rcases List.mem_cons.mp mem with rfl | mem
    · trivial
    · exact answered e mem

end Database

namespace ProviderTask

variable {α β : Type} {db db' db'' : Database} {t : List (Exchange provider)}

/-- A run of some work with a provider that handles the calls. -/
structure Leads (x : ProviderTask α) (db : Database) (t : List (Exchange provider))
    (res : Except Error α) (db' : Database) : Prop where
  runs : x.run.Runs t res
  undergoes : db.Undergoes t db'

theorem leads_pure_iff {a : α} {res : Except Error α} :
    Leads (pure a) db t res db' ↔ t = [] ∧ res = .ok a ∧ db' = db := by
  constructor
  · rintro ⟨runs, undergoes⟩
    obtain ⟨rfl, rfl⟩ := Task.runs_pure_iff.mp runs
    exact ⟨rfl, rfl, Database.undergoes_nil_iff.mp undergoes⟩
  · rintro ⟨rfl, rfl, rfl⟩
    exact ⟨Task.runs_pure_iff.mpr ⟨rfl, rfl⟩, .done db'⟩

theorem leads_throw {e : Error} {res : Except Error α} (h : Leads (throw e) db t res db') :
    t = [] ∧ res = .error e ∧ db' = db := by
  obtain ⟨rfl, rfl⟩ := Task.runs_throw_iff.mp h.runs
  exact ⟨rfl, rfl, Database.undergoes_nil_iff.mp h.undergoes⟩

theorem cases_of_bind {x : ProviderTask α} {f : α → ProviderTask β} {res : Except Error β}
    (h : Leads (x >>= f) db t res db'') :
    (∃ e, res = .error e ∧ Leads x db t (.error e) db'') ∨
      ∃ t₁ t₂ a db', t = t₁ ++ t₂ ∧ Leads x db t₁ (.ok a) db' ∧ Leads (f a) db' t₂ res db'' := by
  rcases Task.runs_bind_iff.mp h.runs with ⟨e, rfl, runs⟩ | ⟨t₁, t₂, a, rfl, first, second⟩
  · exact .inl ⟨e, rfl, runs, h.undergoes⟩
  · obtain ⟨db', before, after⟩ := Database.undergoes_append_iff.mp h.undergoes
    exact .inr ⟨t₁, t₂, a, db', rfl, ⟨first, before⟩, ⟨second, after⟩⟩

/-- Work whose first part succeeds goes on from there. -/
theorem leads_of_bind {x : ProviderTask α} {f : α → ProviderTask β} {P : α → Database → Prop}
    {res : Except Error β} (h : Leads (x >>= f) db t res db'')
    (succeeds : ∀ t₁ res₁ db₁, Leads x db t₁ res₁ db₁ → ∃ a, res₁ = .ok a ∧ P a db₁) :
    ∃ t' a db', P a db' ∧ Leads (f a) db' t' res db'' := by
  rcases cases_of_bind h with ⟨e, _, failed⟩ | ⟨t₁, t₂, a, db', _, first, second⟩
  · obtain ⟨a, result, _⟩ := succeeds _ _ _ failed
    cases result
  · obtain ⟨a, result, holds⟩ := succeeds _ _ _ first
    cases result
    exact ⟨t₂, a, db', holds, second⟩

theorem ok_of_call {action : String} {c : ProviderCall} {P : c.Result → Database → Prop}
    {res : Except Error c.Result} (h : Leads (call action c) db t res db')
    (handled : ∀ a db₁, db.Handles ⟨c, a⟩ db₁ → ∃ r, a = Except.ok r ∧ P r db₁) :
    ∃ r, res = .ok r ∧ P r db' := by
  obtain ⟨a, rfl, rfl⟩ := runs_call_iff.mp h.runs
  obtain ⟨r, rfl, holds⟩ := handled a _ (Database.undergoes_single_iff.mp h.undergoes)
  exact ⟨r, rfl, holds⟩

theorem leads_of_call {action : String} {c : ProviderCall} {P : c.Result → Database → Prop}
    {f : c.Result → ProviderTask β} {res : Except Error β}
    (h : Leads (call action c >>= f) db t res db'')
    (handled : ∀ a db₁, db.Handles ⟨c, a⟩ db₁ → ∃ r, a = Except.ok r ∧ P r db₁) :
    ∃ t' r db', P r db' ∧ Leads (f r) db' t' res db'' :=
  leads_of_bind h fun _ _ _ first => ok_of_call first handled

theorem leads_of_inPhase {action : String} {x : ProviderTask α} {res : Except Error α}
    (h : Leads (inPhase action x) db t res db') :
    ∃ res', Leads x db t res' db' ∧ res = res'.mapError (Error.phase action) := by
  obtain ⟨res', runs, rfl⟩ := Task.runs_inPhase_iff.mp h.runs
  exact ⟨res', ⟨runs, h.undergoes⟩, rfl⟩

/-- The same behind the name of a step. -/
theorem leads_of_phase {action : String} {x : ProviderTask α} {f : α → ProviderTask β}
    {P : α → Database → Prop} {res : Except Error β}
    (h : Leads (inPhase action x >>= f) db t res db'')
    (succeeds : ∀ t₁ res₁ db₁, Leads x db t₁ res₁ db₁ → ∃ a, res₁ = .ok a ∧ P a db₁) :
    ∃ t' a db', P a db' ∧ Leads (f a) db' t' res db'' := by
  apply leads_of_bind h
  intro t₁ res₁ db₁ first
  obtain ⟨res', inner, rfl⟩ := leads_of_inPhase first
  obtain ⟨a, rfl, holds⟩ := succeeds _ _ _ inner
  exact ⟨a, rfl, holds⟩

theorem cases_of_requireText {field value : String} {f : Unit → ProviderTask β}
    {res : Except Error β} (h : Leads (requireText field value >>= f) db t res db') :
    (value = "" ∧ (∃ e, res = .error e) ∧ db' = db) ∨
      value ≠ "" ∧ Leads (f ()) db t res db' := by
  by_cases named : value = ""
  · rcases cases_of_bind h with ⟨e, rfl, failed⟩ | ⟨t₁, t₂, _, db₁, rfl, passed, _⟩
    · obtain ⟨rfl, _⟩ := Task.runs_requireText_iff.mp failed.runs
      exact .inl ⟨named, ⟨e, rfl⟩, Database.undergoes_nil_iff.mp failed.undergoes⟩
    · have ok := (Task.runs_requireText_iff.mp passed.runs).2
      simp [named] at ok
  · rw [Task.requireText_eq named, pure_bind] at h
    exact .inr ⟨named, h⟩

end ProviderTask

end DatabaseOperator
