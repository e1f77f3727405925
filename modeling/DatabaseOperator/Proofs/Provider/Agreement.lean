import DatabaseOperator.Proofs.Provider.Outcome
import DatabaseOperator.Proofs.Provider.Rules

namespace DatabaseOperator

open FirewallRule

/-- Plan, public access and allowed ranges are the desired ones. The order of the rules, their labels and
ids, and whether two of them share a range are left open. -/
structure Database.Agrees (db desired : Database) : Prop where
  plan : db.plan = desired.plan
  access : db.features.isActive Features.publiclyAvailable =
    desired.features.isActive Features.publiclyAvailable
  ranges : ∀ x, x ∈ ranges db.firewallRules ↔ x ∈ ranges desired.firewallRules

/-- The provider reads out this database under an id. The rules are read by a call of their own. -/
structure Exchange.Shows (id : String) (db : Database) (e : Exchange provider) : Prop where
  database : ∀ a, e = ⟨.getDatabase id, a⟩ → ∃ rules, a = .ok { db with firewallRules := rules }
  rules : ∀ a, e = ⟨.listFirewallRules db.id db.addonId, a⟩ → a = .ok db.firewallRules

/-- What reads a database off two answers shows the database that they make up. -/
theorem Exchange.shows_of_answers (id : String) (seen : Database) (rules : List FirewallRule) :
    ∀ e ∈ ([⟨.getDatabase id, .ok seen⟩, ⟨.listFirewallRules seen.id seen.addonId, .ok rules⟩] :
      List (Exchange provider)), e.Shows id { seen with firewallRules := rules } := by
  intro e mem
  simp only [List.mem_cons, List.not_mem_nil, or_false] at mem
  rcases mem with rfl | rfl
  · constructor
    · rintro a ⟨⟩
      exact ⟨seen.firewallRules, rfl⟩
    · rintro a ⟨⟩
  · constructor
    · rintro a ⟨⟩
    · rintro a ⟨⟩
      rfl

/-- What an update says that it did, from what its parts say. -/
def UpdateOutcome.ofParts (featuresChanged rulesChanged planned : Bool) : UpdateOutcome :=
  if planned then .provisioning
  else if featuresChanged || rulesChanged then .updated
  else .unchanged

theorem UpdateOutcome.ofParts_eq_unchanged_iff {featuresChanged rulesChanged planned : Bool} :
    ofParts featuresChanged rulesChanged planned = .unchanged ↔
      featuresChanged = false ∧ rulesChanged = false ∧ planned = false := by
  cases featuresChanged <;> cases rulesChanged <;> cases planned <;> decide

theorem UpdateOutcome.ofParts_eq_updated_iff {featuresChanged rulesChanged planned : Bool} :
    ofParts featuresChanged rulesChanged planned = .updated ↔
      planned = false ∧ (featuresChanged = true ∨ rulesChanged = true) := by
  cases featuresChanged <;> cases rulesChanged <;> cases planned <;> decide

theorem UpdateOutcome.ofParts_eq_provisioning_iff {featuresChanged rulesChanged planned : Bool} :
    ofParts featuresChanged rulesChanged planned = .provisioning ↔ planned = true := by
  cases featuresChanged <;> cases rulesChanged <;> cases planned <;> decide

/-- The end of an update says what its parts say. -/
theorem UpdateOutcome.pure_ofParts (featuresChanged rulesChanged planned : Bool) :
    (if planned then pure .provisioning
      else if featuresChanged || rulesChanged then pure .updated
      else pure .unchanged : ProviderTask UpdateOutcome) =
      pure (ofParts featuresChanged rulesChanged planned) := by
  unfold ofParts
  split
  next => rfl
  split
  next => rfl
  next => rfl

namespace Manager

open ProviderTask

variable {id : String} {db current desired : Database} {t p : List (Exchange provider)}

/-- How a part of an update ends: it finds what is desired and asks nothing, or it makes a call that
changes something and says so, or it fails. -/
inductive Reconciles (agreed : Prop) : List (Exchange provider) → Except Error Bool → Prop
  | kept : agreed → Reconciles agreed [] (.ok false)
  | changed {t : List (Exchange provider)} : ¬ agreed → (∃ e ∈ t, ¬ e.call.Reads) →
      Reconciles agreed t (.ok true)
  | failed {t : List (Exchange provider)} (e : Error) : ¬ agreed → Reconciles agreed t (.error e)

theorem Reconciles.of_false {agreed : Prop} (h : Reconciles agreed t (.ok false)) :
    agreed ∧ t = [] := by
  cases h with
  | kept agreed => exact ⟨agreed, rfl⟩

theorem Reconciles.eq_false_of_reads {agreed changed : _} (h : Reconciles agreed t (.ok changed))
    (reads : ∀ e ∈ t, e.call.Reads) : changed = false := by
  cases h with
  | kept => rfl
  | changed _ asks =>
    obtain ⟨e, mem, changes⟩ := asks
    exact absurd (reads e mem) changes

theorem asks_of_enableFeature {feature : String} {res : Except Error Unit}
    (h : (enableFeature db feature).run.Runs t res) : ∃ e ∈ t, ¬ e.call.Reads := by
  rcases Task.runs_bind_iff.mp h with ⟨_, rfl, failed⟩ | ⟨t₁, t₂, status, rfl, asked, _⟩
  · obtain ⟨a, rfl, _⟩ := runs_call_iff.mp failed
    exact ⟨_, List.mem_singleton_self _, id⟩
  · obtain ⟨a, rfl, _⟩ := runs_call_iff.mp asked
    exact ⟨_, List.mem_append_left _ (List.mem_singleton_self _), id⟩

/-- Work that makes a change and then says so. -/
theorem reconciles_of_change {α : Type} {agreed : Prop} {x : ProviderTask α} {res : Except Error Bool}
    (h : (do let _ ← x; pure true : ProviderTask Bool).run.Runs t res) (differs : ¬ agreed)
    (asks : ∀ u a, x.run.Runs u (.ok a) → ∃ e ∈ u, ¬ e.call.Reads) : Reconciles agreed t res := by
  rcases Task.runs_bind_iff.mp h with ⟨e, rfl, _⟩ | ⟨t₁, t₂, a, rfl, made, ended⟩
  · exact .failed e differs
  · obtain ⟨rfl, rfl⟩ := Task.runs_pure_iff.mp ended
    rw [List.append_nil]
    exact .changed differs (asks t₁ a made)

theorem reconciles_updateInternetAccess {wanted : Bool} {res : Except Error Bool}
    (h : (updateInternetAccess current wanted).run.Runs t res) :
    Reconciles (current.features.isActive Features.publiclyAvailable = wanted) t res := by
  unfold updateInternetAccess at h
  simp only at h
  split at h
  next kept =>
    obtain ⟨rfl, rfl⟩ := Task.runs_pure_iff.mp h
    exact .kept kept
  next differs =>
    split at h
    next =>
      split at h
      next =>
        rcases Task.runs_bind_iff.mp h with ⟨e, rfl, _⟩ | ⟨t₁, t₂, _, rfl, forced, rest⟩
        · exact .failed e differs
        · have later := reconciles_of_change rest differs fun _ _ => asks_of_enableFeature
          cases later with
          | kept agreed => exact absurd agreed differs
          | changed =>
            obtain ⟨e, mem, changes⟩ := asks_of_enableFeature forced
            exact .changed differs ⟨e, List.mem_append_left _ mem, changes⟩
          | failed e => exact .failed e differs
      next => exact reconciles_of_change h differs fun _ _ => asks_of_enableFeature
    next =>
      refine reconciles_of_change h differs fun u a asked => ?_
      obtain ⟨b, rfl, _⟩ := runs_call_iff.mp asked
      exact ⟨_, List.mem_singleton_self _, id⟩

/-- An action that succeeds has been asked for. -/
theorem asks_of_applyAction {action : RuleAction} (h : (applyAction db action).run.Runs t (.ok ())) :
    ∃ e ∈ t, ¬ e.call.Reads := by
  unfold applyAction at h
  split at h
  next =>
    obtain ⟨a, rfl, _⟩ := runs_call_iff.mp h
    exact ⟨_, List.mem_singleton_self _, id⟩
  next =>
    split at h
    next => cases (Task.runs_throw_iff.mp h).2
    next =>
      obtain ⟨a, rfl, _⟩ := runs_call_iff.mp h
      exact ⟨_, List.mem_singleton_self _, id⟩

theorem asks_of_applyAll {a : RuleAction} {rest : List RuleAction}
    (h : (applyAll db (a :: rest)).run.Runs t (.ok ())) : ∃ e ∈ t, ¬ e.call.Reads := by
  obtain ⟨t₁, u, first, rfl, applied, further⟩ := Dialogue.runs_bind_iff.mp h
  obtain ⟨t₂, t₃, others, rfl, _, last⟩ := Dialogue.runs_bind_iff.mp further
  obtain ⟨_, combined⟩ := Dialogue.runs_done_iff.mp last
  cases first with
  | error e => cases combined
  | ok _ =>
    obtain ⟨e, mem, changes⟩ := asks_of_applyAction applied
    exact ⟨e, List.mem_append_left _ mem, changes⟩

theorem reconciles_updateFirewallRules {expected : List FirewallRule} {res : Except Error Bool}
    (h : (updateFirewallRules current expected).run.Runs t res) :
    Reconciles (∀ x, x ∈ ranges current.firewallRules ↔ x ∈ ranges expected) t res := by
  unfold updateFirewallRules at h
  split at h
  next none =>
    obtain ⟨rfl, rfl⟩ := Task.runs_pure_iff.mp h
    exact .kept (diffRules_eq_nil_iff.mp none)
  next some =>
    have differs : ¬ ∀ x, x ∈ ranges current.firewallRules ↔ x ∈ ranges expected :=
      fun same => some (diffRules_eq_nil_iff.mpr same)
    refine reconciles_of_change h differs fun u _ applied => ?_
    cases actions : diffRules current.firewallRules expected with
    | nil => exact absurd actions some
    | cons a rest =>
      rw [actions] at applied
      exact asks_of_applyAll applied

theorem reconciles_updatePlan {res : Except Error Bool}
    (h : (updatePlan current desired).run.Runs t res) :
    Reconciles (current.plan = desired.plan) t res := by
  unfold updatePlan at h
  split at h
  next kept =>
    obtain ⟨rfl, rfl⟩ := Task.runs_pure_iff.mp h
    exact .kept kept
  next differs =>
    split at h
    next =>
      obtain ⟨rfl, rfl⟩ := Task.runs_throw_iff.mp h
      exact .failed _ differs
    next =>
      refine reconciles_of_change h differs fun u a asked => ?_
      obtain ⟨b, rfl, _⟩ := runs_call_iff.mp asked
      exact ⟨_, List.mem_singleton_self _, id⟩

/-- A database that is there is read as it is. -/
theorem ok_of_get {res : Except Error Database} (h : (get id).run.Runs t res) (named : id ≠ "")
    (addressed : db.addonId ≠ "") (shown : ∀ e ∈ t, e.Shows id db) : res = .ok db := by
  rcases cases_of_get h named with ⟨_, f, rfl, _⟩ | ⟨seen, ⟨unaddressed, rfl, _⟩ | ⟨a, _, rfl, rfl⟩⟩
  · obtain ⟨rules, failed⟩ := (shown _ List.mem_cons_self).database _ rfl
    cases failed
  · obtain ⟨rules, given⟩ := (shown _ List.mem_cons_self).database _ rfl
    cases given
    exact absurd unaddressed addressed
  · obtain ⟨rules, given⟩ := (shown _ List.mem_cons_self).database _ rfl
    cases given
    obtain rfl := (shown _ (.tail _ List.mem_cons_self)).rules a rfl
    rfl

/-- An update that succeeds reads the database, and then its three parts succeed. -/
theorem parts_of_update {outcome : UpdateOutcome}
    (h : (update id desired).run.Runs t (.ok outcome)) :
    ∃ current t₀ t₁ t₂ t₃ featuresChanged rulesChanged planned, t = t₀ ++ (t₁ ++ (t₂ ++ t₃)) ∧
      (get id).run.Runs t₀ (.ok current) ∧
      Reconciles (current.features.isActive Features.publiclyAvailable =
        desired.features.isActive Features.publiclyAvailable) t₁ (.ok featuresChanged) ∧
      Reconciles (∀ x, x ∈ ranges current.firewallRules ↔ x ∈ ranges desired.firewallRules) t₂
        (.ok rulesChanged) ∧
      Reconciles (current.plan = desired.plan) t₃ (.ok planned) ∧
      outcome = .ofParts featuresChanged rulesChanged planned := by
  obtain ⟨t₀, u₁, current, rfl, read, h₁⟩ := Task.split_of_ok h
  obtain ⟨t₁, u₂, featuresChanged, rfl, access, h₂⟩ := Task.split_of_ok h₁
  obtain ⟨t₂, u₃, rulesChanged, rfl, ruled, h₃⟩ := Task.split_of_ok h₂
  obtain ⟨t₃, u₄, planned, rfl, plan, h₄⟩ := Task.split_of_ok h₃
  rw [UpdateOutcome.pure_ofParts] at h₄
  obtain ⟨rfl, ok⟩ := Task.runs_pure_iff.mp h₄
  cases ok
  refine ⟨current, t₀, t₁, t₂, t₃, featuresChanged, rulesChanged, planned, by simp,
    Task.ok_of_inPhase read, reconciles_updateInternetAccess (Task.ok_of_inPhase access),
    reconciles_updateFirewallRules (Task.ok_of_inPhase ruled), reconciles_updatePlan plan, rfl⟩

/-- An update of a database that is as desired changes nothing. -/
theorem unchanged_of_agrees {res : Except Error UpdateOutcome}
    (h : (update id desired).run.Runs t res) (named : id ≠ "") (addressed : db.addonId ≠ "")
    (shown : ∀ e ∈ t, e.Shows id db) (agrees : db.Agrees desired) : res = .ok .unchanged := by
  rcases Task.runs_bind_iff.mp h with ⟨e, rfl, unread⟩ | ⟨t₁, t₂, current, rfl, read, h₁⟩
  · obtain ⟨res, unread, failed⟩ := Task.runs_inPhase_iff.mp unread
    rw [ok_of_get unread named addressed shown] at failed
    cases failed
  · have found := ok_of_get (Task.ok_of_inPhase read) named addressed fun e mem =>
      shown e (List.mem_append_left _ mem)
    cases found
    rw [kept_eq agrees.plan agrees.access agrees.ranges] at h₁
    exact (Task.runs_pure_iff.mp h₁).2

/-- An update says that it changed nothing exactly when it has succeeded by reading alone, and exactly
when all was as desired. -/
theorem update_unchanged_iff {res : Except Error UpdateOutcome}
    (h : (update id desired).run.Runs t res) (named : id ≠ "") (addressed : db.addonId ≠ "")
    (shown : ∀ e ∈ t, e.Shows id db) :
    (res = .ok .unchanged ↔ (∃ outcome, res = .ok outcome) ∧ ∀ e ∈ t, e.call.Reads) ∧
      (res = .ok .unchanged ↔ db.Agrees desired) := by
  refine ⟨⟨?_, ?_⟩, ⟨?_, unchanged_of_agrees h named addressed shown⟩⟩
  · rintro rfl
    refine ⟨⟨_, rfl⟩, ?_⟩
    obtain ⟨current, t₀, t₁, t₂, t₃, _, _, _, rfl, read, access, ruled, plan, outcome⟩ :=
      parts_of_update h
    obtain ⟨rfl, rfl, rfl⟩ := UpdateOutcome.ofParts_eq_unchanged_iff.mp outcome.symm
    rw [access.of_false.2, ruled.of_false.2, plan.of_false.2, List.append_nil, List.append_nil,
      List.append_nil]
    exact reads_get t₀ _ read
  · rintro ⟨⟨outcome, rfl⟩, reads⟩
    obtain ⟨current, t₀, t₁, t₂, t₃, _, _, _, rfl, read, access, ruled, plan, rfl⟩ :=
      parts_of_update h
    simp only [List.forall_mem_append] at reads
    obtain ⟨_, reads₁, reads₂, reads₃⟩ := reads
    have unchanged := UpdateOutcome.ofParts_eq_unchanged_iff.mpr ⟨access.eq_false_of_reads reads₁,
      ruled.eq_false_of_reads reads₂, plan.eq_false_of_reads reads₃⟩
    rw [unchanged]
  · rintro rfl
    obtain ⟨current, t₀, t₁, t₂, t₃, _, _, _, rfl, read, access, ruled, plan, outcome⟩ :=
      parts_of_update h
    obtain ⟨rfl, rfl, rfl⟩ := UpdateOutcome.ofParts_eq_unchanged_iff.mp outcome.symm
    have found := ok_of_get read named addressed fun e mem => shown e (List.mem_append_left _ mem)
    cases found
    exact ⟨plan.of_false.1, access.of_false.1, ruled.of_false.1⟩

end Manager

end DatabaseOperator
