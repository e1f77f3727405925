import DatabaseOperator.Proofs.Firewall.Diff
import DatabaseOperator.Proofs.Pass.Calls
import DatabaseOperator.Proofs.Provider.Manager

namespace DatabaseOperator

open FirewallRule RuleAction

namespace Manager

open ProviderTask

variable {id : String} {db current desired target : Database} {t : List (Exchange provider)}

/-- What is left of an update once the database is read, when all is as desired. -/
theorem kept_eq (plan : db.plan = desired.plan)
    (access : db.features.isActive Features.publiclyAvailable =
      desired.features.isActive Features.publiclyAvailable)
    (same : ∀ x, x ∈ ranges db.firewallRules ↔ x ∈ ranges desired.firewallRules) :
    (do
      let featuresChanged ← inPhase "update internet access" (updateInternetAccess db
        (desired.features.isActive Features.publiclyAvailable))
      let rulesChanged ← inPhase "update firewall rules"
        (updateFirewallRules db desired.firewallRules)
      if ← updatePlan db desired then pure .provisioning
      else if featuresChanged || rulesChanged then pure .updated
      else pure .unchanged : ProviderTask UpdateOutcome) = pure .unchanged := by
  have kept : updateInternetAccess db (desired.features.isActive Features.publiclyAvailable) =
      pure false := if_pos access
  have ruled : updateFirewallRules db desired.firewallRules = pure false := by
    rw [updateFirewallRules, diffRules_eq_nil same]
  have planned : updatePlan db desired = pure false := if_pos plan
  rw [kept, ruled, planned]
  rfl

theorem runs_update_of_kept {id : String} (read : (get id).run.Runs t (.ok db))
    (plan : db.plan = desired.plan)
    (access : db.features.isActive Features.publiclyAvailable =
      desired.features.isActive Features.publiclyAvailable)
    (same : ∀ x, x ∈ ranges db.firewallRules ↔ x ∈ ranges desired.firewallRules) :
    (update id desired).run.Runs t (.ok .unchanged) := by
  rw [← List.append_nil t]
  refine Task.runs_bind_of_ok (Task.runs_inPhase_iff.mpr ⟨_, read, rfl⟩) ?_
  simp only
  rw [kept_eq plan access same]
  exact Task.runs_pure_iff.mpr ⟨rfl, rfl⟩

theorem runs_get {id : String} {seen : Database} (rules : List FirewallRule) (named : id ≠ "")
    (addressed : seen.addonId ≠ "") :
    (get id).run.Runs
      [⟨.getDatabase id, .ok seen⟩, ⟨.listFirewallRules seen.id seen.addonId, .ok rules⟩]
      (.ok { seen with firewallRules := rules }) := by
  rw [get, Task.requireText_eq named, pure_bind]
  refine Task.runs_bind_of_single (runs_call_iff.mpr ⟨.ok seen, rfl, rfl⟩) ?_
  rw [Task.requireText_eq addressed, pure_bind]
  exact Task.runs_bind_of_single (runs_call_iff.mpr ⟨.ok rules, rfl, rfl⟩)
    (Task.runs_pure_iff.mpr ⟨rfl, rfl⟩)

/-- The courses of the reading of a database with its rules. -/
inductive Reading (id : String) : List (Exchange provider) → Except Error Database → Prop
  | unnamed : id = "" → Reading id [] (.error (.empty "database id"))
  | unread {f : ProviderError} : id ≠ "" →
      Reading id [⟨.getDatabase id, .error f⟩] (.error (.provider "get database" f))
  | unaddressed {seen : Database} : id ≠ "" → seen.addonId = "" →
      Reading id [⟨.getDatabase id, .ok seen⟩] (.error (.empty "addon id"))
  | unlisted {seen : Database} {f : ProviderError} : id ≠ "" → seen.addonId ≠ "" →
      Reading id
        [⟨.getDatabase id, .ok seen⟩, ⟨.listFirewallRules seen.id seen.addonId, .error f⟩]
        (.error (.provider "list firewall rules" f))
  | read {seen : Database} {rules : List FirewallRule} : id ≠ "" → seen.addonId ≠ "" →
      Reading id
        [⟨.getDatabase id, .ok seen⟩, ⟨.listFirewallRules seen.id seen.addonId, .ok rules⟩]
        (.ok { seen with firewallRules := rules })

theorem reading_of_runs {res : Except Error Database} (h : (get id).run.Runs t res) :
    Reading id t res := by
  by_cases named : id = ""
  · subst named
    rcases Task.runs_bind_iff.mp h with ⟨e, rfl, refused⟩ | ⟨_, _, _, rfl, passed, _⟩
    · obtain ⟨rfl, refused⟩ := Task.runs_requireText_iff.mp refused
      cases refused
      exact .unnamed rfl
    · cases (Task.runs_requireText_iff.mp passed).2
  rw [get, Task.requireText_eq named, pure_bind] at h
  rcases Task.runs_bind_iff.mp h with ⟨e, rfl, unread⟩ | ⟨t₁, t₂, seen, rfl, read, h₁⟩
  · obtain ⟨a, rfl, error⟩ := runs_call_iff.mp unread
    cases a with
    | error f =>
      cases error
      exact .unread named
    | ok => cases error
  obtain ⟨a, rfl, ok⟩ := runs_call_iff.mp read
  cases a with
  | error => cases ok
  | ok =>
    cases ok
    by_cases addressed : seen.addonId = ""
    · rcases Task.runs_bind_iff.mp h₁ with ⟨e, rfl, refused⟩ | ⟨_, _, _, rfl, passed, _⟩
      · obtain ⟨rfl, refused⟩ := Task.runs_requireText_iff.mp refused
        rw [addressed] at refused
        cases refused
        exact .unaddressed named addressed
      · have passed := (Task.runs_requireText_iff.mp passed).2
        rw [addressed] at passed
        cases passed
    rw [Task.requireText_eq addressed, pure_bind] at h₁
    rcases Task.runs_bind_iff.mp h₁ with ⟨e, rfl, unlisted⟩ | ⟨t₃, t₄, rules, rfl, listed, h₂⟩
    · obtain ⟨a, rfl, error⟩ := runs_call_iff.mp unlisted
      cases a with
      | error f =>
        cases error
        exact .unlisted named addressed
      | ok => cases error
    · obtain ⟨a, rfl, ok⟩ := runs_call_iff.mp listed
      obtain ⟨rfl, rfl⟩ := Task.runs_pure_iff.mp h₂
      cases a with
      | error => cases ok
      | ok =>
        cases ok
        exact .read named addressed

/-- The status that an update goes by is the one that the provider gave. -/
theorem seen_of_get {id : String} (h : (get id).run.Runs t (.ok db)) :
    ∃ seen, (⟨.getDatabase id, .ok seen⟩ : Exchange provider) ∈ t ∧ seen.status = db.status := by
  cases reading_of_runs h with
  | @read seen => exact ⟨seen, .head _, rfl⟩

/-- Without an id there is nothing to read. -/
theorem unread_of_unnamed {res : Except Error Database} (h : (get "").run.Runs t res) :
    t = [] ∧ ∃ e, res = .error e := by
  cases reading_of_runs h with
  | unnamed => exact ⟨rfl, _, rfl⟩
  | unread named | unaddressed named | unlisted named | read named => exact absurd rfl named

theorem unasked_of_unnamed {res : Except Error UpdateOutcome}
    (h : (update "" desired).run.Runs t res) : t = [] := by
  rcases Task.runs_bind_iff.mp h with ⟨e, rfl, failed⟩ | ⟨_, _, current, rfl, read, _⟩
  · obtain ⟨res', failed, _⟩ := Task.runs_inPhase_iff.mp failed
    exact (unread_of_unnamed failed).1
  · obtain ⟨res', read, ok⟩ := Task.runs_inPhase_iff.mp read
    obtain ⟨_, e, rfl⟩ := unread_of_unnamed read
    cases ok

/-- The provider accepted a change of plan. -/
def Accepts (t : List (Exchange provider)) : Prop :=
  ∃ target, (⟨.updateDatabasePlan target, .ok ()⟩ : Exchange provider) ∈ t

theorem updatePlan_ok_true_iff {res : Except Error Bool}
    (h : (updatePlan current desired).run.Runs t res) : res = .ok true ↔ Accepts t := by
  unfold updatePlan at h
  split at h
  next =>
    obtain ⟨rfl, rfl⟩ := Task.runs_pure_iff.mp h
    simp [Accepts]
  next =>
    split at h
    next =>
      obtain ⟨rfl, rfl⟩ := Task.runs_throw_iff.mp h
      simp [Accepts]
    next =>
      rcases Task.runs_bind_iff.mp h with ⟨e, rfl, refused⟩ | ⟨t₁, t₂, _, rfl, changed, ended⟩
      · obtain ⟨a, rfl, error⟩ := runs_call_iff.mp refused
        cases a with
        | error _ =>
          refine ⟨nofun, ?_⟩
          rintro ⟨target, mem⟩
          cases List.mem_singleton.mp mem
        | ok _ => cases error
      · obtain ⟨a, rfl, ok⟩ := runs_call_iff.mp changed
        obtain ⟨rfl, rfl⟩ := Task.runs_pure_iff.mp ended
        cases a with
        | error _ => cases ok
        | ok _ => simp [Accepts]

/-- An update ends in a change of plan exactly when one was accepted. -/
theorem update_ok_provisioning_iff {res : Except Error UpdateOutcome}
    (h : (update id desired).run.Runs t res) : res = .ok .provisioning ↔ Accepts t := by
  constructor
  · rintro rfl
    obtain ⟨t₁, t₂, current, rfl, _, h₁⟩ := Task.split_of_ok h
    obtain ⟨t₃, t₄, featuresChanged, rfl, _, h₂⟩ := Task.split_of_ok h₁
    obtain ⟨t₅, t₆, rulesChanged, rfl, _, h₃⟩ := Task.split_of_ok h₂
    obtain ⟨t₇, t₈, planned, rfl, plan, h₄⟩ := Task.split_of_ok h₃
    cases planned with
    | true =>
      obtain ⟨target, mem⟩ := (updatePlan_ok_true_iff plan).mp rfl
      exact ⟨target, by simp [mem]⟩
    | false =>
      rw [if_neg Bool.false_ne_true] at h₄
      split at h₄
      · cases (Task.runs_pure_iff.mp h₄).2
      · cases (Task.runs_pure_iff.mp h₄).2
  · rintro ⟨target, mem⟩
    obtain ⟨t₁, current, mem, h₁⟩ := Task.later_of_only h mem
      (Task.only_inPhase (only_get nofun fun _ _ => ProviderCall.noConfusion))
    obtain ⟨t₂, featuresChanged, mem, h₂⟩ := Task.later_of_only h₁ mem
      (Task.only_inPhase (only_updateInternetAccess (fun _ => ProviderCall.noConfusion)
        fun _ => ProviderCall.noConfusion))
    obtain ⟨t₃, rulesChanged, mem, h₃⟩ := Task.later_of_only h₂ mem
      (Task.only_inPhase (only_updateFirewallRules (fun _ _ _ => ProviderCall.noConfusion)
        fun _ _ _ => ProviderCall.noConfusion))
    rcases Task.runs_bind_iff.mp h₃ with ⟨e, rfl, failed⟩ | ⟨t₄, t₅, planned, rfl, plan, h₄⟩
    · cases (updatePlan_ok_true_iff failed).mpr ⟨target, mem⟩
    · have last : t₅ = [] := by
        split at h₄
        · exact (Task.runs_pure_iff.mp h₄).1
        · split at h₄
          · exact (Task.runs_pure_iff.mp h₄).1
          · exact (Task.runs_pure_iff.mp h₄).1
      rw [last, List.append_nil] at mem
      cases (updatePlan_ok_true_iff plan).mpr ⟨target, mem⟩
      exact (Task.runs_pure_iff.mp h₄).2

end Manager

end DatabaseOperator
