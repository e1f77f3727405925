import DatabaseOperator.Proofs.Provider.Rules

namespace DatabaseOperator

/-- An action with what the provider answers when it is asked to carry it out. -/
structure Attempt where
  action : RuleAction
  answer : Except ProviderError Unit

namespace Attempt

/-- The call for an action with its answer. For a rule without an id nothing can be asked. -/
def exchange? (db : Database) : Attempt → Option (Exchange provider)
  | ⟨.add rule, answer⟩ => some ⟨.createFirewallRule db.id db.addonId rule, answer⟩
  | ⟨.delete rule, answer⟩ => rule.id.map fun id => ⟨.deleteFirewallRule db.id db.addonId id, answer⟩

/-- How an attempt ends: as it is answered, under the name of its step. -/
def result : Attempt → Except Error Unit
  | ⟨.add _, answer⟩ => answer.mapError (.provider "add firewall rule")
  | ⟨.delete rule, answer⟩ =>
    if rule.id.isSome then answer.mapError (.provider "delete firewall rule")
    else .error (.empty "firewall rule id")

/-- How attempts end together: as the first one that fails. -/
def outcome : List Attempt → Except Error Unit
  | [] => .ok ()
  | a :: rest => a.result.bind fun _ => outcome rest

variable {db : Database} {attempts : List Attempt} {e : Error}

theorem call_exchange? (a : Attempt) : (a.exchange? db).map Exchange.call = a.action.call? db := by
  obtain ⟨action, answer⟩ := a
  cases action with
  | add rule => rfl
  | delete rule =>
    change (rule.id.map _).map Exchange.call = rule.id.map _
    rw [Option.map_map]
    rfl

/-- What is asked is what the actions ask for, whatever is answered. -/
theorem calls_exchanges (attempts : List Attempt) :
    Manager.calls (attempts.filterMap (exchange? db)) =
      (attempts.map action).filterMap (RuleAction.call? db) := by
  have called : Manager.calls (attempts.filterMap (exchange? db)) =
      attempts.filterMap fun a => (a.exchange? db).map Exchange.call := List.map_filterMap
  rw [called, List.filterMap_map]
  exact congrArg attempts.filterMap (funext call_exchange?)

theorem outcome_eq_ok_iff : outcome attempts = .ok () ↔ ∀ a ∈ attempts, a.result = .ok () := by
  induction attempts with
  | nil => simp [outcome]
  | cons a rest ih =>
    rw [outcome, List.forall_mem_cons, ← ih]
    cases a.result <;> simp [Except.bind]

/-- The first failure decides. -/
theorem outcome_eq_error_iff : outcome attempts = .error e ↔
    ∃ before a after, attempts = before ++ a :: after ∧ (∀ b ∈ before, b.result = .ok ()) ∧
      a.result = .error e := by
  induction attempts with
  | nil =>
    constructor
    · nofun
    · rintro ⟨before, a, after, split, _⟩
      cases before <;> cases split
  | cons a rest ih =>
    rw [outcome]
    constructor
    · intro failed
      cases ended : a.result with
      | error e' =>
        rw [ended] at failed
        cases failed
        exact ⟨[], a, rest, rfl, fun _ => nofun, ended⟩
      | ok u =>
        rw [ended] at failed
        obtain ⟨before, b, after, rfl, earlier, first⟩ := ih.mp failed
        exact ⟨a :: before, b, after, rfl, List.forall_mem_cons.mpr ⟨ended, earlier⟩, first⟩
    · rintro ⟨before, b, after, split, earlier, first⟩
      cases before with
      | nil =>
        cases split
        rw [first]
        rfl
      | cons _ before =>
        cases split
        obtain ⟨ended, earlier⟩ := List.forall_mem_cons.mp earlier
        rw [ended]
        exact ih.mpr ⟨before, b, after, rfl, earlier, first⟩

end Attempt

namespace Manager

open Attempt

variable {db current : Database} {expected : List FirewallRule} {actions : List RuleAction}
  {t : List (Exchange provider)}

theorem runs_applyAction_iff {action : RuleAction} {res : Except Error Unit} :
    (applyAction db action).run.Runs t res ↔ ∃ answer,
      t = (exchange? db ⟨action, answer⟩).toList ∧ res = result ⟨action, answer⟩ := by
  cases action with
  | add rule => exact ProviderTask.runs_call_iff
  | delete rule =>
    obtain ⟨number, range, label⟩ := rule
    cases number with
    | none =>
      refine Task.runs_throw_iff.trans ⟨?_, ?_⟩
      · rintro ⟨rfl, rfl⟩
        exact ⟨.ok (), rfl, rfl⟩
      · rintro ⟨_, rfl, rfl⟩
        exact ⟨rfl, rfl⟩
    | some id => exact ProviderTask.runs_call_iff

/-- All actions are attempted, each with whatever answer. -/
theorem runs_applyAll_iff {res : Except Error Unit} :
    (applyAll db actions).run.Runs t res ↔ ∃ attempts : List Attempt, attempts.map action = actions ∧
      t = attempts.filterMap (exchange? db) ∧ res = outcome attempts := by
  induction actions generalizing t res with
  | nil =>
    rw [applyAll, Task.runs_pure_iff]
    constructor
    · rintro ⟨rfl, rfl⟩
      exact ⟨[], rfl, rfl, rfl⟩
    · rintro ⟨attempts, none, rfl, rfl⟩
      obtain rfl := List.map_eq_nil_iff.mp none
      exact ⟨rfl, rfl⟩
  | cons a rest ih =>
    constructor
    · intro h
      obtain ⟨t₁, t₂, first, rfl, applied, h⟩ := Dialogue.runs_bind_iff.mp h
      obtain ⟨t₃, t₄, others, rfl, later, last⟩ := Dialogue.runs_bind_iff.mp h
      obtain ⟨rfl, rfl⟩ := Dialogue.runs_done_iff.mp last
      obtain ⟨answer, rfl, rfl⟩ := runs_applyAction_iff.mp applied
      obtain ⟨attempts, rfl, rfl, rfl⟩ := ih.mp later
      refine ⟨⟨a, answer⟩ :: attempts, rfl, ?_, rfl⟩
      rw [List.append_nil, List.filterMap_cons]
      cases exchange? db ⟨a, answer⟩ <;> rfl
    · rintro ⟨attempts, same, rfl, rfl⟩
      obtain ⟨⟨a, answer⟩, attempts, rfl, rfl, later⟩ := List.map_eq_cons_iff.mp same
      refine Dialogue.runs_bind_iff.mpr ⟨(exchange? db ⟨a, answer⟩).toList, _, _, ?_,
        runs_applyAction_iff.mpr ⟨answer, rfl, rfl⟩, Dialogue.runs_bind_iff.mpr ⟨_, [], _,
          (List.append_nil _).symm, ih.mpr ⟨attempts, later, rfl, rfl⟩, .done _⟩⟩
      rw [List.filterMap_cons]
      cases exchange? db ⟨a, answer⟩ <;> rfl

theorem runs_updateFirewallRules_iff {res : Except Error Bool} :
    (updateFirewallRules current expected).run.Runs t res ↔ ∃ attempts : List Attempt,
      attempts.map action = diffRules current.firewallRules expected ∧
      t = attempts.filterMap (exchange? current) ∧
      res = (outcome attempts).map fun _ => !attempts.isEmpty := by
  unfold updateFirewallRules
  split
  next none =>
    rw [none, Task.runs_pure_iff]
    constructor
    · rintro ⟨rfl, rfl⟩
      exact ⟨[], rfl, rfl, rfl⟩
    · rintro ⟨attempts, same, rfl, rfl⟩
      obtain rfl := List.map_eq_nil_iff.mp same
      exact ⟨rfl, rfl⟩
  next some =>
    have nonempty {attempts : List Attempt} (same : attempts.map action = diffRules current.firewallRules
        expected) : attempts.isEmpty = false := by
      cases attempts with
      | nil => exact absurd same.symm some
      | cons => rfl
    rw [Task.runs_bind_iff]
    constructor
    · rintro (⟨e, rfl, failed⟩ | ⟨t₁, t₂, _, rfl, applied, ended⟩)
      · obtain ⟨attempts, same, rfl, ended⟩ := runs_applyAll_iff.mp failed
        refine ⟨attempts, same, rfl, ?_⟩
        rw [← ended]
        rfl
      · obtain ⟨attempts, same, rfl, ended'⟩ := runs_applyAll_iff.mp applied
        obtain ⟨rfl, rfl⟩ := Task.runs_pure_iff.mp ended
        refine ⟨attempts, same, List.append_nil _, ?_⟩
        rw [← ended', nonempty same]
        rfl
    · rintro ⟨attempts, same, rfl, rfl⟩
      have applied : (applyAll current (diffRules current.firewallRules expected)).run.Runs
          (attempts.filterMap (exchange? current)) (outcome attempts) :=
        runs_applyAll_iff.mpr ⟨attempts, same, rfl, rfl⟩
      rw [nonempty same]
      cases ended : outcome attempts with
      | error e =>
        rw [ended] at applied
        exact .inl ⟨e, rfl, applied⟩
      | ok u =>
        rw [ended] at applied
        exact .inr ⟨_, [], u, (List.append_nil _).symm, applied, Task.runs_pure_iff.mpr ⟨rfl, rfl⟩⟩

end Manager

/-- What becomes of attempts: the calls for them are all made, in order, and they end in whether there were
any, or in the first failure. -/
structure Attempt.Settled (db : Database) (attempts : List Attempt) (t : List (Exchange provider))
    (res : Except Error Bool) : Prop where
  exchanges : t = attempts.filterMap (exchange? db)
  calls : Manager.calls t = (attempts.map action).filterMap (RuleAction.call? db)
  idle : res = .ok false ↔ attempts = []
  completed : res = .ok true ↔ attempts ≠ [] ∧ ∀ a ∈ attempts, a.result = .ok ()
  failed : ∀ e, res = .error e ↔ ∃ before a after, attempts = before ++ a :: after ∧
    (∀ b ∈ before, b.result = .ok ()) ∧ a.result = .error e

theorem Attempt.settled_iff {db : Database} {attempts : List Attempt} {t : List (Exchange provider)}
    {res : Except Error Bool} : Settled db attempts t res ↔ t = attempts.filterMap (exchange? db) ∧
      res = (outcome attempts).map fun _ => !attempts.isEmpty := by
  constructor
  · intro h
    refine ⟨h.exchanges, ?_⟩
    cases ended : outcome attempts with
    | error e => exact (h.failed e).mpr (outcome_eq_error_iff.mp ended)
    | ok _ =>
      cases attempts with
      | nil => exact h.idle.mpr rfl
      | cons a rest => exact h.completed.mpr ⟨nofun, outcome_eq_ok_iff.mp ended⟩
  · rintro ⟨rfl, rfl⟩
    refine ⟨rfl, calls_exchanges attempts, ?_, ?_, fun e => ?_⟩
    · cases attempts with
      | nil => simp [outcome, Except.map]
      | cons a rest => cases outcome (a :: rest) <;> simp [Except.map]
    · rw [← outcome_eq_ok_iff]
      cases attempts with
      | nil => simp [outcome, Except.map]
      | cons a rest => cases outcome (a :: rest) <;> simp [Except.map]
    · rw [← outcome_eq_error_iff]
      cases outcome attempts <;> simp [Except.map]

/-- Bringing firewall rules to the expected ones is attempting every action of the difference, each with
whatever answer. -/
theorem Manager.attempts_all {current : Database} {expected : List FirewallRule}
    {t : List (Exchange provider)} {res : Except Error Bool} :
    (updateFirewallRules current expected).run.Runs t res ↔ ∃ attempts : List Attempt,
      attempts.map Attempt.action = diffRules current.firewallRules expected ∧
      Attempt.Settled current attempts t res := by
  simp only [Attempt.settled_iff]
  exact runs_updateFirewallRules_iff

end DatabaseOperator
