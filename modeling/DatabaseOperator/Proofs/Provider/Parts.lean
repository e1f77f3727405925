import DatabaseOperator.Proofs.Provider.Agreement
import DatabaseOperator.Proofs.Provider.Attempts

namespace DatabaseOperator

/-- An answer with which a call has done its work. A feature that is answered as failed was not turned on. -/
def ProviderCall.Fulfilled : (c : ProviderCall) → Except ProviderError c.Result → Prop
  | enableFeature _ _, .ok status => status ≠ .failed
  | _, .ok _ => True
  | _, .error _ => False

def Exchange.Succeeds (e : Exchange provider) : Prop :=
  e.call.Fulfilled e.answer

namespace Manager

open ProviderTask

variable {α β : Type} {id : String} {db desired : Database} {due due' : List ProviderCall}
  {t : List (Exchange provider)}

/-- The calls that make a database public or not. -/
def dueToggles (db : Database) (wanted : Bool) : List ProviderCall :=
  if db.features.isActive Features.publiclyAvailable = wanted then []
  else if wanted then
    (if db.features.isActive Features.forceSsl then []
      else [.enableFeature db Features.forceSsl]) ++ [.enableFeature db Features.publiclyAvailable]
  else [.disableFeature db Features.publiclyAvailable]

/-- The calls that bring the firewall rules of a database to the desired ones. -/
def dueActions (db desired : Database) : List ProviderCall :=
  (diffRules db.firewallRules desired.firewallRules).filterMap (RuleAction.call? db)

/-- The call that puts a database on the desired plan. -/
def duePlan (db desired : Database) : List ProviderCall :=
  if db.plan = desired.plan then [] else [.updateDatabasePlan { db with plan := desired.plan }]

/-- A rule that is to be deleted has no id to delete it by. -/
def Unidentified (db desired : Database) : Prop :=
  ∃ rule, .delete rule ∈ diffRules db.firewallRules desired.firewallRules ∧ rule.id = none

/-- Work that makes these calls in order, up to the first that does not succeed. -/
inductive Carried (due : List ProviderCall) : List (Exchange provider) → Except Error α → Prop
  | whole {t : List (Exchange provider)} {a : α} : calls t = due → (∀ e ∈ t, e.Succeeds) →
      Carried due t (.ok a)
  | broken {t : List (Exchange provider)} {action : String} {f : ProviderError} : calls t <+: due →
      (∃ e ∈ t, ¬ e.Succeeds) → Carried due t (.error (.provider action f))

def Carries (due : List ProviderCall) (task : ProviderTask α) : Prop :=
  ∀ t res, task.run.Runs t res → Carried due t res

theorem Carried.within {res : Except Error α} (h : Carried due t res) : calls t <+: due := by
  cases h with
  | whole same => exact same ▸ List.prefix_refl _
  | broken within => exact within

theorem carries_pure (a : α) : Carries [] (pure a) := by
  intro t res runs
  obtain ⟨rfl, rfl⟩ := Task.runs_pure_iff.mp runs
  exact .whole rfl (List.forall_mem_nil _)

theorem carries_call {action : String} {c : ProviderCall}
    (fulfilled : ∀ a : c.Result, c.Fulfilled (.ok a)) (unfulfilled : ∀ f, ¬ c.Fulfilled (.error f)) :
    Carries [c] (call action c) := by
  intro t res runs
  obtain ⟨a, rfl, rfl⟩ := runs_call_iff.mp runs
  cases a with
  | error f => exact .broken (List.prefix_refl _) ⟨_, List.mem_singleton_self _, unfulfilled f⟩
  | ok a =>
    refine .whole rfl fun e mem => ?_
    obtain rfl := List.mem_singleton.mp mem
    exact fulfilled a

theorem carries_enableFeature (feature : String) :
    Carries [.enableFeature db feature] (enableFeature db feature) := by
  intro t res runs
  rcases Task.runs_bind_iff.mp runs with ⟨e, rfl, failed⟩ | ⟨t₁, t₂, status, rfl, enabled, ended⟩
  · obtain ⟨a, rfl, error⟩ := runs_call_iff.mp failed
    cases a with
    | error f =>
      cases error
      exact .broken (List.prefix_refl _) ⟨_, List.mem_singleton_self _, not_false⟩
    | ok => cases error
  · obtain ⟨a, rfl, ok⟩ := runs_call_iff.mp enabled
    cases a with
    | error => cases ok
    | ok =>
      cases ok
      split at ended
      next failed =>
        obtain ⟨rfl, rfl⟩ := Task.runs_throw_iff.mp ended
        exact .broken (List.prefix_refl _) ⟨_, List.mem_singleton_self _, not_not_intro failed⟩
      next worked =>
        obtain ⟨rfl, rfl⟩ := Task.runs_pure_iff.mp ended
        refine .whole rfl fun e mem => ?_
        obtain rfl := List.mem_singleton.mp mem
        exact worked

theorem Carries.bind {x : ProviderTask α} {f : α → ProviderTask β} (first : Carries due x)
    (second : ∀ a, Carries due' (f a)) : Carries (due ++ due') (x >>= f) := by
  intro t res runs
  rcases Task.runs_bind_iff.mp runs with ⟨e, rfl, failed⟩ | ⟨t₁, t₂, a, rfl, made, rest⟩
  · cases first t _ failed with
    | broken within fails => exact .broken (within.trans (List.prefix_append _ _)) fails
  · cases first t₁ _ made with
    | whole same succeeds =>
      cases second a t₂ res rest with
      | whole same' succeeds' =>
        refine .whole ?_ (List.forall_mem_append.mpr ⟨succeeds, succeeds'⟩)
        rw [calls_append, same, same']
      | broken within fails =>
        obtain ⟨e, mem, fails⟩ := fails
        refine .broken ?_ ⟨e, List.mem_append_right _ mem, fails⟩
        rw [calls_append, same]
        exact (List.prefix_append_right_inj due).mpr within

theorem carries_updateInternetAccess (db : Database) (wanted : Bool) :
    Carries (dueToggles db wanted) (updateInternetAccess db wanted) := by
  have exposed : Carries [.enableFeature db Features.publiclyAvailable]
      (do enableFeature db Features.publiclyAvailable; pure true : ProviderTask Bool) :=
    (carries_enableFeature _).bind fun _ => carries_pure true
  have concealed : Carries [.disableFeature db Features.publiclyAvailable]
      (call ("disable feature " ++ Features.publiclyAvailable)
        (.disableFeature db Features.publiclyAvailable)) :=
    carries_call (fun _ => trivial) fun _ => not_false
  unfold updateInternetAccess dueToggles
  simp only
  split
  next => exact carries_pure false
  split
  next =>
    cases db.features.isActive Features.forceSsl with
    | true => exact exposed
    | false => exact (carries_enableFeature _).bind fun _ => exposed
  next => exact concealed.bind fun _ => carries_pure true

theorem told_of_reconciles {agreed : Prop} {changed : Bool}
    (h : Reconciles agreed t (.ok changed)) : changed = true ↔ t ≠ [] := by
  cases h with
  | kept => simp
  | changed _ asks =>
    obtain ⟨e, mem, _⟩ := asks
    exact iff_of_true rfl (List.ne_nil_of_mem mem)

end Manager

namespace Attempt

variable {db : Database} {a : Attempt}

theorem exchange?_eq_none_iff :
    a.exchange? db = none ↔ ∃ rule, a.action = .delete rule ∧ rule.id = none := by
  obtain ⟨action, answer⟩ := a
  cases action with
  | add rule => simp [exchange?]
  | delete rule => simp [exchange?]

theorem result_eq_ok_iff : a.result = .ok () ↔ ∃ e, a.exchange? db = some e ∧ e.Succeeds := by
  obtain ⟨action, answer⟩ := a
  cases action with
  | add rule =>
    cases answer <;>
      simp [result, exchange?, Exchange.Succeeds, ProviderCall.Fulfilled, Except.mapError]
  | delete rule =>
    obtain ⟨number, range, label⟩ := rule
    cases number <;> cases answer <;>
      simp [result, exchange?, Exchange.Succeeds, ProviderCall.Fulfilled, Except.mapError]

theorem cases_of_error {e : Error} (h : a.result = .error e) :
    e = .empty "firewall rule id" ∨ ∃ action f, e = .provider action f := by
  have answered {action : String} {answer : Except ProviderError Unit}
      (h : answer.mapError (Error.provider action) = .error e) :
      ∃ action f, e = .provider action f := by
    cases answer with
    | ok => cases h
    | error f =>
      cases h
      exact ⟨action, f, rfl⟩
  obtain ⟨action, answer⟩ := a
  cases action with
  | add rule => exact .inr (answered h)
  | delete rule =>
    rw [result] at h
    split at h
    next => exact .inr (answered h)
    next =>
      cases h
      exact .inl rfl

end Attempt

namespace Manager

open ProviderTask Attempt

variable {id : String} {db desired : Database} {t : List (Exchange provider)}

/-- All actions of the difference are asked for, as far as rules have ids. -/
theorem actions_of_runs {res : Except Error Bool}
    (h : (updateFirewallRules db desired.firewallRules).run.Runs t res) :
    calls t = dueActions db desired ∧
      ((∃ changed, res = .ok changed) ↔ (∀ e ∈ t, e.Succeeds) ∧ ¬ Unidentified db desired) ∧
      ∀ e, res = .error e → e = .empty "firewall rule id" ∨ ∃ action f, e = .provider action f := by
  obtain ⟨attempts, same, rfl, rfl⟩ := runs_updateFirewallRules_iff.mp h
  have unidentified : Unidentified db desired ↔ ∃ a ∈ attempts, a.exchange? db = none := by
    simp only [Unidentified, ← same, List.mem_map, exchange?_eq_none_iff]
    constructor
    · rintro ⟨rule, ⟨a, mem, deletes⟩, unnumbered⟩
      exact ⟨a, mem, rule, deletes, unnumbered⟩
    · rintro ⟨a, mem, rule, deletes, unnumbered⟩
      exact ⟨rule, ⟨a, mem, deletes⟩, unnumbered⟩
  have settled : (∀ a ∈ attempts, a.result = .ok ()) ↔
      (∀ e ∈ attempts.filterMap (exchange? db), e.Succeeds) ∧
        ¬ ∃ a ∈ attempts, a.exchange? db = none := by
    constructor
    · intro ok
      have asks : ∀ a ∈ attempts, ∃ e, a.exchange? db = some e ∧ e.Succeeds :=
        fun a mem => result_eq_ok_iff.mp (ok a mem)
      refine ⟨fun e mem => ?_, ?_⟩
      · obtain ⟨a, mem, asked⟩ := List.mem_filterMap.mp mem
        obtain ⟨e', asked', succeeds⟩ := asks a mem
        obtain rfl := Option.some.inj (asked.symm.trans asked')
        exact succeeds
      · rintro ⟨a, mem, unasked⟩
        obtain ⟨e, asked, _⟩ := asks a mem
        cases unasked.symm.trans asked
    · rintro ⟨succeeds, identified⟩ a mem
      cases asked : a.exchange? db with
      | none => exact absurd ⟨a, mem, asked⟩ identified
      | some e =>
        exact result_eq_ok_iff.mpr ⟨e, asked, succeeds e (List.mem_filterMap.mpr ⟨a, mem, asked⟩)⟩
  refine ⟨?_, ?_, fun e failed => ?_⟩
  · rw [calls_exchanges, same]
    rfl
  · rw [unidentified, ← settled, ← outcome_eq_ok_iff]
    cases outcome attempts with
    | ok => exact iff_of_true ⟨_, rfl⟩ rfl
    | error => simp [Except.map]
  · cases ended : outcome attempts with
    | ok =>
      rw [ended] at failed
      cases failed
    | error f =>
      rw [ended] at failed
      cases failed
      obtain ⟨_, a, _, _, _, first⟩ := outcome_eq_error_iff.mp ended
      exact cases_of_error first

/-- The plan is to change, and the database is not in the state for that. -/
def Untimely (db desired : Database) : Prop :=
  db.plan ≠ desired.plan ∧ db.isRunning = false

/-- The courses of the change of the plan. -/
inductive Planning (db desired : Database) : List (Exchange provider) → Except Error Bool → Prop
  | kept : db.plan = desired.plan → Planning db desired [] (.ok false)
  | untimely : Untimely db desired → Planning db desired []
      (.error (.precondition ("invalid status " ++ db.status.name ++ " for plan update")))
  | refused {f : ProviderError} : db.plan ≠ desired.plan → db.isRunning = true →
      Planning db desired [⟨.updateDatabasePlan { db with plan := desired.plan }, .error f⟩]
        (.error (.provider "update database plan" f))
  | changed : db.plan ≠ desired.plan → db.isRunning = true →
      Planning db desired [⟨.updateDatabasePlan { db with plan := desired.plan }, .ok ()⟩] (.ok true)

theorem planning_of_runs {res : Except Error Bool} (h : (updatePlan db desired).run.Runs t res) :
    Planning db desired t res := by
  unfold updatePlan at h
  split at h
  next kept =>
    obtain ⟨rfl, rfl⟩ := Task.runs_pure_iff.mp h
    exact .kept kept
  next differs =>
    split at h
    next stands =>
      obtain ⟨rfl, rfl⟩ := Task.runs_throw_iff.mp h
      exact .untimely ⟨differs, by simpa using stands⟩
    next running =>
      have running : db.isRunning = true := by simpa using running
      rcases Task.runs_bind_iff.mp h with ⟨e, rfl, failed⟩ | ⟨t₁, t₂, _, rfl, asked, ended⟩
      · obtain ⟨a, rfl, error⟩ := runs_call_iff.mp failed
        cases a with
        | error f =>
          cases error
          exact .refused differs running
        | ok => cases error
      · obtain ⟨a, rfl, ok⟩ := runs_call_iff.mp asked
        obtain ⟨rfl, rfl⟩ := Task.runs_pure_iff.mp ended
        cases a with
        | error => cases ok
        | ok => exact .changed differs running

end Manager

end DatabaseOperator
