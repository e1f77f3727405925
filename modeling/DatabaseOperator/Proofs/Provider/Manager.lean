import DatabaseOperator.Proofs.Trace
import DatabaseOperator.Provider.Manager

namespace DatabaseOperator

/-- A call that creates and deletes no database, and reads none but the one with this id. -/
def ProviderCall.Minds (id : String) : ProviderCall → Prop
  | .createDatabase _ => False
  | .deleteDatabase _ => False
  | .getDatabase i => i = id
  | _ => True

/-- A call that changes nothing at the provider. -/
def ProviderCall.Reads : ProviderCall → Prop
  | .getDatabase _ => True
  | .listFirewallRules _ _ => True
  | .findVariable _ _ => True
  | _ => False

namespace Manager

variable {id : String} {db current desired : Database} {P : ProviderCall → Prop}

theorem only_requireType : (requireType db).run.Only P := by
  unfold requireType
  split
  next => exact Task.only_pure _
  next => exact Task.only_throw _

theorem only_call {action : String} {c : ProviderCall} (hc : P c) :
    (ProviderTask.call action c).run.Only P :=
  Task.only_single hc

theorem only_get (got : P (.getDatabase id)) (listed : ∀ i a, P (.listFirewallRules i a)) :
    (get id).run.Only P := by
  refine Task.only_bind (Task.only_requireText _ _) fun _ => ?_
  refine Task.only_bind (only_call got) fun db => ?_
  refine Task.only_bind (Task.only_requireText _ _) fun _ => ?_
  exact Task.only_bind (only_call (listed _ _)) fun rules => Task.only_pure _

theorem only_enableFeature {feature : String} (enabled : P (.enableFeature db feature)) :
    (enableFeature db feature).run.Only P := by
  refine Task.only_bind (only_call enabled) fun status => ?_
  split
  next => exact Task.only_throw _
  next => exact Task.only_pure _

theorem only_updateInternetAccess {wanted : Bool} (enabled : ∀ f, P (.enableFeature current f))
    (disabled : ∀ f, P (.disableFeature current f)) :
    (updateInternetAccess current wanted).run.Only P := by
  unfold updateInternetAccess
  simp only
  split
  next => exact Task.only_pure _
  split
  next =>
    split
    next =>
      refine Task.only_bind (only_enableFeature (enabled _)) fun _ => ?_
      exact Task.only_bind (only_enableFeature (enabled _)) fun _ => Task.only_pure _
    next => exact Task.only_bind (only_enableFeature (enabled _)) fun _ => Task.only_pure _
  next => exact Task.only_bind (only_call (disabled _)) fun _ => Task.only_pure _

section Rules

variable (created : ∀ i a rule, P (.createFirewallRule i a rule))
  (deleted : ∀ i a rule, P (.deleteFirewallRule i a rule))

include created deleted

theorem only_applyAction {action : RuleAction} : (applyAction db action).run.Only P := by
  unfold applyAction
  split
  next => exact only_call (created _ _ _)
  next =>
    split
    next => exact Task.only_throw _
    next => exact only_call (deleted _ _ _)

theorem only_applyAll {actions : List RuleAction} : (applyAll db actions).run.Only P := by
  induction actions with
  | nil => exact Task.only_pure _
  | cons a rest ih =>
    exact Dialogue.only_bind (only_applyAction created deleted) fun _ =>
      Dialogue.only_bind ih fun _ => Dialogue.only_done _

theorem only_updateFirewallRules {expected : List FirewallRule} :
    (updateFirewallRules current expected).run.Only P := by
  unfold updateFirewallRules
  split
  next => exact Task.only_pure _
  next => exact Task.only_bind (only_applyAll created deleted) fun _ => Task.only_pure _

end Rules

theorem only_updatePlan (planned : ∀ target, P (.updateDatabasePlan target)) :
    (updatePlan current desired).run.Only P := by
  unfold updatePlan
  split
  next => exact Task.only_pure _
  split
  next => exact Task.only_throw _
  next => exact Task.only_bind (only_call (planned _)) fun _ => Task.only_pure _

theorem minds_get : (get id).run.Only (ProviderCall.Minds id) :=
  only_get rfl fun _ _ => trivial

theorem reads_get : (get id).run.Only ProviderCall.Reads :=
  only_get trivial fun _ _ => trivial

theorem only_connectionUrl (found : ∀ app key, P (.findVariable app key)) :
    (connectionUrl db).run.Only P := by
  refine Task.only_bind only_requireType fun t => ?_
  refine Task.only_bind (Task.only_requireText _ _) fun _ => ?_
  exact Task.only_bind (only_call (found _ _)) fun value => Task.only_pure _

theorem minds_connectionUrl : (connectionUrl db).run.Only (ProviderCall.Minds id) :=
  only_connectionUrl fun _ _ => trivial

theorem reads_connectionUrl : (connectionUrl db).run.Only ProviderCall.Reads :=
  only_connectionUrl fun _ _ => trivial

theorem only_update (got : P (.getDatabase id)) (listed : ∀ i a, P (.listFirewallRules i a))
    (enabled : ∀ db f, P (.enableFeature db f)) (disabled : ∀ db f, P (.disableFeature db f))
    (created : ∀ i a rule, P (.createFirewallRule i a rule))
    (deleted : ∀ i a rule, P (.deleteFirewallRule i a rule))
    (planned : ∀ target, P (.updateDatabasePlan target)) : (update id desired).run.Only P := by
  refine Task.only_bind (Task.only_inPhase (only_get got listed)) fun current => ?_
  refine Task.only_bind (Task.only_inPhase
    (only_updateInternetAccess (enabled _) (disabled _))) fun featuresChanged => ?_
  refine Task.only_bind (Task.only_inPhase
    (only_updateFirewallRules created deleted)) fun rulesChanged => ?_
  refine Task.only_bind (only_updatePlan planned) fun planned => ?_
  split
  next => exact Task.only_pure _
  split
  next => exact Task.only_pure _
  next => exact Task.only_pure _

theorem minds_update : (update id desired).run.Only (ProviderCall.Minds id) :=
  only_update rfl (fun _ _ => trivial) (fun _ _ => trivial) (fun _ _ => trivial)
    (fun _ _ _ => trivial) (fun _ _ _ => trivial) fun _ => trivial

end Manager

end DatabaseOperator
