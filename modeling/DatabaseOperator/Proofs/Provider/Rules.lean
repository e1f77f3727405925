import DatabaseOperator.Proofs.Provider.Outcome

namespace DatabaseOperator

open FirewallRule RuleAction

namespace ProviderCall

/-- A call that creates or deletes a firewall rule of this addon of this database. -/
def Alters (id addonId : String) : ProviderCall → Prop
  | createFirewallRule i a _ => i = id ∧ a = addonId
  | deleteFirewallRule i a _ => i = id ∧ a = addonId
  | _ => False

/-- A call that neither touches firewall rules nor lists them. -/
def Spares : ProviderCall → Prop
  | createFirewallRule _ _ _ => False
  | deleteFirewallRule _ _ _ => False
  | listFirewallRules _ _ => False
  | _ => True

def created? : ProviderCall → Option FirewallRule
  | createFirewallRule _ _ rule => some rule
  | _ => none

def deleted? : ProviderCall → Option String
  | deleteFirewallRule _ _ ruleId => some ruleId
  | _ => none

theorem Spares.not_alters {c : ProviderCall} (h : c.Spares) (id addonId : String) :
    ¬ c.Alters id addonId := by
  intro alters
  cases c with
  | createFirewallRule | deleteFirewallRule => exact h
  | _ => exact alters

theorem Reads.not_alters {c : ProviderCall} (h : c.Reads) (id addonId : String) :
    ¬ c.Alters id addonId := by
  intro alters
  cases c with
  | createFirewallRule | deleteFirewallRule => exact h
  | _ => exact alters

theorem created?_of_not_alters {c : ProviderCall} (h : ∀ id addonId, ¬ c.Alters id addonId) :
    c.created? = none := by
  cases c with
  | createFirewallRule i a => exact absurd ⟨rfl, rfl⟩ (h i a)
  | _ => rfl

theorem deleted?_of_not_alters {c : ProviderCall} (h : ∀ id addonId, ¬ c.Alters id addonId) :
    c.deleted? = none := by
  cases c with
  | deleteFirewallRule i a => exact absurd ⟨rfl, rfl⟩ (h i a)
  | _ => rfl

end ProviderCall

/-- The call that carries an action out. A rule without an id cannot be deleted. -/
def RuleAction.call? (db : Database) : RuleAction → Option ProviderCall
  | add rule => some (.createFirewallRule db.id db.addonId rule)
  | delete rule => rule.id.map (.deleteFirewallRule db.id db.addonId)

/-- The rules that the provider listed in an exchange. -/
def Exchange.listing : Exchange provider → List FirewallRule
  | ⟨.listFirewallRules _ _, .ok rules⟩ => rules
  | _ => []

namespace Manager

variable {id addonId : String} {db current desired seen : Database} {p u v w : List (Exchange provider)}
  {actions : List RuleAction} {expected rules : List FirewallRule}

def calls (p : List (Exchange provider)) : List ProviderCall :=
  p.map Exchange.call

/-- The rules that are to be created, in order. -/
def createdRules (p : List (Exchange provider)) : List FirewallRule :=
  (calls p).filterMap ProviderCall.created?

/-- The ids of the rules that are to be deleted, in order. -/
def deletedIds (p : List (Exchange provider)) : List String :=
  (calls p).filterMap ProviderCall.deleted?

/-- The rules that the provider listed. -/
def listedRules (p : List (Exchange provider)) : List FirewallRule :=
  p.flatMap Exchange.listing

theorem forall_calls_iff {P : ProviderCall → Prop} :
    (∀ c ∈ calls p, P c) ↔ ∀ e ∈ p, P e.call :=
  List.forall_mem_map

@[simp]
theorem calls_append (p v : List (Exchange provider)) : calls (p ++ v) = calls p ++ calls v :=
  List.map_append

@[simp]
theorem createdRules_append (p v : List (Exchange provider)) :
    createdRules (p ++ v) = createdRules p ++ createdRules v := by
  rw [createdRules, calls_append]
  exact List.filterMap_append

@[simp]
theorem deletedIds_append (p v : List (Exchange provider)) :
    deletedIds (p ++ v) = deletedIds p ++ deletedIds v := by
  rw [deletedIds, calls_append]
  exact List.filterMap_append

@[simp]
theorem listedRules_append (p v : List (Exchange provider)) :
    listedRules (p ++ v) = listedRules p ++ listedRules v :=
  List.flatMap_append

theorem calls_applyAction {action : RuleAction} {res : Except Error Unit}
    (h : (applyAction db action).run.Runs p res) :
    calls p = (action.call? db).toList := by
  cases action with
  | add rule =>
    obtain ⟨a, rfl, _⟩ := ProviderTask.runs_call_iff.mp h
    rfl
  | delete rule =>
    unfold applyAction at h
    cases number : rule.id with
    | none =>
      simp only [number] at h
      obtain ⟨rfl, _⟩ := Task.runs_throw_iff.mp h
      rw [call?, number]
      rfl
    | some ruleId =>
      simp only [number] at h
      obtain ⟨a, rfl, _⟩ := ProviderTask.runs_call_iff.mp h
      rw [call?, number]
      rfl

/-- Every action is carried out, whatever becomes of the others. -/
theorem calls_applyAll {res : Except Error Unit} (h : (applyAll db actions).run.Runs p res) :
    calls p = actions.filterMap (call? db) := by
  induction actions generalizing p res with
  | nil =>
    obtain ⟨rfl, _⟩ := Task.runs_pure_iff.mp h
    rfl
  | cons a rest ih =>
    obtain ⟨p₁, p₂, first, rfl, h₁, h₂⟩ := Dialogue.runs_bind_iff.mp h
    obtain ⟨p₃, p₄, others, rfl, h₃, h₄⟩ := Dialogue.runs_bind_iff.mp h₂
    obtain ⟨rfl, _⟩ := Dialogue.runs_done_iff.mp h₄
    have head := calls_applyAction h₁
    have tail := ih h₃
    rw [List.append_nil, calls_append, head, tail]
    cases outcome : a.call? db with
    | none => rw [List.filterMap_cons_none outcome]; rfl
    | some c => rw [List.filterMap_cons_some outcome]; rfl

theorem calls_updateFirewallRules {res : Except Error Bool}
    (h : (updateFirewallRules current expected).run.Runs p res) :
    calls p = (diffRules current.firewallRules expected).filterMap (call? current) := by
  unfold updateFirewallRules at h
  split at h
  next none =>
    obtain ⟨rfl, _⟩ := Task.runs_pure_iff.mp h
    rw [none]
    rfl
  next =>
    rcases Task.runs_bind_iff.mp h with ⟨e, rfl, failed⟩ | ⟨p₁, p₂, _, rfl, applied, ended⟩
    · exact calls_applyAll failed
    · obtain ⟨rfl, _⟩ := Task.runs_pure_iff.mp ended
      rw [List.append_nil]
      exact calls_applyAll applied

/-- What is read is the database and then its rules. -/
theorem trace_of_get (h : (get id).run.Runs p (.ok db)) :
    ∃ seen rules, p = [⟨.getDatabase id, .ok seen⟩,
        ⟨.listFirewallRules seen.id seen.addonId, .ok rules⟩] ∧
      db = { seen with firewallRules := rules } := by
  cases reading_of_runs h with
  | read => exact ⟨_, _, rfl, rfl⟩

/-- A reading under an id fails only where a call fails or the database has no addon. -/
theorem cases_of_get {res : Except Error Database} (h : (get id).run.Runs p res) (named : id ≠ "") :
    (∃ e f, p = [⟨.getDatabase id, .error f⟩] ∧ res = .error e) ∨
      ∃ seen, (seen.addonId = "" ∧ p = [⟨.getDatabase id, .ok seen⟩] ∧ ∃ e, res = .error e) ∨
        ∃ a : Except ProviderError (List FirewallRule), seen.addonId ≠ "" ∧
          p = [⟨.getDatabase id, .ok seen⟩, ⟨.listFirewallRules seen.id seen.addonId, a⟩] ∧
          res = (a.mapError (Error.provider "list firewall rules")).map
            fun rules => { seen with firewallRules := rules } := by
  cases reading_of_runs h with
  | unnamed unnamed => exact absurd unnamed named
  | unread => exact .inl ⟨_, _, rfl, rfl⟩
  | unaddressed _ unaddressed => exact .inr ⟨_, .inl ⟨unaddressed, rfl, _, rfl⟩⟩
  | unlisted _ addressed => exact .inr ⟨_, .inr ⟨.error _, addressed, rfl, rfl⟩⟩
  | read _ addressed => exact .inr ⟨_, .inr ⟨.ok _, addressed, rfl, rfl⟩⟩

theorem spares_updateInternetAccess {wanted : Bool} :
    (updateInternetAccess current wanted).run.Only ProviderCall.Spares :=
  only_updateInternetAccess (fun _ => trivial) fun _ => trivial

theorem spares_updatePlan : (updatePlan current desired).run.Only ProviderCall.Spares :=
  only_updatePlan fun _ => trivial

/-- An update touches no firewall rule, or it lists the rules first and then carries out all of the
difference. -/
theorem cases_of_update {res : Except Error UpdateOutcome}
    (h : (update id desired).run.Runs p res) :
    (∀ e ∈ p, ∀ i a, ¬ e.call.Alters i a) ∨
      ∃ seen rules u v w, p = ⟨.getDatabase id, .ok seen⟩ ::
          ⟨.listFirewallRules seen.id seen.addonId, .ok rules⟩ :: (u ++ (v ++ w)) ∧
        (∀ e ∈ u, e.call.Spares) ∧ (∀ e ∈ w, e.call.Spares) ∧
        calls v = (diffRules rules desired.firewallRules).filterMap (call? seen) := by
  have reads : (inPhase "get current database" (get id)).run.Only ProviderCall.Reads :=
    Task.only_inPhase reads_get
  rcases Task.runs_bind_iff.mp h with ⟨e, rfl, unread⟩ | ⟨p₁, p₂, current, rfl, read, h₁⟩
  · exact .inl fun e mem i a => (reads p _ unread e mem).not_alters i a
  have spares : (inPhase "update internet access" (updateInternetAccess current
      (desired.features.isActive Features.publiclyAvailable))).run.Only ProviderCall.Spares :=
    Task.only_inPhase spares_updateInternetAccess
  rcases Task.runs_bind_iff.mp h₁ with ⟨e, rfl, failed⟩ | ⟨u, p₄, featuresChanged, rfl, access, h₂⟩
  · refine .inl fun e mem i a => ?_
    rcases List.mem_append.mp mem with early | late
    · exact (reads p₁ _ read e early).not_alters i a
    · exact (spares p₂ _ failed e late).not_alters i a
  obtain ⟨res', got, ok⟩ := Task.runs_inPhase_iff.mp read
  cases res' with
  | error e => cases ok
  | ok db =>
    cases ok
    obtain ⟨seen, rules, rfl, rfl⟩ := trace_of_get got
    have spared := spares u _ access
    rcases Task.runs_bind_iff.mp h₂ with ⟨e, rfl, failed⟩ | ⟨v, w, rulesChanged, rfl, ruled, h₃⟩
    · obtain ⟨res'', failed, _⟩ := Task.runs_inPhase_iff.mp failed
      refine .inr ⟨seen, rules, u, p₄, [], by simp, spared, (fun _ mem => nomatch mem), ?_⟩
      exact calls_updateFirewallRules failed
    · obtain ⟨res'', ruled, _⟩ := Task.runs_inPhase_iff.mp ruled
      refine .inr ⟨seen, rules, u, v, w, by simp, spared, ?_, calls_updateFirewallRules ruled⟩
      refine Task.only_bind spares_updatePlan (fun planned => ?_) w _ h₃
      split
      next => exact Task.only_pure _
      split
      next => exact Task.only_pure _
      next => exact Task.only_pure _

theorem createdRules_of_not_alters (h : ∀ e ∈ p, ∀ i a, ¬ e.call.Alters i a) :
    createdRules p = [] := by
  have unaltered : ∀ c ∈ calls p, ∀ i a, ¬ c.Alters i a := forall_calls_iff.mpr h
  exact List.filterMap_eq_nil_iff.mpr fun c mem =>
    ProviderCall.created?_of_not_alters (unaltered c mem)

theorem deletedIds_of_not_alters (h : ∀ e ∈ p, ∀ i a, ¬ e.call.Alters i a) :
    deletedIds p = [] := by
  have unaltered : ∀ c ∈ calls p, ∀ i a, ¬ c.Alters i a := forall_calls_iff.mpr h
  exact List.filterMap_eq_nil_iff.mpr fun c mem =>
    ProviderCall.deleted?_of_not_alters (unaltered c mem)

theorem listedRules_of_spares (h : ∀ e ∈ p, e.call.Spares) : listedRules p = [] := by
  refine List.flatMap_eq_nil_iff.mpr fun e mem => ?_
  obtain ⟨c, a⟩ := e
  cases c with
  | listFirewallRules => exact (h _ mem).elim
  | _ => rfl

theorem created?_call? (db : Database) (a : RuleAction) :
    (a.call? db).bind ProviderCall.created? = a.added? := by
  cases a with
  | add rule => rfl
  | delete rule =>
    rw [call?]
    cases rule.id <;> rfl

theorem deleted?_call? (db : Database) (a : RuleAction) :
    (a.call? db).bind ProviderCall.deleted? = a.removed?.bind FirewallRule.id := by
  cases a with
  | add rule => rfl
  | delete rule =>
    rw [call?]
    change _ = rule.id
    cases rule.id <;> rfl

/-- What is created when actions are carried out is what they add. -/
theorem createdRules_of_calls (h : calls p = actions.filterMap (call? db)) :
    createdRules p = additions actions := by
  rw [createdRules, h, List.filterMap_filterMap]
  exact congrArg actions.filterMap (funext (created?_call? db))

theorem deletedIds_of_calls (h : calls p = actions.filterMap (call? db)) :
    deletedIds p = (removals actions).filterMap FirewallRule.id := by
  rw [deletedIds, h, removals, List.filterMap_filterMap, List.filterMap_filterMap]
  exact congrArg actions.filterMap (funext (deleted?_call? db))

theorem listedRules_of_calls (h : calls p = actions.filterMap (call? db)) :
    listedRules p = [] := by
  refine List.flatMap_eq_nil_iff.mpr fun e mem => ?_
  have called : e.call ∈ actions.filterMap (call? db) := h ▸ List.mem_map_of_mem mem
  obtain ⟨action, _, call⟩ := List.mem_filterMap.mp called
  obtain ⟨c, a⟩ := e
  cases c with
  | listFirewallRules =>
    cases action with
    | add rule => cases call
    | delete rule =>
      obtain ⟨ruleId, _, other⟩ := Option.map_eq_some_iff.mp call
      cases other
  | _ => rfl

/-- What is done to firewall rules follows from the rules that were listed before and from the desired
ones. -/
structure Warranted (desired : List FirewallRule) (p : List (Exchange provider)) : Prop where
  informed : ∀ before e after, p = before ++ e :: after → ∀ id addonId, e.call.Alters id addonId →
    ∃ rules, (⟨.listFirewallRules id addonId, .ok rules⟩ : Exchange provider) ∈ before
  created : ∀ rule ∈ createdRules p, rule ∈ desired ∧ rule.range ∉ ranges (listedRules p)
  once : (ranges (createdRules p)).Nodup
  deleted : ∀ ruleId ∈ deletedIds p, ∃ rule ∈ listedRules p,
    rule.id = some ruleId ∧ rule.range ∉ ranges desired

theorem warranted_of_not_alters (desired : List FirewallRule)
    (h : ∀ e ∈ p, ∀ i a, ¬ e.call.Alters i a) : Warranted desired p := by
  refine ⟨?_, ?_, ?_, ?_⟩
  · rintro before e after rfl i a alters
    exact absurd alters (h e (List.mem_append_right _ List.mem_cons_self) i a)
  · rw [createdRules_of_not_alters h]
    exact fun _ mem => nomatch mem
  · rw [createdRules_of_not_alters h]
    exact List.nodup_nil
  · rw [deletedIds_of_not_alters h]
    exact fun _ mem => nomatch mem

theorem alters_iff_of_call? {action : RuleAction} {c : ProviderCall} (h : action.call? db = some c) :
    c.Alters id addonId ↔ db.id = id ∧ db.addonId = addonId := by
  cases action with
  | add rule =>
    cases h
    exact Iff.rfl
  | delete rule =>
    obtain ⟨ruleId, _, rfl⟩ := Option.map_eq_some_iff.mp h
    exact Iff.rfl

/-- What comes after the first two calls stands behind them wherever the calls are split. -/
theorem mem_of_split {a b e : Exchange provider} {before after : List (Exchange provider)}
    (split : a :: b :: u = before ++ e :: after) (ha : e ≠ a) (hb : e ≠ b) : b ∈ before ∧ e ∈ u := by
  cases before with
  | nil => exact absurd (List.cons.inj split).1.symm ha
  | cons first before =>
    have later := (List.cons.inj split).2
    cases before with
    | nil => exact absurd (List.cons.inj later).1.symm hb
    | cons second before =>
      obtain ⟨rfl, rfl⟩ := List.cons.inj later
      exact ⟨.tail _ (.head _), List.mem_append_right _ List.mem_cons_self⟩

section Carried

variable (before : ∀ e ∈ u, e.call.Spares) (after : ∀ e ∈ w, e.call.Spares)
  (carried : calls v = actions.filterMap (call? db))

include before after carried

/-- What is created and deleted is what the actions say, whatever else is done to the database. -/
theorem lists_of_carried :
    listedRules (u ++ (v ++ w)) = [] ∧ createdRules (u ++ (v ++ w)) = additions actions ∧
      deletedIds (u ++ (v ++ w)) = (removals actions).filterMap FirewallRule.id := by
  have unaltered {s : List (Exchange provider)} (spares : ∀ e ∈ s, e.call.Spares) :
      ∀ e ∈ s, ∀ i a, ¬ e.call.Alters i a := fun e mem => (spares e mem).not_alters
  refine ⟨?_, ?_, ?_⟩
  · rw [listedRules_append, listedRules_append, listedRules_of_spares before,
      listedRules_of_calls carried, listedRules_of_spares after]
    rfl
  · rw [createdRules_append, createdRules_append, createdRules_of_not_alters (unaltered before),
      createdRules_of_calls carried, createdRules_of_not_alters (unaltered after),
      List.nil_append, List.append_nil]
  · rw [deletedIds_append, deletedIds_append, deletedIds_of_not_alters (unaltered before),
      deletedIds_of_calls carried, deletedIds_of_not_alters (unaltered after),
      List.nil_append, List.append_nil]

theorem eq_of_carried {e : Exchange provider} (mem : e ∈ u ++ (v ++ w))
    (alters : e.call.Alters id addonId) : db.id = id ∧ db.addonId = addonId := by
  have inside : e ∈ v := by
    rcases List.mem_append.mp mem with early | mem
    · exact absurd alters ((before e early).not_alters id addonId)
    · refine (List.mem_append.mp mem).resolve_right fun late => ?_
      exact (after e late).not_alters id addonId alters
  have called : e.call ∈ actions.filterMap (call? db) := carried ▸ List.mem_map_of_mem inside
  obtain ⟨action, _, call⟩ := List.mem_filterMap.mp called
  exact (alters_iff_of_call? call).mp alters

end Carried

theorem warranted_of_update {res : Except Error UpdateOutcome}
    (h : (update id desired).run.Runs p res) : Warranted desired.firewallRules p := by
  rcases cases_of_update h with unaltered | ⟨seen, rules, u, v, w, rfl, before, after, carried⟩
  · exact warranted_of_not_alters _ unaltered
  obtain ⟨unlisted, created, deleted⟩ := lists_of_carried before after carried
  have listed : listedRules (⟨.getDatabase id, .ok seen⟩ ::
      ⟨.listFirewallRules seen.id seen.addonId, .ok rules⟩ :: (u ++ (v ++ w))) = rules := by
    change rules ++ listedRules (u ++ (v ++ w)) = rules
    rw [unlisted, List.append_nil]
  refine ⟨?_, ?_, ?_, ?_⟩
  · intro earlier e later split i a alters
    have apart (c : ProviderCall) (r : provider.Answer c) (other : ¬ c.Alters i a) :
        e ≠ ⟨c, r⟩ := by
      rintro rfl
      exact other alters
    obtain ⟨known, mem⟩ := mem_of_split split (apart _ _ not_false) (apart _ _ not_false)
    obtain ⟨rfl, rfl⟩ := eq_of_carried before after carried mem alters
    exact ⟨rules, known⟩
  · rw [listed]
    intro rule mem
    have added : rule ∈ additions (diffRules rules desired.firewallRules) := created ▸ mem
    rw [additions_diffRules] at added
    have new := (mem_ranges_missing _ _).mp (List.mem_map_of_mem added)
    exact ⟨mem_of_mem_distinct (List.mem_filter.mp added).1, new.2⟩
  · change (ranges (createdRules (u ++ (v ++ w)))).Nodup
    rw [created, additions_diffRules]
    exact nodup_ranges_missing _ _
  · rw [listed]
    intro ruleId mem
    have numbered : ruleId ∈
        (removals (diffRules rules desired.firewallRules)).filterMap FirewallRule.id := deleted ▸ mem
    obtain ⟨rule, mem, number⟩ := List.mem_filterMap.mp numbered
    refine ⟨rule, mem_of_mem_removals mem, number, ?_⟩
    rw [removals_diffRules] at mem
    exact ((mem_ranges_missing _ _).mp (List.mem_map_of_mem mem)).2

end Manager

end DatabaseOperator
