import DatabaseOperator.Proofs.Launch
import DatabaseOperator.Proofs.Provider.Update

namespace DatabaseOperator

namespace Exchange

/-- The exchange with the provider that an exchange of a pass is. -/
def provider? : Exchange pass → Option (Exchange provider)
  | ⟨.provider c, a⟩ => some ⟨c, a⟩
  | _ => none

/-- The call was answered without a failure. -/
def Granted : Exchange pass → Prop
  | ⟨.resource _, .error _⟩ => False
  | ⟨.secret _, .error _⟩ => False
  | ⟨.connect _ _, .error _⟩ => False
  | ⟨.provider _, .error _⟩ => False
  | _ => True

end Exchange

namespace Pass

variable {t u : List (Exchange pass)} {r : Resource} {db db' wanted : Database} {delay : Nat}
  {res : Except Error Requeue}

/-- What a pass exchanges with the provider. -/
def asked (t : List (Exchange pass)) : List (Exchange provider) :=
  t.filterMap Exchange.provider?

@[simp]
theorem asked_append (t u : List (Exchange pass)) : asked (t ++ u) = asked t ++ asked u :=
  List.filterMap_append

@[simp]
theorem asked_ofProvider (p : List (Exchange provider)) : asked (p.map .ofProvider) = p := by
  induction p with
  | nil => rfl
  | cons e p ih =>
    change e :: asked (p.map .ofProvider) = e :: p
    rw [ih]

@[simp]
theorem asked_ofSecret (s : List (Exchange secrets)) : asked (s.map .ofSecret) = [] := by
  induction s with
  | nil => rfl
  | cons e s ih => exact ih

theorem asked_timed {w : Resource} (times : List Time) (a : Except StoreError Resource) :
    asked (ticks times ++ [⟨.resource (.updateStatus w), a⟩]) = [] := by
  induction times with
  | nil => rfl
  | cons time times ih => exact ih

theorem mem_asked_iff {c : ProviderCall} {a : provider.Answer c} :
    (⟨c, a⟩ : Exchange DatabaseOperator.provider) ∈ asked t ↔
      (⟨.provider c, a⟩ : Exchange pass) ∈ t := by
  constructor
  · intro mem
    obtain ⟨e, mem, same⟩ := List.mem_filterMap.mp mem
    unfold Exchange.provider? at same
    split at same
    next =>
      cases same
      exact mem
    next => cases same
  · exact fun mem => List.mem_filterMap.mpr ⟨_, mem, rfl⟩

theorem Opening.asked_eq {res : Except Error Unit} (h : Opening r t res) : asked t = [] := by
  cases h with
  | tokenless => simp
  | connected a =>
    rw [asked_append, asked_ofSecret]
    rfl

theorem Opening.asked_provided {res : Except Error Unit} (h : Opening r t res)
    (p : List (Exchange provider)) : asked (t ++ p.map .ofProvider) = p := by
  rw [asked_append, h.asked_eq, asked_ofProvider, List.nil_append]

theorem Opening.asked_provided_append {res : Except Error Unit} (h : Opening r t res)
    (p : List (Exchange provider)) (silent : asked u = []) :
    asked (t ++ (p.map .ofProvider ++ u)) = p := by
  rw [asked_append, asked_append, h.asked_eq, asked_ofProvider, silent, List.nil_append,
    List.append_nil]

theorem ok_of_readSecret {s : List (Exchange secrets)} {res : Except Error String}
    (h : (readSecret r.namespaceName r.spec.authSecret.name r.spec.authSecret.key).run.Runs s res)
    (creatable : r.Creatable wanted) (granted : ∀ e ∈ s.map Exchange.ofSecret, e.Granted) :
    ∃ token, res = .ok token := by
  obtain ⟨a, rfl, rfl⟩ :=
    (runs_readSecret_iff creatable.located creatable.secretNamed creatable.keyNamed).mp h
  cases a with
  | error e => exact (granted _ List.mem_cons_self).elim
  | ok token => exact ⟨token, rfl⟩

/-- The connection opens when nothing fails. -/
theorem Opening.ok_of_granted {res : Except Error Unit} (h : Opening r t res)
    (creatable : r.Creatable wanted) (granted : ∀ e ∈ t, e.Granted) : res = .ok () := by
  cases h with
  | tokenless read =>
    obtain ⟨token, ok⟩ := ok_of_readSecret read creatable granted
    cases ok
  | connected a =>
    cases a with
    | error e => exact (granted _ (List.mem_append_right _ List.mem_cons_self)).elim
    | ok u => rfl

end Pass

/-- A resource whose database is in service at the provider. -/
structure Resource.Serving (r : Resource) (wanted db : Database) : Prop where
  prepared : r.Prepared
  available : r.isAvailable = true
  running : r.isRunning = true
  creatable : r.Creatable wanted
  recorded : r.databaseId = db.id
  named : db.id ≠ ""
  addressed : db.addonId ≠ ""
  identified : FirewallRule.Identified db.firewallRules

namespace Pass

variable {t u : List (Exchange pass)} {r : Resource} {db db' wanted : Database} {delay : Nat}
  {res : Except Error Requeue}

/-- How a pass over a resource in service ends, with the database after it. -/
inductive Serviced (delay : Nat) (r : Resource) (wanted db : Database) :
    List (Exchange pass) → Except Error Requeue → Database → Prop
  | arrived {u : List (Exchange pass)} (now : Times) (stored : Resource) :
      r.isProvisioning = true → Quiet u →
      Serviced delay r wanted db
        (u ++ [⟨.resource (.updateStatus (r.setProvisioned now).1), .ok stored⟩]) (.ok .now) db
  | planned {u : List (Exchange pass)} {db' : Database} (time : Time) (stored : Resource) :
      r.isProvisioning = false → db.plan ≠ wanted.plan → Manager.Updated wanted db db' → Quiet u →
      Serviced delay r wanted db
        (u ++ [⟨.resource (.updateStatus (r.setProvisioning time).1), .ok stored⟩])
        (.ok (.after delay)) db'
  | renoted {u : List (Exchange pass)} {db' : Database} (now : Times) (stored : Resource) :
      r.isProvisioning = false → db.plan = wanted.plan → ¬ r.Settled →
      Manager.Updated wanted db db' → Quiet u →
      Serviced delay r wanted db
        (u ++ [⟨.resource (.updateStatus (r.setProvisioned now).1), .ok stored⟩])
        (.ok .done) db'
  | noted {u : List (Exchange pass)} {db' : Database} : r.isProvisioning = false →
      db.plan = wanted.plan → r.Settled → Manager.Updated wanted db db' → Quiet u →
      Serviced delay r wanted db u (.ok .done) db'

theorem get_of_serving {p : List (Exchange provider)} {res : Except Error Database}
    (runs : (Manager.get r.databaseId).run.Runs p res) (serving : r.Serving wanted db)
    (undergoes : db.Undergoes p db') : db' = db ∧ res = .ok db := by
  obtain ⟨kept, ended⟩ := Manager.leads_get serving.recorded ⟨runs, undergoes⟩
  refine ⟨kept, ended.resolve_right ?_⟩
  rintro ⟨unnamed | unaddressed, _⟩
  · exact serving.named unnamed
  · exact serving.addressed unaddressed

theorem update_of_serving {p : List (Exchange provider)} {res : Except Error UpdateOutcome}
    (runs : (Manager.update r.databaseId wanted).run.Runs p res) (serving : r.Serving wanted db)
    (up : db.isRunning = true) (undergoes : db.Undergoes p db') :
    ∃ outcome, res = .ok outcome ∧ Manager.Updated wanted db db' ∧
      (outcome = .provisioning ↔ db.plan ≠ wanted.plan) := by
  rcases Manager.leads_update ⟨runs, undergoes⟩ serving.recorded serving.identified with
    updated | ⟨unnamed | unaddressed | ⟨_, down⟩, _⟩
  · exact updated
  · exact absurd unnamed serving.named
  · exact absurd unaddressed serving.addressed
  · exact absurd (up.symm.trans down) (by decide)

theorem ok_of_written {a : Except StoreError Resource}
    (granted : ∀ e ∈ t ++ [⟨.resource (.updateStatus r), a⟩], e.Granted) :
    ∃ stored, a = .ok stored := by
  cases a with
  | error e => exact (granted _ (List.mem_append_right _ List.mem_cons_self)).elim
  | ok stored => exact ⟨stored, rfl⟩

theorem Updating.serviced (h : Updating delay r t res) (serving : r.Serving wanted db)
    (up : db.isRunning = true) (granted : ∀ e ∈ t, e.Granted)
    (undergoes : db.Undergoes (asked t) db') : Serviced delay r wanted db t res db' := by
  have valid := serving.creatable.valid
  cases h with
  | invalid invalid => cases valid.symm.trans invalid
  | closed _ opening => cases opening.ok_of_granted serving.creatable granted
  | unread _ opening _ read =>
    rw [opening.asked_provided] at undergoes
    cases (get_of_serving read serving undergoes).2
  | busy _ opening _ read down =>
    rw [opening.asked_provided] at undergoes
    cases (get_of_serving read serving undergoes).2
    exact absurd (up.symm.trans down) (by decide)
  | arrived now a _ opening provisioning read =>
    rw [opening.asked_provided_append _ rfl] at undergoes
    obtain ⟨rfl, _⟩ := get_of_serving read serving undergoes
    rw [append_timed] at granted ⊢
    obtain ⟨stored, rfl⟩ := ok_of_written granted
    exact .arrived now stored provisioning (opening.quiet_timed _ now.toList)
  | failed valid' opening steady update =>
    cases valid.symm.trans valid'
    rw [opening.asked_provided] at undergoes
    obtain ⟨_, ok, _⟩ := update_of_serving update serving up undergoes
    cases ok
  | planned time a valid' opening steady update =>
    cases valid.symm.trans valid'
    rw [opening.asked_provided_append _ rfl] at undergoes
    obtain ⟨_, ok, updated, planned⟩ := update_of_serving update serving up undergoes
    cases ok
    rw [append_timed] at granted ⊢
    obtain ⟨stored, rfl⟩ := ok_of_written granted
    exact .planned time stored steady (planned.mp rfl) updated (opening.quiet_timed _ [time])
  | noted now valid' opening steady other update same =>
    cases valid.symm.trans valid'
    rw [opening.asked_provided_append _ rfl] at undergoes
    obtain ⟨_, ok, updated, planned⟩ := update_of_serving update serving up undergoes
    cases ok
    have kept : db.plan = wanted.plan := Decidable.byContradiction fun ne => other (planned.mpr ne)
    exact .noted steady kept (Resource.settled_iff.mpr same) updated (opening.quiet_timed _ now.toList)
  | renoted now a valid' opening steady other update differs =>
    cases valid.symm.trans valid'
    rw [opening.asked_provided_append _ rfl] at undergoes
    obtain ⟨_, ok, updated, planned⟩ := update_of_serving update serving up undergoes
    cases ok
    have kept : db.plan = wanted.plan := Decidable.byContradiction fun ne => other (planned.mpr ne)
    rw [append_timed] at granted ⊢
    obtain ⟨stored, rfl⟩ := ok_of_written granted
    have unsettled : ¬ r.Settled := fun settled =>
      absurd (differs.symm.trans (Resource.settled_iff.mp settled)) (by decide)
    exact .renoted now stored steady kept unsettled updated (opening.quiet_timed _ now.toList)

end Pass

end DatabaseOperator
