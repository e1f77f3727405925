import DatabaseOperator.Proofs.Provider.Rules

namespace DatabaseOperator

namespace ProviderCall

/-- A call that turns a feature of this database on or off. -/
def Toggles (id addonId : String) : ProviderCall → Prop
  | enableFeature target _ => target.id = id ∧ target.addonId = addonId
  | disableFeature target _ => target.id = id ∧ target.addonId = addonId
  | _ => False

/-- A call for a firewall rule or the plan of a database. -/
def Tunes : ProviderCall → Prop
  | createFirewallRule _ _ _ => True
  | deleteFirewallRule _ _ _ => True
  | updateDatabasePlan _ => True
  | _ => False

/-- A call that changes a part of a database. -/
def Amends : ProviderCall → Prop
  | enableFeature _ _ => True
  | disableFeature _ _ => True
  | c => c.Tunes

theorem Toggles.amends {c : ProviderCall} {id addonId : String} (h : c.Toggles id addonId) :
    c.Amends := by
  cases c with
  | enableFeature | disableFeature => trivial
  | _ => exact h.elim

theorem Alters.amends {c : ProviderCall} {id addonId : String} (h : c.Alters id addonId) :
    c.Amends := by
  cases c with
  | createFirewallRule | deleteFirewallRule => trivial
  | _ => exact h.elim

theorem Tunes.not_toggles {c : ProviderCall} (h : c.Tunes) (id addonId : String) :
    ¬ c.Toggles id addonId := by
  intro toggles
  cases c with
  | enableFeature | disableFeature => exact h
  | _ => exact toggles

theorem Reads.not_amends {c : ProviderCall} (h : c.Reads) : ¬ c.Amends := by
  intro amends
  cases c with
  | getDatabase | listFirewallRules | findVariable => exact amends
  | _ => exact h

end ProviderCall

namespace Exchange

/-- A feature was to be turned on or off, and that did not work. -/
def Balks : Exchange provider → Prop
  | ⟨.enableFeature _ _, .ok status⟩ => status = .failed
  | ⟨.enableFeature _ _, .error _⟩ => True
  | ⟨.disableFeature _ _, .error _⟩ => True
  | _ => False

theorem not_balks_of_tunes {e : Exchange provider} (h : e.call.Tunes) : ¬ e.Balks := by
  intro balks
  obtain ⟨c, a⟩ := e
  cases c with
  | enableFeature | disableFeature => exact h
  | _ => exact balks

end Exchange

theorem Features.forceSsl_ne_publiclyAvailable : forceSsl ≠ publiclyAvailable := by
  decide

theorem Features.isActive_iff {fs : Features} {name : String} :
    fs.isActive name = true ↔ fs.get? name = some .activated ∨ fs.get? name = some .pending := by
  unfold Features.isActive
  cases found : fs.get? name with
  | none => simp
  | some status => cases status <;> simp [FeatureStatus.isActive]

namespace Manager

variable {id : String} {db seen desired : Database} {wanted : Bool}
  {t u p before after : List (Exchange provider)} {e : Exchange provider} {rules : List FirewallRule}

/-- Forced TLS is on, or is turned on. -/
inductive Forcing (db : Database) : List (Exchange provider) → Prop
  | standing : db.features.isActive Features.forceSsl = true → Forcing db []
  | enabled {status : FeatureStatus} : db.features.isActive Features.forceSsl = false →
      status ≠ .failed →
      Forcing db [⟨.enableFeature db Features.forceSsl, .ok status⟩]

/-- The courses of the change of public access. -/
inductive Switching (db : Database) : Bool → List (Exchange provider) → Except Error Bool → Prop
  | kept : Switching db (db.features.isActive Features.publiclyAvailable) [] (.ok false)
  | unforced {a : Except ProviderError FeatureStatus} {e : Error} :
      db.features.isActive Features.publiclyAvailable = false →
      Exchange.Balks ⟨.enableFeature db Features.forceSsl, a⟩ →
      Switching db true [⟨.enableFeature db Features.forceSsl, a⟩] (.error e)
  | unexposed {t : List (Exchange provider)} {a : Except ProviderError FeatureStatus} {e : Error} :
      db.features.isActive Features.publiclyAvailable = false → Forcing db t →
      Exchange.Balks ⟨.enableFeature db Features.publiclyAvailable, a⟩ →
      Switching db true (t ++ [⟨.enableFeature db Features.publiclyAvailable, a⟩]) (.error e)
  | exposed {t : List (Exchange provider)} {status : FeatureStatus} :
      db.features.isActive Features.publiclyAvailable = false → Forcing db t → status ≠ .failed →
      Switching db true (t ++ [⟨.enableFeature db Features.publiclyAvailable, .ok status⟩]) (.ok true)
  | unhidden {f : ProviderError} {e : Error} :
      db.features.isActive Features.publiclyAvailable = true →
      Switching db false [⟨.disableFeature db Features.publiclyAvailable, .error f⟩] (.error e)
  | hidden {status : FeatureStatus} : db.features.isActive Features.publiclyAvailable = true →
      Switching db false [⟨.disableFeature db Features.publiclyAvailable, .ok status⟩] (.ok true)

theorem cases_of_enableFeature {feature : String} {res : Except Error Unit}
    (h : (enableFeature db feature).run.Runs t res) :
    ∃ a : Except ProviderError FeatureStatus, t = [⟨.enableFeature db feature, a⟩] ∧
      ((Exchange.Balks ⟨.enableFeature db feature, a⟩ ∧ ∃ e, res = .error e) ∨
        ∃ status : FeatureStatus, status ≠ .failed ∧ a = .ok status ∧ res = .ok ()) := by
  rcases Task.runs_bind_iff.mp h with ⟨e, rfl, failed⟩ | ⟨t₁, t₂, status, rfl, enabled, h₁⟩
  · obtain ⟨a, rfl, error⟩ := ProviderTask.runs_call_iff.mp failed
    cases a with
    | error f => exact ⟨.error f, rfl, .inl ⟨trivial, e, rfl⟩⟩
    | ok status => cases error
  obtain ⟨a, rfl, ok⟩ := ProviderTask.runs_call_iff.mp enabled
  cases a with
  | error f => cases ok
  | ok answer =>
    cases ok
    split at h₁
    next failed =>
      obtain ⟨rfl, rfl⟩ := Task.runs_throw_iff.mp h₁
      exact ⟨.ok status, rfl, .inl ⟨failed, _, rfl⟩⟩
    next worked =>
      obtain ⟨rfl, rfl⟩ := Task.runs_pure_iff.mp h₁
      exact ⟨.ok status, rfl, .inr ⟨status, worked, rfl, rfl⟩⟩

/-- Public access is turned on behind forced TLS. -/
theorem switching_of_forcing {res : Except Error Bool}
    (off : db.features.isActive Features.publiclyAvailable = false) (forcing : Forcing db t)
    (h : (do enableFeature db Features.publiclyAvailable; pure true :
      ProviderTask Bool).run.Runs u res) : Switching db true (t ++ u) res := by
  rcases Task.runs_bind_iff.mp h with ⟨e, rfl, failed⟩ | ⟨u₁, u₂, _, rfl, enabled, ended⟩
  · obtain ⟨a, rfl, ⟨balks, _⟩ | ⟨_, _, _, ok⟩⟩ := cases_of_enableFeature failed
    · exact .unexposed off forcing balks
    · cases ok
  · obtain ⟨rfl, rfl⟩ := Task.runs_pure_iff.mp ended
    obtain ⟨a, rfl, ⟨_, _, error⟩ | ⟨status, worked, rfl, _⟩⟩ := cases_of_enableFeature enabled
    · cases error
    · rw [List.append_nil]
      exact .exposed off forcing worked

theorem switching_of_runs {res : Except Error Bool}
    (h : (updateInternetAccess db wanted).run.Runs t res) : Switching db wanted t res := by
  unfold updateInternetAccess at h
  simp only at h
  split at h
  next same =>
    obtain ⟨rfl, rfl⟩ := Task.runs_pure_iff.mp h
    exact same ▸ .kept
  next differs =>
    split at h
    next on =>
      subst on
      have off : db.features.isActive Features.publiclyAvailable = false := by simpa using differs
      split at h
      next unforced =>
        have unforced : db.features.isActive Features.forceSsl = false := by simpa using unforced
        rcases Task.runs_bind_iff.mp h with ⟨e, rfl, failed⟩ | ⟨t₁, t₂, _, rfl, forced, rest⟩
        · obtain ⟨a, rfl, ⟨balks, _⟩ | ⟨_, _, _, ok⟩⟩ := cases_of_enableFeature failed
          · exact .unforced off balks
          · cases ok
        · obtain ⟨a, rfl, ⟨_, _, error⟩ | ⟨status, worked, rfl, _⟩⟩ := cases_of_enableFeature forced
          · cases error
          · exact switching_of_forcing off (.enabled unforced worked) rest
      next forced => exact switching_of_forcing off (.standing (by simpa using forced)) h
    next unwanted =>
      obtain rfl : wanted = false := by simpa using unwanted
      have on : db.features.isActive Features.publiclyAvailable = true := by simpa using differs
      rcases Task.runs_bind_iff.mp h with ⟨e, rfl, failed⟩ | ⟨t₁, t₂, _, rfl, disabled, ended⟩
      · obtain ⟨a, rfl, error⟩ := ProviderTask.runs_call_iff.mp failed
        cases a with
        | error f => exact .unhidden on
        | ok _ => cases error
      · obtain ⟨a, rfl, ok⟩ := ProviderTask.runs_call_iff.mp disabled
        obtain ⟨rfl, rfl⟩ := Task.runs_pure_iff.mp ended
        cases a with
        | error f => cases ok
        | ok _ => exact .hidden on

theorem tunes_updateFirewallRules {expected : List FirewallRule} :
    (updateFirewallRules db expected).run.Only ProviderCall.Tunes :=
  only_updateFirewallRules (fun _ _ _ => trivial) fun _ _ _ => trivial

theorem tunes_updatePlan : (updatePlan db desired).run.Only ProviderCall.Tunes :=
  only_updatePlan fun _ => trivial

/-- What an update does about features once it has read the database. -/
inductive Accessing (seen : Database) (wanted : Bool) :
    List (Exchange provider) → Except Error UpdateOutcome → Prop
  | stopped {t : List (Exchange provider)} {e f : Error} : Switching seen wanted t (.error e) →
      Accessing seen wanted t (.error f)
  | passed {t u : List (Exchange provider)} {changed : Bool} {res : Except Error UpdateOutcome} :
      Switching seen wanted t (.ok changed) → (∀ e ∈ u, e.call.Tunes) →
      Accessing seen wanted (t ++ u) res

/-- An update fails over what it reads, or it changes public access next. -/
theorem accessing_of_update {res : Except Error UpdateOutcome}
    (h : (update id desired).run.Runs p res) :
    ((∀ e ∈ p, e.call.Reads) ∧ ∃ e, res = .error e) ∨
      ∃ seen rules rest, p = ⟨.getDatabase id, .ok seen⟩ ::
          ⟨.listFirewallRules seen.id seen.addonId, .ok rules⟩ :: rest ∧
        Accessing { seen with firewallRules := rules }
          (desired.features.isActive Features.publiclyAvailable) rest res := by
  rcases Task.runs_bind_iff.mp h with ⟨e, rfl, unread⟩ | ⟨p₁, p₂, current, rfl, read, h₁⟩
  · exact .inl ⟨fun x mem => Task.only_inPhase reads_get p _ unread x mem, e, rfl⟩
  obtain ⟨seen, rules, rfl, rfl⟩ := trace_of_get (Task.ok_of_inPhase read)
  refine .inr ⟨seen, rules, p₂, rfl, ?_⟩
  rcases Task.runs_bind_iff.mp h₁ with ⟨e, rfl, failed⟩ | ⟨t, u, changed, rfl, switched, h₂⟩
  · obtain ⟨res', switching, error⟩ := Task.runs_inPhase_iff.mp failed
    cases res' with
    | error f => exact .stopped (switching_of_runs switching)
    | ok _ => cases error
  refine .passed (switching_of_runs (Task.ok_of_inPhase switched)) ?_
  refine Task.only_bind (Task.only_inPhase tunes_updateFirewallRules) (fun rulesChanged => ?_) u _ h₂
  refine Task.only_bind tunes_updatePlan fun planned => ?_
  split
  next => exact Task.only_pure _
  split
  next => exact Task.only_pure _
  next => exact Task.only_pure _

/-- What an update may do about features after it has seen the database. -/
structure Guarded (seen : Database) (wanted : Bool) (rest : List (Exchange provider))
    (failed : Prop) : Prop where
  single : ∀ e ∈ rest, ∀ id, e.call ≠ .getDatabase id
  differs : ∀ e ∈ rest, ∀ id addonId, e.call.Toggles id addonId →
    seen.id = id ∧ seen.addonId = addonId ∧
      seen.features.isActive Features.publiclyAvailable ≠ wanted
  forced : ∀ before target a after,
    rest = before ++ ⟨.enableFeature target Features.publiclyAvailable, a⟩ :: after →
    seen.features.get? Features.forceSsl = some .activated ∨
      seen.features.get? Features.forceSsl = some .pending ∨
      ∃ status : FeatureStatus, status ≠ .failed ∧
        (⟨.enableFeature target Features.forceSsl, .ok status⟩ : Exchange provider) ∈ before
  kept : ∀ e ∈ rest, ∀ target feature, e.call = .disableFeature target feature →
    feature = Features.publiclyAvailable
  halted : ∀ before e after, rest = before ++ e :: after → e.Balks → after = [] ∧ failed

/-- Where a list is split at something that its second part lacks, its first part is split. -/
theorem split_of_append (split : t ++ u = before ++ e :: after) (fresh : e ∉ u) :
    ∃ later, t = before ++ e :: later := by
  rcases List.append_eq_append_iff.mp split with ⟨more, rfl, rfl⟩ | ⟨more, rfl, rest⟩
  · exact absurd (List.mem_append_right more List.mem_cons_self) fresh
  · cases more with
    | nil =>
      rw [List.nil_append] at rest
      exact absurd (rest ▸ List.mem_cons_self) fresh
    | cons x more =>
      obtain ⟨rfl, _⟩ := List.cons.inj rest
      exact ⟨more, rfl⟩

/-- Nothing comes after an exchange that only the last place of a list can have. -/
theorem nil_of_split {x : Exchange provider} (split : t ++ [x] = before ++ e :: after)
    (fresh : e ∉ t) : after = [] := by
  rcases List.eq_nil_or_concat after with rfl | ⟨more, y, rfl⟩
  · rfl
  have same : t ++ [x] = (before ++ e :: more) ++ [y] := by
    rw [split, List.concat_eq_append, List.append_assoc, List.cons_append]
  obtain ⟨rfl, _⟩ := List.append_inj' same rfl
  exact absurd (List.mem_append_right before List.mem_cons_self) fresh

theorem Forcing.not_balks (h : Forcing db t) (mem : e ∈ t) : ¬ e.Balks := by
  cases h with
  | standing => cases mem
  | enabled _ worked =>
    obtain rfl := List.mem_singleton.mp mem
    exact worked

/-- What a change of public access asks for. -/
theorem Switching.cases_of_mem {res : Except Error Bool} (h : Switching db wanted t res)
    (mem : e ∈ t) : db.features.isActive Features.publiclyAvailable ≠ wanted ∧
      ((∃ feature, e.call = .enableFeature db feature) ∨
        e.call = .disableFeature db Features.publiclyAvailable) := by
  have forcing {u : List (Exchange provider)} (h : Forcing db u) (mem : e ∈ u) :
      ∃ feature, e.call = .enableFeature db feature := by
    cases h with
    | standing => cases mem
    | enabled =>
      obtain rfl := List.mem_singleton.mp mem
      exact ⟨_, rfl⟩
  cases h with
  | kept => cases mem
  | unforced off =>
    obtain rfl := List.mem_singleton.mp mem
    exact ⟨by simp [off], .inl ⟨_, rfl⟩⟩
  | unexposed off forced | exposed off forced =>
    refine ⟨by simp [off], .inl ?_⟩
    rcases List.mem_append.mp mem with early | last
    · exact forcing forced early
    · obtain rfl := List.mem_singleton.mp last
      exact ⟨_, rfl⟩
  | unhidden on | hidden on =>
    obtain rfl := List.mem_singleton.mp mem
    exact ⟨by simp [on], .inr rfl⟩

/-- What comes before the call for public access has forced TLS, if the database had not. -/
theorem Forcing.of_split {a b : Except ProviderError FeatureStatus} {target : Database}
    (h : Forcing db t)
    (split : t ++ [⟨.enableFeature db Features.publiclyAvailable, b⟩] =
      before ++ ⟨.enableFeature target Features.publiclyAvailable, a⟩ :: after) :
    db.features.isActive Features.forceSsl = true ∨ ∃ status : FeatureStatus, status ≠ .failed ∧
      (⟨.enableFeature target Features.forceSsl, .ok status⟩ : Exchange provider) ∈ before := by
  cases h with
  | standing on => exact .inl on
  | @enabled status _ worked =>
    rw [List.singleton_append] at split
    cases before with
    | nil =>
      obtain ⟨_, same⟩ := ProviderCall.enableFeature.inj (congrArg Exchange.call (List.cons.inj split).1)
      exact absurd same Features.forceSsl_ne_publiclyAvailable
    | cons x before =>
      obtain ⟨rfl, rest⟩ := List.cons.inj split
      cases before with
      | nil =>
        cases rest
        exact .inr ⟨status, worked, List.mem_cons_self⟩
      | cons y before => cases (List.append_eq_nil_iff.mp (List.cons.inj rest).2.symm).2

theorem Switching.forced {res : Except Error Bool} {a : Except ProviderError FeatureStatus}
    {target : Database} (h : Switching db wanted t res)
    (split : t = before ++ ⟨.enableFeature target Features.publiclyAvailable, a⟩ :: after) :
    db.features.isActive Features.forceSsl = true ∨ ∃ status : FeatureStatus, status ≠ .failed ∧
      (⟨.enableFeature target Features.forceSsl, .ok status⟩ : Exchange provider) ∈ before := by
  have alone {x : Exchange provider}
      (split : [x] = before ++ ⟨.enableFeature target Features.publiclyAvailable, a⟩ :: after) :
      x.call = .enableFeature target Features.publiclyAvailable := by
    have mem : (⟨.enableFeature target Features.publiclyAvailable, a⟩ : Exchange provider) ∈ [x] :=
      split ▸ List.mem_append_right before List.mem_cons_self
    rw [← List.mem_singleton.mp mem]
  cases h with
  | kept => cases (List.append_eq_nil_iff.mp split.symm).2
  | unforced =>
    obtain ⟨_, same⟩ := ProviderCall.enableFeature.inj (alone split)
    exact absurd same Features.forceSsl_ne_publiclyAvailable
  | unexposed _ forcing | exposed _ forcing => exact forcing.of_split split
  | unhidden | hidden => cases alone split

theorem Switching.not_balks {changed : Bool} (h : Switching db wanted t (.ok changed))
    (mem : e ∈ t) : ¬ e.Balks := by
  generalize eq : Except.ok changed = res at h
  cases h with
  | kept => cases mem
  | unforced | unexposed | unhidden => cases eq
  | exposed _ forcing worked =>
    rcases List.mem_append.mp mem with early | last
    · exact forcing.not_balks early
    · obtain rfl := List.mem_singleton.mp last
      exact worked
  | hidden =>
    obtain rfl := List.mem_singleton.mp mem
    exact id

theorem Switching.nil_of_balks {res : Except Error Bool} (h : Switching db wanted t res)
    (split : t = before ++ e :: after) (balks : e.Balks) : after = [] := by
  cases h with
  | kept => cases (List.append_eq_nil_iff.mp split.symm).2
  | unexposed _ forcing | exposed _ forcing =>
    exact nil_of_split split fun mem => forcing.not_balks mem balks
  | unforced | unhidden | hidden =>
    exact nil_of_split (t := []) split nofun

/-- What follows a change of public access in an update leaves the features alone. -/
theorem Switching.guarded {res : Except Error Bool} {failed : Prop}
    (h : Switching db wanted t res) (tunes : ∀ e ∈ u, e.call.Tunes)
    (halted : ∀ before e after, t ++ u = before ++ e :: after → e.Balks → after = [] ∧ failed) :
    Guarded db wanted (t ++ u) failed where
  single e mem id read := by
    rcases List.mem_append.mp mem with early | late
    · rcases (h.cases_of_mem early).2 with ⟨_, other⟩ | other <;> cases read.symm.trans other
    · have tuned := tunes e late
      rw [read] at tuned
      exact tuned
  differs e mem id addonId toggles := by
    rcases List.mem_append.mp mem with early | late
    · obtain ⟨differs, ⟨_, call⟩ | call⟩ := h.cases_of_mem early
      · rw [call] at toggles
        exact ⟨toggles.1, toggles.2, differs⟩
      · rw [call] at toggles
        exact ⟨toggles.1, toggles.2, differs⟩
    · exact absurd toggles ((tunes e late).not_toggles id addonId)
  forced before target a after split := by
    obtain ⟨later, split⟩ := split_of_append split fun mem => tunes _ mem
    rcases h.forced split with forced | enabled
    · exact (Features.isActive_iff.mp forced).imp_right .inl
    · exact .inr (.inr enabled)
  kept e mem target feature disabled := by
    rcases List.mem_append.mp mem with early | late
    · rcases (h.cases_of_mem early).2 with ⟨_, other⟩ | same
      · cases disabled.symm.trans other
      · exact (ProviderCall.disableFeature.inj (disabled.symm.trans same)).2
    · have tuned := tunes e late
      rw [disabled] at tuned
      exact tuned.elim
  halted := halted

theorem Accessing.guarded {res : Except Error UpdateOutcome} (h : Accessing db wanted t res) :
    Guarded db wanted t (∃ e, res = .error e) := by
  cases h with
  | @stopped _ e f switching =>
    rw [← List.append_nil t]
    have silent : ∀ e ∈ ([] : List (Exchange provider)), e.call.Tunes :=
      fun _ none => absurd none List.not_mem_nil
    refine switching.guarded silent fun before e after split balks => ⟨?_, f, rfl⟩
    rw [List.append_nil] at split
    exact switching.nil_of_balks split balks
  | passed switching tunes =>
    refine switching.guarded tunes fun before e after split balks => ?_
    have mem := split ▸ List.mem_append_right before List.mem_cons_self
    rcases List.mem_append.mp mem with early | late
    · exact absurd balks (switching.not_balks early)
    · exact absurd balks (Exchange.not_balks_of_tunes (tunes e late))

theorem Guarded.mono {failed failed' : Prop} (h : Guarded seen wanted t failed)
    (imp : failed → failed') : Guarded seen wanted t failed' where
  single := h.single
  differs := h.differs
  forced := h.forced
  kept := h.kept
  halted before e after split balks := (h.halted before e after split balks).imp_right imp

/-- The rules play no part in what an update may do about features. -/
theorem Guarded.of_rules {failed : Prop}
    (h : Guarded { seen with firewallRules := rules } wanted t failed) :
    Guarded seen wanted t failed where
  single := h.single
  differs := h.differs
  forced := h.forced
  kept := h.kept
  halted := h.halted

/-- Features are left alone, or they are toggled behind a reading of the database. -/
def Shielded (id : String) (wanted : Bool) (p : List (Exchange provider)) (failed : Prop) : Prop :=
  (∀ e ∈ p, ∀ i a, ¬ e.call.Toggles i a) ∨
    ∃ seen rules rest, p = ⟨.getDatabase id, .ok seen⟩ ::
        ⟨.listFirewallRules seen.id seen.addonId, .ok rules⟩ :: rest ∧
      Guarded seen wanted rest failed

theorem Shielded.mono {failed failed' : Prop} (h : Shielded id wanted p failed)
    (imp : failed → failed') : Shielded id wanted p failed' := by
  rcases h with none | ⟨seen, rules, rest, rfl, guarded⟩
  · exact .inl none
  · exact .inr ⟨seen, rules, rest, rfl, guarded.mono imp⟩

theorem shielded_of_update {res : Except Error UpdateOutcome} (h : (update id desired).run.Runs p res) :
    Shielded id (desired.features.isActive Features.publiclyAvailable) p (∃ e, res = .error e) := by
  rcases accessing_of_update h with ⟨reads, _⟩ | ⟨seen, rules, rest, rfl, accessing⟩
  · exact .inl fun e mem i a toggles => (reads e mem).not_amends toggles.amends
  · exact .inr ⟨seen, rules, rest, rfl, accessing.guarded.of_rules⟩

end Manager

end DatabaseOperator
