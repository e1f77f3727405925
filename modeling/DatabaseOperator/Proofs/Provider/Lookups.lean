import DatabaseOperator.Proofs.Provider.Bearing

namespace DatabaseOperator

/-- Whether such a request changes anything at the provider. One that posts nothing is for a token. -/
def Method.Mutates : Method → Option Json → Prop
  | get, _ => False
  | post, none => False
  | _, _ => True

def Request.Mutates (q : Request) : Prop :=
  q.method.Mutates q.body

namespace Errand

def Mutates (e : Errand) : Prop :=
  e.form.method.Mutates e.form.body

/-- The text answers a lookup with a token, the id of the plan with a name, or that of the only addon. -/
def Tells (text v : String) : Errand → Prop
  | addonToken _ _ => (Json.read text).bind Wire.addonToken = some v
  | plans _ name => ∃ listed p, (Json.read text).bind Wire.plans = some listed ∧
      listed.find? (fun p => p.2 = name) = some p ∧ p.1 = v
  | addons _ => (Json.read text).bind Wire.addons = some [v]
  | _ => False

end Errand

/-- Lookups with what they have told. -/
abbrev Findings : Type :=
  List (Errand × String)

/-- The id of the addon of a database, which is looked up when it is not known. -/
def Findings.Addon (found : Findings) (db : Database) (addonId : String) : Prop :=
  if db.addonId.isEmpty then (.addons db.appId, addonId) ∈ found else addonId = db.addonId

/-- The change that an operation is for, with the ids that the lookups have told. -/
def ProviderCall.Warrants (e : Errand) (found : Findings) : ProviderCall → Prop
  | createDatabase db => ∃ type plan, db.validateType = .ok type ∧
      (.plans type.addonProvider db.plan, plan) ∈ found ∧ e = .creation type.addonProvider plan db
  | updateDatabasePlan db => ∃ type plan addonId, db.validateType = .ok type ∧
      (.plans type.addonProvider db.plan, plan) ∈ found ∧ found.Addon db addonId ∧
      e = .planChange db.appId addonId plan
  | deleteDatabase id => e = .deletion id
  | createFirewallRule id addonId rule => e = .ruleCreation id addonId rule
  | deleteFirewallRule id addonId ruleId => e = .ruleDeletion id addonId ruleId
  | enableFeature db feature => ∃ addonId, found.Addon db addonId ∧ e = .enabling db.appId addonId feature
  | disableFeature db feature => ∃ addonId, found.Addon db addonId ∧ e = .disabling db.appId addonId feature
  | getDatabase _ | listFirewallRules _ _ | findVariable _ _ => False

namespace Itinerary

variable {α β : Type}

/-- Nothing more is sent. -/
def Ended : Itinerary α → Prop
  | stop _ => True
  | go _ _ => False

/-- Nothing more is changed. -/
def Harmless : Itinerary α → Prop
  | stop _ => True
  | go e next => ¬ e.Mutates ∧ ∀ text, (next text).Harmless

/-- Lookups come first, and each of them has to tell something if there is a change to come. A change is
warranted by what they have told, and nothing is sent after it. -/
def Careful (W : Errand → Findings → Prop) : Findings → Itinerary α → Prop
  | _, stop _ => True
  | found, go e next =>
    (e.Mutates ∧ W e found ∧ ∀ text, (next text).Ended) ∨
      ¬ e.Mutates ∧ ∀ text, (next text).Harmless ∨
        ∃ v, e.Tells text v ∧ Careful W ((e, v) :: found) (next text)

variable {W : Errand → Findings → Prop} {found : Findings} {x : Itinerary α} {f : α → Itinerary β}
  {e : Errand} {decode : Decoder α}

theorem Harmless.bind (h : x.Harmless) (later : ∀ a, (f a).Harmless) : (x.bind f).Harmless := by
  induction x with
  | stop res =>
    cases res with
    | ok a => exact later a
    | error e => trivial
  | go e next ih => exact ⟨h.1, fun text => ih text (h.2 text)⟩

theorem harmless_fetch (h : ¬ e.Mutates) : (fetch e decode).Harmless :=
  ⟨h, fun _ => trivial⟩

theorem harmless_addonOfApp (appId : String) : (addonOfApp appId).Harmless := by
  refine Harmless.bind (harmless_fetch id) fun ids => ?_
  rcases ids with _ | ⟨id, _ | ⟨other, rest⟩⟩ <;> trivial

theorem Harmless.careful (h : x.Harmless) : x.Careful W found := by
  cases x with
  | stop res => trivial
  | go e next => exact .inr ⟨h.1, fun text => .inl (h.2 text)⟩

theorem Ended.bind (h : x.Ended) (later : ∀ a, (f a).Ended) : (x.bind f).Ended := by
  cases x with
  | stop res =>
    cases res with
    | ok a => exact later a
    | error e => trivial
  | go e next => cases h

/-- The change of an operation, after which nothing is sent. -/
theorem careful_change (changes : e.Mutates) (warranted : W e found) {next : String → Itinerary α}
    (last : ∀ text, (next text).Ended) : (go e next).Careful W found :=
  .inl ⟨changes, warranted, last⟩

/-- A lookup has to tell something before the operation goes on. -/
theorem careful_lookup (lookup : ¬ e.Mutates)
    (told : ∀ text a, (Json.read text).bind decode = some a →
      (f a).Harmless ∨ ∃ v, e.Tells text v ∧ (f a).Careful W ((e, v) :: found)) :
    ((fetch e decode).bind f).Careful W found := by
  refine .inr ⟨lookup, fun text => ?_⟩
  change ((stop (Client.reading e.form.what decode text)).bind f).Harmless ∨ _
  cases read : Client.reading e.form.what decode text with
  | error e => exact .inl trivial
  | ok a =>
    rcases told text a (Client.reading_eq_ok_iff.mp read) with harmless | ⟨v, tells, careful⟩
    · exact .inl harmless
    · refine .inr ⟨v, tells, ?_⟩
      change ((stop (Client.reading e.form.what decode text)).bind f).Careful W ((e, v) :: found)
      rw [read]
      exact careful

theorem bind_assoc {γ : Type} (x : Itinerary α) (f : α → Itinerary β) (g : β → Itinerary γ) :
    (x.bind f).bind g = x.bind fun a => (f a).bind g := by
  induction x with
  | stop res => cases res <;> rfl
  | go e next ih => exact congrArg (go e) (funext ih)

theorem careful_planId {addonProvider name : String} {f : String → Itinerary β}
    (later : ∀ plan, (f plan).Careful W ((.plans addonProvider name, plan) :: found)) :
    ((planId addonProvider name).bind f).Careful W found := by
  unfold planId
  rw [bind_eq, bind_assoc]
  refine careful_lookup id fun text listed read => ?_
  cases named : listed.find? fun p => p.2 = name with
  | none => exact .inl trivial
  | some p => exact .inr ⟨p.1, ⟨listed, p, read, named, rfl⟩, later p.1⟩

theorem careful_addonOf {db : Database} {f : String → Itinerary β}
    (later : ∀ addonId found', found ⊆ found' → found'.Addon db addonId →
      (f addonId).Careful W found') :
    ((addonOf db).bind f).Careful W found := by
  unfold addonOf
  split
  next unknown =>
    unfold addonOfApp
    rw [bind_eq, bind_assoc]
    refine careful_lookup id fun text ids read => ?_
    rcases ids with _ | ⟨id, _ | ⟨other, rest⟩⟩
    · exact .inl trivial
    · refine .inr ⟨id, read, later id _ (List.subset_cons_self ..) ?_⟩
      rw [Findings.Addon, if_pos unknown]
      exact List.mem_cons_self
    · exact .inl trivial
  next known =>
    refine later db.addonId found (List.Subset.refl found) ?_
    rw [Findings.Addon, if_neg known]

theorem careful_requireType {db : Database} {f : DatabaseType → Itinerary β}
    (later : ∀ type, db.validateType = .ok type → (f type).Careful W found) :
    ((requireType db).bind f).Careful W found := by
  unfold requireType
  cases valid : db.validateType with
  | error e => trivial
  | ok type => exact later type valid

/-- Every operation is careful. -/
theorem careful_of (call : ProviderCall) :
    (of call).Careful (fun e found => call.Warrants e found) [] := by
  cases call with
  | createDatabase db =>
    refine careful_requireType fun type valid => careful_planId fun plan => ?_
    exact careful_change (by trivial) ⟨type, plan, valid, List.mem_cons_self, rfl⟩ fun text =>
      Ended.bind trivial fun _ => trivial
  | updateDatabasePlan db =>
    refine careful_requireType fun type valid => careful_planId fun plan => ?_
    refine careful_addonOf fun addonId found kept addon => ?_
    exact careful_change (by trivial) ⟨type, plan, addonId, valid, kept List.mem_cons_self, addon, rfl⟩
      fun _ => trivial
  | deleteDatabase dbId => exact careful_change (by trivial) rfl fun _ => trivial
  | createFirewallRule dbId addonId rule => exact careful_change (by trivial) rfl fun _ => trivial
  | deleteFirewallRule dbId addonId ruleId => exact careful_change (by trivial) rfl fun _ => trivial
  | enableFeature db feature =>
    refine careful_addonOf fun addonId found _ addon => ?_
    refine careful_change (by trivial) ⟨addonId, addon, rfl⟩ fun text =>
      Ended.bind trivial fun (status, message) => Ended.bind trivial fun status => ?_
    split <;> trivial
  | disableFeature db feature =>
    refine careful_addonOf fun addonId found _ addon => ?_
    exact careful_change (by trivial) ⟨addonId, addon, rfl⟩ fun _ => trivial
  | getDatabase dbId =>
    refine Harmless.careful (Harmless.bind (harmless_fetch id) fun envelope => ?_)
    refine Harmless.bind trivial fun db => ?_
    split
    next => trivial
    next => exact Harmless.bind (harmless_addonOfApp db.appId) fun _ => trivial
  | listFirewallRules dbId addonId =>
    exact Harmless.careful (Harmless.bind (harmless_fetch id) fun _ => trivial)
  | findVariable appId name =>
    refine Harmless.careful (Harmless.bind (harmless_fetch id) fun listed => ?_)
    cases listed.find? fun v => v.1 = name <;> trivial

end Itinerary

end DatabaseOperator
