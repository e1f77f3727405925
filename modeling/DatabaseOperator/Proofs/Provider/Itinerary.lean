import DatabaseOperator.Proofs.Provider.Client

namespace DatabaseOperator

/-- Who takes a request: the main service, or the database service for an addon of an application. -/
inductive Service
  | main
  | database (appId addonId : String)

/-- What a request is for. The token of an addon is only ever fetched for the database service. -/
inductive Errand
  | addonToken (appId addonId : String)
  | plans (addonProvider name : String)
  | addons (appId : String)
  | creation (addonProvider plan : String) (db : Database)
  | reading (id : String)
  | planChange (appId addonId plan : String)
  | deletion (id : String)
  | ruleCreation (id addonId : String) (rule : FirewallRule)
  | ruleListing (id addonId : String)
  | ruleDeletion (id addonId ruleId : String)
  | enabling (appId addonId feature : String)
  | disabling (appId addonId feature : String)
  | variableListing (appId : String)

/-- A request without its credentials, and the name under which it is reported. -/
structure Form where
  service : Service
  method : Method
  path : String
  parameter : Option (String × String)
  body : Option Json
  what : String

namespace Errand

def form : Errand → Form
  | addonToken appId addonId =>
    ⟨.main, .post, "/apps/" ++ appId ++ "/addons/" ++ addonId ++ "/token", none, none,
      "addon " ++ addonId ++ " token"⟩
  | plans addonProvider _ =>
    ⟨.main, .get, "/addon_providers/" ++ addonProvider ++ "/plans", none, none,
      "plans of " ++ addonProvider⟩
  | addons appId => ⟨.main, .get, "/apps/" ++ appId ++ "/addons", none, none, "addons of " ++ appId⟩
  | creation addonProvider plan db =>
    ⟨.main, .post, "/databases", none, some (Wire.creation addonProvider plan db.name db.projectId),
      "database " ++ db.name⟩
  | reading id => ⟨.main, .get, "/databases/" ++ id, none, none, "database " ++ id⟩
  | planChange appId addonId plan =>
    ⟨.main, .patch, "/apps/" ++ appId ++ "/addons/" ++ addonId, none, some (Wire.planChange plan),
      "addon " ++ addonId⟩
  | deletion id => ⟨.main, .delete, "/databases/" ++ id, none, none, "database " ++ id⟩
  | ruleCreation id addonId rule =>
    ⟨.database id addonId, .post, "/firewall_rules", none, some (Wire.ruleCreation rule),
      "firewall rules"⟩
  | ruleListing id addonId =>
    ⟨.database id addonId, .get, "/firewall_rules", none, none, "firewall rules"⟩
  | ruleDeletion id addonId ruleId =>
    ⟨.database id addonId, .delete, "/firewall_rules/" ++ ruleId, none, none,
      "firewall rule " ++ ruleId⟩
  | enabling appId addonId feature =>
    ⟨.database appId addonId, .post, "/features", none, some (Wire.featureRequest feature),
      "feature " ++ feature⟩
  | disabling appId addonId feature =>
    ⟨.database appId addonId, .delete, "/features", some ("feature", feature), none,
      "feature " ++ feature⟩
  | variableListing appId =>
    ⟨.main, .get, "/apps/" ++ appId ++ "/variables", some ("aliases", "false"), none,
      "variables of " ++ appId⟩

end Errand

namespace Client

/-- Where the paths of a service begin. -/
def base (c : Client) : Service → String
  | .main => c.endpoints.api ++ "/v1"
  | .database _ addonId => c.endpoints.databaseApi ++ "/api/databases/" ++ addonId

/-- The draft of an errand with a bearer token. -/
def draft (c : Client) (e : Errand) (token : String) : Draft :=
  ⟨e.form.method, c.base e.form.service ++ e.form.path, e.form.parameter, bearerAuthorization token,
    e.form.body⟩

/-- The token that an errand is run with. -/
def credential (c : Client) : Service → HttpTask String
  | .main => bearer c
  | .database appId addonId => do
    let token ← bearer c
    fetch (c.draft (.addonToken appId addonId) token) ("addon " ++ addonId ++ " token") Wire.addonToken

def run (c : Client) (e : Errand) : HttpTask String := do
  let token ← c.credential e.form.service
  send (c.draft e token) e.form.what

end Client

/-- What is sent next, and after which text, up to a result. -/
inductive Itinerary (α : Type) : Type
  | stop (res : Except ProviderError α)
  | go (e : Errand) (next : String → Itinerary α)

namespace Itinerary

variable {α β : Type}

def bind : Itinerary α → (α → Itinerary β) → Itinerary β
  | stop (.ok a), f => f a
  | stop (.error e), _ => stop (.error e)
  | go e next, f => go e fun text => (next text).bind f

instance : Monad Itinerary where
  pure a := stop (.ok a)
  bind := bind

/-- One errand, for the text of its answer. -/
def text (e : Errand) : Itinerary String :=
  go e pure

/-- One errand, for what its answer says. -/
def fetch (e : Errand) (decode : Decoder α) : Itinerary α :=
  go e fun text => stop (Client.reading e.form.what decode text)

def addonOfApp (appId : String) : Itinerary String := do
  match ← fetch (.addons appId) Wire.addons with
  | [] => stop (.error (.other ("no addon found for database " ++ appId)))
  | [id] => pure id
  | _ => stop (.error (.other ("multiple addons found for " ++ appId ++ ", it may be an application")))

def addonOf (db : Database) : Itinerary String :=
  if db.addonId.isEmpty then addonOfApp db.appId else pure db.addonId

def planId (addonProvider name : String) : Itinerary String := do
  let plans ← fetch (.plans addonProvider name) Wire.plans
  match plans.find? fun p => p.2 = name with
  | some p => pure p.1
  | none => stop (.error (.notFound ("plan " ++ name ++ " for addon " ++ addonProvider)))

def requireType (db : Database) : Itinerary DatabaseType :=
  stop (db.validateType.mapError .invalid)

/-- The itinerary of an operation. -/
def of : (call : ProviderCall) → Itinerary call.Result
  | .createDatabase db => do
    let type ← requireType db
    let plan ← planId type.addonProvider db.plan
    let envelope ← fetch (.creation type.addonProvider plan db) Wire.envelope
    stop envelope.database
  | .getDatabase id => do
    let envelope ← fetch (.reading id) Wire.envelope
    let db ← stop envelope.database
    if db.appId.isEmpty then pure db
    else do
      let addonId ← addonOfApp db.appId
      pure { db with addonId := addonId }
  | .updateDatabasePlan db => do
    let type ← requireType db
    let plan ← planId type.addonProvider db.plan
    let addonId ← addonOf db
    let _ ← text (.planChange db.appId addonId plan)
    pure ()
  | .deleteDatabase id => do
    let _ ← text (.deletion id)
    pure ()
  | .createFirewallRule id addonId rule => do
    let _ ← text (.ruleCreation id addonId rule)
    pure ()
  | .listFirewallRules id addonId => do
    let rules ← fetch (.ruleListing id addonId) Wire.rules
    stop (rules.mapM Wire.Rule.rule)
  | .deleteFirewallRule id addonId ruleId => do
    let _ ← text (.ruleDeletion id addonId ruleId)
    pure ()
  | .enableFeature db feature => do
    let addonId ← addonOf db
    let (text, message) ← fetch (.enabling db.appId addonId feature) Wire.feature
    let status ← stop (Wire.featureStatus text)
    if status = .failed then stop (.error (.featureFailed feature message)) else pure status
  | .disableFeature db feature => do
    let addonId ← addonOf db
    let _ ← text (.disabling db.appId addonId feature)
    pure .pending
  | .findVariable appId name => do
    let listed ← fetch (.variableListing appId) Wire.variableList
    match listed.find? fun v => v.1 = name with
    | some v => pure v.2
    | none => stop (.error (.notFound ("variable " ++ name)))

/-- Carries out an itinerary. -/
def run (c : Client) : Itinerary α → HttpTask α
  | stop res => Client.ofExcept res
  | go e next => do
    let text ← c.run e
    (next text).run c

variable {c : Client}

@[simp]
theorem pure_eq (a : α) : (pure a : Itinerary α) = stop (.ok a) := rfl

@[simp]
theorem bind_eq (x : Itinerary α) (f : α → Itinerary β) : x >>= f = x.bind f := rfl

theorem stop_bind_stop (res : Except ProviderError α) (f : α → Except ProviderError β) :
    ((stop res).bind fun a => stop (f a)) = stop (res.bind f) := by
  cases res <;> rfl

theorem run_bind (x : Itinerary α) (f : α → Itinerary β) :
    (x.bind f).run c = x.run c >>= fun a => (f a).run c := by
  induction x with
  | stop res =>
    cases res with
    | ok a => exact (pure_bind (m := HttpTask) a fun a => (f a).run c).symm
    | error e => rfl
  | go e next ih =>
    have later : (fun text => ((next text).bind f).run c) =
        fun text => (next text).run c >>= fun a => (f a).run c := funext ih
    change (c.run e >>= fun text => ((next text).bind f).run c) = _
    rw [later]
    exact (bind_assoc _ _ _).symm

theorem run_text_bind (e : Errand) (k : String → HttpTask α) :
    (text e).run c >>= k = c.credential e.form.service >>= fun token =>
      Client.send (c.draft e token) e.form.what >>= k := by
  have run : (text e).run c = c.run e := by
    change (c.run e >>= fun text => (pure text : HttpTask String)) = c.run e
    exact bind_pure _
  rw [run, Client.run, bind_assoc]

theorem run_fetch (e : Errand) (decode : Decoder α) :
    (fetch e decode).run c =
      c.credential e.form.service >>= fun token => Client.fetch (c.draft e token) e.form.what decode := by
  have read (d : Client.Draft) : Client.fetch d e.form.what decode =
      Client.send d e.form.what >>= fun text =>
        Client.ofExcept (Client.reading e.form.what decode text) := by
    unfold Client.fetch Client.reading
    refine congrArg (Client.send d e.form.what >>= ·) (funext fun text => ?_)
    cases (Json.read text).bind decode <;> rfl
  simp only [read]
  exact bind_assoc _ _ _

end Itinerary

namespace Client

variable {c : Client} {α : Type}

theorem mainDraft_bind (method : Method) (path : String) (k : Draft → HttpTask α) :
    mainDraft c method path >>= k = c.credential .main >>= fun token =>
      k ⟨method, c.base .main ++ path, none, bearerAuthorization token, none⟩ := by
  unfold mainDraft
  rw [bind_assoc]
  refine congrArg (bearer c >>= ·) (funext fun token => ?_)
  exact pure_bind _ _

theorem databaseDraft_bind (method : Method) (appId addonId path : String) (k : Draft → HttpTask α) :
    databaseDraft c method appId addonId path >>= k =
      c.credential (.database appId addonId) >>= fun token =>
        k ⟨method, c.base (.database appId addonId) ++ path, none, bearerAuthorization token, none⟩ := by
  unfold databaseDraft
  rw [bind_assoc, mainDraft_bind]
  unfold credential
  rw [bind_assoc]
  refine congrArg (bearer c >>= ·) (funext fun token => ?_)
  rw [bind_assoc]
  refine congrArg (fetch _ _ _ >>= ·) (funext fun key => ?_)
  exact pure_bind _ _

theorem addonOfApp_eq_run (appId : String) :
    addonOfApp c appId = (Itinerary.addonOfApp appId).run c := by
  unfold addonOfApp Itinerary.addonOfApp
  rw [mainDraft_bind, Itinerary.bind_eq, Itinerary.run_bind, Itinerary.run_fetch, bind_assoc]
  refine congrArg (c.credential .main >>= ·) (funext fun token => ?_)
  refine congrArg (fetch _ _ _ >>= ·) (funext fun ids => ?_)
  rcases ids with _ | ⟨id, _ | ⟨other, rest⟩⟩ <;> rfl

theorem addonOf_eq_run (db : Database) : addonOf c db = (Itinerary.addonOf db).run c := by
  unfold addonOf Itinerary.addonOf
  split
  next => exact addonOfApp_eq_run db.appId
  next => rfl

theorem planId_eq_run (addonProvider name : String) :
    planId c addonProvider name = (Itinerary.planId addonProvider name).run c := by
  unfold planId Itinerary.planId
  rw [mainDraft_bind, Itinerary.bind_eq, Itinerary.run_bind, Itinerary.run_fetch, bind_assoc]
  refine congrArg (c.credential .main >>= ·) (funext fun token => ?_)
  refine congrArg (fetch _ _ _ >>= ·) (funext fun plans => ?_)
  cases plans.find? fun p => p.2 = name <;> rfl

theorem requireType_eq_run (db : Database) : requireType db = (Itinerary.requireType db).run c := rfl

/-- An operation carries out its itinerary. -/
theorem perform_eq_run (call : ProviderCall) : c.perform call = (Itinerary.of call).run c := by
  cases call with
  | createDatabase db =>
    unfold perform createDatabase
    simp only [Itinerary.of, Itinerary.bind_eq, Itinerary.run_bind, requireType_eq_run (c := c),
      planId_eq_run, mainDraft_bind, Itinerary.run_fetch, bind_assoc]
    rfl
  | getDatabase id =>
    unfold perform getDatabase
    simp only [Itinerary.of, Itinerary.bind_eq, Itinerary.run_bind, mainDraft_bind, Itinerary.run_fetch,
      bind_assoc, addonOfApp_eq_run]
    refine congrArg (c.credential .main >>= ·) (funext fun token => ?_)
    refine congrArg (fetch _ _ _ >>= ·) (funext fun envelope => ?_)
    refine congrArg (ofExcept _ >>= ·) (funext fun db => ?_)
    split
    next => rfl
    next =>
      exact (Itinerary.run_bind (Itinerary.addonOfApp db.appId) fun addonId =>
        pure { db with addonId := addonId }).symm
  | updateDatabasePlan db =>
    unfold perform updateDatabasePlan
    simp only [Itinerary.of, Itinerary.bind_eq, Itinerary.run_bind, requireType_eq_run (c := c),
      planId_eq_run, addonOf_eq_run, mainDraft_bind, Itinerary.run_text_bind]
    rfl
  | deleteDatabase id =>
    unfold perform deleteDatabase
    simp only [Itinerary.of, Itinerary.bind_eq, Itinerary.run_bind, mainDraft_bind,
      Itinerary.run_text_bind]
    rfl
  | createFirewallRule id addonId rule =>
    unfold perform createFirewallRule
    simp only [Itinerary.of, Itinerary.bind_eq, Itinerary.run_bind, databaseDraft_bind,
      Itinerary.run_text_bind]
    rfl
  | listFirewallRules id addonId =>
    unfold perform listFirewallRules
    simp only [Itinerary.of, Itinerary.bind_eq, Itinerary.run_bind, databaseDraft_bind, Itinerary.run_fetch,
      bind_assoc]
    rfl
  | deleteFirewallRule id addonId ruleId =>
    unfold perform deleteFirewallRule
    simp only [Itinerary.of, Itinerary.bind_eq, Itinerary.run_bind, databaseDraft_bind,
      Itinerary.run_text_bind]
    rfl
  | enableFeature db feature =>
    unfold perform enableFeature
    simp only [Itinerary.of, Itinerary.bind_eq, Itinerary.run_bind, addonOf_eq_run, databaseDraft_bind,
      Itinerary.run_fetch, bind_assoc]
    refine congrArg (Itinerary.run c _ >>= ·) (funext fun addonId => ?_)
    refine congrArg (c.credential _ >>= ·) (funext fun token => ?_)
    refine congrArg (fetch _ _ _ >>= ·) (funext fun (text, message) => ?_)
    refine congrArg (ofExcept _ >>= ·) (funext fun status => ?_)
    split <;> rfl
  | disableFeature db feature =>
    unfold perform disableFeature
    simp only [Itinerary.of, Itinerary.bind_eq, Itinerary.run_bind, addonOf_eq_run, databaseDraft_bind,
      Itinerary.run_text_bind]
    rfl
  | findVariable appId name =>
    unfold perform findVariable
    simp only [Itinerary.of, Itinerary.bind_eq, Itinerary.run_bind, mainDraft_bind, Itinerary.run_fetch,
      bind_assoc]
    refine congrArg (c.credential .main >>= ·) (funext fun token => ?_)
    refine congrArg (fetch _ _ _ >>= ·) (funext fun listed => ?_)
    cases listed.find? fun v => v.1 = name <;> rfl

end Client

end DatabaseOperator
