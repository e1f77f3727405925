import DatabaseOperator.Http.Message
import DatabaseOperator.Provider.Calls
import DatabaseOperator.Provider.Endpoint
import DatabaseOperator.Provider.Wire

namespace DatabaseOperator

structure Client where
  token : String
  endpoints : Endpoints
  deriving DecidableEq, Repr

/-- Work that consists of HTTP requests. The state is the bearer token, once there is one. -/
abbrev HttpTask (α : Type) : Type :=
  ExceptT ProviderError (StateT (Option String) (Dialogue http)) α

namespace Client

def connect (overrides : EndpointOverrides) (token region : String) : Except ProviderError Client :=
  if token.isEmpty then .error .emptyToken
  else if region.isEmpty then .error (.other "empty region")
  else .ok ⟨token, (Endpoints.ofRegion region).override overrides⟩

def ofExcept {α : Type} : Except ProviderError α → HttpTask α
  | .ok a => pure a
  | .error e => throw e

/-- A request yet to be sent: its address as text, what is added to its query, and its token. -/
structure Draft where
  method : Method
  address : String
  parameter : Option (String × String)
  authorization : String
  body : Option Json

/-- The request of a draft, none when its address or its token cannot be sent. -/
def Draft.request? (d : Draft) : Option Request := do
  let url ← Url.parse d.address
  let url :=
    match d.parameter with
    | none => url
    | some (name, value) => url.withParameter name value
  if isHeaderValue d.authorization then some ⟨d.method, url, d.authorization, d.body⟩ else none

/-- What an answer that is not a success means. -/
def refusal (what : String) (r : Response) : ProviderError :=
  if r.status = 404 then .notFound what else .api r.status (Wire.faultMessage r.text)

/-- Sends a request and gives the text of its answer. -/
def send (d : Draft) (what : String) : HttpTask String := do
  match d.request? with
  | none => throw .transport
  | some request =>
    let answer : Option Response ← liftM (m := Dialogue http) (Dialogue.call (I := http) request)
    match answer with
    | none => throw .transport
    | some response =>
      if response.isSuccess then pure response.text else throw (refusal what response)

/-- Sends a request and reads its answer. -/
def fetch {α : Type} (d : Draft) (what : String) (decode : Decoder α) : HttpTask α := do
  let text ← send d what
  match (Json.read text).bind decode with
  | some a => pure a
  | none => throw (.undecodable what)

def basicAuthorization (token : String) : String :=
  "Basic " ++ String.ofList (Base64.encode (utf8Bytes (":" ++ token)))

def bearerAuthorization (token : String) : String :=
  "Bearer " ++ token

/-- Exchanges the API token for a bearer token. -/
def exchange (c : Client) : HttpTask String := do
  let draft : Draft :=
    ⟨.post, c.endpoints.auth ++ "/v1/tokens/exchange", none, basicAuthorization c.token, none⟩
  let token ← fetch draft "token exchange" Wire.token
  if token.isEmpty then throw .emptyToken else pure token

/-- The bearer token; one that was got is kept, a failure is not. -/
def bearer (c : Client) : HttpTask String := do
  match ← get with
  | some token => pure token
  | none =>
    let token ← exchange c
    set (some token)
    pure token

/-- A draft for the main service. -/
def mainDraft (c : Client) (method : Method) (path : String) : HttpTask Draft := do
  let token ← bearer c
  pure ⟨method, c.endpoints.api ++ "/v1" ++ path, none, bearerAuthorization token, none⟩

/-- A draft for the database service. -/
def databaseDraft (c : Client) (method : Method) (appId addonId path : String) : HttpTask Draft := do
  let draft ← mainDraft c .post ("/apps/" ++ appId ++ "/addons/" ++ addonId ++ "/token")
  let token ← fetch draft ("addon " ++ addonId ++ " token") Wire.addonToken
  pure ⟨method, c.endpoints.databaseApi ++ "/api/databases/" ++ addonId ++ path, none,
    bearerAuthorization token, none⟩

/-- The addon of a database. An application that is a database has exactly one addon. -/
def addonOfApp (c : Client) (appId : String) : HttpTask String := do
  let draft ← mainDraft c .get ("/apps/" ++ appId ++ "/addons")
  match ← fetch draft ("addons of " ++ appId) Wire.addons with
  | [] => throw (.other ("no addon found for database " ++ appId))
  | [id] => pure id
  | _ => throw (.other ("multiple addons found for " ++ appId ++ ", it may be an application"))

def addonOf (c : Client) (db : Database) : HttpTask String :=
  if db.addonId.isEmpty then addonOfApp c db.appId else pure db.addonId

/-- The id of the first plan with a name. -/
def planId (c : Client) (addonProvider name : String) : HttpTask String := do
  let draft ← mainDraft c .get ("/addon_providers/" ++ addonProvider ++ "/plans")
  let plans ← fetch draft ("plans of " ++ addonProvider) Wire.plans
  match plans.find? fun p => p.2 = name with
  | some p => pure p.1
  | none => throw (.notFound ("plan " ++ name ++ " for addon " ++ addonProvider))

def requireType (db : Database) : HttpTask DatabaseType :=
  ofExcept (db.validateType.mapError .invalid)

def createDatabase (c : Client) (db : Database) : HttpTask Database := do
  let type ← requireType db
  let plan ← planId c type.addonProvider db.plan
  let draft ← mainDraft c .post "/databases"
  let body := Wire.creation type.addonProvider plan db.name db.projectId
  let envelope ← fetch { draft with body := some body } ("database " ++ db.name) Wire.envelope
  ofExcept envelope.database

def getDatabase (c : Client) (id : String) : HttpTask Database := do
  let draft ← mainDraft c .get ("/databases/" ++ id)
  let envelope ← fetch draft ("database " ++ id) Wire.envelope
  let db ← ofExcept envelope.database
  if db.appId.isEmpty then pure db
  else
    let addonId ← addonOfApp c db.appId
    pure { db with addonId := addonId }

def updateDatabasePlan (c : Client) (db : Database) : HttpTask Unit := do
  let type ← requireType db
  let plan ← planId c type.addonProvider db.plan
  let addonId ← addonOf c db
  let draft ← mainDraft c .patch ("/apps/" ++ db.appId ++ "/addons/" ++ addonId)
  let _ ← send { draft with body := some (Wire.planChange plan) } ("addon " ++ addonId)

def deleteDatabase (c : Client) (id : String) : HttpTask Unit := do
  let draft ← mainDraft c .delete ("/databases/" ++ id)
  let _ ← send draft ("database " ++ id)

def createFirewallRule (c : Client) (id addonId : String) (rule : FirewallRule) : HttpTask Unit := do
  let draft ← databaseDraft c .post id addonId "/firewall_rules"
  let _ ← send { draft with body := some (Wire.ruleCreation rule) } "firewall rules"

def listFirewallRules (c : Client) (id addonId : String) : HttpTask (List FirewallRule) := do
  let draft ← databaseDraft c .get id addonId "/firewall_rules"
  let rules ← fetch draft "firewall rules" Wire.rules
  ofExcept (rules.mapM Wire.Rule.rule)

def deleteFirewallRule (c : Client) (id addonId ruleId : String) : HttpTask Unit := do
  let draft ← databaseDraft c .delete id addonId ("/firewall_rules/" ++ ruleId)
  let _ ← send draft ("firewall rule " ++ ruleId)

def enableFeature (c : Client) (db : Database) (feature : String) : HttpTask FeatureStatus := do
  let addonId ← addonOf c db
  let draft ← databaseDraft c .post db.appId addonId "/features"
  let (text, message) ← fetch { draft with body := some (Wire.featureRequest feature) }
    ("feature " ++ feature) Wire.feature
  let status ← ofExcept (Wire.featureStatus text)
  if status = .failed then throw (.featureFailed feature message) else pure status

/-- A feature is off only some time after the call. -/
def disableFeature (c : Client) (db : Database) (feature : String) : HttpTask FeatureStatus := do
  let addonId ← addonOf c db
  let draft ← databaseDraft c .delete db.appId addonId "/features"
  let _ ← send { draft with parameter := some ("feature", feature) } ("feature " ++ feature)
  pure .pending

def findVariable (c : Client) (appId name : String) : HttpTask String := do
  let draft ← mainDraft c .get ("/apps/" ++ appId ++ "/variables")
  let listed ← fetch { draft with parameter := some ("aliases", "false") }
    ("variables of " ++ appId) Wire.variableList
  match listed.find? fun v => v.1 = name with
  | some v => pure v.2
  | none => throw (.notFound ("variable " ++ name))

/-- Carries out a call to the provider. -/
def perform (c : Client) : (call : ProviderCall) → HttpTask call.Result
  | .createDatabase db => createDatabase c db
  | .getDatabase id => getDatabase c id
  | .updateDatabasePlan db => updateDatabasePlan c db
  | .deleteDatabase id => deleteDatabase c id
  | .createFirewallRule id addonId rule => createFirewallRule c id addonId rule
  | .listFirewallRules id addonId => listFirewallRules c id addonId
  | .deleteFirewallRule id addonId ruleId => deleteFirewallRule c id addonId ruleId
  | .enableFeature db feature => enableFeature c db feature
  | .disableFeature db feature => disableFeature c db feature
  | .findVariable appId name => findVariable c appId name

end Client

end DatabaseOperator
