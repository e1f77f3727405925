import DatabaseOperator.Proofs.Overtaking
import DatabaseOperator.Proofs.Provider.Credentials
import DatabaseOperator.Proofs.Provider.Envelope
import DatabaseOperator.Proofs.Provider.Listing
import DatabaseOperator.Proofs.Remote

namespace DatabaseOperator

/-- The failure is for want of the type or of the application of a database. -/
def Error.Lacking (e : Error) : Prop :=
  e.root = .invalid .missingDatabaseType ∨ e.root = .empty "application id"

theorem Error.not_lacking_of_provider {α : Type} {a : Except ProviderError α} {action : String} {e : Error}
    (h : a.mapError (Error.provider action) = .error e) : ¬ e.Lacking := by
  cases a with
  | ok a => cases h
  | error f =>
    cases h
    simp [Lacking, root]

theorem Error.not_lacking_of_store {α : Type} {a : Except StoreError α} {action : String} {e : Error}
    (h : a.mapError (Error.store action) = .error e) : ¬ e.Lacking := by
  cases a with
  | ok a => cases h
  | error f =>
    cases h
    simp [Lacking, root]

namespace Task

variable {I : Interface} {α β : Type} {x : ExceptT Error (Dialogue I) α}

/-- However its calls are answered, the work does not fail for want of a type or of an application. -/
def Furnished (x : ExceptT Error (Dialogue I) α) : Prop :=
  ∀ t e, x.run.Runs t (.error e) → ¬ e.Lacking

theorem furnished_pure (a : α) : Furnished (pure a : ExceptT Error (Dialogue I) α) := by
  intro t e h
  cases (runs_pure_iff.mp h).2

theorem Furnished.bind {f : α → ExceptT Error (Dialogue I) β} (first : Furnished x)
    (second : ∀ a, Furnished (f a)) : Furnished (x >>= f) := by
  intro t e h
  rcases runs_bind_iff.mp h with ⟨e', same, failed⟩ | ⟨t₁, t₂, a, rfl, _, rest⟩
  · cases same
    exact first t e failed
  · exact second a t₂ e rest

/-- The name of a step says nothing about what a failure is for. -/
theorem Furnished.inPhase {action : String} (h : Furnished x) : Furnished (inPhase action x) := by
  intro t e runs
  obtain ⟨res, inner, failed⟩ := runs_inPhase_iff.mp runs
  cases res with
  | ok a => cases failed
  | error f =>
    cases failed
    exact h t f inner

theorem furnished_requireText {field value : String} (other : field ≠ "application id") :
    Furnished (requireText (I := I) field value) := by
  intro t e h
  have failed := (runs_requireText_iff.mp h).2
  split at failed
  next =>
    cases failed
    simp [Error.Lacking, Error.root, other]
  next => cases failed

end Task

open DatabaseOperator.Task

theorem ProviderTask.furnished_call {action : String} {c : ProviderCall} :
    Furnished (ProviderTask.call action c) := by
  intro t e h
  obtain ⟨a, _, failed⟩ := ProviderTask.runs_call_iff.mp h
  exact Error.not_lacking_of_provider failed.symm

theorem SecretTask.furnished_call {action : String} {c : SecretCall} :
    Furnished (SecretTask.call action c) := by
  intro t e h
  obtain ⟨a, _, failed⟩ := SecretTask.runs_call_iff.mp h
  exact Error.not_lacking_of_store failed.symm

theorem furnished_readSecret {namespaceName name key : String} :
    Furnished (readSecret namespaceName name key) :=
  (furnished_requireText (by decide)).bind fun _ => (furnished_requireText (by decide)).bind fun _ =>
    (furnished_requireText (by decide)).bind fun _ => SecretTask.furnished_call

theorem furnished_writeSecret {s : Secret} {owner : Option Owner} : Furnished (writeSecret s owner) :=
  (furnished_requireText (by decide)).bind fun _ => (furnished_requireText (by decide)).bind fun _ =>
    (furnished_requireText (by decide)).bind fun _ => (furnished_requireText (by decide)).bind fun _ =>
      SecretTask.furnished_call

namespace Manager

theorem furnished_get {id : String} : Furnished (get id) :=
  (furnished_requireText (by decide)).bind fun _ => ProviderTask.furnished_call.bind fun _ =>
    (furnished_requireText (by decide)).bind fun _ => ProviderTask.furnished_call.bind fun _ =>
      furnished_pure _

/-- A type and an application are all that has to be there for the connection string to be asked for. -/
theorem connectionUrl_eq {db : Database} {type : DatabaseType} (typed : db.type = some type)
    (applied : db.appId ≠ "") : connectionUrl db =
      ProviderTask.call "find application variable" (.findVariable db.appId type.urlVariable) >>=
        fun value => pure ⟨type.urlVariable, value⟩ := by
  have required : requireType db = pure type := by rw [requireType, Database.validateType, typed]
  unfold connectionUrl
  rw [required, pure_bind, requireText_eq applied, pure_bind]

theorem furnished_connectionUrl {db : Database} {type : DatabaseType} (typed : db.type = some type)
    (applied : db.appId ≠ "") : Furnished (connectionUrl db) := by
  rw [connectionUrl_eq typed applied]
  exact ProviderTask.furnished_call.bind fun _ => furnished_pure _

end Manager

namespace Pass

theorem furnished_secretTask {α : Type} {task : SecretTask α} (h : Furnished task) :
    Furnished (secretTask task) := by
  intro t e runs
  obtain ⟨s, _, runs⟩ := runs_secretTask_iff.mp runs
  exact h s e runs

theorem furnished_providerTask {α : Type} {task : ProviderTask α} (h : Furnished task) :
    Furnished (providerTask task) := by
  intro t e runs
  obtain ⟨p, _, runs⟩ := runs_providerTask_iff.mp runs
  exact h p e runs

theorem furnished_resource {action : String} {c : ResourceCall} : Furnished (resource action c) := by
  intro t e runs
  obtain ⟨a, _, failed⟩ := runs_resource_iff.mp runs
  exact Error.not_lacking_of_store failed.symm

theorem furnished_connect {token region : String} : Furnished (connect token region) := by
  intro t e runs
  obtain ⟨a, _, failed⟩ := runs_connect_iff.mp runs
  exact Error.not_lacking_of_provider failed.symm

theorem furnished_openProvider {r : Resource} : Furnished (openProvider r) :=
  (furnished_secretTask furnished_readSecret).inPhase.bind fun _ => furnished_connect

theorem furnished_handOver {r : Resource} {db : Database} (h : Furnished (Manager.connectionUrl db)) :
    Furnished (handOver r db) :=
  (furnished_providerTask h).bind fun _ =>
    (furnished_secretTask furnished_writeSecret).inPhase.bind fun _ =>
      furnished_resource.bind fun _ => furnished_pure _

end Pass

namespace Client

variable {c : Client} {b b' : Option String} {id : String}

/-- What is read of a database is what the answer under its address says, and it has an addon only if it has
an application. -/
theorem bare_of_runs {h : List (Exchange http)} {seen : Database}
    (runs : (c.perform (.getDatabase id)).Runs b h (.ok seen) b') : ∃ e : Wire.Envelope,
      Answered h .get (c.endpoints.api ++ "/v1/databases/" ++ id) (fun r => r.isSuccess = true ∧
        (Json.read r.text).bind Wire.envelope = some e) ∧
      e.database = .ok { seen with addonId := "", firewallRules := [] } ∧
      (seen.addonId ≠ "" → seen.appId ≠ "") := by
  obtain ⟨ls, rfl, travels⟩ := (posts_perform (.getDatabase id) _ _ _ _).mp runs
  change Travels c ((Itinerary.fetch (.reading id) Wire.envelope).bind _) b ls (.ok seen) b' at travels
  obtain ⟨us, vs, e, b₁, rfl, fetched, later⟩ := Travels.split_of_ok travels
  obtain ⟨l, mem, purpose, r, answered, success, read⟩ := Travels.fetched fetched
  have asked : Answered ((us ++ vs).map Letter.plain) .get (c.endpoints.api ++ "/v1/databases/" ++ id)
      (fun r => r.isSuccess = true ∧ (Json.read r.text).bind Wire.envelope = some e) := by
    have drawn := Travels.drawn fetched l mem
    rw [Letter.Drawn, purpose] at drawn
    obtain ⟨token, drawn⟩ := drawn
    obtain ⟨method, url⟩ := request?_eq_some rfl drawn
    have address : (c.draft (.reading id) token).address = c.endpoints.api ++ "/v1/databases/" ++ id := by
      have joined : "/v1/databases/" = "/v1" ++ "/databases/" := by decide
      simp only [draft, base, Errand.form, joined, String.append_assoc]
    rw [address] at url
    have sent : l.plain = ⟨l.request, some r⟩ := by rw [Letter.plain, answered]
    exact ⟨l.request, r, sent ▸ List.mem_map_of_mem (List.mem_append_left vs mem), method, url, success,
      read⟩
  obtain ⟨_, ws, db, b₂, rfl, ⟨rfl, told, rfl⟩, last⟩ := Travels.split_of_ok later
  have bare := (Wire.Envelope.understood e).eq_bare told.symm
  refine ⟨e, asked, ?_⟩
  split at last
  next unapplied =>
    obtain ⟨_, same, _⟩ := last
    cases same
    refine ⟨by rw [bare, told], fun addressed => absurd ?_ addressed⟩
    exact (congrArg Database.addonId bare).symm
  next applied =>
    obtain ⟨_, _, addonId, _, _, _, _, same, _⟩ := Travels.split_of_ok last
    cases same
    exact ⟨(congrArg Except.ok bare).trans told ▸ rfl, fun _ => by simpa using applied⟩

end Client

/-- An operation as a call to the provider that was answered. -/
def Operation.exchange (o : Operation) : Exchange provider :=
  ⟨o.call, o.result⟩

/-- What is known of a database that was read under an id with these requests. -/
structure Client.Usable (c : Client) (id : String) (h : List (Exchange http)) (db : Database) : Prop where
  applied : db.appId ≠ ""
  addressed : db.addonId ≠ ""
  told : ∃ e : Wire.Envelope, Answered h .get (c.endpoints.api ++ "/v1/databases/" ++ id)
      (fun r => r.isSuccess = true ∧ (Json.read r.text).bind Wire.envelope = some e) ∧
    e.database = .ok { db with addonId := "", firewallRules := [] } ∧
    (db.isRunning = true → e.details.id ≠ "" ∧ e.details.status = "running")
  typed : db.isRunning = true → db.type = some .postgresql
  furnished : db.isRunning = true → Furnished (Manager.connectionUrl db)

namespace Manager

theorem addressed_of_get {id : String} {p : List (Exchange provider)} {db : Database}
    (runs : (get id).run.Runs p (.ok db)) : db.addonId ≠ "" := by
  have named : id ≠ "" := by
    rintro rfl
    obtain ⟨_, _, _, _, passed, _⟩ := Task.split_of_ok runs
    cases (Task.runs_requireText_iff.mp passed).2
  rcases cases_of_get runs named with ⟨_, _, _, failed⟩ | ⟨seen, ⟨_, _, _, failed⟩ | ⟨a, addressed, _, same⟩⟩
  · cases failed
  · cases failed
  · cases a with
    | error f => cases same
    | ok rules =>
      cases same
      exact addressed

/-- A database with an application and an addon can be handed over when it runs. -/
theorem usable_of_get {c : Client} {b b' : Option String} {os : List Operation} {id : String}
    {db : Database} (operates : c.Operates b os b')
    (runs : (get id).run.Runs (os.map Operation.exchange) (.ok db)) :
    c.Usable id (os.flatMap Operation.requests) db := by
  have addressed := addressed_of_get runs
  obtain ⟨seen, rules, trace, rfl⟩ := trace_of_get runs
  cases operates with
  | rest => cases trace
  | @next _ _ _ o os got rest =>
    obtain ⟨call, h, res⟩ := o
    cases (List.cons.inj trace).1
    obtain ⟨e, asked, bare, applied⟩ := Client.bare_of_runs got
    have understood := Wire.Envelope.understood e
    have typed (running : seen.isRunning = true) := understood.of_running bare running
    refine ⟨applied addressed, addressed, ⟨e, answered_append_iff.mpr (.inl asked), bare, fun running => ?_⟩,
      fun running => (typed running).2.2, fun running => ?_⟩
    · exact ⟨(typed running).1, (typed running).2.1⟩
    · exact furnished_connectionUrl (typed running).2.2 (applied addressed)

end Manager

/-- The calls of work with the provider are operations of the client that is connected. -/
theorem Carried.exists_operates {overrides : EndpointOverrides} {c : Client} {b : Option String}
    {p : List (Exchange provider)} {u : List (Exchange pass)} {h : List (Exchange http)}
    (carried : Carried overrides (some ⟨c, b⟩) (p.map .ofProvider ++ u) h) :
    ∃ os b', p = os.map Operation.exchange ∧ c.Operates b os b' := by
  induction p generalizing b h with
  | nil => exact ⟨[], b, rfl, .rest b⟩
  | cons e p ih =>
    cases carried with
    | apart _ _ home => exact absurd rfl (home _)
    | @performed _ _ _ _ _ _ requests _ run rest =>
      obtain ⟨os, b', rfl, operates⟩ := ih rest
      exact ⟨⟨e.call, requests, e.answer⟩ :: os, b', rfl, .next run operates⟩

namespace Pass

variable {overrides : EndpointOverrides} {k : Option Connection} {delay : Nat} {r : Resource}
  {t u : List (Exchange pass)} {p : List (Exchange provider)} {h : List (Exchange http)}

theorem furnished_of_carried {db : Database} (opening : Opening r t (.ok ()))
    (read : (Manager.get r.databaseId).run.Runs p (.ok db)) (running : db.isRunning = true)
    (carried : Carried overrides k (t ++ (p.map .ofProvider ++ u)) h) :
    Furnished (Manager.connectionUrl db) := by
  obtain ⟨c, _, rest⟩ := carried.of_opening opening
  obtain ⟨os, b', rfl, operates⟩ := rest.exists_operates
  exact (Manager.usable_of_get operates read).furnished running

theorem Awaiting.furnished {e : Error} (course : Awaiting delay r t (.error e))
    (carried : Carried overrides k t h) : ¬ e.Lacking := by
  generalize failed : Except.error e = res at course
  cases course with
  | closed opening =>
    cases failed
    exact furnished_openProvider _ _ (runs_of_opening opening)
  | unread _ read =>
    cases failed
    exact Manager.furnished_get _ _ read
  | early => cases failed
  | noted time opening read running _ handed =>
    subst failed
    exact furnished_handOver (furnished_of_carried opening read running carried) _ _
      (runs_of_handingOver handed)
  | unnoted =>
    cases failed
    simp [Error.Lacking, Error.root]
  | renoted time stored opening read running _ handed =>
    subst failed
    exact furnished_handOver (furnished_of_carried opening read running carried) _ _
      (runs_of_handingOver handed)

end Pass

namespace Client

/-- A client without a bearer token is given one. -/
theorem exists_authorized :
    ∃ l, Authorized novice none [l] (.ok "bearer-1") (some "bearer-1") := by
  have exchangeable : novice.exchangeDraft.request?.isSome = true := by decide +kernel
  obtain ⟨q, exchange⟩ := Option.isSome_iff_exists.mp exchangeable
  let granted : Response := ⟨200, "\x7b\"token\":\"bearer-1\"\x7d"⟩
  have grants : bearerOf (some granted) = .ok "bearer-1" :=
    bearerOf_eq_ok_iff (l := ⟨.exchange, q, some granted⟩).mpr
      ⟨by decide, granted, rfl, rfl, by decide +kernel⟩
  exact ⟨_, .exchanged (delivers_ok exchange grants)⟩

theorem text_render_object (status : Nat) (members : List (String × Json)) :
    Response.text ⟨status, (Json.object members).render⟩ = (Json.object members).render := by
  have begins : (Json.object members).render.toList = '\x7b' :: _ := Json.toList_render_object _
  unfold Response.text
  split
  next mark => cases begins.symm.trans mark
  next => rfl

/-- What is answered about the database of the sample. -/
def pendingAnswer : Json :=
  .object [("database", .object [("id", .string "db-1"), ("app", .object [("id", .string "app-1")]),
    ("database", .object [("id", .string "pg-1"), ("type_name", .string "postgresql"),
      ("status", .string "running")])])]

theorem textual_pendingAnswer : pendingAnswer.Textual 3 :=
  .object (List.forall_mem_singleton.mpr (.object (List.forall_mem_cons.mpr ⟨.string _,
    List.forall_mem_cons.mpr ⟨.object (List.forall_mem_singleton.mpr (.string _)),
      List.forall_mem_singleton.mpr (.object (by simp [Json.Textual.string]))⟩⟩)))

/-- The database of the sample is read over HTTP. -/
theorem exists_runs_pending : ∃ h, (novice.perform (.getDatabase "db-1")).Runs none h
    (.ok pendingDatabase) (some "bearer-1") := by
  have readable : (novice.draft (.reading "db-1") "bearer-1").request?.isSome = true := by decide +kernel
  have findable : (novice.draft (.addons "app-1") "bearer-1").request?.isSome = true := by decide +kernel
  obtain ⟨q₁, reading⟩ := Option.isSome_iff_exists.mp readable
  obtain ⟨q₂, finding⟩ := Option.isSome_iff_exists.mp findable
  let shown : Response := ⟨200, pendingAnswer.render⟩
  let listed : Response := ⟨200, "\x7b\"addons\":[\x7b\"id\":\"addon-1\"\x7d]\x7d"⟩
  let e : Wire.Envelope := ⟨"db-1", "", "", "", "app-1", ⟨"pg-1", "postgresql", "running", []⟩⟩
  have showing : (Json.read shown.text).bind Wire.envelope = some e := by
    have text : shown.text = pendingAnswer.render := text_render_object 200 _
    rw [text, Json.read_render textual_pendingAnswer (by decide)]
    rfl
  have listing : (Json.read listed.text).bind Wire.addons = some ["addon-1"] := by decide +kernel
  obtain ⟨l, authorized⟩ := exists_authorized
  have reads : Sent novice (.reading "db-1") none ([l] ++ [⟨_, q₁, some shown⟩]) (.ok shown.text)
      (some "bearer-1") := .went authorized ⟨rfl, delivers_ok reading (outcome_eq_ok_iff.mpr ⟨shown, rfl, rfl, rfl⟩)⟩
  have finds : Sent novice (.addons "app-1") (some "bearer-1") [⟨_, q₂, some listed⟩] (.ok listed.text)
      (some "bearer-1") := sent_of_main rfl finding (some listed)
  refine ⟨_, (posts_perform (.getDatabase "db-1") _ _ _ _).mpr ⟨[l] ++ [⟨.errand (.reading "db-1"), q₁,
    some shown⟩] ++ ([⟨.errand (.addons "app-1"), q₂, some listed⟩] ++ []), rfl, ?_⟩⟩
  refine travels_fetch_bind reads showing ?_
  change Travels novice (((Itinerary.fetch (.addons "app-1") Wire.addons).bind _).bind _) _ _ _ _
  rw [Itinerary.bind_assoc]
  exact travels_fetch_bind finds listing ⟨rfl, rfl, rfl⟩

/-- The rules of the sample are listed, and there are none. -/
theorem exists_runs_unruled : ∃ h, (novice.perform (.listFirewallRules "db-1" "addon-1")).Runs
    (some "bearer-1") h (.ok []) (some "bearer-1") := by
  let none : Response := ⟨200, "\x7b\"rules\":[]\x7d"⟩
  obtain ⟨h, q, res, runs, mem, get⟩ := exists_runs_listing (r := none) rfl
  have listed : Wire.listed none.text = .ok [] := by decide +kernel
  rw [listed_of_runs runs mem get rfl, listed] at runs
  exact ⟨h, runs⟩

/-- The variable of the sample is asked for, and the application is gone. -/
theorem exists_runs_gone (name : String) : ∃ h e, (novice.perform (.findVariable "app-1" name)).Runs
    (some "bearer-1") h (.error e) (some "bearer-1") := by
  let e : Errand := .variableListing "app-1"
  have findable : (novice.draft e "bearer-1").request?.isSome = true := by decide +kernel
  obtain ⟨q, finding⟩ := Option.isSome_iff_exists.mp findable
  have fails : Sent novice e (some "bearer-1") [⟨.errand e, q, some ⟨404, ""⟩⟩] (.error _)
      (some "bearer-1") := sent_of_main rfl finding (some ⟨404, ""⟩)
  exact ⟨_, _, (posts_perform (.findVariable "app-1" name) _ _ _ _).mpr ⟨_, rfl, .failed fails⟩⟩

end Client

/-- Whatever is answered over HTTP, what is said about a database is understood in one way, a database that
is read with its rules can be handed over when it runs, and a pass that waits for it does not fail for want of
its type or of its application. -/
theorem handover_furnished :
    (∀ e : Wire.Envelope, e.Understood e.database) ∧
    (∀ (c : Client) (b b' : Option String) (os : List Operation) (id : String) (db : Database),
      c.Operates b os b' → (Manager.get id).run.Runs (os.map Operation.exchange) (.ok db) →
        c.Usable id (os.flatMap Operation.requests) db) ∧
    ∀ (overrides : EndpointOverrides) (k : Option Connection) (delay : Nat) (r : Resource)
      (t : List (Exchange pass)) (h : List (Exchange http)) (e : Error),
      (Pass.awaitRunning delay r).run.Runs t (.error e) → Carried overrides k t h → ¬ e.Lacking :=
  ⟨Wire.Envelope.understood, fun _ _ _ _ _ _ operates runs => Manager.usable_of_get operates runs,
    fun _ _ _ _ _ _ _ runs carried => (Pass.awaiting_of_runs runs).furnished carried⟩

/-- The sample is read as running, and the wait for it fails because its application is gone. -/
theorem handover_furnished_pending : ∃ (os : List Operation) (b' : Option String)
    (t : List (Exchange pass)) (h : List (Exchange http)) (e : Error), Client.novice.Operates none os b' ∧
    (Manager.get "db-1").run.Runs (os.map Operation.exchange) (.ok pendingDatabase) ∧
    Client.novice.Usable "db-1" (os.flatMap Operation.requests) pendingDatabase ∧
    pendingDatabase.isRunning = true ∧ (Pass.awaitRunning 30000 pending).run.Runs t (.error e) ∧
    Carried ⟨none, none, none⟩ none t h ∧ ¬ e.Lacking := by
  obtain ⟨h₁, seeing⟩ := Client.exists_runs_pending
  obtain ⟨h₂, listing⟩ := Client.exists_runs_unruled
  obtain ⟨h₃, f, finding⟩ := Client.exists_runs_gone DatabaseType.postgresql.urlVariable
  let os : List Operation := [⟨.getDatabase "db-1", h₁, .ok pendingDatabase⟩,
    ⟨.listFirewallRules "db-1" "addon-1", h₂, .ok []⟩]
  have operates : Client.novice.Operates none os (some "bearer-1") :=
    .next seeing (.next listing (.rest _))
  have read : (Manager.get "db-1").run.Runs (os.map Operation.exchange) (.ok pendingDatabase) :=
    Manager.runs_get [] (by decide) reachable_pending.addressed
  have opened : (readSecret "prod" "scalingo" "token").run.Runs
      [⟨.get "prod" "scalingo" "token", .ok "tk-us-1"⟩] (.ok "tk-us-1") :=
    (runs_readSecret_iff (by decide) (by decide) (by decide)).mpr ⟨.ok "tk-us-1", rfl, rfl⟩
  have opening := Pass.Opening.connected (r := pending) (.ok ()) opened
  have failed : (Manager.connectionUrl pendingDatabase).run.Runs
      [⟨.findVariable "app-1" DatabaseType.postgresql.urlVariable, .error f⟩]
      (.error (.provider "find application variable" f)) := by
    rw [Manager.connectionUrl_eq reachable_pending.typed reachable_pending.hosted]
    exact Task.runs_bind_of_error (ProviderTask.runs_call_iff.mpr ⟨.error f, rfl, rfl⟩)
  obtain ⟨wanted, waiting⟩ := pending_pending
  let t : List (Exchange pass) := [⟨.secret (.get "prod" "scalingo" "token"), .ok "tk-us-1"⟩,
    ⟨.connect "tk-us-1" "osc-fr1", .ok ()⟩, ⟨.provider (.getDatabase "db-1"), .ok pendingDatabase⟩,
    ⟨.provider (.listFirewallRules "db-1" "addon-1"), .ok []⟩, ⟨.now, .epoch⟩, ⟨.now, .epoch⟩,
    ⟨.resource (.updateStatus (pending.setProvisioned .epoch).1), .ok pendingAvailable⟩,
    ⟨.provider (.findVariable "app-1" DatabaseType.postgresql.urlVariable), .error f⟩]
  have runs : (Pass.awaitRunning 30000 pending).run.Runs t (.error _) := Pass.runs_of_awaiting
    (.renoted .epoch pendingAvailable opening read rfl (waiting.differs .epoch) (.unnamed failed))
  have carried : Carried ⟨none, none, none⟩ none t (h₁ ++ (h₂ ++ (h₃ ++ []))) := by
    refine .apart _ (fun _ _ => PassCall.noConfusion) (fun _ => PassCall.noConfusion) ?_
    refine .connected rfl (.performed seeing (.performed listing ?_))
    refine .apart _ (fun _ _ => PassCall.noConfusion) (fun _ => PassCall.noConfusion) ?_
    refine .apart _ (fun _ _ => PassCall.noConfusion) (fun _ => PassCall.noConfusion) ?_
    refine .apart _ (fun _ _ => PassCall.noConfusion) (fun _ => PassCall.noConfusion) ?_
    exact .performed finding (.done _)
  obtain ⟨_, usable, furnished⟩ := handover_furnished
  exact ⟨os, _, t, _, _, operates, read, usable _ _ _ _ _ _ operates read, rfl, runs, carried,
    furnished _ _ _ _ _ _ _ runs carried⟩

end DatabaseOperator
