import DatabaseOperator.Proofs.Chronicle.Timeline
import DatabaseOperator.Proofs.Launch
import DatabaseOperator.Proofs.Provider.Outcome

namespace DatabaseOperator

open Moment

variable {delay : Nat} {namespaceName name : String} {s : Chronicle} {r new : Resource}
  {wanted db : Database} {t : List (Exchange pass)}

theorem connectionKey_ne_empty (declared : String) {provided : String} (named : provided ≠ "") :
    connectionKey declared provided ≠ "" := by
  unfold connectionKey
  split
  next => exact named
  next => simp

theorem runs_writeSecret {x : Secret} {owner : Option Owner} (located : x.namespaceName ≠ "")
    (named : x.name ≠ "") (keyed : x.key ≠ "") (valued : x.value ≠ "") :
    (writeSecret x owner).run.Runs [⟨.set x owner, .ok ()⟩] (.ok ()) := by
  rw [writeSecret, Task.requireText_eq located, Task.requireText_eq named, Task.requireText_eq keyed,
    Task.requireText_eq valued, pure_bind, pure_bind, pure_bind, pure_bind]
  exact SecretTask.runs_call_iff.mpr ⟨.ok (), rfl, rfl⟩

theorem Manager.runs_connectionUrl (typed : db.type = some .postgresql) (hosted : db.appId ≠ "")
    (value : String) : (connectionUrl db).run.Runs
      [⟨.findVariable db.appId DatabaseType.postgresql.urlVariable, .ok value⟩]
      (.ok ⟨DatabaseType.postgresql.urlVariable, value⟩) := by
  have required : requireType db = pure .postgresql := by
    rw [requireType, Database.validateType, typed]
  rw [connectionUrl, required, pure_bind, Task.requireText_eq hosted, pure_bind]
  exact Task.runs_bind_of_single (ProviderTask.runs_call_iff.mpr ⟨.ok value, rfl, rfl⟩)
    (Task.runs_pure_iff.mpr ⟨rfl, rfl⟩)

theorem Moment.calls_map_call (t : List (Exchange pass)) : calls (t.map .call) = t := by
  induction t with
  | nil => rfl
  | cons e t ih => exact congrArg (List.cons e) ih

namespace Chronicle

theorem Keeps.of_current (current : s.current = some r) (namespaceName name : String) :
    s.Keeps ⟨.resource (.get namespaceName name), .ok (some r)⟩ s := by
  rw [← current]
  exact .got namespaceName name

theorem Keeps.of_provisioned {v : Option String} (current : s.current = some r) (unused : s.Unused v)
    (now : Times) : s.Keeps ⟨.resource (.updateStatus (r.setProvisioned now).1),
      .ok ((r.setProvisioned now).1.renumbered v)⟩ (s.put (r.setProvisioned now).1 v unused) := by
  let w := (r.setProvisioned now).1
  have merged : { r with status := w.status } = w := rfl
  have keeps := Keeps.statusUpdated (w := w) v unused current rfl
  rw [merged] at keeps
  exact keeps

theorem Unfolds.of_quiet (quiet : Pass.Quiet t) : s.Unfolds (t.map .call) s := by
  induction t with
  | nil => exact .rest s
  | cons e t ih =>
    exact .call (.other e.answer (quiet e List.mem_cons_self))
      (ih fun x mem => quiet x (List.mem_cons_of_mem _ mem))

end Chronicle

/-- The database runs, and everything is known that its connection string is asked for with. -/
structure Database.Reachable (db : Database) : Prop where
  running : db.isRunning = true
  typed : db.type = some .postgresql
  hosted : db.appId ≠ ""
  addressed : db.addonId ≠ ""

/-- The database of the resource is recorded, and the resource says neither that it is there nor that it
runs. -/
structure Resource.Pending (r : Resource) (wanted : Database) : Prop where
  prepared : r.Prepared
  recorded : r.databaseId ≠ ""
  unavailable : r.isAvailable = false
  creatable : r.Creatable wanted
  targeted : r.spec.connectionTarget.name ≠ ""

namespace Resource.Pending

theorem awaits (h : r.Pending wanted) : r.Awaits :=
  ⟨h.prepared, .inl h.recorded, .inl h.unavailable⟩

theorem differs (h : r.Pending wanted) (now : Times) : (r.setProvisioned now).2 = true := by
  cases changed : (r.setProvisioned now).2 with
  | true => rfl
  | false =>
    have available := isAvailable_of_provisioned changed
    exact absurd (h.unavailable.symm.trans available) (by decide)

/-- The wait for a database that runs, when nothing fails before the last write. -/
theorem awaiting (h : r.Pending wanted) (delay : Nat) (reachable : db.Reachable) (token : String)
    {value : String} (valued : value ≠ "") (v : Option String) (a : Except StoreError Resource) :
    let stored := (r.setProvisioned .epoch).1.renumbered v
    Pass.Awaiting delay r
      [⟨.secret (.get r.namespaceName r.spec.authSecret.name r.spec.authSecret.key), .ok token⟩,
        ⟨.connect token r.spec.region, .ok ()⟩, ⟨.provider (.getDatabase r.databaseId), .ok db⟩,
        ⟨.provider (.listFirewallRules db.id db.addonId), .ok []⟩, ⟨.now, .epoch⟩, ⟨.now, .epoch⟩,
        ⟨.resource (.updateStatus (r.setProvisioned .epoch).1), .ok stored⟩,
        ⟨.provider (.findVariable db.appId DatabaseType.postgresql.urlVariable), .ok value⟩,
        ⟨.secret (.set (stored.connectionSecret ⟨DatabaseType.postgresql.urlVariable, value⟩)
          stored.owner?), .ok ()⟩,
        ⟨.resource (.update (stored.setRunningFlag true)), a⟩]
      (Pass.ended "set running annotation" .done a) := by
  intro stored
  have opening := Pass.Opening.connected (r := r) (.ok ()) ((runs_readSecret_iff h.creatable.located
    h.creatable.secretNamed h.creatable.keyNamed).mpr ⟨.ok token, rfl, rfl⟩)
  have read := Manager.runs_get [] h.recorded reachable.addressed
  have named : (Manager.connectionUrl { db with firewallRules := [] }).run.Runs _ _ :=
    Manager.runs_connectionUrl reachable.typed reachable.hosted value
  have variableNamed : DatabaseType.postgresql.urlVariable ≠ "" := by decide
  have keyed : connectionKey (stored.spec.connectionTarget.keyStart.getD "")
      DatabaseType.postgresql.urlVariable ≠ "" := connectionKey_ne_empty _ variableNamed
  have written : (writeSecret (stored.connectionSecret ⟨DatabaseType.postgresql.urlVariable, value⟩)
      stored.owner?).run.Runs _ (.ok ()) :=
    runs_writeSecret h.creatable.located h.targeted keyed valued
  exact .renoted .epoch stored opening read reachable.running (h.differs .epoch) (.saved a named written)

/-- The courses of the wait for a database that runs, up to the last write. -/
theorem exists_awaiting (h : r.Pending wanted) (delay : Nat) (reachable : db.Reachable)
    {value : String} (valued : value ≠ "") (v : Option String) :
    ∃ t u, Pass.Quiet t ∧ Pass.Quiet u ∧ ∀ a, Pass.Awaiting delay r
      (t ++ ⟨.resource (.updateStatus (r.setProvisioned .epoch).1),
          .ok ((r.setProvisioned .epoch).1.renumbered v)⟩ ::
        (u ++ [⟨.resource (.update (((r.setProvisioned .epoch).1.renumbered v).setRunningFlag true)),
          a⟩]))
      (Pass.ended "set running annotation" .done a) := by
  refine ⟨[_, _, _, _, _, _], [_, _], fun e mem => ?_, fun e mem => ?_,
    h.awaiting delay reachable "token" valued v⟩
  · simp only [List.mem_cons, List.not_mem_nil, or_false] at mem
    rcases mem with rfl | rfl | rfl | rfl | rfl | rfl <;> exact fun _ => PassCall.noConfusion
  · simp only [List.mem_cons, List.not_mem_nil, or_false] at mem
    rcases mem with rfl | rfl <;> exact fun _ => PassCall.noConfusion

end Resource.Pending

namespace PassRun

/-- Whatever someone else makes of the resource right before the last write of a wait, the write comes
too late. -/
theorem exists_overtaken (delay : Nat) (namespaceName name : String) (pending : r.Pending wanted)
    (reachable : db.Reachable) (current : s.current = some r) (new : Resource) :
    ∃ (p : PassRun delay namespaceName name) (before : List Moment) (w : Resource) (v : Option String)
      (s₁ : Chronicle) (err : Error),
      calls (before ++ [edit new v] ++ [.call ⟨.resource (.update w), .error (.conflict name)⟩]) =
        p.trace ∧
      p.Loads r ∧ w.isRunning = true ∧ s.Unfolds before s₁ ∧ s₁.Unused v ∧ p.result = .error err := by
  obtain ⟨number, unused⟩ := s.exists_unused
  let ready := (r.setProvisioned .epoch).1
  obtain ⟨v, unused'⟩ := (s.put ready number unused).exists_unused
  have valued : "postgres://db" ≠ "" := by decide
  obtain ⟨t, u, early, late, awaiting⟩ := pending.exists_awaiting delay reachable valued number
  let w := (ready.renumbered number).setRunningFlag true
  let load : Exchange pass := ⟨.resource (.get namespaceName name), .ok (some r)⟩
  let noted : Exchange pass := ⟨.resource (.updateStatus ready), .ok (ready.renumbered number)⟩
  let last : Exchange pass := ⟨.resource (.update w), .error (.conflict name)⟩
  let before := call load :: (t.map call ++ call noted :: u.map call)
  have awaits := pending.awaits
  let p : PassRun delay namespaceName name :=
    .found (.await awaits.1 awaits.2.1 awaits.2.2 (awaiting (.error (.conflict name))))
  have begun : s.Unfolds before (s.put ready number unused) :=
    .call (.of_current current namespaceName name) ((Chronicle.Unfolds.of_quiet early).append
      (.call (.of_provisioned current unused .epoch) (.of_quiet late)))
  refine ⟨p, before, w, v, _, _, ?_, ⟨_, rfl⟩, Resource.isRunning_setRunningFlag true, begun, unused',
    rfl⟩
  have traced : calls before = load :: (t ++ noted :: u) := by
    simp only [before, calls_call, calls_append, calls_map_call]
  rw [calls_append, calls_append, traced]
  change load :: (t ++ noted :: u) ++ [] ++ [last] = load :: (t ++ noted :: (u ++ [last]))
  simp only [List.append_nil, List.cons_append, List.append_assoc]

end PassRun

/-- The sample with its database, before the operator knows that it is there. -/
def pending : Resource :=
  ((sample.withFinalizer.setDatabaseId "db-1").setInitial .epoch).1.setRunningFlag false

theorem pending_pending : ∃ wanted, pending.Pending wanted := by
  have flagged : pending.runningFlag? = some false := Resource.runningFlag?_setRunningFlag false
  have databaseId : pending.databaseId = "db-1" := Resource.databaseId_setInitial
  refine ⟨_, ⟨rfl, Resource.hasFinalizer_withFinalizer, Resource.isInitialized_setInitial, ?_⟩, ?_,
    Resource.isAvailable_setInitial, ⟨rfl, by decide, by decide, by decide⟩, by decide⟩
  · rw [flagged]
    rfl
  · rw [databaseId]
    decide

/-- Its database, which runs already. -/
def pendingDatabase : Database :=
  { Database.blank with
    id := "db-1", appId := "app-1", addonId := "addon-1", type := some .postgresql, status := .running }

theorem reachable_pending : pendingDatabase.Reachable :=
  ⟨rfl, rfl, by decide, by decide⟩

/-- The sample with the conditions of a database that is there. -/
def pendingAvailable : Resource :=
  (pending.setProvisioned .epoch).1.renumbered (some "2")

/-- What the sample hands over. -/
def pendingSecret : Secret :=
  pendingAvailable.connectionSecret ⟨DatabaseType.postgresql.urlVariable, "postgres://db"⟩

/-- The wait of the sample, when nothing fails before the last write. -/
theorem awaiting_pending (a : Except StoreError Resource) : Pass.Awaiting 30000 pending
    [⟨.secret (.get "prod" "scalingo" "token"), .ok "alpha"⟩, ⟨.connect "alpha" "osc-fr1", .ok ()⟩,
      ⟨.provider (.getDatabase pending.databaseId), .ok pendingDatabase⟩,
      ⟨.provider (.listFirewallRules "db-1" "addon-1"), .ok []⟩, ⟨.now, .epoch⟩, ⟨.now, .epoch⟩,
      ⟨.resource (.updateStatus (pending.setProvisioned .epoch).1), .ok pendingAvailable⟩,
      ⟨.provider (.findVariable "app-1" DatabaseType.postgresql.urlVariable), .ok "postgres://db"⟩,
      ⟨.secret (.set pendingSecret pendingAvailable.owner?), .ok ()⟩,
      ⟨.resource (.update (pendingAvailable.setRunningFlag true)), a⟩]
    (Pass.ended "set running annotation" .done a) := by
  obtain ⟨wanted, waiting⟩ := pending_pending
  exact waiting.awaiting 30000 reachable_pending "alpha" (by decide) (some "2") a

end DatabaseOperator
