import DatabaseOperator.Proofs.Overtaking
import DatabaseOperator.Proofs.Remote
import DatabaseOperator.Proofs.Retry.Outcome
import DatabaseOperator.Simulation.Provider

namespace DatabaseOperator

variable {π : Type} {R : Counterpart π} {a b : Site π} {r : Resource} {delay : Nat}
  {namespaceName name : String}

theorem Resource.Pending.waits {wanted : Database} (h : r.Pending wanted)
    (resting : r.runningFlag? = some false) : r.Waits :=
  ⟨h.prepared.wanted, h.prepared.guarded, h.prepared.initialized, h.recorded, resting⟩

namespace SimulatedProvider

variable {p : SimulatedProvider} {id : String}

theorem perform_delete_of_absent (absent : p.databases.get? id = none) :
    p.perform (.deleteDatabase id) = (.error (missing id), p) := by
  unfold perform
  simp only [absent]

theorem perform_delete_of_present {db : Database} (present : p.databases.get? id = some db) :
    p.perform (.deleteDatabase id) = (.ok (), { p with databases := p.databases.erase id }) := by
  unfold perform
  simp only [present]

theorem perform_of_reads {c : ProviderCall} (reads : c.Reads) : (p.perform c).2 = p := by
  cases c with
  | getDatabase id =>
    simp only [perform]
    split <;> rfl
  | findVariable appId name =>
    simp only [perform]
    split <;> rfl
  | listFirewallRules => rfl
  | createDatabase | updateDatabasePlan | deleteDatabase | createFirewallRule | deleteFirewallRule
  | enableFeature | disableFeature => exact reads.elim

end SimulatedProvider

namespace Counterpart

/-- The provider in memory, with no failures planned. It takes any token when it is connected, as the client
does, and refuses the calls of a token that it does not know. -/
def inMemory (known : String → Bool) : Counterpart SimulatedProvider where
  connect l _ := if l.token.isEmpty then .error .emptyToken else .ok ()
  answer l c x := if known l.token then x.perform c else (.error (.api 401 "invalid token"), x)
  absent namespaceName name _ := .notFound ("secret " ++ namespaceName ++ "/" ++ name)

variable {known : String → Bool} {x : SimulatedProvider}

theorem answer_of_known {l : Login} (knows : known l.token = true) (c : ProviderCall) :
    (inMemory known).answer l c x = x.perform c :=
  if_pos knows

theorem answer_of_unknown {l : Login} (foreign : known l.token = false) (c : ProviderCall) :
    (inMemory known).answer l c x = (.error (.api 401 "invalid token"), x) :=
  if_neg (by simp [foreign])

theorem connect_of_named {l : Login} (named : l.token ≠ "") : (inMemory known).connect l x = .ok () :=
  if_neg (by simpa using named)

/-- A provider that knows every token takes the connection string as well. -/
theorem lasting_inMemory (a : Site SimulatedProvider) : (inMemory fun _ => true).Lasting r a := by
  refine .inr fun db url ready handing => ⟨?_, fun _ _ => rfl⟩
  obtain ⟨_, token, found, connected⟩ := opened_iff.mp ready.opened
  rw [Resource.login_eq found, connected]
  exact connect_of_named (look_writeSecret_iff.mp handing.written).2.2.2

theorem steady_inMemory : (inMemory known).Steady where
  reads l c x reads := by
    cases knows : known l.token with
    | true =>
      rw [answer_of_known knows]
      exact SimulatedProvider.perform_of_reads reads
    | false => rw [answer_of_unknown knows]
  refuses l id x refused := by
    cases knows : known l.token with
    | true =>
      rw [answer_of_known knows] at refused
      cases found : x.databases.get? id with
      | none =>
        rw [SimulatedProvider.perform_delete_of_absent found] at refused
        cases refused
      | some db =>
        rw [SimulatedProvider.perform_delete_of_present found] at refused
        cases refused
    | false => rw [answer_of_unknown knows]
  deletes l id x gone := by
    cases knows : known l.token with
    | true =>
      -- a database that is not there is not there the second time either
      have settled (y : SimulatedProvider) (absent : y.databases.get? id = none) :
          Pass.isGone (y.perform (.deleteDatabase id)).1 = true ∧
            (y.perform (.deleteDatabase id)).2 = y := by
        rw [SimulatedProvider.perform_delete_of_absent absent]
        exact ⟨rfl, rfl⟩
      simp only [answer_of_known knows]
      refine settled (x.perform (.deleteDatabase id)).2 ?_
      cases found : x.databases.get? id with
      | none =>
        rw [SimulatedProvider.perform_delete_of_absent found]
        exact found
      | some db =>
        rw [SimulatedProvider.perform_delete_of_present found]
        exact Dictionary.get?_erase_same x.databases
    | false =>
      rw [answer_of_unknown knows] at gone
      cases gone
  connects _ _ _ := rfl

/-- The resource, its token, its database and the connection string of its database. -/
def stage (r : Resource) : Site SimulatedProvider where
  resource := some r
  secrets := Vault.empty.put ⟨r.namespaceName, r.spec.authSecret.name, r.spec.authSecret.key, "alpha"⟩
  remote := { SimulatedProvider.blank with
    databases := Dictionary.empty.insert "db-1" pendingDatabase
    applicationVariables := Dictionary.empty.insert "app-1"
      (Dictionary.empty.insert DatabaseType.postgresql.urlVariable "postgres://db") }

/-- What is left when a wait is overtaken after the connection string is in its secret. -/
def handed (r : Resource) : Site SimulatedProvider where
  resource := some ((r.setProvisioned .epoch).1.renumbered (some "3"))
  secrets := (stage r).secrets.put (r.connectionSecret ⟨DatabaseType.postgresql.urlVariable, "postgres://db"⟩)
  remote := (stage r).remote

theorem Answers.reading {l : Login} {c : ProviderCall} {answer : Except ProviderError c.Result}
    (steady : R.Steady) (reads : c.Reads) (told : (R.answer l c a.remote).1 = answer) :
    R.Answers l a ⟨.provider c, answer⟩ a := by
  have asked := Answers.asked (R := R) (l := l) (a := a) c
  rw [steady.reads l c a.remote reads, told] at asked
  exact asked

/-- A deletion can be overtaken after the database is gone. -/
theorem exists_dropped (known : String → Bool) (knows : known "alpha" = true) :
    ∃ (f : PassRun 30000 "prod" "db") (b : Site SimulatedProvider), f.Drops ∧
      (inMemory known).Retries 30000 "prod" "db" (stage PassRun.leaving) [f] b := by
  let a := stage PassRun.leaving
  have read : (readSecret "prod" "scalingo" "token").run.Runs
      [⟨.get "prod" "scalingo" "token", .ok "alpha"⟩] (.ok "alpha") :=
    (runs_readSecret_iff (by decide) (by decide) (by decide)).mpr ⟨.ok "alpha", rfl, rfl⟩
  have opening := Pass.Opening.connected (r := PassRun.leaving) (.ok ()) read
  have finalizing := Pass.Finalizing.deleted (.ok ()) (.error (.conflict "prod/db"))
    (show PassRun.leaving.hasFinalizer = true by decide)
    (show PassRun.leaving.databaseId ≠ "" by decide) opening rfl
  let f : PassRun 30000 "prod" "db" := .found (.finalize rfl finalizing)
  have present : a.remote.databases.get? "db-1" = some pendingDatabase := Dictionary.get?_insert_same _
  have dropped : ((inMemory known).answer ⟨"alpha", "osc-fr1"⟩ (.deleteDatabase "db-1") a.remote).1 =
      .ok () := by
    rw [answer_of_known knows, SimulatedProvider.perform_delete_of_present present]
  have asked := Answers.asked (R := inMemory known) (l := ⟨"alpha", "osc-fr1"⟩) (a := a)
    (.deleteDatabase "db-1")
  rw [dropped] at asked
  obtain ⟨b, serves⟩ : ∃ b, (inMemory known).Serves true .blank a f.trace b :=
    ⟨_, .answer (.got "prod" "db") (.answer (.looked "prod" "scalingo" "token")
      (.answer (.connected "alpha" "osc-fr1") (.answer asked
        (.renumber (some "2") rfl (.failure rfl id (.rest _ _))))))⟩
  exact ⟨f, b, ⟨"db-1", .tail _ (.tail _ (.tail _ (.head _)))⟩, .failed rfl serves (.rest b)⟩

/-- A wait can be overtaken after the connection string is in its secret. -/
theorem exists_handed {wanted : Database} (known : String → Bool) (knows : known "alpha" = true)
    (waiting : r.Pending wanted) (recorded : r.databaseId = "db-1") : ∃ f : PassRun 30000 "prod" "db",
      (inMemory known).Retries 30000 "prod" "db" (stage r) [f] (handed r) := by
  let ready := (r.setProvisioned .epoch).1
  let l : Login := ⟨"alpha", r.spec.region⟩
  have valued : "postgres://db" ≠ "" := by decide
  have awaiting := waiting.awaiting 30000 reachable_pending "alpha" valued (some "2")
    (.error (.conflict "prod/db"))
  let f : PassRun 30000 "prod" "db" :=
    .found (.await waiting.prepared (.inl waiting.recorded) (.inl waiting.unavailable) awaiting)
  have reads {b : Site SimulatedProvider} {c : ProviderCall} {answer : Except ProviderError c.Result}
      (reads : c.Reads) (told : (b.remote.perform c).1 = answer) :
      (inMemory known).Answers l b ⟨.provider c, answer⟩ b := by
    refine .reading steady_inMemory reads ?_
    rw [answer_of_known knows, told]
  have looked := Answers.looked (R := inMemory known) (l := .blank) (a := stage r) r.namespaceName
    r.spec.authSecret.name r.spec.authSecret.key
  have token : (stage r).secrets r.namespaceName r.spec.authSecret.name r.spec.authSecret.key =
      some "alpha" := Vault.put_same .empty ⟨r.namespaceName, _, _, "alpha"⟩
  simp only [lookup, token] at looked
  have found : ((stage r).remote.perform (.getDatabase r.databaseId)).1 = .ok pendingDatabase := by
    rw [recorded]
    rfl
  have kept : (ready.renumbered (some "2")).kept? = some (ready.renumbered (some "2")) :=
    Resource.kept?_of_wanted waiting.prepared.wanted
  have merged : { r with status := ready.status } = ready := rfl
  have renoted := @Answers.statusUpdated _ (inMemory known) l (stage r) r ready (some "2") rfl rfl
  rw [merged, kept] at renoted
  have serves : (inMemory known).Serves true .blank (stage r) f.trace (handed r) :=
    .answer (.got "prod" "db") (.answer looked (.answer (.connected "alpha" r.spec.region)
      (.answer (reads trivial found) (.answer (reads trivial rfl) (.answer (.timed .epoch)
        (.answer (.timed .epoch) (.answer renoted (.answer (reads trivial rfl) (.answer (.saved _ _)
          (.renumber (some "3") rfl (.failure rfl id (.rest _ _))))))))))))
  exact ⟨f, .failed rfl serves (.rest _)⟩

/-- However often a wait or a deletion has failed, and wherever: once nothing fails, the pass comes to its
end, and it ends as it would have without all the passes that failed. The resource is the same but for the
number of its version and the times of its conditions, and the secrets and the databases are the same. If
the database was deleted before, the resource is let go. The provider may look at the token, but if the
connection string is written over it, the provider has to take that as it takes the token. -/
theorem retried {ps : List (PassRun delay namespaceName name)} (steady : R.Steady)
    (due : r.Waits ∨ r.Leaves) (lasting : r.Waits → R.Lasting r a) (current : a.resource = some r)
    (retries : R.Retries delay namespaceName name a ps b) :
    (∃ (p : PassRun delay namespaceName name) (c : Site π), R.Serves false .blank a p.trace c) ∧
      (∃ (q : PassRun delay namespaceName name) (d : Site π), R.Serves false .blank b q.trace d) ∧
      ∀ (p q : PassRun delay namespaceName name) (c d : Site π), R.Serves false .blank a p.trace c →
        R.Serves false .blank b q.trace d → q.result = p.result ∧ d.Like c ∧
          ((∃ f ∈ ps, f.Drops) → q.result = .ok .done ∧ d.Released) := by
  refine ⟨R.exists_pass a delay namespaceName name, R.exists_pass b delay namespaceName name,
    fun p q c d first last => ?_⟩
  have due' : R.Due r a := due.elim (fun waits => .waits waits (lasting waits)) .leaves
  obtain ⟨r', undone⟩ := retries.undone steady current due'
  obtain ⟨result, left⟩ := p.calm first steady current due
  obtain ⟨result', left'⟩ := q.calm last steady undone.current undone.due.phase
  have same : q.result = p.result := (result'.trans undone.result).trans result.symm
  have like : d.Like c := (left'.trans undone.left).trans left.symm
  refine ⟨same, like, fun ⟨f, mem, drops⟩ => ?_⟩
  obtain ⟨done, released⟩ := retries.outcome_eq steady current due' mem drops
  exact ⟨same.trans (result.trans done), like.released (left.released released)⟩

theorem waits_pending : pending.Waits := by
  obtain ⟨wanted, waiting⟩ := pending_pending
  exact waiting.waits (Resource.runningFlag?_setRunningFlag false)

/-- A deletion that was overtaken when the database was gone, and a wait that was overtaken when the
connection string was in its secret, end like those that were not. -/
theorem retried_overtaken :
    let R := inMemory fun _ => true
    (∃ (f p q : PassRun 30000 "prod" "db") (b c d : Site SimulatedProvider), f.Drops ∧
      R.Retries 30000 "prod" "db" (stage PassRun.leaving) [f] b ∧
      R.Serves false .blank (stage PassRun.leaving) p.trace c ∧ R.Serves false .blank b q.trace d ∧
      q.result = p.result ∧ d.Like c ∧ q.result = .ok .done ∧ d.Released) ∧
    ∃ (f p q : PassRun 30000 "prod" "db") (c d : Site SimulatedProvider),
      (handed pending).secrets "prod" "db-url" DatabaseType.postgresql.urlVariable =
        some "postgres://db" ∧
      R.Retries 30000 "prod" "db" (stage pending) [f] (handed pending) ∧
      R.Serves false .blank (stage pending) p.trace c ∧
      R.Serves false .blank (handed pending) q.trace d ∧ q.result = p.result ∧ d.Like c := by
  intro R
  constructor
  · obtain ⟨f, b, drops, retries⟩ := exists_dropped (fun _ => true) rfl
    obtain ⟨⟨p, c, first⟩, ⟨q, d, last⟩, same⟩ := retried steady_inMemory
      (.inr ⟨rfl, by decide⟩) (fun _ => lasting_inMemory _) rfl retries
    obtain ⟨result, like, after⟩ := same p q c d first last
    obtain ⟨done, released⟩ := after ⟨f, List.mem_singleton.mpr rfl, drops⟩
    exact ⟨f, p, q, b, c, d, drops, retries, first, last, result, like, done, released⟩
  · obtain ⟨wanted, waiting⟩ := pending_pending
    obtain ⟨f, retries⟩ := exists_handed (fun _ => true) rfl waiting Resource.databaseId_setInitial
    obtain ⟨⟨p, c, first⟩, ⟨q, d, last⟩, same⟩ := retried steady_inMemory
      (.inl waits_pending) (fun _ => lasting_inMemory _) rfl retries
    obtain ⟨result, like, _⟩ := same p q c d first last
    exact ⟨f, p, q, c, d, Vault.put_same (stage pending).secrets pendingSecret, retries, first, last,
      result, like⟩

/-- The sample, with its connection string to be written over its token. -/
def overwriting : Resource :=
  { pending with spec.authSecret := ⟨"db-url", DatabaseType.postgresql.urlVariable⟩ }

theorem pending_overwriting : ∃ wanted, overwriting.Pending wanted := by
  obtain ⟨wanted, prepared, recorded, unavailable, creatable, targeted⟩ := pending_pending
  exact ⟨wanted, ⟨prepared.wanted, prepared.guarded, prepared.initialized, prepared.flagged⟩, recorded,
    unavailable, ⟨creatable.valid, creatable.located, by decide, by decide⟩, targeted⟩

/-- A provider that knows only the token refuses the connection string in its place: the pass that is not
overtaken hands over, and the one that comes after a pass that was overtaken fails. -/
theorem not_always_retried :
    let R := inMemory fun token => token = "alpha"
    R.Steady ∧ overwriting.Waits ∧ ∃ (f p q : PassRun 30000 "prod" "db") (c d : Site SimulatedProvider),
      R.Retries 30000 "prod" "db" (stage overwriting) [f] (handed overwriting) ∧
      R.Serves false .blank (stage overwriting) p.trace c ∧
      R.Serves false .blank (handed overwriting) q.trace d ∧
      p.result = .ok .done ∧ q.result = .error
        (.phase "wait for database" (.provider "get database" (.api 401 "invalid token"))) := by
  intro R
  obtain ⟨wanted, waiting⟩ := pending_overwriting
  have waits := waiting.waits (Resource.runningFlag?_setRunningFlag (r := pending) false)
  obtain ⟨f, retries⟩ := exists_handed (fun token => token = "alpha") (by decide) waiting
    Resource.databaseId_setInitial
  obtain ⟨p, c, first⟩ := R.exists_pass (stage overwriting) 30000 "prod" "db"
  obtain ⟨q, d, last⟩ := R.exists_pass (handed overwriting) 30000 "prod" "db"
  refine ⟨steady_inMemory, waits, f, p, q, c, d, retries, first, last, ?_, ?_⟩
  · have done : (R.outcome 30000 overwriting (stage overwriting)).1 = .ok .done := rfl
    exact (p.calm first steady_inMemory rfl (.inl waits)).1.trans done
  · have waits' := waits.setProvisioned.of_timeless
      (Resource.timeless_renumbered (r := (overwriting.setProvisioned .epoch).1) (some "3"))
    have refused : (R.outcome 30000 ((overwriting.setProvisioned .epoch).1.renumbered (some "3"))
        (handed overwriting)).1 = .error (.phase "wait for database"
          (.provider "get database" (.api 401 "invalid token"))) := rfl
    exact (q.calm last steady_inMemory rfl (.inl waits')).1.trans refused

end Counterpart

end DatabaseOperator
