import DatabaseOperator.Proofs.Counterpart.Reading

namespace DatabaseOperator

variable {π : Type} {R : Counterpart π} {l : Login} {a b c : Site π} {r r' : Resource}
  {t u : List (Exchange pass)} {db : Database} {delay : Nat} {res : Except Error Requeue} {err : Error} {url : ConnectionUrl}
  {times : List Time}

namespace Counterpart

/-- What the handing over of a running database comes to, and what there is then. -/
def hand (R : Counterpart π) (l : Login) (db : Database) (r : Resource) (a : Site π) :
    Except Error Requeue × Site π :=
  match R.ask l a.remote (Manager.connectionUrl db) with
  | .error e => (.error e, a)
  | .ok url =>
    match R.look a.secrets (writeSecret (r.connectionSecret url) r.owner?) with
    | .error e => (.error (.phase "write connection secret" e), a)
    | .ok _ => (.ok .done, { a with
        resource := some (r.setRunningFlag true)
        secrets := a.secrets.put (r.connectionSecret url) })

/-- What the wait for a database comes to, and what there is then. -/
def wait (R : Counterpart π) (delay : Nat) (r : Resource) (a : Site π) :
    Except Error Requeue × Site π :=
  match R.opened r a.secrets a.remote with
  | .error e => (.error e, a)
  | .ok _ =>
    match R.ask (r.login a.secrets) a.remote (Manager.get r.databaseId) with
    | .error e => (.error e, a)
    | .ok db =>
      if db.isRunning then
        let ready := (r.setProvisioned .epoch).1
        R.hand (r.login a.secrets) db ready { a with resource := some ready }
      else (.ok (.after delay), a)

/-- The database is there, and the wait finds it running. -/
structure Ready (R : Counterpart π) (r : Resource) (a : Site π) (db : Database) : Prop where
  opened : R.opened r a.secrets a.remote = .ok ()
  read : R.ask (r.login a.secrets) a.remote (Manager.get r.databaseId) = .ok db
  running : db.isRunning = true

/-- The connection string of the resource can be written. -/
structure Handing (R : Counterpart π) (l : Login) (r : Resource) (a : Site π) (db : Database)
    (url : ConnectionUrl) : Prop where
  named : R.ask l a.remote (Manager.connectionUrl db) = .ok url
  written : R.look a.secrets (writeSecret (r.connectionSecret url) r.owner?) = .ok ()

/-- What waits that fail leave behind. -/
inductive Waited (R : Counterpart π) (r : Resource) (a b : Site π) : Prop
  | still : b.Like a → Waited R r a b
  | noted {db : Database} : R.Ready r a db →
      b.Like { a with resource := some (r.setProvisioned .epoch).1 } → Waited R r a b
  | handed {db : Database} {url : ConnectionUrl} : R.Ready r a db →
      R.Handing (r.login a.secrets) r a db url →
      b.Like { a with
        resource := some (r.setProvisioned .epoch).1
        secrets := a.secrets.put (r.connectionSecret url) } → Waited R r a b

end Counterpart

namespace Pass

open Counterpart

/-- In calm times, the handing over comes to what it should. -/
theorem HandingOver.calm (h : HandingOver r db u res) (serves : R.Serves false l a u b)
    (steady : R.Steady) (current : a.resource = some r) (wanted : r.isDeletionRequested = false) :
    res = (R.hand l db r a).1 ∧ b.Like (R.hand l db r a).2 := by
  cases h with
  | unnamed named =>
    obtain ⟨asked, like, _⟩ := serves.asks steady Manager.reads_connectionUrl named (.inl rfl)
    unfold hand
    rw [asked]
    exact ⟨rfl, like⟩
  | @unsaved p s url e named written =>
    obtain ⟨b₁, first, second⟩ := serves.of_append
    obtain ⟨asked, _, same⟩ := first.asks steady Manager.reads_connectionUrl named (.inl rfl)
    obtain rfl := same rfl
    obtain ⟨like, _, told⟩ := second.of_idle steady (idle_of_unsaved written)
    have told := told (after_ofSecret s)
    have looked := R.look_of_runs written fun e mem => told e mem (.inl rfl)
    unfold hand
    simp only [asked, looked]
    exact ⟨trivial, like⟩
  | @saved p s url stored named written =>
    obtain ⟨b₁, first, rest⟩ := serves.of_append
    obtain ⟨asked, _, same⟩ := first.asks steady Manager.reads_connectionUrl named (.inl rfl)
    obtain rfl := same rfl
    obtain rfl := trace_of_writeSecret written
    obtain ⟨b₂, answers, last⟩ := rest.of_calm
    have looked : R.look b₁.secrets (writeSecret (r.connectionSecret url) r.owner?) = .ok () :=
      look_of_written written
    cases answers with
    | saved =>
      obtain ⟨⟨x, rfl⟩, like⟩ := last.of_update current rfl rfl
      unfold hand
      simp only [asked, looked]
      refine ⟨rfl, ?_⟩
      rw [Resource.kept?_of_wanted (r := r.setRunningFlag true) wanted] at like
      exact like

/-- A handing over that fails has done nothing, or it has written the connection string. -/
theorem HandingOver.troubled (h : HandingOver r db u (.error err)) (serves : R.Serves true l a u b)
    (steady : R.Steady) : b.Like a ∨ ∃ url, R.Handing l r a db url ∧
      b.Like { a with secrets := a.secrets.put (r.connectionSecret url) } := by
  generalize eq : Except.error err = res at h
  cases h with
  | unnamed named =>
    exact .inl (serves.of_idle steady (idle_ofProvider Manager.reads_connectionUrl named)).1
  | unsaved named written =>
    obtain ⟨b₁, first, second⟩ := serves.of_append
    have like := (first.of_idle steady (idle_ofProvider Manager.reads_connectionUrl named)).1
    exact .inl ((second.of_idle steady (idle_of_unsaved written)).1.trans like)
  | @saved p s url stored named written =>
    obtain ⟨b₁, first, rest⟩ := serves.of_append
    obtain ⟨asked, like, _⟩ := first.asks steady Manager.reads_connectionUrl named
      (.inr (granted_of_connectionUrl named))
    obtain rfl := trace_of_writeSecret written
    obtain ⟨b₂, b₃, like', _, answers, last⟩ := rest.of_granted trivial
    have looked : R.look a.secrets (writeSecret (r.connectionSecret url) r.owner?) = .ok () :=
      look_of_written written
    cases stored with
    | ok x => cases eq
    | error f =>
      have unstored := (last.of_idle steady Exchange.idle_of_refused).1
      cases answers with
      | saved =>
        have before := like'.trans like
        refine .inr ⟨url, ⟨asked, looked⟩, unstored.trans ⟨before.resource, ?_, before.remote⟩⟩
        exact congrArg (Vault.put · (r.connectionSecret url)) before.secrets

end Pass

namespace Resource

/-- What is said alike has its connection string in one place, under one owner. -/
theorem connectionSecret_of_concurs (concurs : r.Concurs r') (url : ConnectionUrl) :
    r'.connectionSecret url = r.connectionSecret url := by
  unfold connectionSecret
  rw [concurs.located, concurs.spec]

end Resource

namespace Counterpart

theorem hand_congr (same : r'.timeless = r.timeless) (like : b.Like a) :
    (R.hand l db r' b).1 = (R.hand l db r a).1 ∧ (R.hand l db r' b).2.Like (R.hand l db r a).2 := by
  have concurs := Resource.concurs_of_timeless same
  have flagged : (r'.setRunningFlag true).timeless = (r.setRunningFlag true).timeless :=
    congrArg (Resource.setRunningFlag true) same
  unfold hand
  simp only [like.remote, like.secrets, Resource.connectionSecret_of_concurs concurs, concurs.owner]
  split
  next => exact ⟨rfl, like⟩
  split
  next => exact ⟨rfl, like⟩
  next => exact ⟨rfl, congrArg some flagged, rfl, rfl⟩

theorem wait_congr (delay : Nat) (same : r'.timeless = r.timeless) (like : b.Like a) :
    (R.wait delay r' b).1 = (R.wait delay r a).1 ∧
      (R.wait delay r' b).2.Like (R.wait delay r a).2 := by
  have concurs := Resource.concurs_of_timeless same
  have ready := Resource.timeless_setProvisioned_eq same .epoch .epoch
  unfold wait
  rw [opened_congr concurs like.secrets like.remote, Resource.login_of_concurs concurs,
    concurs.recorded, like.secrets, like.remote]
  split
  next => exact ⟨rfl, like⟩
  split
  next => exact ⟨rfl, like⟩
  split
  next => exact hand_congr ready ⟨congrArg some ready, rfl, rfl⟩
  next => exact ⟨rfl, like⟩

theorem Ready.congr (h : R.Ready r' b db) (concurs : r.Concurs r') (secrets : b.secrets = a.secrets)
    (remote : b.remote = a.remote) : R.Ready r a db := by
  obtain ⟨opened, read, running⟩ := h
  rw [opened_congr concurs secrets remote] at opened
  rw [Resource.login_of_concurs concurs, concurs.recorded, secrets, remote] at read
  exact ⟨opened, read, running⟩

theorem Handing.congr (h : R.Handing l r' b db url) (concurs : r.Concurs r')
    (secrets : b.secrets = a.secrets) (remote : b.remote = a.remote) : R.Handing l r a db url := by
  obtain ⟨named, written⟩ := h
  rw [remote] at named
  rw [secrets, Resource.connectionSecret_of_concurs concurs, concurs.owner] at written
  exact ⟨named, written⟩

/-- The wait goes on to hand over what is there and runs. -/
theorem Ready.wait_eq (h : R.Ready r a db) :
    R.wait delay r a = R.hand (r.login a.secrets) db (r.setProvisioned .epoch).1
      { a with resource := some (r.setProvisioned .epoch).1 } := by
  unfold wait
  simp only [h.opened, h.read, h.running, if_true]

end Counterpart

namespace Pass

open Counterpart

/-- What was read before the wait goes on is how things are. -/
theorem ready_of_serves {troubled : Bool} {p : List (Exchange provider)} (steady : R.Steady)
    (opening : Opening r t (.ok ())) (read : (Manager.get r.databaseId).run.Runs p (.ok db))
    (running : db.isRunning = true)
    (serves : R.Serves troubled l a (t ++ (p.map .ofProvider ++ (ticks times ++ u))) b) :
    R.Ready r a db ∧ ∃ b₁, b₁.Like a ∧ (troubled = false → b₁ = a) ∧
      R.Serves troubled (r.login a.secrets) b₁ u b := by
  obtain ⟨opened, a₁, like₁, same₁, rest⟩ := serves.of_opening steady opening
  obtain ⟨a₂, second, rest⟩ := rest.of_append
  rw [foldl_after_ofProvider] at rest
  obtain ⟨asked, like₂, same₂⟩ := second.asks steady Manager.reads_get read (.inr (granted_of_get read))
  obtain ⟨a₃, third, after⟩ := rest.of_append
  rw [foldl_after_ticks] at after
  obtain ⟨like₃, same₃, _⟩ := third.of_idle steady (idle_ticks times)
  rw [like₁.remote] at asked
  exact ⟨⟨opened, asked, running⟩, a₃, like₃.trans (like₂.trans like₁),
    fun calm => (same₃ calm).trans ((same₂ calm).trans (same₁ calm)), after⟩

/-- In calm times, the wait comes to what it should. -/
theorem Awaiting.calm (h : Awaiting delay r t res) (serves : R.Serves false l a t b)
    (steady : R.Steady) (current : a.resource = some r) (wanted : r.isDeletionRequested = false) :
    res = (R.wait delay r a).1 ∧ b.Like (R.wait delay r a).2 := by
  cases h with
  | closed opening =>
    obtain ⟨opened, like, _, _⟩ := serves.opens steady opening (.inl rfl)
    unfold wait
    rw [opened]
    exact ⟨rfl, like⟩
  | unread opening unread =>
    obtain ⟨opened, b₁, _, same, rest⟩ := serves.of_opening steady opening
    obtain rfl := same rfl
    obtain ⟨asked, like, _⟩ := rest.asks steady Manager.reads_get unread (.inl rfl)
    unfold wait
    simp only [opened, asked]
    exact ⟨trivial, like⟩
  | early opening read resting =>
    obtain ⟨opened, b₁, _, same, rest⟩ := serves.of_opening steady opening
    obtain rfl := same rfl
    obtain ⟨asked, like, _⟩ := rest.asks steady Manager.reads_get read (.inl rfl)
    unfold wait
    simp only [opened, asked, resting]
    exact ⟨rfl, like⟩
  | noted now opening read running unchanged handing =>
    obtain ⟨ready, b₁, _, same, after⟩ := ready_of_serves steady opening read running serves
    obtain rfl := same rfl
    have settled : (r.setProvisioned .epoch).1 = r :=
      (Resource.settled_iff.mpr unchanged).setProvisioned_eq .epoch
    rw [ready.wait_eq, settled, ← current]
    exact handing.calm after steady current wanted
  | unnoted now e opening read running differs =>
    obtain ⟨_, b₁, _, same, after⟩ := ready_of_serves steady opening read running serves
    obtain rfl := same rfl
    exact absurd after (Serves.not_refused (.inr rfl) current rfl)
  | renoted now stored opening read running differs handing =>
    obtain ⟨ready, b₁, _, same, after⟩ := ready_of_serves steady opening read running serves
    obtain rfl := same rfl
    obtain ⟨b₂, current', said, secrets, remote, last⟩ :=
      after.of_updateStatus (congrArg (Option.map Resource.timeless) current) wanted rfl rfl
    have said' : stored.timeless = (r.setProvisioned .epoch).1.timeless :=
      said.trans (Resource.timeless_setProvisioned_eq rfl now .epoch)
    have wanted' : stored.isDeletionRequested = false :=
      (Resource.concurs_of_timeless said').deletion.trans wanted
    have like : b₂.Like { b₁ with resource := some (r.setProvisioned .epoch).1 } := by
      refine ⟨?_, secrets, remote⟩
      rw [current']
      exact congrArg some said'
    obtain ⟨ended, left⟩ := handing.calm last steady current' wanted'
    rw [ready.wait_eq]
    exact ⟨ended.trans (hand_congr said' like).1, left.trans (hand_congr said' like).2⟩

/-- What a wait that fails leaves behind. -/
theorem Awaiting.troubled (h : Awaiting delay r t (.error err)) (serves : R.Serves true l a t b)
    (steady : R.Steady) (current : a.resource = some r) (wanted : r.isDeletionRequested = false) :
    R.Waited r a b := by
  generalize eq : Except.error err = res at h
  cases h with
  | closed opening => exact .still (serves.of_idle steady opening.idle).1
  | unread opening unread =>
    obtain ⟨b₁, first, second⟩ := serves.of_append
    have like := (first.of_idle steady opening.idle).1
    exact .still ((second.of_idle steady (idle_ofProvider Manager.reads_get unread)).1.trans like)
  | early => cases eq
  | noted now opening read running unchanged handing =>
    cases eq
    obtain ⟨ready, b₁, like, _, after⟩ := ready_of_serves steady opening read running serves
    rcases handing.troubled after steady with nothing | ⟨url, handed, left⟩
    · exact .still (nothing.trans like)
    have settled : (r.setProvisioned .epoch).1 = r :=
      (Resource.settled_iff.mpr unchanged).setProvisioned_eq .epoch
    refine .handed ready (handed.congr (.refl r) like.secrets like.remote) (left.trans ⟨?_, ?_, like.remote⟩)
    · rw [settled, ← current]
      exact like.resource
    · exact congrArg (Vault.put · (r.connectionSecret url)) like.secrets
  | unnoted now e opening read running differs =>
    obtain ⟨_, b₁, like, _, after⟩ := ready_of_serves steady opening read running serves
    exact .still ((after.of_idle steady Exchange.idle_of_refused).1.trans like)
  | renoted now stored opening read running differs handing =>
    cases eq
    obtain ⟨ready, b₁, like, _, after⟩ := ready_of_serves steady opening read running serves
    have kept : b₁.resource.map Resource.timeless = some r.timeless := by
      rw [like.resource, current]
      rfl
    obtain ⟨b₂, current', said, secrets, remote, last⟩ := after.of_updateStatus kept wanted rfl rfl
    have said' : stored.timeless = (r.setProvisioned .epoch).1.timeless :=
      said.trans (Resource.timeless_setProvisioned_eq rfl now .epoch)
    have noted : b₂.Like { a with resource := some (r.setProvisioned .epoch).1 } := by
      refine ⟨?_, secrets.trans like.secrets, remote.trans like.remote⟩
      rw [current']
      exact congrArg some said'
    have concurs : r.Concurs stored :=
      (Resource.concurs_setProvisioned r .epoch).trans (Resource.concurs_of_timeless said')
    rcases handing.troubled last steady with nothing | ⟨url, handed, left⟩
    · exact .noted ready (nothing.trans noted)
    · refine .handed ready (handed.congr concurs noted.secrets noted.remote)
        (left.trans ⟨noted.resource, ?_, noted.remote⟩)
      rw [← Resource.connectionSecret_of_concurs concurs url]
      exact congrArg (Vault.put · (stored.connectionSecret url)) noted.secrets

end Pass

/-- The connection string goes to another place than the one that the token comes from. -/
def Resource.KeepsToken (r : Resource) : Prop :=
  r.spec.connectionTarget.name = r.spec.authSecret.name →
    connectionKey (r.spec.connectionTarget.keyStart.getD "") DatabaseType.postgresql.urlVariable ≠
      r.spec.authSecret.key

theorem Resource.KeepsToken.of_concurs (h : r.KeepsToken) (concurs : r.Concurs r') : r'.KeepsToken := by
  unfold KeepsToken
  rw [concurs.spec]
  exact h

theorem Vault.put_put (σ : Vault) (s : Secret) : (σ.put s).put s = σ.put s := by
  funext namespaceName name key
  unfold put
  split <;> rfl

/-- The connection string is the token from now on when it is written over it, and the login stays the
same otherwise. -/
theorem Resource.login_put (r : Resource) (σ : Vault)
    (named : url.name = DatabaseType.postgresql.urlVariable) :
    r.login (σ.put (r.connectionSecret url)) = r.login σ ∨ ¬ r.KeepsToken ∧
      r.login (σ.put (r.connectionSecret url)) = ⟨url.value, r.spec.region⟩ := by
  by_cases overwrites : r.spec.connectionTarget.name = r.spec.authSecret.name ∧
      connectionKey (r.spec.connectionTarget.keyStart.getD "") url.name = r.spec.authSecret.key
  · refine .inr ⟨fun keeps => ?_, login_eq (if_pos ⟨rfl, overwrites.1.symm, overwrites.2.symm⟩)⟩
    rw [named] at overwrites
    exact keeps overwrites.1 overwrites.2
  · refine .inl ?_
    have kept : σ.put (r.connectionSecret url) r.namespaceName r.spec.authSecret.name
        r.spec.authSecret.key = σ r.namespaceName r.spec.authSecret.name r.spec.authSecret.key :=
      if_neg fun same => overwrites ⟨same.2.1.symm, same.2.2.symm⟩
    unfold login
    rw [kept]

namespace Counterpart

/-- The provider answers two connections alike, as far as it only reads. -/
structure Alike (R : Counterpart π) (x : π) (l l' : Login) : Prop where
  connect : R.connect l' x = R.connect l x
  reads : ∀ c : ProviderCall, c.Reads → R.providerAnswer l' x c = R.providerAnswer l x c

namespace Alike

variable {x : π} {l₁ l₂ l₃ : Login}

theorem refl (l : Login) : R.Alike x l l :=
  ⟨rfl, fun _ _ => rfl⟩

theorem symm (h : R.Alike x l₁ l₂) : R.Alike x l₂ l₁ :=
  ⟨h.connect.symm, fun c reads => (h.reads c reads).symm⟩

theorem trans (h : R.Alike x l₁ l₂) (g : R.Alike x l₂ l₃) : R.Alike x l₁ l₃ :=
  ⟨g.connect.trans h.connect, fun c reads => (g.reads c reads).trans (h.reads c reads)⟩

theorem ask_eq {α : Type} {task : ProviderTask α} (h : R.Alike x l₁ l₂)
    (reads : task.run.Only ProviderCall.Reads) : R.ask l₂ x task = R.ask l₁ x task := by
  obtain ⟨t, runs, told⟩ := task.run.runs_under (R.providerAnswer l₂ x)
  exact runs.eq_under fun e mem => (told e mem).trans (h.reads e.call (reads _ _ runs e mem))

end Alike

/-- If the connection string is to be written over the token, the provider takes it as it takes the
token. -/
def Lasting (R : Counterpart π) (r : Resource) (a : Site π) : Prop :=
  r.KeepsToken ∨ ∀ db url, R.Ready r a db → R.Handing (r.login a.secrets) r a db url →
    R.Alike a.remote (r.login a.secrets) ⟨url.value, r.spec.region⟩

theorem Lasting.alike (lasting : R.Lasting r a) (ready : R.Ready r a db)
    (handing : R.Handing (r.login a.secrets) r a db url) :
    R.Alike a.remote (r.login a.secrets) (r.login (a.secrets.put (r.connectionSecret url))) := by
  rcases r.login_put a.secrets (name_of_ask handing.named) with same | ⟨overwrites, replaced⟩
  · rw [same]
    exact .refl _
  · rw [replaced]
    exact lasting.resolve_left overwrites db url ready handing

/-- What was ready is ready when a secret has been written that the provider takes alike. -/
theorem Ready.put {s : Secret} (h : R.Ready r a db)
    (alike : R.Alike a.remote (r.login a.secrets) (r.login (a.secrets.put s))) :
    R.Ready r { a with secrets := a.secrets.put s } db := by
  obtain ⟨addressed, token, found, connected⟩ := opened_iff.mp h.opened
  obtain ⟨token', found'⟩ : ∃ token', a.secrets.put s r.namespaceName r.spec.authSecret.name
      r.spec.authSecret.key = some token' := by
    unfold Vault.put
    split
    next => exact ⟨_, rfl⟩
    next => exact ⟨token, found⟩
  have connected' := alike.connect
  rw [Resource.login_eq found, Resource.login_eq found', connected] at connected'
  exact ⟨opened_iff.mpr ⟨addressed, token', found', connected'⟩,
    (alike.ask_eq Manager.reads_get).trans h.read, h.running⟩

theorem Handing.put {s : Secret} {l' : Login} (h : R.Handing l r a db url) (alike : R.Alike a.remote l l') :
    R.Handing l' r { a with secrets := a.secrets.put s } db url :=
  ⟨(alike.ask_eq Manager.reads_connectionUrl).trans h.named,
    look_writeSecret_iff.mpr (look_writeSecret_iff.mp h.written)⟩

/-- What lasts before a wait that fails lasts after it. -/
theorem Lasting.of_waited (lasting : R.Lasting r a) (h : R.Waited r a b) (concurs : r.Concurs r') :
    R.Lasting r' b := by
  refine lasting.imp (·.of_concurs concurs) fun taken db' url' ready' handing' => ?_
  rw [Resource.login_of_concurs concurs] at handing' ⊢
  rw [concurs.spec]
  cases h with
  | still like | noted _ like =>
    rw [like.secrets] at handing' ⊢
    rw [like.remote]
    exact taken db' url' (ready'.congr concurs like.secrets like.remote)
      (handing'.congr concurs like.secrets like.remote)
  | @handed db url ready handing like =>
    have alike := Lasting.alike lasting ready handing
    rw [like.secrets] at handing' ⊢
    rw [like.remote]
    -- the same database is found again, and the same string is handed over
    have ready' := ready'.congr (a := { a with secrets := a.secrets.put (r.connectionSecret url) })
      concurs like.secrets like.remote
    have handing' := handing'.congr (a := { a with secrets := a.secrets.put (r.connectionSecret url) })
      concurs like.secrets like.remote
    obtain rfl : db' = db := Except.ok.inj
      (ready'.read.symm.trans ((alike.ask_eq Manager.reads_get).trans ready.read))
    obtain rfl : url' = url := Except.ok.inj
      (handing'.named.symm.trans ((alike.ask_eq Manager.reads_connectionUrl).trans handing.named))
    exact alike.symm.trans (taken db' url' ready handing)

/-- The wait goes on to the same end when all that was noted is that the database is there. -/
theorem Ready.wait_noted (h : R.Ready r a db) :
    let ready := (r.setProvisioned .epoch).1
    let b : Site π := { a with resource := some ready }
    R.wait delay ready b = R.hand (r.login a.secrets) db ready b := by
  intro ready b
  have concurs : r.Concurs ready := Resource.concurs_setProvisioned r .epoch
  have settled : (ready.setProvisioned .epoch).1 = ready :=
    Resource.settled_setProvisioned.setProvisioned_eq .epoch
  have again : R.Ready ready b db := h.congr concurs.symm rfl rfl
  rw [again.wait_eq, settled, Resource.login_of_concurs concurs]

theorem Handing.hand_eq (h : R.Handing l r a db url) : R.hand l db r a = (.ok .done, { a with
    resource := some (r.setRunningFlag true), secrets := a.secrets.put (r.connectionSecret url) }) := by
  unfold hand
  simp only [h.named, h.written]

/-- A wait comes to the same after one that has failed. -/
theorem Waited.wait_eq (h : R.Waited r a b) (delay : Nat) (lasting : R.Lasting r a)
    (current : a.resource = some r) (current' : b.resource = some r') :
    (R.wait delay r' b).1 = (R.wait delay r a).1 ∧
      (R.wait delay r' b).2.Like (R.wait delay r a).2 := by
  let ready := (r.setProvisioned .epoch).1
  cases h with
  | still like => exact wait_congr delay (like.timeless current' current) like
  | noted found like =>
    have same := wait_congr (R := R) delay (like.timeless current' rfl) like
    rw [found.wait_noted] at same
    rw [found.wait_eq]
    exact same
  | @handed db url found handing like =>
    have alike := lasting.alike found handing
    have same := wait_congr (R := R) delay (like.timeless current' rfl) like
    rw [(found.put alike).wait_noted] at same
    -- both hand over the same string, the second time to where it is already
    have first : R.Handing (r.login a.secrets) ready { a with resource := some ready } db url :=
      ⟨handing.named, handing.written⟩
    have second := first.put (s := r.connectionSecret url) alike
    rw [second.hand_eq] at same
    rw [found.wait_eq, first.hand_eq]
    refine ⟨same.1, same.2.trans ⟨rfl, ?_, rfl⟩⟩
    exact Vault.put_put a.secrets (r.connectionSecret url)

end Counterpart

end DatabaseOperator
