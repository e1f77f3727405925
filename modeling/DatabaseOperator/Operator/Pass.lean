import DatabaseOperator.Provider.Manager
import DatabaseOperator.Resource.Lifecycle
import DatabaseOperator.Store.Secrets

namespace DatabaseOperator

/-- What a pass can ask: the stores, the provider once it is connected, and the time. -/
inductive PassCall
  | resource (c : ResourceCall)
  | secret (c : SecretCall)
  | connect (token region : String)
  | provider (c : ProviderCall)
  | now

def pass : Interface where
  Call := PassCall
  Answer
    | .resource c => Except StoreError c.Result
    | .secret c => Except StoreError c.Result
    | .connect _ _ => Except ProviderError Unit
    | .provider c => Except ProviderError c.Result
    | .now => Time

abbrev PassTask (α : Type) : Type :=
  ExceptT Error (Dialogue pass) α

/-- When to run a pass again; a delay is in milliseconds. -/
inductive Requeue
  | now
  | after (delay : Nat)
  | done
  deriving DecidableEq, Repr

namespace Pass

def resource (action : String) (c : ResourceCall) : PassTask c.Result :=
  ExceptT.mk do
    let r ← Dialogue.call (I := pass) (.resource c)
    pure (r.mapError (Wrap.wrap action))

def connect (token region : String) : PassTask Unit :=
  ExceptT.mk do
    let r ← Dialogue.call (I := pass) (.connect token region)
    pure (r.mapError (Wrap.wrap "create database manager"))

def now : PassTask Time :=
  ExceptT.lift (Dialogue.call (I := pass) .now)

/-- The clock is read anew for each condition. -/
def times : PassTask Times := do
  let available ← now
  let provisioning ← now
  pure ⟨available, provisioning⟩

/-- Work with the store of secrets as a part of a pass. -/
def secretTask {α : Type} (task : SecretTask α) : PassTask α :=
  ExceptT.mk (task.run.serve fun c => Dialogue.call (I := pass) (.secret c))

/-- Work with the connected provider as a part of a pass. -/
def providerTask {α : Type} (task : ProviderTask α) : PassTask α :=
  ExceptT.mk (task.run.serve fun c => Dialogue.call (I := pass) (.provider c))

/-- Connects to the provider in the declared region with the token from the declared secret. -/
def openProvider (r : Resource) : PassTask Unit := do
  let token ← inPhase "get auth secret"
    (secretTask (readSecret r.namespaceName r.spec.authSecret.name r.spec.authSecret.key))
  connect token r.spec.region

/-- Deletes a database; one that is not there counts as deleted. -/
def deleteDatabase (id : String) : PassTask Unit :=
  ExceptT.mk do
    match ← (providerTask (Manager.delete id)).run with
    | .ok () => pure (.ok ())
    | .error e => pure (if e.isNotFound then .ok () else .error e)

/-- Deletes the remote database, if one was created, and then removes the finalizer. -/
def finalize (r : Resource) : PassTask Requeue := do
  if !r.hasFinalizer then pure .done
  else
    if !r.databaseId.isEmpty then
      openProvider r
      deleteDatabase r.databaseId
    let _ ← resource "remove finalizer" (.update r.removeFinalizer)
    pure .done

/-- The declared database, before anything is asked of anyone. -/
def desired (r : Resource) : PassTask Database :=
  match r.spec.database with
  | .ok db => pure db
  | .error e => throw (Wrap.wrap "translate database spec" e)

def create (delay : Nat) (r : Resource) : PassTask Requeue := do
  let wanted ← desired r
  openProvider r
  let created ← providerTask (Manager.create wanted)
  requireText "created database id" created.id
  let time ← now
  let _ ← resource "update status" (.updateStatus ((r.setDatabaseId created.id).setProvisioning time).1)
  pure (.after delay)

/-- Hands over a running database: the connection string goes into the declared secret, and then the
running flag is set. -/
def handOver (r : Resource) (db : Database) : PassTask Requeue := do
  let url ← providerTask (Manager.connectionUrl db)
  let target := r.spec.connectionTarget
  let secret : Secret :=
    ⟨r.namespaceName, target.name, connectionKey (target.keyStart.getD "") url.name, url.value⟩
  inPhase "write connection secret" (secretTask (writeSecret secret r.owner?))
  let _ ← resource "set running annotation" (.update (r.setRunningFlag true))
  pure .done

def awaitRunning (delay : Nat) (r : Resource) : PassTask Requeue := do
  openProvider r
  let db ← providerTask (Manager.get r.databaseId)
  if !db.isRunning then pure (.after delay)
  else
    let now ← times
    match r.setProvisioned now with
    | (_, false) => handOver r db
    | (ready, true) =>
      let stored ← resource "update status" (.updateStatus ready)
      handOver stored db

/-- Waits for a change of plan in flight before anything else is touched. -/
def awaitPlan (delay : Nat) (r : Resource) : PassTask Requeue := do
  let db ← providerTask (Manager.get r.databaseId)
  if !db.isRunning then pure (.after delay)
  else
    let now ← times
    let _ ← resource "update status" (.updateStatus (r.setProvisioned now).1)
    pure .now

def update (delay : Nat) (r : Resource) : PassTask Requeue := do
  let wanted ← desired r
  openProvider r
  if r.isProvisioning then awaitPlan delay r
  else
    match ← providerTask (Manager.update r.databaseId wanted) with
    | .provisioning =>
      let time ← now
      let _ ← resource "update status" (.updateStatus (r.setProvisioning time).1)
      pure (.after delay)
    | _ =>
      let now ← times
      match r.setProvisioned now with
      | (_, false) => pure .done
      | (ready, true) =>
        let _ ← resource "update status" (.updateStatus ready)
        pure .done

/-- The step that a stored resource is due for. A step that fails is tried again by the next pass. -/
def step (delay : Nat) (r : Resource) : PassTask Requeue := do
  if r.isDeletionRequested then inPhase "finalize" (finalize r)
  else
    match r.addFinalizer? with
    | some marked =>
      let _ ← resource "add finalizer" (.update marked)
      pure .now
    | none =>
      if !r.isInitialized then
        let now ← times
        let _ ← resource "init status" (.updateStatus (r.setInitial now).1)
        pure .now
      else if r.runningFlag?.isNone then
        let _ ← resource "init running annotation" (.update (r.setRunningFlag false))
        pure .now
      else if r.databaseId.isEmpty && !r.isRunning then
        inPhase "create database" (create delay r)
      else if !r.isAvailable || !r.isRunning then
        inPhase "wait for database" (awaitRunning delay r)
      else inPhase "update database" (update delay r)

/-- A pass over the resource with a name; one that is gone needs nothing. -/
def run (delay : Nat) (namespaceName name : String) : PassTask Requeue := do
  match ← resource "get resource" (.get namespaceName name) with
  | none => pure .done
  | some r => step delay r

end Pass

end DatabaseOperator
