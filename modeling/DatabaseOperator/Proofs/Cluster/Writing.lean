import DatabaseOperator.Proofs.Cluster.Secret

namespace DatabaseOperator

namespace Cluster

variable {α β : Type} {method : Method} {collection name object target : String} {body : Option Json}
  {decode : Decoder α}

/-- What the answer to a request for an object means. -/
def heard (decode : Decoder α) : Option Response → Except ClusterFault α
  | none => .error .other
  | some r =>
    if isRefusal r then .error (refusal r)
    else
      match (Json.read r.body).bind decode with
      | some a => .ok a
      | none => .error .other

/-- Sends a request, if it can be sent, and goes on with what its answer means. -/
def asking (method : Method) (target : String) (body : Option Json) (decode : Decoder α)
    (next : Except ClusterFault α → Dialogue cluster β) : Dialogue cluster β :=
  match target? target with
  | none => next (.error .other)
  | some t => .ask ⟨method, t, body⟩ fun answer => next (heard decode answer)

theorem heard_of_refused {answer : Option Response} (refused : ∀ r, answer = some r → isRefusal r = true) :
    ∃ fault, heard decode answer = .error fault := by
  cases answer with
  | none => exact ⟨.other, rfl⟩
  | some r => exact ⟨refusal r, if_pos (refused r rfl)⟩

theorem asking_eq_ask {t : String} {next : Except ClusterFault α → Dialogue cluster β}
    (sendable : target? target = some t) : asking method target body decode next =
      .ask ⟨method, t, body⟩ fun answer => next (heard decode answer) := by
  rw [asking, sendable]

theorem of_asking_eq_ask {b : β} {q : ClusterRequest} {next : Except ClusterFault α → Dialogue cluster β}
    {rest : Option Response → Dialogue cluster β}
    (h : asking method target body decode next = .ask q rest) (unsent : next (.error .other) = .done b) :
    ∃ t, target? target = some t ∧ q = ⟨method, t, body⟩ ∧
      ∀ answer, rest answer = next (heard decode answer) := by
  unfold asking at h
  split at h
  next => cases unsent.symm.trans h
  next t sendable =>
    cases h
    exact ⟨t, sendable, rfl, fun _ => rfl⟩

theorem of_asking_eq_done {b b' : β} {next : Except ClusterFault α → Dialogue cluster β}
    (h : asking method target body decode next = .done b') (unsent : next (.error .other) = .done b) :
    b' = b := by
  unfold asking at h
  split at h
  next => cases unsent.symm.trans h; rfl
  next => cases h

theorem run_send : (send method target body decode).run = asking method target body decode .done := by
  unfold send asking
  cases target? target with
  | none => rfl
  | some t =>
    refine congrArg (Dialogue.ask (I := cluster) _) (funext fun answer => ?_)
    cases answer with
    | none => rfl
    | some r =>
      change ExceptT.run (if isRefusal r then throw (refusal r) else match (Json.read r.body).bind decode with
        | some a => pure a
        | none => throw .other : ClusterTask α) = .done (heard decode (some r))
      unfold heard
      by_cases refused : isRefusal r = true
      · simp only [refused, if_true]
        rfl
      · simp only [refused]
        cases (Json.read r.body).bind decode <;> rfl

theorem bind_asking {γ : Type} {next : Except ClusterFault α → Dialogue cluster β}
    {f : β → Dialogue cluster γ} : (asking method target body decode next).bind f =
      asking method target body decode fun res => (next res).bind f := by
  unfold asking
  cases target? target <;> rfl

theorem run_objectTarget_bind {f : String → ClusterTask β} : (objectTarget collection name >>= f).run =
    if name.isEmpty then .done (.error .other) else (f (collection ++ "/" ++ name)).run := by
  unfold objectTarget
  split <;> rfl

/-- What is found under a name; what the server does not find is absent. -/
def found : Except ClusterFault α → Except ClusterFault (Option α)
  | .ok a => .ok (some a)
  | .error (.refused code reason) =>
    if reason = "NotFound" then .ok none else .error (.refused code reason)
  | .error .other => .error .other

theorem run_read? : (read? collection name decode).run =
    if name.isEmpty then .done (.error .other)
    else asking .get (collection ++ "/" ++ name) none decode fun res => .done (found res) := by
  have sorted : (read? collection name decode).run =
      (read collection name decode).run.bind fun res => .done (found res) := by
    refine congrArg (Dialogue.bind _) (funext fun res => ?_)
    rcases res with (_ | _) | _ <;> rfl
  rw [sorted, read, run_objectTarget_bind]
  split
  next => rfl
  next => rw [run_send, bind_asking]; rfl

theorem run_replace {json : Json} : (replace collection name "" json decode).run =
    if name.isEmpty then .done (.error .other)
    else asking .put (collection ++ "/" ++ name) (some json) decode .done := by
  rw [replace, run_objectTarget_bind]
  simp only [String.append_empty, run_send]

theorem run_onObject_bind {task : ClusterTask α} {f : α → StoreTask β} :
    (onObject object task >>= f).run = task.run.bind fun res =>
      match res with
      | .ok a => (f a).run
      | .error e => .done (.error (storeError object e)) := by
  rw [ExceptT.run_bind, Dialogue.bind_eq, onObject]
  change (Dialogue.bind _ _).bind _ = _
  rw [Dialogue.bind_assoc]
  refine congrArg (Dialogue.bind _) (funext fun res => ?_)
  cases res <;> rfl

end Cluster

namespace Secret

/-- What a secret is called in reports about it. -/
def object (s : Secret) : String :=
  "secret " ++ s.namespaceName ++ "/" ++ s.name

/-- Where the secrets of its namespace are. -/
def collection (s : Secret) : String :=
  Watch.secretsPath (some s.namespaceName)

/-- Where the secret is. -/
def address (s : Secret) : String :=
  s.collection ++ "/" ++ s.name

end Secret

namespace Cluster

open DatabaseOperator.SecretObject (decode new)

variable (s : Secret) (owner : Option Owner)

/-- The end of a write. -/
def concluding (res : Except ClusterFault SecretObject) : Dialogue cluster (Except StoreError Unit) :=
  .done ((res.mapError (storeError s.object)).map fun _ => ())

/-- The secret that was read goes back with the key set. -/
def replacing (stored : SecretObject) : Dialogue cluster (Except StoreError Unit) :=
  asking .put s.address (some (stored.set s.key s.value owner).encode) decode (concluding s)

/-- The secret is made. -/
def creating : Dialogue cluster (Except StoreError Unit) :=
  asking .post s.collection (some (new s owner).encode) decode (concluding s)

/-- What is done about a secret once it is read. -/
def proceeding : Except ClusterFault SecretObject → Dialogue cluster (Except StoreError Unit)
  | .ok stored => replacing s owner stored
  | .error (.refused code reason) =>
    if reason = "NotFound" then creating s owner else concluding s (.error (.refused code reason))
  | .error .other => concluding s (.error .other)

theorem run_set : (secretStore (.set s owner)).run =
    if s.name.isEmpty then concluding s (.error .other)
    else asking .get s.address none decode (proceeding s owner) := by
  have ends (task : ClusterTask SecretObject) : (onObject s.object task >>= fun _ => pure ()).run =
      task.run.bind (concluding s) := by
    rw [run_onObject_bind]
    refine congrArg (Dialogue.bind _) (funext fun res => ?_)
    cases res <;> rfl
  change (onObject s.object (read? s.collection s.name decode) >>= fun stored => _ : StoreTask Unit).run = _
  rw [run_onObject_bind, run_read?]
  by_cases unnamed : s.name.isEmpty = true
  · rw [if_pos unnamed, if_pos unnamed]
    rfl
  · rw [if_neg unnamed, if_neg unnamed, bind_asking]
    refine congrArg (asking .get s.address none decode) (funext fun res => ?_)
    cases res with
    | ok stored =>
      refine (ends _).trans ?_
      rw [run_replace, if_neg unnamed, bind_asking]
      rfl
    | error fault =>
      cases fault with
      | other => rfl
      | refused code reason =>
        by_cases absent : reason = "NotFound"
        · rw [found, proceeding, if_pos absent, if_pos absent]
          refine (ends _).trans ?_
          rw [create, run_send, bind_asking]
          rfl
        · rw [found, proceeding, if_neg absent, if_neg absent]
          rfl

end Cluster

end DatabaseOperator
