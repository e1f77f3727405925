import DatabaseOperator.Proofs.Guards
import DatabaseOperator.Proofs.Pass.Secrets
import DatabaseOperator.Proofs.Pass.Service
import DatabaseOperator.Proofs.Provider.Manager
import DatabaseOperator.Proofs.Resource.Timeless

namespace DatabaseOperator

/-- What a connection is opened with. -/
structure Login where
  token : String
  region : String

/-- Before a connection is asked for. -/
def Login.blank : Login := ⟨"", ""⟩

/-- The login of the connection that was asked for last. -/
def Login.after (l : Login) : Exchange pass → Login
  | ⟨.connect token region, _⟩ => ⟨token, region⟩
  | _ => l

/-- The other side, as far as it stays the same: how the provider answers a connection and changes its
state, and what the store of secrets says where no secret is. -/
structure Counterpart (π : Type) where
  connect : Login → π → Except ProviderError Unit
  answer : Login → (c : ProviderCall) → π → Except ProviderError c.Result × π
  absent : String → String → String → StoreError

/-- What there is: the stored resource, the stored secrets, and the state of the provider. -/
structure Site (π : Type) where
  resource : Option Resource
  secrets : Vault
  remote : π

theorem PassCall.Writes.unique {c : PassCall} {w w' : Resource} (h : c.Writes w) (g : c.Writes w') :
    w = w' := by
  rcases h with rfl | rfl <;> rcases g with same | same <;> cases same <;> rfl

/-- What stays of a resource that is stored: nothing, when it is to be deleted and has no finalizers. -/
def Resource.kept? (r : Resource) : Option Resource :=
  if r.isDeletionRequested && r.finalizers.isEmpty then none else some r

theorem Resource.kept?_of_wanted {r : Resource} (wanted : r.isDeletionRequested = false) :
    r.kept? = some r := by
  simp [kept?, wanted]

theorem Resource.kept?_timeless (r : Resource) : r.timeless.kept? = r.kept?.map timeless := by
  unfold kept?
  change (if r.isDeletionRequested && r.finalizers.isEmpty then _ else _) = _
  split <;> rfl

/-- Whether a resource stays does not depend on what its conditions say. -/
theorem Resource.timeless_kept? {r r' : Resource} (same : r'.timeless = r.timeless) :
    r'.kept?.map timeless = r.kept?.map timeless := by
  rw [← kept?_timeless, ← kept?_timeless, same]

/-- What stays of a resource is the resource. -/
theorem Resource.eq_of_kept? {r x : Resource} (h : r.kept? = some x) : x = r := by
  unfold kept? at h
  split at h
  next => cases h
  next => exact (Option.some.inj h).symm

namespace Site

variable {π : Type} {a b c : Site π}

/-- Nothing but the number of the version and the times of the conditions differs. -/
structure Like (a b : Site π) : Prop where
  resource : a.resource.map Resource.timeless = b.resource.map Resource.timeless
  secrets : a.secrets = b.secrets
  remote : a.remote = b.remote

theorem Like.refl (a : Site π) : a.Like a :=
  ⟨rfl, rfl, rfl⟩

theorem Like.symm (h : a.Like b) : b.Like a :=
  ⟨h.resource.symm, h.secrets.symm, h.remote.symm⟩

theorem Like.trans (h : a.Like b) (g : b.Like c) : a.Like c :=
  ⟨h.resource.trans g.resource, h.secrets.trans g.secrets, h.remote.trans g.remote⟩

/-- What is stored in alike sites says the same. -/
theorem Like.timeless {r r' : Resource} (h : a.Like b) (current : a.resource = some r)
    (current' : b.resource = some r') : r.timeless = r'.timeless := by
  have same := h.resource
  rw [current, current'] at same
  exact Option.some.inj same

theorem Like.exists_resource {r : Resource} (h : a.Like b) (current : b.resource = some r) :
    ∃ r', a.resource = some r' ∧ r'.timeless = r.timeless := by
  have same := h.resource
  rw [current] at same
  obtain ⟨r', current', same⟩ := Option.map_eq_some_iff.mp same
  exact ⟨r', current', same⟩

/-- The finalizer is gone. -/
def Released (a : Site π) : Prop :=
  ∀ x, a.resource = some x → x.hasFinalizer = false

theorem Like.released (h : a.Like b) (released : b.Released) : a.Released := by
  intro x current
  obtain ⟨y, current', same⟩ := h.symm.exists_resource current
  exact (Resource.concurs_of_timeless same).finalizer.symm.trans (released y current')

end Site

namespace Counterpart

variable {π : Type} (R : Counterpart π)

def lookup (σ : Vault) (namespaceName name key : String) : Except StoreError String :=
  match σ namespaceName name key with
  | none => .error (R.absent namespaceName name key)
  | some value => .ok value

/-- The answer of the store of secrets. -/
def secretAnswer (σ : Vault) : (c : SecretCall) → Except StoreError c.Result
  | .get namespaceName name key => R.lookup σ namespaceName name key
  | .set _ _ => .ok ()

/-- The answer of the provider. -/
def providerAnswer (l : Login) (x : π) (c : ProviderCall) : Except ProviderError c.Result :=
  (R.answer l c x).1

/-- The answer is the one that these secrets and this state of the provider give to the connection. -/
def Told (l : Login) (σ : Vault) (x : π) : Exchange pass → Prop
  | ⟨.secret c, r⟩ => r = R.secretAnswer σ c
  | ⟨.connect token region, r⟩ => r = R.connect ⟨token, region⟩ x
  | ⟨.provider c, r⟩ => r = R.providerAnswer l x c
  | _ => True

/-- An answer that tells how things are. -/
inductive Answers (l : Login) (a : Site π) : Exchange pass → Site π → Prop
  | got (namespaceName name : String) :
      Answers l a ⟨.resource (.get namespaceName name), .ok a.resource⟩ a
  | updated {old w : Resource} (v : Option String) : a.resource = some old →
      old.metadata.resourceVersion = w.metadata.resourceVersion →
      Answers l a ⟨.resource (.update w),
          .ok ({ old with metadata := w.metadata, spec := w.spec }.renumbered v)⟩
        { a with resource := ({ old with metadata := w.metadata, spec := w.spec }.renumbered v).kept? }
  | statusUpdated {old w : Resource} (v : Option String) : a.resource = some old →
      old.metadata.resourceVersion = w.metadata.resourceVersion →
      Answers l a ⟨.resource (.updateStatus w), .ok ({ old with status := w.status }.renumbered v)⟩
        { a with resource := ({ old with status := w.status }.renumbered v).kept? }
  | refused {w : Resource} {c : ResourceCall} (name : String) : (PassCall.resource c).Writes w →
      (∀ old, a.resource = some old → old.metadata.resourceVersion ≠ w.metadata.resourceVersion) →
      Answers l a ⟨.resource c, .error (if a.resource.isSome then .conflict name else .notFound name)⟩ a
  | looked (namespaceName name key : String) :
      Answers l a ⟨.secret (.get namespaceName name key), R.lookup a.secrets namespaceName name key⟩ a
  | saved (s : Secret) (owner : Option Owner) :
      Answers l a ⟨.secret (.set s owner), .ok ()⟩ { a with secrets := a.secrets.put s }
  | connected (token region : String) :
      Answers l a ⟨.connect token region, R.connect ⟨token, region⟩ a.remote⟩ a
  | asked (c : ProviderCall) : Answers l a ⟨.provider c, (R.answer l c a.remote).1⟩
      { a with remote := (R.answer l c a.remote).2 }
  | timed (time : Time) : Answers l a ⟨.now, time⟩ a

/-- The other side answers these calls in this order, those of the provider to the connection that was
asked for last. In troubled times any call can fail, which has no effect, and others store the resource as
it is under another number. -/
inductive Serves (troubled : Bool) : Login → Site π → List (Exchange pass) → Site π → Prop
  | rest (l : Login) (a : Site π) : Serves troubled l a [] a
  | answer {l : Login} {a b c : Site π} {e : Exchange pass} {t : List (Exchange pass)} :
      R.Answers l a e b → Serves troubled (l.after e) b t c → Serves troubled l a (e :: t) c
  | failure {l : Login} {a b : Site π} {e : Exchange pass} {t : List (Exchange pass)} :
      troubled = true → ¬ e.Granted → Serves troubled (l.after e) a t b → Serves troubled l a (e :: t) b
  | renumber {l : Login} {a b : Site π} {t : List (Exchange pass)} (v : Option String) :
      troubled = true →
      Serves troubled l { a with resource := a.resource.map (Resource.renumbered v) } t b →
      Serves troubled l a t b

end Counterpart

/-- The exchange changes nothing. -/
def Exchange.Idle : Exchange pass → Prop
  | ⟨.resource (.update _), .ok _⟩ => False
  | ⟨.resource (.updateStatus _), .ok _⟩ => False
  | ⟨.secret (.set _ _), .ok _⟩ => False
  | ⟨.provider c, _⟩ => c.Reads
  | _ => True

theorem Exchange.idle_of_refused {c : ResourceCall} {f : StoreError} :
    ∀ e ∈ [(⟨.resource c, .error f⟩ : Exchange pass)], e.Idle := by
  refine List.forall_mem_singleton.mpr ?_
  cases c <;> trivial

namespace Counterpart

variable {π : Type} {R : Counterpart π} {l : Login} {a b c : Site π} {e : Exchange pass}
  {t u : List (Exchange pass)} {troubled : Bool}

/-- Reading changes nothing, and neither does a deletion that is refused. What is deleted stays deleted,
and the connection does not depend on what was deleted. -/
structure Steady (R : Counterpart π) : Prop where
  reads : ∀ (l : Login) (c : ProviderCall) (x : π), c.Reads → (R.answer l c x).2 = x
  refuses : ∀ (l : Login) (id : String) (x : π),
    Pass.isGone (R.answer l (.deleteDatabase id) x).1 = false → (R.answer l (.deleteDatabase id) x).2 = x
  deletes : ∀ (l : Login) (id : String) (x : π),
    Pass.isGone (R.answer l (.deleteDatabase id) x).1 = true →
    let y := (R.answer l (.deleteDatabase id) x).2
    Pass.isGone (R.answer l (.deleteDatabase id) y).1 = true ∧ (R.answer l (.deleteDatabase id) y).2 = y
  connects : ∀ (l : Login) (id : String) (x : π),
    R.connect l (R.answer l (.deleteDatabase id) x).2 = R.connect l x

theorem Answers.of_idle (h : R.Answers l a e b) (steady : R.Steady) (idle : e.Idle) :
    b = a ∧ R.Told l a.secrets a.remote e := by
  cases h with
  | got | refused | timed => exact ⟨rfl, trivial⟩
  | updated | statusUpdated | saved => exact idle.elim
  | looked | connected => exact ⟨rfl, rfl⟩
  | asked c =>
    refine ⟨?_, rfl⟩
    rw [steady.reads l c a.remote idle]

/-- A resource is read as it is. -/
theorem Answers.of_get {namespaceName name : String} {answer : Except StoreError (Option Resource)}
    (h : R.Answers l a ⟨.resource (.get namespaceName name), answer⟩ b) :
    answer = .ok a.resource ∧ b = a := by
  cases h with
  | got => exact ⟨rfl, rfl⟩
  | refused _ writes => rcases writes with same | same <;> cases same

namespace Serves

theorem of_append (h : R.Serves troubled l a (t ++ u) c) :
    ∃ b, R.Serves troubled l a t b ∧ R.Serves troubled (t.foldl Login.after l) b u c := by
  generalize whole : t ++ u = w at h
  induction h generalizing t with
  | rest l a =>
    obtain ⟨rfl, rfl⟩ := List.append_eq_nil_iff.mp whole
    exact ⟨a, .rest l a, .rest l a⟩
  | renumber v harassed _ ih =>
    obtain ⟨b, first, second⟩ := ih whole
    exact ⟨b, .renumber v harassed first, second⟩
  | answer answers after ih =>
    cases t with
    | nil =>
      obtain rfl : u = _ := whole
      exact ⟨_, .rest _ _, .answer answers after⟩
    | cons e t =>
      obtain ⟨rfl, later⟩ := List.cons.inj whole
      obtain ⟨b, first, second⟩ := ih later
      exact ⟨b, .answer answers first, second⟩
  | failure harassed failed after ih =>
    cases t with
    | nil =>
      obtain rfl : u = _ := whole
      exact ⟨_, .rest _ _, .failure harassed failed after⟩
    | cons e t =>
      obtain ⟨rfl, later⟩ := List.cons.inj whole
      obtain ⟨b, first, second⟩ := ih later
      exact ⟨b, .failure harassed failed first, second⟩

theorem like_renumbered (v : Option String) :
    Site.Like { a with resource := a.resource.map (Resource.renumbered v) } a := by
  refine ⟨?_, rfl, rfl⟩
  rw [Option.map_map]
  rfl

/-- A call is answered as things are then, or it fails. -/
theorem of_cons (h : R.Serves troubled l a (e :: t) c) :
    ∃ b, b.Like a ∧ (troubled = false → b = a) ∧
      ((∃ b', R.Answers l b e b' ∧ R.Serves troubled (l.after e) b' t c) ∨
        (troubled = true ∧ ¬ e.Granted ∧ R.Serves troubled (l.after e) b t c)) := by
  generalize whole : e :: t = w at h
  induction h with
  | rest => cases whole
  | answer answers after =>
    cases whole
    exact ⟨_, .refl _, fun _ => rfl, .inl ⟨_, answers, after⟩⟩
  | failure harassed failed after =>
    cases whole
    exact ⟨_, .refl _, fun _ => rfl, .inr ⟨harassed, failed, after⟩⟩
  | renumber v harassed _ ih =>
    obtain ⟨b, like, _, rest⟩ := ih whole
    exact ⟨b, like.trans (like_renumbered v),
      fun calm => absurd (calm.symm.trans harassed) (by decide), rest⟩

/-- A call that is answered without a failure is answered as things are then. -/
theorem of_granted (h : R.Serves troubled l a (e :: t) c) (granted : e.Granted) :
    ∃ b b', b.Like a ∧ (troubled = false → b = a) ∧ R.Answers l b e b' ∧
      R.Serves troubled (l.after e) b' t c := by
  obtain ⟨b, like, same, ⟨b', answers, after⟩ | ⟨_, failed, _⟩⟩ := h.of_cons
  · exact ⟨b, b', like, same, answers, after⟩
  · exact absurd granted failed

/-- In calm times nothing fails. -/
theorem of_calm (h : R.Serves false l a (e :: t) c) :
    ∃ b, R.Answers l a e b ∧ R.Serves false (l.after e) b t c := by
  obtain ⟨b, _, same, ⟨b', answers, after⟩ | ⟨harassed, _⟩⟩ := h.of_cons
  · rw [same rfl] at answers
    exact ⟨b', answers, after⟩
  · cases harassed

/-- What is idle leaves things as they are, and one connection is answered as they are. -/
theorem of_idle (h : R.Serves troubled l a t b) (steady : R.Steady) (idle : ∀ e ∈ t, e.Idle) :
    b.Like a ∧ (troubled = false → b = a) ∧ ((∀ e ∈ t, l.after e = l) →
      ∀ e ∈ t, troubled = false ∨ e.Granted → R.Told l a.secrets a.remote e) := by
  induction h with
  | rest l a => exact ⟨.refl a, fun _ => rfl, fun _ _ mem => nomatch mem⟩
  | @answer l a b c e t answers _ ih =>
    obtain ⟨rfl, told⟩ := answers.of_idle steady (idle _ List.mem_cons_self)
    obtain ⟨like, same, later⟩ := ih fun e mem => idle e (.tail _ mem)
    refine ⟨like, same, fun one => ?_⟩
    obtain ⟨here, rest⟩ := List.forall_mem_cons.mp one
    rw [here] at later
    exact List.forall_mem_cons.mpr ⟨fun _ => told, later rest⟩
  | @failure l a b e t harassed failed _ ih =>
    obtain ⟨like, same, later⟩ := ih fun e mem => idle e (.tail _ mem)
    refine ⟨like, same, fun one => ?_⟩
    obtain ⟨here, rest⟩ := List.forall_mem_cons.mp one
    rw [here] at later
    refine List.forall_mem_cons.mpr ⟨fun sound => ?_, later rest⟩
    rcases sound with calm | granted
    · exact absurd (calm.symm.trans harassed) (by decide)
    · exact absurd granted failed
  | renumber v harassed _ ih =>
    obtain ⟨like, _, later⟩ := ih idle
    exact ⟨like.trans (like_renumbered v),
      fun calm => absurd (calm.symm.trans harassed) (by decide), later⟩

theorem eq_of_rest (h : R.Serves false l a [] b) : b = a := by
  cases h with
  | rest => rfl
  | renumber v harassed => cases harassed

/-- In calm times the store takes a write of the version that is stored. -/
theorem not_refused {c : ResourceCall} {w r : Resource} {f : StoreError}
    (writes : (PassCall.resource c).Writes w) (current : a.resource = some r)
    (number : w.metadata.resourceVersion = r.metadata.resourceVersion) :
    ¬ R.Serves false l a (⟨.resource c, .error f⟩ :: t) b := by
  intro h
  obtain ⟨_, answers, _⟩ := h.of_calm
  generalize eq : (⟨.resource c, .error f⟩ : Exchange pass) = e at answers
  cases answers with
  | refused name writes' stale =>
    cases eq
    obtain rfl := writes.unique writes'
    exact stale r current number.symm
  | got | updated | statusUpdated | looked | saved | connected | asked | timed => cases eq

/-- A status that is stored is stored on what is there. -/
theorem of_updateStatus {w r stored : Resource}
    (h : R.Serves troubled l a (⟨.resource (.updateStatus w), .ok stored⟩ :: t) c)
    (current : a.resource.map Resource.timeless = some r.timeless)
    (wanted : r.isDeletionRequested = false)
    (metadata : w.metadata = r.metadata) (spec : w.spec = r.spec) :
    ∃ b, b.resource = some stored ∧ stored.timeless = w.timeless ∧ b.secrets = a.secrets ∧
      b.remote = a.remote ∧ R.Serves troubled l b t c := by
  obtain ⟨b, b', like, _, answers, after⟩ := h.of_granted trivial
  cases answers with
  | @statusUpdated old _ v found same =>
    have said : old.timeless = r.timeless := by
      have kept := like.resource.trans current
      rw [found] at kept
      exact Option.some.inj kept
    obtain ⟨number, declared, _⟩ := Resource.mk.inj said
    have wanted' : old.isDeletionRequested = false :=
      (Resource.concurs_of_timeless said).deletion.trans wanted
    have overwritten : { old with status := w.status }.timeless = w.timeless := by
      unfold Resource.timeless
      rw [metadata, spec]
      exact congrArg₂ (fun m d => Resource.mk m d (w.status.map Status.timeless)) number declared
    refine ⟨_, ?_, ?_, ?_, ?_, after⟩
    · exact Resource.kept?_of_wanted wanted'
    · exact overwritten
    · exact like.secrets
    · exact like.remote

/-- In calm times an update is stored. -/
theorem of_update {w r : Resource} {stored : Except StoreError Resource}
    (h : R.Serves false l a [⟨.resource (.update w), stored⟩] b) (current : a.resource = some r)
    (number : w.metadata.resourceVersion = r.metadata.resourceVersion) (status : w.status = r.status) :
    (∃ x, stored = .ok x) ∧ b.Like { a with resource := w.kept? } := by
  cases stored with
  | error f => exact absurd h (not_refused (.inl rfl) current number)
  | ok x =>
    refine ⟨⟨x, rfl⟩, ?_⟩
    obtain ⟨_, answers, after⟩ := h.of_calm
    cases answers with
    | @updated old _ v found same =>
      obtain rfl : old = r := Option.some.inj (found.symm.trans current)
      have merged : { old with metadata := w.metadata, spec := w.spec } = w := by
        rw [← status]
      rw [merged] at after
      obtain rfl := after.eq_of_rest
      exact ⟨Resource.timeless_kept? (w.timeless_renumbered v), rfl, rfl⟩

end Serves

/-- Every call can be answered as things are. -/
theorem exists_answers (R : Counterpart π) (l : Login) (a : Site π) (call : PassCall) :
    ∃ (answer : pass.Answer call) (b : Site π), R.Answers l a ⟨call, answer⟩ b := by
  cases call with
  | resource call =>
    have written (w : Resource) : (∃ old, a.resource = some old ∧
        old.metadata.resourceVersion = w.metadata.resourceVersion) ∨
        ∀ old, a.resource = some old → old.metadata.resourceVersion ≠ w.metadata.resourceVersion := by
      by_cases same : ∃ old, a.resource = some old ∧
          old.metadata.resourceVersion = w.metadata.resourceVersion
      · exact .inl same
      · exact .inr fun old current number => same ⟨old, current, number⟩
    cases call with
    | get namespaceName name => exact ⟨_, _, .got namespaceName name⟩
    | update w =>
      rcases written w with ⟨old, current, number⟩ | stale
      · exact ⟨_, _, .updated none current number⟩
      · exact ⟨_, _, .refused "" (.inl rfl) stale⟩
    | updateStatus w =>
      rcases written w with ⟨old, current, number⟩ | stale
      · exact ⟨_, _, .statusUpdated none current number⟩
      · exact ⟨_, _, .refused "" (.inr rfl) stale⟩
  | secret call =>
    cases call with
    | get namespaceName name key => exact ⟨_, _, .looked namespaceName name key⟩
    | set s owner => exact ⟨_, _, .saved s owner⟩
  | connect token region => exact ⟨_, _, .connected token region⟩
  | provider call => exact ⟨_, _, .asked call⟩
  | now => exact ⟨_, _, .timed .epoch⟩

/-- In calm times every program comes to its end. -/
theorem exists_serves {α : Type} (R : Counterpart π) (l : Login) (a : Site π) (x : Dialogue pass α) :
    ∃ (t : List (Exchange pass)) (res : α) (b : Site π), x.Runs t res ∧ R.Serves false l a t b := by
  induction x generalizing l a with
  | done res => exact ⟨[], res, a, .done res, .rest l a⟩
  | ask call next ih =>
    obtain ⟨answer, b, answers⟩ := R.exists_answers l a call
    obtain ⟨t, res, c, runs, serves⟩ := ih answer (l.after ⟨call, answer⟩) b
    exact ⟨_, res, c, .ask answer runs, .answer answers serves⟩

end Counterpart

end DatabaseOperator
