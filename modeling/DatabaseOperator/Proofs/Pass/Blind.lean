import DatabaseOperator.Proofs.Pass.Calls
import DatabaseOperator.Proofs.Provider.Manager

namespace DatabaseOperator

/-- The calls to the provider whose answer holds nothing secret. -/
def ProviderCall.Plain : ProviderCall → Prop
  | .findVariable _ _ => False
  | _ => True

/-- The calls with which nothing secret goes out, and whose answer holds nothing secret. -/
def PassCall.Plain : PassCall → Prop
  | .resource _ => True
  | .provider c => c.Plain
  | .now => True
  | _ => False

/-- A secret without its value. -/
def Secret.concealed (s : Secret) : Secret :=
  { s with value := "" }

theorem Secret.place_of_concealed {s s' : Secret} (h : s.concealed = s'.concealed) :
    s.namespaceName = s'.namespaceName ∧ s.name = s'.name ∧ s.key = s'.key := by
  obtain ⟨space, name, key, _⟩ := Secret.mk.inj h
  exact ⟨space, name, key⟩

namespace Dialogue

variable {α β γ δ : Type} {R : α → β → Prop} {Q : γ → δ → Prop} {x : Dialogue pass α}
  {y : Dialogue pass β}

/-- Two programs that ask the same, apart from tokens and from the values of secrets that they write,
as long as they are answered the same, apart from the values that they read. None of these values is
empty. -/
inductive Parallel (R : α → β → Prop) : Dialogue pass α → Dialogue pass β → Prop
  | done {a : α} {b : β} : R a b → Parallel R (.done a) (.done b)
  | plain {c : PassCall} {next : pass.Answer c → Dialogue pass α}
      {next' : pass.Answer c → Dialogue pass β} : c.Plain →
      (∀ r, Parallel R (next r) (next' r)) → Parallel R (.ask c next) (.ask c next')
  | connect {token token' region : String} {next : pass.Answer (.connect token region) → Dialogue pass α}
      {next' : pass.Answer (.connect token' region) → Dialogue pass β} : token ≠ "" → token' ≠ "" →
      (∀ r : Except ProviderError Unit, Parallel R (next r) (next' r)) →
      Parallel R (.ask (.connect token region) next) (.ask (.connect token' region) next')
  | write {s s' : Secret} {owner : Option Owner}
      {next : pass.Answer (.secret (.set s owner)) → Dialogue pass α}
      {next' : pass.Answer (.secret (.set s' owner)) → Dialogue pass β} :
      s.concealed = s'.concealed → s.value ≠ "" → s'.value ≠ "" →
      (∀ r : Except StoreError Unit, Parallel R (next r) (next' r)) →
      Parallel R (.ask (.secret (.set s owner)) next) (.ask (.secret (.set s' owner)) next')
  | read {namespaceName name key : String}
      {next : pass.Answer (.secret (.get namespaceName name key)) → Dialogue pass α}
      {next' : pass.Answer (.secret (.get namespaceName name key)) → Dialogue pass β} :
      (∀ e : StoreError, Parallel R (next (.error e)) (next' (.error e))) →
      (∀ v v' : String, v ≠ "" → v' ≠ "" → Parallel R (next (.ok v)) (next' (.ok v'))) →
      Parallel R (.ask (.secret (.get namespaceName name key)) next)
        (.ask (.secret (.get namespaceName name key)) next')
  | find {app key : String} {next : pass.Answer (.provider (.findVariable app key)) → Dialogue pass α}
      {next' : pass.Answer (.provider (.findVariable app key)) → Dialogue pass β} :
      (∀ e : ProviderError, Parallel R (next (.error e)) (next' (.error e))) →
      (∀ v v' : String, v ≠ "" → v' ≠ "" → Parallel R (next (.ok v)) (next' (.ok v'))) →
      Parallel R (.ask (.provider (.findVariable app key)) next)
        (.ask (.provider (.findVariable app key)) next')

theorem Parallel.bind {f : α → Dialogue pass γ} {g : β → Dialogue pass δ} (h : Parallel R x y)
    (hf : ∀ a b, R a b → Parallel Q (f a) (g b)) : Parallel Q (x.bind f) (y.bind g) := by
  induction h with
  | done related => exact hf _ _ related
  | plain sort _ ih => exact .plain sort ih
  | connect named named' _ ih => exact .connect named named' ih
  | write same valued valued' _ ih => exact .write same valued valued' ih
  | read _ _ failed ih => exact .read failed ih
  | find _ _ failed ih => exact .find failed ih

/-- A program that has nothing to do with what is secret. -/
theorem Parallel.of_only {S : α → α → Prop} (same : ∀ a, S a a) (h : x.Only PassCall.Plain) :
    Parallel S x x := by
  induction x with
  | done a => exact .done (same a)
  | ask c next ih =>
    obtain ⟨t, a, runs⟩ := (ask c next).exists_runs
    obtain ⟨r, t', rfl, _⟩ := runs_ask_iff.mp runs
    exact .plain (h _ a runs ⟨c, r⟩ List.mem_cons_self) fun r =>
      ih r fun t a runs e mem => h _ a (.ask r runs) e (.tail _ mem)

end Dialogue

/-- The same failure, or values in this relation. -/
inductive Agreeing {α β : Type} (R : α → β → Prop) : Except Error α → Except Error β → Prop
  | error (e : Error) : Agreeing R (.error e) (.error e)
  | ok {a : α} {b : β} : R a b → Agreeing R (.ok a) (.ok b)

theorem Agreeing.eq {α : Type} {x y : Except Error α} (h : Agreeing Eq x y) : x = y := by
  cases h with
  | error => rfl
  | ok same => rw [same]

namespace Pass

variable {α β γ δ : Type} {R : α → β → Prop} {Q : γ → δ → Prop} {x : PassTask α} {y : PassTask β}

/-- Work that is parallel in this sense and comes to values in this relation. -/
def Parallel (R : α → β → Prop) (x : PassTask α) (y : PassTask β) : Prop :=
  Dialogue.Parallel (Agreeing R) x.run y.run

/-- Work that does not depend on anything secret. -/
def Blind (x : PassTask α) : Prop :=
  Parallel Eq x x

theorem Parallel.bind {f : α → PassTask γ} {g : β → PassTask δ} (h : Parallel R x y)
    (hf : ∀ a b, R a b → Parallel Q (f a) (g b)) : Parallel Q (x >>= f) (y >>= g) :=
  Dialogue.Parallel.bind h fun _ _ agreeing =>
    match agreeing with
    | .error e => .done (.error e)
    | .ok related => hf _ _ related

theorem Parallel.throw (e : Error) : Parallel R (throw e) (throw e) :=
  .done (.error e)

theorem Parallel.inPhase {action : String} (h : Parallel R x y) :
    Parallel R (inPhase action x) (inPhase action y) :=
  Dialogue.Parallel.bind h fun _ _ agreeing =>
    match agreeing with
    | .error e => .done (.error (.phase action e))
    | .ok related => .done (.ok related)

theorem Blind.bind {f : α → PassTask γ} (h : Blind x) (hf : ∀ a, Blind (f a)) : Blind (x >>= f) :=
  Parallel.bind h fun a _ same => same ▸ hf a

theorem blind_pure (a : α) : Blind (pure a) :=
  .done (.ok rfl)

theorem blind_of_only (h : x.run.Only PassCall.Plain) : Blind x :=
  .of_only (fun
    | .error e => .error e
    | .ok _ => .ok rfl) h

theorem blind_resource (action : String) (c : ResourceCall) : Blind (resource action c) :=
  blind_of_only (Task.only_single trivial)

theorem blind_now : Blind now :=
  blind_of_only (Task.only_single (f := Except.ok) trivial)

theorem blind_times : Blind times :=
  blind_now.bind fun _ => blind_now.bind fun _ => blind_pure _

theorem only_providerTask {P : PassCall → Prop} {task : ProviderTask α}
    (h : task.run.Only fun c => P (.provider c)) : (providerTask task).run.Only P := by
  intro t r runs e mem
  obtain ⟨t', rfl, runs'⟩ := runs_providerTask_iff.mp runs
  obtain ⟨e', mem', rfl⟩ := List.mem_map.mp mem
  exact h t' r runs' e' mem'

/-- Work with the provider in which no variable is read. -/
theorem blind_providerTask {task : ProviderTask α} (h : task.run.Only ProviderCall.Plain) :
    Blind (providerTask task) :=
  blind_of_only (only_providerTask h)

theorem blind_get (id : String) : Blind (providerTask (Manager.get id)) :=
  blind_providerTask (Manager.only_get trivial fun _ _ => trivial)

theorem blind_update (id : String) (wanted : Database) :
    Blind (providerTask (Manager.update id wanted)) := by
  refine blind_providerTask (Manager.only_update trivial ?_ ?_ ?_ ?_ ?_ ?_)
  all_goals intros; trivial

/-- A check of a text goes the same way for texts that are both empty or both not. -/
theorem parallel_requireText {I : Interface} {answer : (c : I.Call) → Dialogue pass (I.Answer c)}
    {field text text' : String} {task : ExceptT Error (Dialogue I) α}
    {task' : ExceptT Error (Dialogue I) β} (alike : text = "" ↔ text' = "")
    (h : Dialogue.Parallel (Agreeing R) (task.run.serve answer) (task'.run.serve answer)) :
    Dialogue.Parallel (Agreeing R) ((do requireText field text; task).run.serve answer)
      ((do requireText field text'; task').run.serve answer) := by
  by_cases empty : text = ""
  · rw [empty, alike.mp empty]
    exact .done (.error _)
  · rw [Task.requireText_eq empty, Task.requireText_eq (mt alike.mpr empty)]
    exact h

/-- What is read of a secret is the same failure, or some value. -/
theorem parallel_readSecret (namespaceName name key : String) :
    Parallel (fun v v' => v ≠ "" ∧ v' ≠ "") (secretTask (readSecret namespaceName name key))
      (secretTask (readSecret namespaceName name key)) := by
  refine parallel_requireText Iff.rfl (parallel_requireText Iff.rfl (parallel_requireText Iff.rfl ?_))
  exact .read (fun e => .done (.error _)) fun v v' valued valued' => .done (.ok ⟨valued, valued'⟩)

theorem parallel_connectionUrl (db : Database) :
    Parallel (fun u u' => u.name = u'.name ∧ u.value ≠ "" ∧ u'.value ≠ "")
      (providerTask (Manager.connectionUrl db)) (providerTask (Manager.connectionUrl db)) := by
  unfold Manager.connectionUrl Manager.requireType
  split
  next =>
    refine parallel_requireText Iff.rfl ?_
    exact .find (fun e => .done (.error _)) fun v v' valued valued' =>
      .done (.ok ⟨rfl, valued, valued'⟩)
  next => exact .done (.error _)

theorem parallel_writeSecret {s s' : Secret} (owner : Option Owner) (same : s.concealed = s'.concealed)
    (valued : s.value ≠ "") (valued' : s'.value ≠ "") :
    Parallel Eq (secretTask (writeSecret s owner)) (secretTask (writeSecret s' owner)) := by
  obtain ⟨space, name, key⟩ := Secret.place_of_concealed same
  unfold writeSecret
  rw [space, name, key]
  refine parallel_requireText Iff.rfl (parallel_requireText Iff.rfl (parallel_requireText Iff.rfl ?_))
  refine parallel_requireText (iff_of_false valued valued') ?_
  exact .write same valued valued' fun
    | .error _ => .done (.error _)
    | .ok _ => .done (.ok rfl)

theorem blind_openProvider (r : Resource) : Blind (openProvider r) :=
  Parallel.bind (parallel_readSecret _ _ _).inPhase fun _ _ ⟨named, named'⟩ =>
    .connect named named' fun
      | .error _ => .done (.error _)
      | .ok _ => .done (.ok rfl)

theorem blind_handOver (r : Resource) (db : Database) : Blind (handOver r db) := by
  refine Parallel.bind (parallel_connectionUrl db) fun u u' ⟨name, valued, valued'⟩ => ?_
  refine Parallel.bind (Parallel.inPhase (parallel_writeSecret r.owner? ?_ valued valued')) fun _ _ _ => ?_
  · simp only [Secret.concealed, name]
  · exact Blind.bind (blind_resource _ _) fun _ => blind_pure _

/-- A write at the end of a step. -/
theorem blind_write (action : String) (c : ResourceCall) (next : Requeue) :
    Blind (do let _ ← resource action c; pure next) :=
  (blind_resource action c).bind fun _ => blind_pure next

theorem blind_deleteDatabase (id : String) : Blind (deleteDatabase id) := by
  have deletion : (Manager.delete id).run.Only ProviderCall.Plain :=
    Task.only_bind (Task.only_requireText _ _) fun _ => Manager.only_call trivial
  refine blind_of_only (Dialogue.only_bind (only_providerTask deletion) fun
    | .ok _ => Dialogue.only_done _
    | .error e => ?_)
  exact Dialogue.only_done _

theorem blind_finalize (r : Resource) : Blind (finalize r) := by
  unfold finalize
  split
  next => exact blind_pure _
  split
  next =>
    exact Blind.bind (blind_openProvider r) fun _ => Blind.bind (blind_deleteDatabase _) fun _ =>
      blind_write _ _ _
  next => exact blind_write _ _ _

theorem blind_desired (r : Resource) : Blind (desired r) := by
  unfold desired
  split
  next => exact blind_pure _
  next => exact .throw _

theorem blind_create (delay : Nat) (r : Resource) : Blind (create delay r) := by
  refine Blind.bind (blind_desired r) fun wanted => ?_
  refine Blind.bind (blind_openProvider r) fun _ => ?_
  refine Blind.bind (blind_providerTask ?_) fun created => ?_
  · exact Task.only_bind Manager.only_requireType fun _ => Manager.only_call trivial
  refine Blind.bind (blind_of_only (Task.only_requireText _ _)) fun _ => ?_
  exact Blind.bind blind_now fun time => blind_write _ _ _

theorem blind_awaitRunning (delay : Nat) (r : Resource) : Blind (awaitRunning delay r) := by
  refine Blind.bind (blind_openProvider r) fun _ => ?_
  refine Blind.bind (blind_get _) fun db => ?_
  split
  next => exact blind_pure _
  refine Blind.bind blind_times fun now => ?_
  split
  next => exact blind_handOver r db
  next => exact Blind.bind (blind_resource _ _) fun stored => blind_handOver stored db

theorem blind_awaitPlan (delay : Nat) (r : Resource) : Blind (awaitPlan delay r) := by
  refine Blind.bind (blind_get _) fun db => ?_
  split
  next => exact blind_pure _
  exact Blind.bind blind_times fun now => blind_write _ _ _

theorem blind_updating (delay : Nat) (r : Resource) : Blind (update delay r) := by
  refine Blind.bind (blind_desired r) fun wanted => ?_
  refine Blind.bind (blind_openProvider r) fun _ => ?_
  split
  next => exact blind_awaitPlan delay r
  refine Blind.bind (blind_update _ _) fun outcome => ?_
  split
  next => exact Blind.bind blind_now fun time => blind_write _ _ _
  refine Blind.bind blind_times fun now => ?_
  split
  next => exact blind_pure _
  next => exact blind_write _ _ _

theorem blind_step (delay : Nat) (r : Resource) : Blind (step delay r) := by
  unfold step
  split
  next => exact Parallel.inPhase (blind_finalize r)
  split
  next => exact blind_write _ _ _
  split
  next => exact Blind.bind blind_times fun now => blind_write _ _ _
  split
  next => exact blind_write _ _ _
  split
  next => exact Parallel.inPhase (blind_create delay r)
  split
  next => exact Parallel.inPhase (blind_awaitRunning delay r)
  next => exact Parallel.inPhase (blind_updating delay r)

/-- A pass makes the same calls and ends the same, whatever the secrets are. -/
theorem blind_run (delay : Nat) (namespaceName name : String) : Blind (run delay namespaceName name) := by
  refine Blind.bind (blind_resource _ _) fun found => ?_
  split
  next => exact blind_pure _
  next => exact blind_step delay _

end Pass

end DatabaseOperator
