import DatabaseOperator.Proofs.Counterpart
import DatabaseOperator.Proofs.Provider.Rules

namespace DatabaseOperator

/-- The answers of a program to which every call is answered in one way. -/
def Dialogue.under {I : Interface} {α : Type} (answer : (c : I.Call) → I.Answer c) :
    Dialogue I α → α
  | .done a => a
  | .ask c next => (next (answer c)).under answer

theorem Dialogue.Runs.eq_under {I : Interface} {α : Type} {x : Dialogue I α}
    {t : List (Exchange I)} {a : α} {answer : (c : I.Call) → I.Answer c} (h : x.Runs t a)
    (told : ∀ e ∈ t, e.answer = answer e.call) : a = x.under answer := by
  induction h with
  | done a => rfl
  | @ask c next t a r _ ih =>
    obtain rfl : r = answer c := told _ List.mem_cons_self
    exact ih fun e mem => told e (.tail _ mem)

theorem Dialogue.runs_under {I : Interface} {α : Type} (x : Dialogue I α)
    (answer : (c : I.Call) → I.Answer c) :
    ∃ t, x.Runs t (x.under answer) ∧ ∀ e ∈ t, e.answer = answer e.call := by
  induction x with
  | done a => exact ⟨[], .done a, fun _ mem => nomatch mem⟩
  | ask c next ih =>
    obtain ⟨t, runs, told⟩ := ih (answer c)
    exact ⟨_, .ask _ runs, List.forall_mem_cons.mpr ⟨rfl, told⟩⟩

namespace Counterpart

variable {π : Type} (R : Counterpart π)

/-- What work with the secrets comes to. -/
def look {α : Type} (σ : Vault) (task : SecretTask α) : Except Error α :=
  task.run.under (R.secretAnswer σ)

theorem look_of_runs {α : Type} {l : Login} {σ : Vault} {x : π} {task : SecretTask α}
    {s : List (Exchange secrets)} {res : Except Error α} (runs : task.run.Runs s res)
    (told : ∀ e ∈ s.map Exchange.ofSecret, R.Told l σ x e) : R.look σ task = res :=
  (runs.eq_under fun _ mem => told _ (List.mem_map_of_mem mem)).symm

/-- What work comes to that only reads at the provider. -/
def ask {α : Type} (l : Login) (x : π) (task : ProviderTask α) : Except Error α :=
  task.run.under (R.providerAnswer l x)

theorem ask_of_runs {α : Type} {l : Login} {σ : Vault} {x : π} {task : ProviderTask α}
    {p : List (Exchange provider)} {res : Except Error α} (runs : task.run.Runs p res)
    (told : ∀ e ∈ p.map Exchange.ofProvider, R.Told l σ x e) : R.ask l x task = res :=
  (runs.eq_under fun _ mem => told _ (List.mem_map_of_mem mem)).symm

/-- How opening the connection ends. -/
def opened (r : Resource) (σ : Vault) (x : π) : Except Error Unit := do
  let token ← (R.look σ
    (readSecret r.namespaceName r.spec.authSecret.name r.spec.authSecret.key)).mapError
      (Error.phase "get auth secret")
  (R.connect ⟨token, r.spec.region⟩ x).mapError (Error.provider "create database manager")

end Counterpart

/-- What the connection of a resource is opened with. -/
def Resource.login (r : Resource) (σ : Vault) : Login :=
  ⟨(σ r.namespaceName r.spec.authSecret.name r.spec.authSecret.key).getD "", r.spec.region⟩

theorem Resource.login_eq {r : Resource} {σ : Vault} {token : String}
    (found : σ r.namespaceName r.spec.authSecret.name r.spec.authSecret.key = some token) :
    r.login σ = ⟨token, r.spec.region⟩ := by
  unfold login
  rw [found]
  rfl

theorem Resource.login_of_concurs {r r' : Resource} (concurs : r.Concurs r') (σ : Vault) : r'.login σ = r.login σ := by
  unfold login
  rw [concurs.located, concurs.spec]

namespace Counterpart

variable {π : Type} {R : Counterpart π} {a b : Site π}

section Look

variable {α : Type} {σ : Vault} {x : π}

theorem look_requireText_iff {field text : String} {task : SecretTask α} {result : α} :
    R.look σ (do requireText field text; task) = .ok result ↔
      text ≠ "" ∧ R.look σ task = .ok result := by
  by_cases empty : text = ""
  · rw [empty]
    exact iff_of_false (fun ok => nomatch ok) fun ok => ok.1 rfl
  · rw [Task.requireText_eq empty, pure_bind]
    exact (and_iff_right empty).symm

theorem look_readSecret_iff {namespaceName name key token : String} :
    R.look σ (readSecret namespaceName name key) = .ok token ↔
      namespaceName ≠ "" ∧ name ≠ "" ∧ key ≠ "" ∧ σ namespaceName name key = some token := by
  have called : R.look σ (SecretTask.call "get secret" (.get namespaceName name key)) = .ok token ↔
      σ namespaceName name key = some token := by
    change (R.lookup σ namespaceName name key).mapError (Wrap.wrap "get secret") = .ok token ↔ _
    unfold lookup
    cases σ namespaceName name key with
    | none => exact iff_of_false (fun ok => nomatch ok) fun found => nomatch found
    | some value => exact ⟨fun ok => congrArg some (Except.ok.inj ok),
        fun found => congrArg Except.ok (Option.some.inj found)⟩
  unfold readSecret
  rw [look_requireText_iff, look_requireText_iff, look_requireText_iff, called]

/-- The connection opens when there is a token that the provider takes. -/
theorem opened_iff {r : Resource} : R.opened r σ x = .ok () ↔
    (r.namespaceName ≠ "" ∧ r.spec.authSecret.name ≠ "" ∧ r.spec.authSecret.key ≠ "") ∧
      ∃ token, σ r.namespaceName r.spec.authSecret.name r.spec.authSecret.key = some token ∧
        R.connect ⟨token, r.spec.region⟩ x = .ok () := by
  have connected {token : String} : (R.connect ⟨token, r.spec.region⟩ x).mapError
      (Error.provider "create database manager") = .ok () ↔ R.connect ⟨token, r.spec.region⟩ x = .ok () := by
    cases R.connect ⟨token, r.spec.region⟩ x with
    | error e => exact iff_of_false (fun ok => nomatch ok) fun ok => nomatch ok
    | ok _ => exact iff_of_true rfl rfl
  unfold opened
  constructor
  · intro opened
    cases read : R.look σ
        (readSecret r.namespaceName r.spec.authSecret.name r.spec.authSecret.key) with
    | error e =>
      rw [read] at opened
      cases opened
    | ok token =>
      rw [read] at opened
      obtain ⟨located, named, keyed, found⟩ := look_readSecret_iff.mp read
      exact ⟨⟨located, named, keyed⟩, token, found, connected.mp opened⟩
  · rintro ⟨⟨located, named, keyed⟩, token, found, opened⟩
    rw [look_readSecret_iff.mpr ⟨located, named, keyed, found⟩]
    exact connected.mpr opened

theorem look_writeSecret_iff {s : Secret} {owner : Option Owner} :
    R.look σ (writeSecret s owner) = .ok () ↔
      s.namespaceName ≠ "" ∧ s.name ≠ "" ∧ s.key ≠ "" ∧ s.value ≠ "" := by
  have called : R.look σ (SecretTask.call "create or update secret" (.set s owner)) = .ok () := rfl
  unfold writeSecret
  rw [look_requireText_iff, look_requireText_iff, look_requireText_iff, look_requireText_iff]
  simp only [called, and_true]

/-- What has been written can be written. -/
theorem look_of_written {s : Secret} {owner : Option Owner} {y : List (Exchange secrets)}
    (written : (writeSecret s owner).run.Runs y (.ok ())) : R.look σ (writeSecret s owner) = .ok () := by
  obtain rfl := Pass.trace_of_writeSecret written
  exact (written.eq_under (List.forall_mem_singleton.mpr rfl)).symm

/-- Any connection string has the name that the type of the databases says. -/
theorem name_of_ask {l : Login} {db : Database} {url : ConnectionUrl}
    (h : R.ask l x (Manager.connectionUrl db) = .ok url) :
    url.name = DatabaseType.postgresql.urlVariable := by
  obtain ⟨t, runs, _⟩ := (Manager.connectionUrl db).run.runs_under (R.providerAnswer l x)
  rw [show (Manager.connectionUrl db).run.under (R.providerAnswer l x) = .ok url from h] at runs
  obtain ⟨value, rfl, _⟩ := Pass.trace_of_connectionUrl runs
  rfl

end Look

/-- Opening the connection does not depend on what the conditions say. -/
theorem opened_congr {r r' : Resource} (concurs : r.Concurs r') (secrets : b.secrets = a.secrets)
    (remote : b.remote = a.remote) :
    R.opened r' b.secrets b.remote = R.opened r a.secrets a.remote := by
  unfold opened
  rw [concurs.located, concurs.spec, secrets, remote]

end Counterpart

namespace Pass

variable {π : Type} {R : Counterpart π} {a b : Site π} {r r' : Resource} {t : List (Exchange pass)}
  {troubled : Bool} {σ : Vault} {x : π} {db : Database}

theorem after_ofSecret {l : Login} (s : List (Exchange secrets)) :
    ∀ e ∈ s.map Exchange.ofSecret, l.after e = l :=
  List.forall_mem_map.mpr fun _ _ => rfl

theorem after_ofProvider {l : Login} (p : List (Exchange provider)) :
    ∀ e ∈ p.map Exchange.ofProvider, l.after e = l :=
  List.forall_mem_map.mpr fun _ _ => rfl

theorem foldl_after_ofProvider {l : Login} (p : List (Exchange provider)) :
    (p.map Exchange.ofProvider).foldl Login.after l = l := by
  rw [List.foldl_map]
  exact List.foldl_fixed' (fun _ => rfl) p

theorem foldl_after_ticks {l : Login} (times : List Time) : (ticks times).foldl Login.after l = l := by
  induction times with
  | nil => rfl
  | cons time times ih => exact ih

theorem idle_ticks (times : List Time) : ∀ e ∈ ticks times, e.Idle :=
  List.forall_mem_map.mpr fun _ _ => trivial

theorem idle_of_readSecret {namespaceName name key : String} {s : List (Exchange secrets)}
    {res : Except Error String} (h : (readSecret namespaceName name key).run.Runs s res) :
    ∀ e ∈ s.map Exchange.ofSecret, e.Idle := by
  intro e mem
  obtain ⟨⟨c, answer⟩, asked, rfl⟩ := List.mem_map.mp mem
  have reads := only_readSecret _ _ _ _ _ h _ asked
  cases c with
  | get => trivial
  | set => exact reads.elim

theorem Opening.idle {res : Except Error Unit} (h : Opening r t res) : ∀ e ∈ t, e.Idle := by
  cases h with
  | tokenless read => exact idle_of_readSecret read
  | connected answer read =>
    intro e mem
    rcases List.mem_append.mp mem with early | last
    · exact idle_of_readSecret read e early
    · obtain rfl := List.mem_singleton.mp last
      trivial

theorem granted_of_readSecret {namespaceName name key token : String} {s : List (Exchange secrets)}
    (h : (readSecret namespaceName name key).run.Runs s (.ok token)) :
    ∀ e ∈ s.map Exchange.ofSecret, e.Granted := by
  rcases Task.cases_of_requireText h with ⟨_, e, error⟩ | h₁
  · cases error
  rcases Task.cases_of_requireText h₁ with ⟨_, e, error⟩ | h₂
  · cases error
  rcases Task.cases_of_requireText h₂ with ⟨_, e, error⟩ | h₃
  · cases error
  obtain ⟨answer, rfl, ok⟩ := SecretTask.runs_call_iff.mp h₃
  cases answer with
  | error e => cases ok
  | ok token => exact List.forall_mem_singleton.mpr trivial

theorem idle_ofProvider {α : Type} {task : ProviderTask α} {p : List (Exchange provider)}
    {res : Except Error α} (reads : task.run.Only ProviderCall.Reads) (runs : task.run.Runs p res) :
    ∀ e ∈ p.map Exchange.ofProvider, e.Idle := by
  intro e mem
  obtain ⟨e, asked, rfl⟩ := List.mem_map.mp mem
  exact reads p res runs e asked

theorem granted_of_get {id : String} {p : List (Exchange provider)}
    (h : (Manager.get id).run.Runs p (.ok db)) : ∀ e ∈ p.map Exchange.ofProvider, e.Granted := by
  obtain ⟨seen, rules, rfl, _⟩ := Manager.trace_of_get h
  exact List.forall_mem_cons.mpr ⟨trivial, List.forall_mem_singleton.mpr trivial⟩

theorem granted_of_connectionUrl {url : ConnectionUrl} {p : List (Exchange provider)}
    (h : (Manager.connectionUrl db).run.Runs p (.ok url)) :
    ∀ e ∈ p.map Exchange.ofProvider, e.Granted := by
  obtain ⟨value, _, rfl⟩ := trace_of_connectionUrl h
  exact List.forall_mem_singleton.mpr trivial

/-- A secret that is not written leaves nothing behind. -/
theorem idle_of_unsaved {s : Secret} {owner : Option Owner} {x : List (Exchange secrets)} {e : Error}
    (h : (writeSecret s owner).run.Runs x (.error e)) : ∀ e ∈ x.map Exchange.ofSecret, e.Idle := by
  rcases cases_of_writeSecret h with ⟨rfl, _⟩ | ⟨answer, rfl, error⟩
  · exact fun _ mem => nomatch mem
  · cases answer with
    | error f => exact List.forall_mem_singleton.mpr trivial
    | ok _ => cases error

end Pass

namespace Counterpart.Serves

variable {π : Type} {R : Counterpart π} {l : Login} {a b c : Site π} {r : Resource}
  {t u : List (Exchange pass)} {troubled : Bool} {α : Type}

/-- Reading at the provider comes to what is there, if nothing fails. -/
theorem asks {task : ProviderTask α} {p : List (Exchange provider)} {res : Except Error α}
    (h : R.Serves troubled l a (p.map .ofProvider) b) (steady : R.Steady)
    (reads : task.run.Only ProviderCall.Reads) (runs : task.run.Runs p res)
    (sound : troubled = false ∨ ∀ e ∈ p.map Exchange.ofProvider, e.Granted) :
    R.ask l a.remote task = res ∧ b.Like a ∧ (troubled = false → b = a) := by
  obtain ⟨like, same, told⟩ := h.of_idle steady (Pass.idle_ofProvider reads runs)
  have told := told (Pass.after_ofProvider p)
  exact ⟨R.ask_of_runs runs fun e mem => told e mem (sound.imp_right fun granted => granted e mem),
    like, same⟩

/-- The connection opens as things are, if nothing fails, and then it has the login of the resource. -/
theorem opens {res : Except Error Unit} (h : R.Serves troubled l a t b) (steady : R.Steady)
    (opening : Pass.Opening r t res) (sound : troubled = false ∨ res = .ok ()) :
    R.opened r a.secrets a.remote = res ∧ b.Like a ∧ (troubled = false → b = a) ∧
      (res = .ok () → t.foldl Login.after l = r.login a.secrets) := by
  obtain ⟨like, same, _⟩ := h.of_idle steady opening.idle
  cases opening with
  | @tokenless s e read =>
    have calm : troubled = false := sound.resolve_right fun opened => nomatch opened
    obtain ⟨_, _, told⟩ := h.of_idle steady (Pass.idle_of_readSecret read)
    have told := told (Pass.after_ofSecret s)
    have unread := R.look_of_runs read fun e mem => told e mem (.inl calm)
    refine ⟨?_, like, same, fun opened => nomatch opened⟩
    unfold opened
    rw [unread]
    rfl
  | @connected s token answer read =>
    obtain ⟨a₁, first, rest⟩ := h.of_append
    obtain ⟨like₁, _, told⟩ := first.of_idle steady (Pass.idle_of_readSecret read)
    have told := told (Pass.after_ofSecret s)
    have known := R.look_of_runs read fun e mem => told e mem (.inr (Pass.granted_of_readSecret read e mem))
    have answered : answer = R.connect ⟨token, r.spec.region⟩ a.remote := by
      obtain ⟨a₂, like₂, _, ⟨a₃, answers, _⟩ | ⟨harassed, failed, _⟩⟩ := rest.of_cons
      · cases answers with
        | connected =>
          rw [(like₂.trans like₁).remote]
      · rcases sound with calm | opened
        · exact absurd (calm.symm.trans harassed) (by decide)
        · cases answer with
          | error e => cases opened
          | ok _ => exact absurd trivial failed
    have found := (look_readSecret_iff.mp known).2.2.2
    refine ⟨?_, like, same, fun _ => ?_⟩
    · unfold opened
      rw [known, answered]
      rfl
    · rw [List.foldl_append, Resource.login_eq found]
      rfl

/-- What comes after the connection is open is answered to the login of the resource. -/
theorem of_opening (h : R.Serves troubled l a (t ++ u) c) (steady : R.Steady)
    (opening : Pass.Opening r t (.ok ())) : R.opened r a.secrets a.remote = .ok () ∧
      ∃ b, b.Like a ∧ (troubled = false → b = a) ∧ R.Serves troubled (r.login a.secrets) b u c := by
  obtain ⟨b, first, rest⟩ := h.of_append
  obtain ⟨opened, like, same, logged⟩ := first.opens steady opening (.inr rfl)
  rw [logged rfl] at rest
  exact ⟨opened, b, like, same, rest⟩

end Counterpart.Serves

end DatabaseOperator
