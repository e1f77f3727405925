import DatabaseOperator.Operator.Pass
import DatabaseOperator.Proofs.Trace

namespace DatabaseOperator

/-- Every program can be answered to its end. -/
theorem Dialogue.exists_runs {α : Type} (x : Dialogue pass α) : ∃ t a, x.Runs t a := by
  induction x with
  | done a => exact ⟨[], a, .done a⟩
  | ask c next ih =>
    have answer : Nonempty (pass.Answer c) := by
      cases c with
      | resource | secret => exact ⟨.error (.conflict "")⟩
      | connect | provider => exact ⟨.error .emptyToken⟩
      | now => exact ⟨Time.epoch⟩
    obtain ⟨r⟩ := answer
    obtain ⟨t, a, runs⟩ := ih r
    exact ⟨_, a, .ask r runs⟩

namespace Exchange

def ofSecret (e : Exchange secrets) : Exchange pass :=
  ⟨.secret e.call, e.answer⟩

def ofProvider (e : Exchange provider) : Exchange pass :=
  ⟨.provider e.call, e.answer⟩

end Exchange

theorem ProviderTask.runs_call_iff {action : String} {c : ProviderCall}
    {t : List (Exchange provider)} {res : Except Error c.Result} :
    (ProviderTask.call action c).run.Runs t res ↔
      ∃ a : Except ProviderError c.Result, t = [⟨c, a⟩] ∧ res = a.mapError (Error.provider action) :=
  Task.runs_single_iff

theorem SecretTask.runs_call_iff {action : String} {c : SecretCall}
    {t : List (Exchange secrets)} {res : Except Error c.Result} :
    (SecretTask.call action c).run.Runs t res ↔
      ∃ a : Except StoreError c.Result, t = [⟨c, a⟩] ∧ res = a.mapError (Error.store action) :=
  Task.runs_single_iff

theorem runs_readSecret_iff {namespaceName name key : String} (hn : namespaceName ≠ "")
    (hm : name ≠ "") (hk : key ≠ "") {t : List (Exchange secrets)} {res : Except Error String} :
    (readSecret namespaceName name key).run.Runs t res ↔
      ∃ a : Except StoreError String, t = [⟨.get namespaceName name key, a⟩] ∧
        res = a.mapError (Error.store "get secret") := by
  rw [readSecret, Task.requireText_eq hn, Task.requireText_eq hm, Task.requireText_eq hk,
    pure_bind, pure_bind, pure_bind]
  exact SecretTask.runs_call_iff

def Times.toList (now : Times) : List Time :=
  [now.available, now.provisioning]

namespace Pass

variable {t : List (Exchange pass)}

/-- A call that only reads a secret. -/
def ReadsSecret : SecretCall → Prop
  | .get _ _ _ => True
  | .set _ _ => False

theorem only_readSecret (namespaceName name key : String) :
    (readSecret namespaceName name key).run.Only ReadsSecret := by
  refine Task.only_bind (Task.only_requireText _ _) fun _ => ?_
  refine Task.only_bind (Task.only_requireText _ _) fun _ => ?_
  refine Task.only_bind (Task.only_requireText _ _) fun _ => ?_
  exact Task.only_single trivial

theorem runs_resource_iff {action : String} {c : ResourceCall} {res : Except Error c.Result} :
    (resource action c).run.Runs t res ↔
      ∃ a : Except StoreError c.Result,
        t = [⟨.resource c, a⟩] ∧ res = a.mapError (Error.store action) :=
  Task.runs_single_iff

theorem runs_connect_iff {token region : String} {res : Except Error Unit} :
    (connect token region).run.Runs t res ↔
      ∃ a : Except ProviderError Unit, t = [⟨.connect token region, a⟩] ∧
        res = a.mapError (Error.provider "create database manager") :=
  Task.runs_single_iff

/-- What the clock showed, one reading after the other. -/
def ticks (times : List Time) : List (Exchange pass) :=
  times.map fun time => ⟨.now, time⟩

/-- What comes before the clock is read stands apart from what comes after. -/
theorem append_timed (t u : List (Exchange pass)) (p : List (Exchange provider))
    (times : List Time) : t ++ (p.map .ofProvider ++ (ticks times ++ u)) =
      t ++ (p.map .ofProvider ++ ticks times) ++ u := by
  simp

/-- The work reads the clock and nothing else, and gives what it showed. -/
def Reads {τ : Type} (clock : PassTask τ) (times : τ → List Time) : Prop :=
  ∀ t res, clock.run.Runs t res ↔ ∃ x, t = ticks (times x) ∧ res = .ok x

theorem reads_now : Reads now fun time => [time] :=
  fun _ _ => Task.runs_single_iff (I := pass) (c := .now) (f := Except.ok)

/-- Work that begins with readings of the clock. -/
theorem Reads.runs_bind_iff {τ α : Type} {clock : PassTask τ} {times : τ → List Time}
    (reads : Reads clock times) {f : τ → PassTask α} {res : Except Error α} :
    (clock >>= f).run.Runs t res ↔ ∃ x u, t = ticks (times x) ++ u ∧ (f x).run.Runs u res := by
  constructor
  · intro h
    rcases Task.runs_bind_iff.mp h with ⟨e, rfl, h₁⟩ | ⟨t₁, u, x, rfl, h₁, h₂⟩
    · obtain ⟨_, _, failed⟩ := (reads _ _).mp h₁
      cases failed
    · obtain ⟨_, rfl, read⟩ := (reads _ _).mp h₁
      cases read
      exact ⟨x, u, rfl, h₂⟩
  · rintro ⟨x, u, rfl, h⟩
    exact Task.runs_bind_of_ok ((reads _ _).mpr ⟨x, rfl, rfl⟩) h

theorem reads_times : Reads times Times.toList := by
  intro t res
  refine reads_now.runs_bind_iff.trans ?_
  constructor
  · rintro ⟨available, u, rfl, h⟩
    obtain ⟨provisioning, v, rfl, h'⟩ := reads_now.runs_bind_iff.mp h
    obtain ⟨rfl, rfl⟩ := Task.runs_pure_iff.mp h'
    exact ⟨⟨available, provisioning⟩, rfl, rfl⟩
  · rintro ⟨now, rfl, rfl⟩
    exact ⟨now.available, _, rfl, reads_now.runs_bind_iff.mpr
      ⟨now.provisioning, [], rfl, Task.runs_pure_iff.mpr ⟨rfl, rfl⟩⟩⟩

theorem runs_secretTask_iff {α : Type} {task : SecretTask α} {res : Except Error α} :
    (secretTask task).run.Runs t res ↔ ∃ t', t = t'.map .ofSecret ∧ task.run.Runs t' res :=
  Dialogue.runs_serve_iff fun _ _ _ => Dialogue.runs_call_iff

theorem runs_providerTask_iff {α : Type} {task : ProviderTask α} {res : Except Error α} :
    (providerTask task).run.Runs t res ↔ ∃ t', t = t'.map .ofProvider ∧ task.run.Runs t' res :=
  Dialogue.runs_serve_iff fun _ _ _ => Dialogue.runs_call_iff

/-- How a step ends whose last call is a write. -/
def ended {α : Type} (action : String) (next : Requeue) :
    Except StoreError α → Except Error Requeue
  | .ok _ => .ok next
  | .error e => .error (.store action e)

theorem runs_lastWrite_iff {action : String} {c : ResourceCall} {next : Requeue}
    {res : Except Error Requeue} :
    (do let _ ← resource action c; pure next : PassTask Requeue).run.Runs t res ↔
      ∃ a : Except StoreError c.Result, t = [⟨.resource c, a⟩] ∧ res = ended action next a := by
  rw [Task.runs_bind_iff]
  constructor
  · rintro (⟨e, rfl, h⟩ | ⟨t₁, t₂, r, rfl, h₁, h₂⟩)
    · obtain ⟨a, rfl, ha⟩ := runs_resource_iff.mp h
      cases a with
      | error f => cases ha; exact ⟨_, rfl, rfl⟩
      | ok r => cases ha
    · obtain ⟨a, rfl, ha⟩ := runs_resource_iff.mp h₁
      obtain ⟨rfl, rfl⟩ := Task.runs_pure_iff.mp h₂
      cases a with
      | error f => cases ha
      | ok r => exact ⟨_, rfl, rfl⟩
  · rintro ⟨a, rfl, rfl⟩
    cases a with
    | error f => exact .inl ⟨_, rfl, runs_resource_iff.mpr ⟨_, rfl, rfl⟩⟩
    | ok r => exact .inr ⟨_, [], r, rfl, runs_resource_iff.mpr ⟨_, rfl, rfl⟩,
        Task.runs_pure_iff.mpr ⟨rfl, rfl⟩⟩

/-- A write of conditions that hold from the present time on. -/
theorem Reads.runs_write_iff {τ : Type} {clock : PassTask τ} {times : τ → List Time}
    (reads : Reads clock times) {action : String} {f : τ → Resource} {next : Requeue}
    {res : Except Error Requeue} :
    (do let x ← clock; let _ ← resource action (.updateStatus (f x)); pure next :
      PassTask Requeue).run.Runs t res ↔
      ∃ (x : τ) (a : Except StoreError Resource),
        t = ticks (times x) ++ [⟨.resource (.updateStatus (f x)), a⟩] ∧
          res = ended action next a := by
  refine reads.runs_bind_iff.trans ?_
  constructor
  · rintro ⟨x, u, rfl, h⟩
    obtain ⟨a, rfl, rfl⟩ := runs_lastWrite_iff.mp h
    exact ⟨x, a, rfl, rfl⟩
  · rintro ⟨x, a, rfl, rfl⟩
    exact ⟨x, _, rfl, runs_lastWrite_iff.mpr ⟨a, rfl, rfl⟩⟩

/-- The courses of opening the connection to the provider. -/
inductive Opening (r : Resource) : List (Exchange pass) → Except Error Unit → Prop
  | tokenless {t : List (Exchange secrets)} {e : Error} :
      (readSecret r.namespaceName r.spec.authSecret.name r.spec.authSecret.key).run.Runs t
        (.error e) →
      Opening r (t.map .ofSecret) (.error (.phase "get auth secret" e))
  | connected {t : List (Exchange secrets)} {token : String} (a : Except ProviderError Unit) :
      (readSecret r.namespaceName r.spec.authSecret.name r.spec.authSecret.key).run.Runs t
        (.ok token) →
      Opening r (t.map .ofSecret ++ [⟨.connect token r.spec.region, a⟩])
        (a.mapError (Error.provider "create database manager"))

theorem opening_of_runs {r : Resource} {res : Except Error Unit}
    (h : (openProvider r).run.Runs t res) : Opening r t res := by
  rcases Task.runs_bind_iff.mp h with ⟨e, rfl, h₁⟩ | ⟨t₁, t₂, token, rfl, h₁, h₂⟩
  · obtain ⟨res, h₂, he⟩ := Task.runs_inPhase_iff.mp h₁
    obtain ⟨t', rfl, read⟩ := runs_secretTask_iff.mp h₂
    cases res with
    | error f => cases he; exact .tokenless read
    | ok token => cases he
  · obtain ⟨res, h₃, ha⟩ := Task.runs_inPhase_iff.mp h₁
    obtain ⟨t', rfl, read⟩ := runs_secretTask_iff.mp h₃
    obtain ⟨a, rfl, rfl⟩ := runs_connect_iff.mp h₂
    cases res with
    | error f => cases ha
    | ok token => cases ha; exact .connected a read

theorem runs_of_opening {r : Resource} {res : Except Error Unit} (h : Opening r t res) :
    (openProvider r).run.Runs t res := by
  cases h with
  | tokenless read =>
    exact Task.runs_bind_of_error (Task.runs_inPhase_iff.mpr
      ⟨_, runs_secretTask_iff.mpr ⟨_, rfl, read⟩, rfl⟩)
  | connected a read =>
    exact Task.runs_bind_of_ok (Task.runs_inPhase_iff.mpr
      ⟨_, runs_secretTask_iff.mpr ⟨_, rfl, read⟩, rfl⟩) (runs_connect_iff.mpr ⟨a, rfl, rfl⟩)

/-- Work behind an open connection. -/
theorem runs_of_opened {α : Type} {r : Resource} {task : PassTask α} {u : List (Exchange pass)}
    {res : Except Error α} (opening : Opening r t (.ok ())) (h : task.run.Runs u res) :
    (do openProvider r; task : PassTask α).run.Runs (t ++ u) res :=
  Task.runs_bind_of_ok (runs_of_opening opening) h

theorem runs_of_unprovided {α β : Type} {task : ProviderTask α} {f : α → PassTask β} {e : Error}
    {p : List (Exchange provider)} (failed : task.run.Runs p (.error e)) :
    (providerTask task >>= f).run.Runs (p.map .ofProvider) (.error e) :=
  Task.runs_bind_of_error (runs_providerTask_iff.mpr ⟨p, rfl, failed⟩)

theorem runs_of_provided {α β : Type} {task : ProviderTask α} {f : α → PassTask β} {a : α}
    {p : List (Exchange provider)} {res : Except Error β} (first : task.run.Runs p (.ok a))
    (h : (f a).run.Runs t res) :
    (providerTask task >>= f).run.Runs (p.map .ofProvider ++ t) res :=
  Task.runs_bind_of_ok (runs_providerTask_iff.mpr ⟨p, rfl, first⟩) h

/-- Work that begins with work with the provider. -/
theorem runs_provided_iff {α β : Type} {task : ProviderTask α} {f : α → PassTask β}
    {res : Except Error β} :
    (providerTask task >>= f).run.Runs t res ↔
      (∃ p e, t = p.map .ofProvider ∧ res = .error e ∧ task.run.Runs p (.error e)) ∨
        ∃ p u a, t = p.map .ofProvider ++ u ∧ task.run.Runs p (.ok a) ∧ (f a).run.Runs u res := by
  constructor
  · intro h
    rcases Task.runs_bind_iff.mp h with ⟨e, rfl, h₁⟩ | ⟨t₁, t₂, a, rfl, h₁, h₂⟩
    · obtain ⟨p, rfl, failed⟩ := runs_providerTask_iff.mp h₁
      exact .inl ⟨p, e, rfl, rfl, failed⟩
    · obtain ⟨p, rfl, first⟩ := runs_providerTask_iff.mp h₁
      exact .inr ⟨p, t₂, a, rfl, first, h₂⟩
  · rintro (⟨p, e, rfl, rfl, failed⟩ | ⟨p, u, a, rfl, first, h⟩)
    · exact runs_of_unprovided failed
    · exact runs_of_provided first h

end Pass

end DatabaseOperator
