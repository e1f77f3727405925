import DatabaseOperator.Proofs.Pass.Ends

namespace DatabaseOperator

/-- The secret that a call is to put into the store. -/
def PassCall.written? : PassCall → Option Secret
  | .secret (.set s _) => some s
  | _ => none

/-- The secret that was put into the store in an exchange. -/
def Exchange.saved? : Exchange pass → Option Secret
  | ⟨.secret (.set s _), .ok _⟩ => some s
  | _ => none

/-- The secrets that were put into the store, in order. -/
def Pass.saved (t : List (Exchange pass)) : List Secret :=
  t.filterMap Exchange.saved?

/-- The values in a store of secrets by namespace, name and key. -/
abbrev Vault : Type :=
  String → String → String → Option String

namespace Vault

def empty : Vault :=
  fun _ _ _ => none

/-- Puts one key of a secret; all other keys stay. -/
def put (σ : Vault) (s : Secret) : Vault := fun namespaceName name key =>
  if namespaceName = s.namespaceName ∧ name = s.name ∧ key = s.key then some s.value
  else σ namespaceName name key

theorem put_same (σ : Vault) (s : Secret) : σ.put s s.namespaceName s.name s.key = some s.value :=
  if_pos ⟨rfl, rfl, rfl⟩

/-- The store after a pass has talked to it. What fails has no effect. -/
def after (σ : Vault) (t : List (Exchange pass)) : Vault :=
  (Pass.saved t).foldl put σ

end Vault

namespace Pass

variable {t u : List (Exchange pass)} {r : Resource} {delay : Nat} {res : Except Error Requeue}
  {err : Error} {db : Database}

@[simp]
theorem saved_append (t u : List (Exchange pass)) : saved (t ++ u) = saved t ++ saved u :=
  List.filterMap_append

@[simp]
theorem saved_ofProvider (p : List (Exchange provider)) : saved (p.map .ofProvider) = [] := by
  induction p with
  | nil => rfl
  | cons e p ih => exact ih

@[simp]
theorem saved_ticks (times : List Time) : saved (ticks times) = [] := by
  induction times with
  | nil => rfl
  | cons time times ih => exact ih

theorem saved_of_reads {x : List (Exchange secrets)} (reads : ∀ e ∈ x, ReadsSecret e.call) :
    saved (x.map .ofSecret) = [] := by
  refine List.filterMap_eq_nil_iff.mpr fun e mem => ?_
  obtain ⟨⟨c, a⟩, asked, rfl⟩ := List.mem_map.mp mem
  cases c with
  | get => rfl
  | set => exact (reads _ asked).elim

theorem Opening.saved_eq {res : Except Error Unit} (h : Opening r t res) : saved t = [] := by
  cases h with
  | tokenless read => exact saved_of_reads (only_readSecret _ _ _ _ _ read)
  | connected a read =>
    rw [saved_append, saved_of_reads (only_readSecret _ _ _ _ _ read)]
    rfl

theorem Finalizing.saved_eq (h : Finalizing r t res) : saved t = [] := by
  cases h with
  | unguarded | unrecorded => rfl
  | closed _ _ opening => exact opening.saved_eq
  | refused _ _ opening | deleted _ _ _ _ opening =>
    rw [saved_append, opening.saved_eq]
    rfl

theorem Creating.saved_eq (h : Creating delay r t res) : saved t = [] := by
  cases h with
  | invalid => rfl
  | closed _ opening => exact opening.saved_eq
  | refused _ opening | nameless _ opening | created _ _ _ opening =>
    rw [saved_append, opening.saved_eq]
    rfl

theorem Updating.saved_eq (h : Updating delay r t res) : saved t = [] := by
  cases h with
  | invalid => rfl
  | closed _ opening => exact opening.saved_eq
  | unread _ opening | busy _ opening | failed _ opening =>
    rw [saved_append, opening.saved_eq, saved_ofProvider, List.nil_append]
  | arrived _ _ _ opening | planned _ _ _ opening | renoted _ _ _ opening | noted _ _ opening =>
    rw [saved_append, saved_append, opening.saved_eq, saved_ofProvider]
    rfl

/-- Writing a secret is one call, unless it fails before. -/
theorem cases_of_writeSecret {s : Secret} {owner : Option Owner} {x : List (Exchange secrets)}
    {res : Except Error Unit} (h : (writeSecret s owner).run.Runs x res) :
    (x = [] ∧ ∃ e, res = .error e) ∨ ∃ a : Except StoreError Unit, x = [⟨.set s owner, a⟩] ∧
      res = a.mapError (Error.store "create or update secret") := by
  rcases Task.cases_of_requireText h with early | h₁
  · exact .inl early
  rcases Task.cases_of_requireText h₁ with early | h₂
  · exact .inl early
  rcases Task.cases_of_requireText h₂ with early | h₃
  · exact .inl early
  rcases Task.cases_of_requireText h₃ with early | h₄
  · exact .inl early
  · exact .inr (SecretTask.runs_call_iff.mp h₄)

/-- What is exchanged when a secret is written. -/
theorem trace_of_writeSecret {x : Secret} {owner : Option Owner} {y : List (Exchange secrets)}
    (h : (writeSecret x owner).run.Runs y (.ok ())) : y = [⟨.set x owner, .ok ()⟩] := by
  rcases cases_of_writeSecret h with ⟨_, e, error⟩ | ⟨a, rfl, ok⟩
  · cases error
  · cases a with
    | error e => cases ok
    | ok _ => rfl

theorem saved_of_writeSecret {s : Secret} {owner : Option Owner} {x : List (Exchange secrets)}
    (h : (writeSecret s owner).run.Runs x (.ok ())) : saved (x.map .ofSecret) = [s] := by
  rw [trace_of_writeSecret h]
  rfl

theorem unsaved_of_writeSecret {s : Secret} {owner : Option Owner} {x : List (Exchange secrets)}
    {e : Error} (h : (writeSecret s owner).run.Runs x (.error e)) : saved (x.map .ofSecret) = [] := by
  rcases cases_of_writeSecret h with ⟨rfl, _⟩ | ⟨a, rfl, error⟩
  · rfl
  · cases a with
    | error e => rfl
    | ok _ => cases error

/-- A connection string is the value of the variable that the type of the database says. -/
theorem trace_of_connectionUrl {p : List (Exchange provider)} {url : ConnectionUrl}
    (h : (Manager.connectionUrl db).run.Runs p (.ok url)) :
    ∃ value, url = ⟨DatabaseType.postgresql.urlVariable, value⟩ ∧
      p = [⟨.findVariable db.appId DatabaseType.postgresql.urlVariable, .ok value⟩] := by
  obtain ⟨t₁, t₂, type, rfl, typed, h₁⟩ := Task.split_of_ok h
  have silent : t₁ = [] := by
    unfold Manager.requireType at typed
    split at typed
    next => exact (Task.runs_pure_iff.mp typed).1
    next => exact (Task.runs_throw_iff.mp typed).1
  rcases Task.cases_of_requireText h₁ with ⟨_, e, error⟩ | h₂
  · cases error
  obtain ⟨t₃, t₄, value, rfl, found, h₃⟩ := Task.split_of_ok h₂
  obtain ⟨rfl, same⟩ := Task.runs_pure_iff.mp h₃
  obtain ⟨a, rfl, ok⟩ := ProviderTask.runs_call_iff.mp found
  cases type
  cases a with
  | error e => cases ok
  | ok _ =>
    cases ok
    cases same
    rw [silent]
    exact ⟨value, rfl, rfl⟩

/-- The connection string of a resource was put into its secret, and then the running flag could not be
stored. -/
def HalfHanded (r : Resource) (t : List (Exchange pass)) : Prop :=
  ∃ (appId value : String) (f : StoreError),
    saved t = [r.connectionSecret ⟨DatabaseType.postgresql.urlVariable, value⟩] ∧
    (⟨.provider (.findVariable appId DatabaseType.postgresql.urlVariable), .ok value⟩ :
      Exchange pass) ∈ t ∧
    (⟨.resource (.update (r.setRunningFlag true)), .error f⟩ : Exchange pass) ∈ t

/-- No secret was written, and nothing but the status of the resource. -/
def Unhanded (t : List (Exchange pass)) : Prop :=
  saved t = [] ∧ ∀ w a, (⟨.resource (.update w), a⟩ : Exchange pass) ∉ t

theorem Quiet.unhanded (h : Quiet t) (unsaved : saved t = []) : Unhanded t :=
  ⟨unsaved, fun _ _ => h.not_mem⟩

theorem HalfHanded.append (h : HalfHanded r t) (unsaved : saved u = []) : HalfHanded r (u ++ t) := by
  obtain ⟨appId, value, f, written, found, refused⟩ := h
  refine ⟨appId, value, f, ?_, List.mem_append_right _ found, List.mem_append_right _ refused⟩
  rw [saved_append, unsaved, written, List.nil_append]

theorem Unhanded.append (h : Unhanded t) (g : Unhanded u) : Unhanded (t ++ u) := by
  refine ⟨?_, fun w a mem => ?_⟩
  · rw [saved_append, h.1, g.1, List.nil_append]
  · exact (List.mem_append.mp mem).elim (h.2 w a) (g.2 w a)

theorem HandingOver.handed (h : HandingOver r db t (.error err)) : Unhanded t ∨ HalfHanded r t := by
  generalize eq : Except.error err = res at h
  cases h with
  | unnamed => exact .inl ((quiet_ofProvider _).unhanded (saved_ofProvider _))
  | unsaved named written =>
    refine .inl (((quiet_ofProvider _).append (quiet_ofSecret _)).unhanded ?_)
    rw [saved_append, saved_ofProvider, unsaved_of_writeSecret written, List.nil_append]
  | saved a named written =>
    cases a with
    | ok stored => cases eq
    | error f =>
      obtain ⟨value, rfl, rfl⟩ := trace_of_connectionUrl named
      refine .inr ⟨_, value, f, ?_, .head _, ?_⟩
      · rw [saved_append, saved_ofProvider, saved_append, saved_of_writeSecret written]
        rfl
      · exact List.mem_append_right _ (List.mem_append_right _ (.head _))

theorem unhanded_status {w : Resource} (a : Except StoreError Resource) :
    Unhanded [⟨.resource (.updateStatus w), a⟩] := by
  refine ⟨rfl, fun x b mem => ?_⟩
  cases List.mem_singleton.mp mem

theorem Opening.unhanded_timed {res : Except Error Unit} (h : Opening r t res)
    (p : List (Exchange provider)) (times : List Time) :
    Unhanded (t ++ (p.map .ofProvider ++ ticks times)) := by
  refine (h.quiet_timed p times).unhanded ?_
  rw [saved_append, saved_append, h.saved_eq, saved_ofProvider, saved_ticks]
  rfl

/-- A wait that fails has written the connection string exactly when its last write was refused. -/
theorem Awaiting.handed (h : Awaiting delay r t (.error err)) :
    Unhanded t ∨ ∃ x, HalfHanded x t ∧ (x = r ∨ ∃ now,
      (⟨.resource (.updateStatus (r.setProvisioned now).1), .ok x⟩ : Exchange pass) ∈ t) := by
  generalize eq : Except.error err = res at h
  cases h with
  | closed opening => exact .inl (opening.quiet.unhanded opening.saved_eq)
  | unread opening =>
    refine .inl ((opening.quiet.append (quiet_ofProvider _)).unhanded ?_)
    rw [saved_append, opening.saved_eq, saved_ofProvider, List.nil_append]
  | early => cases eq
  | @noted _ p _ _ _ now opening _ _ _ handing =>
    cases eq
    have first := opening.unhanded_timed p now.toList
    rw [append_timed]
    rcases handing.handed with unhanded | half
    · exact .inl (first.append unhanded)
    · exact .inr ⟨r, half.append first.1, .inl rfl⟩
  | @unnoted _ p _ now e opening =>
    rw [append_timed]
    exact .inl ((opening.unhanded_timed p now.toList).append (unhanded_status (.error e)))
  | @renoted _ p _ u _ now stored opening _ _ _ handing =>
    cases eq
    have first := opening.unhanded_timed p now.toList
    have noted : Unhanded [⟨.resource (.updateStatus (r.setProvisioned now).1), .ok stored⟩] :=
      unhanded_status (.ok stored)
    rw [append_timed]
    rcases handing.handed with unhanded | half
    · exact .inl (first.append (noted.append unhanded))
    · refine .inr ⟨stored, ?_, .inr ⟨now, List.mem_append_right _ (.head _)⟩⟩
      exact HalfHanded.append (half.append noted.1) first.1

/-- No other step writes a secret. -/
theorem Course.saved_eq (h : Course delay r t res) (elsewhere : ¬ r.Awaits) : saved t = [] := by
  cases h with
  | finalize _ h => exact h.saved_eq
  | mark | init | flag => rfl
  | create _ _ _ h => exact h.saved_eq
  | await prepared recorded waiting => exact absurd ⟨prepared, recorded, waiting⟩ elsewhere
  | update _ _ _ h => exact h.saved_eq

/-- What is due for the wait and fails has been half handed over or not at all. -/
theorem Course.handed (h : Course delay r t (.error err)) (awaits : r.Awaits) :
    Unhanded t ∨ ∃ x, HalfHanded x t ∧ (x = r ∨ ∃ now,
      (⟨.resource (.updateStatus (r.setProvisioned now).1), .ok x⟩ : Exchange pass) ∈ t) := by
  obtain ⟨action, res', failed, step⟩ := h.cases_of_prepared awaits.1
  rcases step with ⟨unrecorded, resting, _⟩ | ⟨_, awaiting⟩ | ⟨available, running, _⟩
  · exact absurd (.inl ⟨unrecorded, resting⟩) awaits.not_bringing
  · cases res' with
    | ok next => cases failed
    | error e => exact awaiting.handed
  · exact absurd (.inr ⟨available, running⟩) awaits.not_bringing

end Pass

end DatabaseOperator
