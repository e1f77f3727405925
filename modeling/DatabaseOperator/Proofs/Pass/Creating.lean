import DatabaseOperator.Proofs.Pass.Calls

namespace DatabaseOperator

namespace Pass

variable {t : List (Exchange pass)}

/-- The courses of the step that creates the database. -/
inductive Creating (delay : Nat) (r : Resource) :
    List (Exchange pass) → Except Error Requeue → Prop
  | invalid {e : ValidationError} : r.spec.database = .error e →
      Creating delay r [] (.error (.phase "translate database spec" (.invalid e)))
  | closed {wanted : Database} {t : List (Exchange pass)} {e : Error} :
      r.spec.database = .ok wanted → Opening r t (.error e) → Creating delay r t (.error e)
  | refused {wanted : Database} {t : List (Exchange pass)} {e : ProviderError} :
      r.spec.database = .ok wanted → Opening r t (.ok ()) →
      Creating delay r (t ++ [⟨.provider (.createDatabase wanted), .error e⟩])
        (.error (.provider "create database" e))
  | nameless {wanted db : Database} {t : List (Exchange pass)} :
      r.spec.database = .ok wanted → Opening r t (.ok ()) → db.id = "" →
      Creating delay r (t ++ [⟨.provider (.createDatabase wanted), .ok db⟩])
        (.error (.empty "created database id"))
  | created {wanted db : Database} {t : List (Exchange pass)} (time : Time)
      (a : Except StoreError Resource) :
      r.spec.database = .ok wanted → Opening r t (.ok ()) → db.id ≠ "" →
      Creating delay r (t ++ [⟨.provider (.createDatabase wanted), .ok db⟩, ⟨.now, time⟩,
        ⟨.resource (.updateStatus ((r.setDatabaseId db.id).setProvisioning time).1), a⟩])
        (ended "update status" (.after delay) a)

theorem runs_desired_iff {r : Resource} {res : Except Error Database} :
    (desired r).run.Runs t res ↔ t = [] ∧
      res = r.spec.database.mapError fun e => .phase "translate database spec" (.invalid e) := by
  unfold desired
  cases r.spec.database with
  | ok db => exact Task.runs_pure_iff
  | error e => exact Task.runs_throw_iff

/-- Work that begins with the declared database ends at once when the declaration is invalid. -/
theorem cases_of_desired {α : Type} {r : Resource} {f : Database → PassTask α}
    {res : Except Error α} (h : (desired r >>= f).run.Runs t res) :
    (∃ e, r.spec.database = .error e ∧ t = [] ∧
        res = .error (.phase "translate database spec" (.invalid e))) ∨
      ∃ wanted, r.spec.database = .ok wanted ∧ (f wanted).run.Runs t res := by
  rcases Task.runs_bind_iff.mp h with ⟨e, rfl, h₁⟩ | ⟨t₁, t₂, wanted, rfl, h₁, h₂⟩
  · obtain ⟨rfl, he⟩ := runs_desired_iff.mp h₁
    cases hd : r.spec.database with
    | ok db => rw [hd] at he; cases he
    | error f => rw [hd] at he; cases he; exact .inl ⟨f, rfl, rfl, rfl⟩
  · obtain ⟨rfl, he⟩ := runs_desired_iff.mp h₁
    cases hd : r.spec.database with
    | error f => rw [hd] at he; cases he
    | ok db => rw [hd] at he; cases he; exact .inr ⟨wanted, rfl, h₂⟩

/-- Work that begins with the declared database, when the declaration is valid. -/
theorem runs_of_desired {α : Type} {r : Resource} {wanted : Database}
    (valid : r.spec.database = .ok wanted) {f : Database → PassTask α} {res : Except Error α}
    (h : (f wanted).run.Runs t res) : (desired r >>= f).run.Runs t res :=
  Task.runs_bind_of_ok (runs_desired_iff.mpr ⟨rfl, by rw [valid]; rfl⟩) h

theorem type_of_database {s : Spec} {db : Database} (h : s.database = .ok db) :
    db.type = some .postgresql := by
  unfold Spec.database at h
  cases hr : s.firewallRules with
  | error e => rw [hr] at h; cases h
  | ok rules => rw [hr] at h; cases h; rfl

theorem runs_create_iff {s : Spec} {wanted : Database} (h : s.database = .ok wanted)
    {t : List (Exchange provider)} {res : Except Error Database} :
    (Manager.create wanted).run.Runs t res ↔
      ∃ a : Except ProviderError Database, t = [⟨.createDatabase wanted, a⟩] ∧
        res = a.mapError (Error.provider "create database") := by
  have typed : Manager.requireType wanted = pure .postgresql := by
    simp [Manager.requireType, Database.validateType, type_of_database h]
  rw [Manager.create, typed, pure_bind]
  exact ProviderTask.runs_call_iff

theorem creating_of_runs {delay : Nat} {r : Resource} {res : Except Error Requeue}
    (h : (create delay r).run.Runs t res) : Creating delay r t res := by
  rcases cases_of_desired h with ⟨e, invalid, rfl, rfl⟩ | ⟨wanted, valid, h₁⟩
  · exact .invalid invalid
  rcases Task.runs_bind_iff.mp h₁ with ⟨e, rfl, h₂⟩ | ⟨t₁, t₂, _, rfl, h₂, h₃⟩
  · exact .closed valid (opening_of_runs h₂)
  have opened := opening_of_runs h₂
  rcases runs_provided_iff.mp h₃ with ⟨p, e, rfl, rfl, refused⟩ | ⟨p, u, made, rfl, created, h₄⟩
  · obtain ⟨a, rfl, ha⟩ := (runs_create_iff valid).mp refused
    cases a with
    | ok _ => cases ha
    | error f => cases ha; exact .refused valid opened
  obtain ⟨a, rfl, ha⟩ := (runs_create_iff valid).mp created
  cases a with
  | error f => cases ha
  | ok _ =>
    cases ha
    rcases Task.runs_bind_iff.mp h₄ with ⟨e, rfl, h₅⟩ | ⟨t₃, t₄, _, rfl, h₅, h₆⟩
    · obtain ⟨rfl, he⟩ := Task.runs_requireText_iff.mp h₅
      split at he
      next unnamed => cases he; exact .nameless valid opened (by simpa using unnamed)
      next => cases he
    · obtain ⟨rfl, he⟩ := Task.runs_requireText_iff.mp h₅
      split at he
      next => cases he
      next named =>
        obtain ⟨time, a, rfl, rfl⟩ := reads_now.runs_write_iff.mp h₆
        exact .created time a valid opened (by simpa using named)

theorem runs_of_creating {delay : Nat} {r : Resource} {res : Except Error Requeue}
    (h : Creating delay r t res) : (create delay r).run.Runs t res := by
  cases h with
  | invalid invalid =>
    exact Task.runs_bind_of_error (runs_desired_iff.mpr ⟨rfl, by rw [invalid]; rfl⟩)
  | closed valid opening =>
    exact runs_of_desired valid (Task.runs_bind_of_error (runs_of_opening opening))
  | refused valid opening =>
    refine runs_of_desired valid (runs_of_opened opening ?_)
    exact runs_of_unprovided ((runs_create_iff valid).mpr ⟨.error _, rfl, rfl⟩)
  | nameless valid opening nameless =>
    refine runs_of_desired valid (runs_of_opened opening ?_)
    refine runs_of_provided ((runs_create_iff valid).mpr ⟨.ok _, rfl, rfl⟩) ?_
    exact Task.runs_bind_of_error
      (Task.runs_requireText_iff.mpr ⟨rfl, by rw [if_pos (by simp [nameless])]⟩)
  | created time a valid opening named =>
    refine runs_of_desired valid (runs_of_opened opening ?_)
    refine runs_of_provided ((runs_create_iff valid).mpr ⟨.ok _, rfl, rfl⟩) ?_
    exact Task.runs_bind_of_ok
      (Task.runs_requireText_iff.mpr ⟨rfl, by rw [if_neg (by simp [named])]⟩)
      (reads_now.runs_write_iff.mpr ⟨time, a, rfl, rfl⟩)

end Pass

end DatabaseOperator
