import DatabaseOperator.Proofs.Dictionary
import DatabaseOperator.Provider.Wire

namespace DatabaseOperator

theorem DatabaseType.parse_eq (s : String) : DatabaseType.parse s =
    if s = "postgresql" then .ok .postgresql else .error (.unknownDatabaseType s) := by
  unfold DatabaseType.parse parse? DatabaseType.name
  split <;> simp_all

theorem FeatureStatus.parse?_eq_some_iff {s : String} {t : FeatureStatus} :
    FeatureStatus.parse? s = some t ↔ t.name = s := by
  constructor
  · intro found
    simpa using List.find?_some found
  · rintro rfl
    cases t <;> decide

namespace Wire

/-- A text with its ASCII letters in lower case. -/
def lowered (s : String) : String :=
  String.ofList (s.toList.map Char.toLower)

/-- The texts of the states of a database. -/
def statuses : List String :=
  ["creating", "updating", "migrating", "upgrading", "running", "stopped"]

/-- The texts of the states of a feature. -/
def featureStatuses : List String :=
  ["activated", "pending", "failed"]

theorem mem_featureStatuses_iff {s : String} : s ∈ featureStatuses ↔ ∃ t : FeatureStatus, t.name = s := by
  simp only [featureStatuses, List.mem_cons, List.not_mem_nil, or_false]
  constructor
  · rintro (rfl | rfl | rfl)
    · exact ⟨.activated, rfl⟩
    · exact ⟨.pending, rfl⟩
    · exact ⟨.failed, rfl⟩
  · rintro ⟨t, rfl⟩
    cases t <;> simp [FeatureStatus.name]

theorem featureStatus_eq (s : String) : featureStatus s =
    match FeatureStatus.parse? (lowered s) with
    | some t => .ok t
    | none => .error (.invalid (.unknownFeatureStatus (lowered s))) := by
  unfold featureStatus FeatureStatus.parse lowered
  cases FeatureStatus.parse? (String.ofList (s.toList.map Char.toLower)) <;> rfl

theorem featureStatus_eq_ok_iff {s : String} {t : FeatureStatus} :
    featureStatus s = .ok t ↔ t.name = lowered s := by
  rw [featureStatus_eq, ← FeatureStatus.parse?_eq_some_iff]
  cases FeatureStatus.parse? (lowered s) <;> simp

theorem featureStatus_of_unknown {s : String} (unknown : lowered s ∉ featureStatuses) :
    featureStatus s = .error (.invalid (.unknownFeatureStatus (lowered s))) := by
  have unread : FeatureStatus.parse? (lowered s) = none := by
    refine Option.eq_none_iff_forall_ne_some.mpr fun t found => ?_
    exact unknown (mem_featureStatuses_iff.mpr ⟨t, FeatureStatus.parse?_eq_some_iff.mp found⟩)
  rw [featureStatus_eq, unread]

theorem exists_featureStatus_iff {s : String} :
    (∃ t, featureStatus s = .ok t) ↔ lowered s ∈ featureStatuses := by
  simp only [featureStatus_eq_ok_iff, mem_featureStatuses_iff]

/-- What a known status stands for. -/
theorem databaseStatus_of_known {s : String} (known : s ∈ statuses) : databaseStatus s =
    .ok (if s = "running" then .running else if s = "stopped" then .stopped else .provisioning) := by
  simp only [statuses, List.mem_cons, List.not_mem_nil, or_false] at known
  rcases known with rfl | rfl | rfl | rfl | rfl | rfl <;> simp [databaseStatus, transitional]

theorem databaseStatus_of_unknown {s : String} (unknown : s ∉ statuses) :
    databaseStatus s = .error (.invalidResponse ("unknown database status " ++ s)) := by
  simp only [statuses, List.mem_cons, List.not_mem_nil, or_false, not_or] at unknown
  obtain ⟨creating, updating, migrating, upgrading, running, stopped⟩ := unknown
  simp [databaseStatus, transitional, creating, updating, migrating, upgrading, running, stopped]

section Features

variable {fs fs' : Features} {l : List (String × String)}

theorem features_cons {f : String × String} {t : FeatureStatus} (known : featureStatus f.2 = .ok t) :
    features fs (f :: l) = features (fs.insert f.1 t) l := by
  rw [features, known]
  rfl

theorem features_cons_of_unknown {f : String × String} (unknown : lowered f.2 ∉ featureStatuses) :
    features fs (f :: l) = .error (.invalid (.unknownFeatureStatus (lowered f.2))) := by
  rw [features, featureStatus_of_unknown unknown]
  rfl

/-- The first unknown status decides how a list of features fails. -/
theorem features_of_unknown {before after : List (String × String)} {f : String × String}
    (known : ∀ g ∈ before, lowered g.2 ∈ featureStatuses) (unknown : lowered f.2 ∉ featureStatuses) :
    features fs (before ++ f :: after) = .error (.invalid (.unknownFeatureStatus (lowered f.2))) := by
  induction before generalizing fs with
  | nil => exact features_cons_of_unknown unknown
  | cons g before ih =>
    obtain ⟨first, later⟩ := List.forall_mem_cons.mp known
    obtain ⟨t, read⟩ := exists_featureStatus_iff.mpr first
    rw [List.cons_append, features_cons read]
    exact ih later

theorem exists_features_iff :
    (∃ fs', features fs l = .ok fs') ↔ ∀ f ∈ l, lowered f.2 ∈ featureStatuses := by
  induction l generalizing fs with
  | nil => simp [features]
  | cons f l ih =>
    rw [List.forall_mem_cons]
    by_cases known : lowered f.2 ∈ featureStatuses
    · obtain ⟨t, read⟩ := exists_featureStatus_iff.mpr known
      rw [features_cons read, ih]
      simp [known]
    · rw [features_cons_of_unknown known]
      simp [known]

/-- Of a repeated feature the last entry counts. -/
theorem get?_features (read : features fs l = .ok fs') (name : String) :
    (fs'.get? name).map FeatureStatus.name =
      ((l.reverse.lookup name).map lowered).or ((fs.get? name).map FeatureStatus.name) := by
  induction l generalizing fs with
  | nil =>
    cases read
    rfl
  | cons f l ih =>
    have known := (List.forall_mem_cons.mp (exists_features_iff.mp ⟨fs', read⟩)).1
    obtain ⟨t, told⟩ := exists_featureStatus_iff.mpr known
    have status : t.name = lowered f.2 := featureStatus_eq_ok_iff.mp told
    rw [features_cons told] at read
    rw [ih read, List.reverse_cons, List.lookup_append]
    cases l.reverse.lookup name with
    | some s => rfl
    | none =>
      obtain ⟨key, s⟩ := f
      by_cases same : name = key
      · subst same
        simp [status]
      · have other : (name == key) = false := beq_eq_false_iff_ne.mpr same
        simp [List.lookup_cons, other, Dictionary.get?_insert_of_ne same]

end Features

namespace Envelope

variable {e : Envelope}

/-- What an answer says about a database in any case. -/
def outline (e : Envelope) : Database :=
  { Database.blank with
    id := e.id
    appId := e.appId
    name := e.name
    plan := e.plan
    projectId := e.projectId }

theorem database_of_fresh (fresh : e.details.id = "") : e.database = .ok e.outline := by
  unfold database
  rw [fresh]
  rfl

theorem database_eq (made : e.details.id ≠ "") : e.database =
    ((DatabaseType.parse e.details.typeName).mapError ProviderError.invalid).bind fun type =>
      (databaseStatus e.details.status).bind fun status =>
        (Wire.features .empty e.details.features).bind fun fs =>
          .ok { e.outline with type := some type, status := status, features := fs } := by
  unfold database
  have present : e.details.id.isEmpty = false := by simpa using made
  rw [present]
  rfl

/-- How an answer is understood. -/
structure Understood (e : Envelope) (res : Except ProviderError Database) : Prop where
  fresh : e.details.id = "" → ∃ db, res = .ok db ∧ db.isRunning = false ∧ db = e.outline
  succeeds : e.details.id ≠ "" → ((∃ db, res = .ok db) ↔ e.details.typeName = "postgresql" ∧
    e.details.status ∈ statuses ∧ ∀ f ∈ e.details.features, lowered f.2 ∈ featureStatuses)
  means : e.details.id ≠ "" → ∀ db, res = .ok db → db = { e.outline with
      type := some .postgresql
      status := if e.details.status = "running" then .running
        else if e.details.status = "stopped" then .stopped else .provisioning
      features := db.features } ∧
    ∀ name, (db.features.get? name).map FeatureStatus.name =
      (e.details.features.reverse.lookup name).map lowered
  type_first : e.details.id ≠ "" → e.details.typeName ≠ "postgresql" →
    res = .error (.invalid (.unknownDatabaseType e.details.typeName))
  status_next : e.details.id ≠ "" → e.details.typeName = "postgresql" → e.details.status ∉ statuses →
    res = .error (.invalidResponse ("unknown database status " ++ e.details.status))
  features_last : e.details.id ≠ "" → e.details.typeName = "postgresql" → e.details.status ∈ statuses →
    ∀ before f after, e.details.features = before ++ f :: after →
      (∀ g ∈ before, lowered g.2 ∈ featureStatuses) → lowered f.2 ∉ featureStatuses →
      res = .error (.invalid (.unknownFeatureStatus (lowered f.2)))

/-- With a known type and status what is left are the features. -/
theorem database_of_known (made : e.details.id ≠ "") (type : e.details.typeName = "postgresql")
    (status : e.details.status ∈ statuses) : e.database =
      (Wire.features .empty e.details.features).bind fun fs => .ok { e.outline with
        type := some .postgresql
        status := if e.details.status = "running" then .running
          else if e.details.status = "stopped" then .stopped else .provisioning
        features := fs } := by
  rw [database_eq made, DatabaseType.parse_eq, if_pos type, databaseStatus_of_known status]
  rfl

theorem database_of_untyped (made : e.details.id ≠ "") (type : e.details.typeName ≠ "postgresql") :
    e.database = .error (.invalid (.unknownDatabaseType e.details.typeName)) := by
  rw [database_eq made, DatabaseType.parse_eq, if_neg type]
  rfl

theorem database_of_unknown (made : e.details.id ≠ "") (type : e.details.typeName = "postgresql")
    (status : e.details.status ∉ statuses) :
    e.database = .error (.invalidResponse ("unknown database status " ++ e.details.status)) := by
  rw [database_eq made, DatabaseType.parse_eq, if_pos type, databaseStatus_of_unknown status]
  rfl

theorem understood (e : Envelope) : e.Understood e.database where
  fresh blank := ⟨_, database_of_fresh blank, rfl, rfl⟩
  succeeds made := by
    by_cases type : e.details.typeName = "postgresql"
    · by_cases status : e.details.status ∈ statuses
      · rw [database_of_known made type status, ← @exists_features_iff .empty]
        cases Wire.features .empty e.details.features <;> simp [Except.bind, type, status]
      · rw [database_of_unknown made type status]
        simp [status]
    · rw [database_of_untyped made type]
      simp [type]
  means made db read := by
    by_cases type : e.details.typeName = "postgresql"
    · by_cases status : e.details.status ∈ statuses
      · rw [database_of_known made type status] at read
        cases features : Wire.features .empty e.details.features with
        | error _ =>
          rw [features] at read
          cases read
        | ok fs =>
          rw [features] at read
          cases read
          refine ⟨rfl, fun name => ?_⟩
          rw [get?_features features]
          exact Option.or_none
      · rw [database_of_unknown made type status] at read
        cases read
    · rw [database_of_untyped made type] at read
      cases read
  type_first made type := database_of_untyped made type
  status_next made type status := database_of_unknown made type status
  features_last made type status before f after split known unknown := by
    rw [database_of_known made type status, split, features_of_unknown known unknown]
    rfl

/-- A database that runs has all that is needed. -/
theorem Understood.of_running {res : Except ProviderError Database} (h : e.Understood res) {db : Database}
    (read : res = .ok db) (running : db.isRunning = true) :
    e.details.id ≠ "" ∧ e.details.status = "running" ∧ db.type = some .postgresql := by
  have made : e.details.id ≠ "" := by
    intro blank
    obtain ⟨db', read', resting, _⟩ := h.fresh blank
    cases read.symm.trans read'
    cases running.symm.trans resting
  obtain ⟨same, _⟩ := h.means made db read
  refine ⟨made, ?_, congrArg Database.type same⟩
  have status := congrArg Database.status same
  rw [Database.isRunning, decide_eq_true_eq, status] at running
  simp only at running
  split at running
  next text => exact text
  next => split at running <;> cases running

/-- The addon and the firewall rules are not part of the answer. -/
theorem Understood.eq_bare {res : Except ProviderError Database} (h : e.Understood res) {db : Database}
    (read : res = .ok db) : { db with addonId := "", firewallRules := [] } = db := by
  by_cases blank : e.details.id = ""
  · obtain ⟨db', read', _, same⟩ := h.fresh blank
    cases read.symm.trans read'
    rw [same]
    rfl
  · rw [(h.means blank db read).1]
    rfl

end Envelope

end Wire

end DatabaseOperator
