import DatabaseOperator.Proofs.Rehearsal

namespace DatabaseOperator

variable {delay : Nat} {namespaceName name : String}

namespace Pass

variable {t u : List (Exchange pass)} {id : String} {n : Nat} {db : Database}

/-- What the provider answers during a run: the database that it creates has this id, and all that is
asked about a database is known. The first databases read do not run, as many as said, and later ones
do. -/
structure Provides (id : String) (n : Nat) (t : List (Exchange pass)) : Prop where
  created : ∀ c db, (⟨.provider (.createDatabase c), .ok db⟩ : Exchange pass) ∈ t → db.id = id
  typed : ∀ db ∈ readings t, db.type = some .postgresql
  hosted : ∀ db ∈ readings t, db.appId ≠ ""
  addressed : ∀ db ∈ readings t, db.addonId ≠ ""
  turns : ∀ i db, (readings t)[i]? = some db → (db.isRunning = true ↔ n ≤ i)
  valued : ∀ app key value,
    (⟨.provider (.findVariable app key), .ok value⟩ : Exchange pass) ∈ t → value ≠ ""

theorem Provides.later (h : Provides id n (t ++ u)) (unread : readings t = []) : Provides id n u := by
  have same : readings (t ++ u) = readings u := by
    rw [readings_append, unread, List.nil_append]
  obtain ⟨created, typed, hosted, addressed, turns, valued⟩ := h
  rw [same] at typed hosted addressed turns
  exact ⟨fun c db mem => created c db (List.mem_append_right _ mem), typed, hosted, addressed, turns,
    fun app key value mem => valued app key value (List.mem_append_right _ mem)⟩

/-- A script whose databases are all known, and run from some point on. -/
theorem provides_of_plays {σ : Script} {k : Nat} (h : σ.Plays 0 t k)
    (typed : ∀ i, (σ.reading i).type = some .postgresql) (hosted : ∀ i, (σ.reading i).appId ≠ "")
    (addressed : ∀ i, (σ.reading i).addonId ≠ "")
    (turns : ∀ i, (σ.reading i).isRunning = true ↔ n ≤ i) (valued : σ.value ≠ "") :
    Provides σ.id n t := by
  obtain ⟨_, read⟩ := h.readings
  have scripted : ∀ db ∈ readings t, ∃ i, db = σ.reading i := by
    intro db mem
    rw [read] at mem
    obtain ⟨i, _, rfl⟩ := List.mem_map.mp mem
    exact ⟨i, rfl⟩
  refine ⟨fun c db mem => ?_, fun db mem => ?_, fun db mem => ?_, fun db mem => ?_,
    fun i db found => ?_, fun app key value mem => ?_⟩
  · obtain ⟨j, answer⟩ := h.mem mem
    cases answer
    rfl
  · obtain ⟨i, rfl⟩ := scripted db mem
    exact typed i
  · obtain ⟨i, rfl⟩ := scripted db mem
    exact hosted i
  · obtain ⟨i, rfl⟩ := scripted db mem
    exact addressed i
  · rw [read, List.getElem?_map, Option.map_eq_some_iff] at found
    obtain ⟨j, place, rfl⟩ := found
    obtain ⟨_, value⟩ := List.getElem?_eq_some_iff.mp place
    have same : j = i := by simpa using value.symm
    rw [same]
    exact turns i
  · obtain ⟨j, answer⟩ := h.mem mem
    cases answer
    exact valued

/-- A database that does not run yet is one of the first. -/
theorem Provides.polled (h : Provides id n (t ++ u)) (read : readings t = [db])
    (resting : db.isRunning = false) : ∃ m, n = m + 1 ∧ Provides id m u := by
  have same : readings (t ++ u) = db :: readings u := by
    rw [readings_append, read]
    rfl
  obtain ⟨created, typed, hosted, addressed, turns, valued⟩ := h
  rw [same] at typed hosted addressed turns
  have first := turns 0 db rfl
  have positive : n ≠ 0 := by
    rintro rfl
    exact absurd (resting.symm.trans (first.mpr (Nat.le_refl 0))) (by decide)
  obtain ⟨m, rfl⟩ := Nat.exists_eq_succ_of_ne_zero positive
  refine ⟨m, rfl, fun c db mem => created c db (List.mem_append_right _ mem),
    fun x mem => typed x (.tail _ mem), fun x mem => hosted x (.tail _ mem),
    fun x mem => addressed x (.tail _ mem), fun i x found => ?_,
    fun app key value mem => valued app key value (List.mem_append_right _ mem)⟩
  rw [turns (i + 1) x found]
  omega

/-- Once the database runs, none of the first is left. -/
theorem Provides.eq_zero (h : Provides id n (t ++ u)) {dbs : List Database}
    (read : readings t = db :: dbs) (running : db.isRunning = true) : n = 0 := by
  have first := h.turns 0 db (by rw [readings_append, read]; rfl)
  exact Nat.le_zero.mp (first.mp running)

end Pass

namespace Resource

/-- The resource is in service: its conditions and its flag say so, and its database is recorded. -/
structure InService (r : Resource) (id : String) : Prop where
  guarded : r.hasFinalizer = true
  available : r.isAvailable = true
  provisioned : r.hasCondition Names.provisioning Names.statusFalse = true
  flagged : r.runningFlag? = some true
  recorded : r.databaseId = id

theorem Pending.renumbered {r : Resource} {wanted : Database} (h : r.Pending wanted)
    (v : Option String) : (r.renumbered v).Pending wanted :=
  ⟨⟨h.prepared.wanted, h.prepared.guarded, h.prepared.initialized, h.prepared.flagged⟩, h.recorded,
    h.unavailable, ⟨h.creatable.valid, h.creatable.located, h.creatable.secretNamed,
      h.creatable.keyNamed⟩, h.targeted⟩

end Resource

variable {s s' : Chronicle} {r : Resource} {wanted : Database} {id : String} {n : Nat}
  {p : PassRun delay namespaceName name} {ps : List (PassRun delay namespaceName name)}

namespace PassRun

/-- A pass over a resource that waits for its database reads it, and hands it over when it runs. -/
theorem cases_of_pending (h : s.Untroubled p.trace s') (current : s.current = some r)
    (pending : r.Pending wanted) {u : List (Exchange pass)}
    (provides : Pass.Provides id n (p.trace ++ u)) :
    (∃ m, n = m + 1 ∧ Pass.Provides id m u ∧ p.result = .ok (.after delay) ∧
        Pass.changes p.trace = [] ∧ ∃ v, s'.current = some (r.renumbered v)) ∨
      (n = 0 ∧ p.result = .ok .done ∧
        (∃ ready secret owner flagged, Pass.changes p.trace = [.resource (.updateStatus ready),
          .secret (.set secret owner), .resource (.update flagged)]) ∧
        ∃ r', s'.current = some r' ∧ r'.InService r.databaseId) := by
  obtain ⟨t, trace, course, untroubled⟩ := cases_of_untroubled h current
  obtain ⟨action, res, result, step⟩ := course.cases_of_prepared pending.prepared
  have awaiting : Pass.Awaiting delay r t res := by
    rcases step with ⟨unrecorded, _⟩ | ⟨_, awaiting⟩ | ⟨available, _⟩
    · exact absurd unrecorded pending.recorded
    · exact awaiting
    · exact absurd (available.symm.trans pending.unavailable) (by decide)
  rw [trace] at provides ⊢
  have known : ∀ db ∈ Pass.readings t, db ∈ Pass.readings
      (⟨.resource (.get namespaceName name), .ok (some r)⟩ :: t ++ u) := by
    intro db mem
    rw [Pass.readings_append]
    exact List.mem_append_left _ mem
  obtain ⟨seen, ⟨resting, brings⟩ | ⟨running, rules, now, v, s₁, w, handing, current', after, changed,
    read, within⟩⟩ := awaiting.cases_of_untroubled current pending
      (fun db mem => provides.addressed db (known db mem)) untroubled
  · left
    obtain ⟨m, rfl, rest⟩ := provides.polled brings.read resting
    refine ⟨m, rfl, rest, ?_, brings.changed, brings.stored⟩
    rw [result, brings.result]
    rfl
  · right
    have seeing : seen ∈ Pass.readings t := read ▸ List.mem_cons_self
    obtain ⟨secret, owner, brings⟩ := handing.brings current' pending.prepared.wanted
      pending.creatable.located pending.targeted (provides.typed seen (known seen seeing))
      (provides.hosted seen (known seen seeing)) (fun app key value mem =>
        provides.valued app key value (List.mem_append_left _ (.tail _ (within mem)))) after
    obtain ⟨v', stored⟩ := brings.stored
    refine ⟨provides.eq_zero read running, ?_,
      ⟨_, secret, owner, _, changed.trans (congrArg (List.cons _) brings.changed)⟩, _, stored,
      pending.prepared.guarded, Resource.isAvailable_setProvisioned,
      Resource.provisioned_setProvisioned, Resource.runningFlag?_setRunningFlag true,
      Resource.databaseId_setProvisioned⟩
    rw [result, brings.result]
    rfl

end PassRun

/-- Passes over a resource that waits for its database poll it until it runs, and the last one hands it
over. -/
theorem Undisturbed.hands_over (h : Undisturbed delay namespaceName name s ps s')
    (current : s.current = some r) (pending : r.Pending wanted) (length : ps.length = n + 1)
    (provides : Pass.Provides id n (PassRun.asking ps)) :
    ps.map PassRun.result = List.replicate n (.ok (.after delay)) ++ [.ok .done] ∧
      (∃ ready secret owner flagged, (ps.map fun p => Pass.changes p.trace) =
        List.replicate n [] ++ [[.resource (.updateStatus ready), .secret (.set secret owner),
          .resource (.update flagged)]]) ∧
      ∃ r', s'.current = some r' ∧ r'.InService r.databaseId := by
  induction h generalizing n r with
  | rest => simp at length
  | @pass s s₁ s'' p ps untroubled after ih =>
    rcases p.cases_of_pending untroubled current pending provides with
      ⟨m, rfl, rest, result, unchanged, v, current'⟩ |
      ⟨rfl, result, ⟨ready, secret, owner, flagged, changed⟩, r', stored, service⟩
    · obtain ⟨results, ⟨ready, secret, owner, flagged, changes⟩, r', stored, service⟩ :=
        ih current' (pending.renumbered v) (by simpa using length) rest
      refine ⟨?_, ⟨ready, secret, owner, flagged, ?_⟩, r', stored, service⟩
      · rw [List.map_cons, result, results]
        rfl
      · rw [List.map_cons, unchanged, changes]
        rfl
    · obtain rfl : ps = [] := by simpa using length
      cases after
      refine ⟨?_, ⟨ready, secret, owner, flagged, ?_⟩, r', stored, service⟩
      · rw [List.map_singleton, result]
        rfl
      · rw [List.map_singleton, changed]
        rfl

/-- The first read of a pass changes nothing and tells nothing of the database. -/
theorem Pass.Brings.loaded {t : List (Exchange pass)} {res : Except Error Requeue} {next : Requeue}
    {cs : List PassCall} {dbs : List Database} {w : Resource} (h : Brings t res s next cs dbs w)
    (found : Option Resource) :
    Brings (⟨.resource (.get namespaceName name), .ok found⟩ :: t) res s next cs dbs w :=
  ⟨h.result, h.changed, h.read, h.stored⟩

/-- Three passes put the finalizer, the conditions and the flag on a fresh resource. -/
theorem Undisturbed.prepares {p₁ p₂ p₃ : PassRun delay namespaceName name}
    (h : Undisturbed delay namespaceName name s (p₁ :: p₂ :: p₃ :: ps) s')
    (current : s.current = some r) (fresh : r.Fresh) (undeleted : r.isDeletionRequested = false) :
    ∃ (s₁ s₂ s₃ : Chronicle) (w₁ w₂ w₃ : Resource),
      Pass.Brings p₁.trace p₁.result s₁ .now [.resource (.update w₁)] [] w₁ ∧
      Pass.Brings p₂.trace p₂.result s₂ .now [.resource (.updateStatus w₂)] [] w₂ ∧
      Pass.Brings p₃.trace p₃.result s₃ .now [.resource (.update w₃)] [] w₃ ∧
      w₃.Prepared ∧ w₃.databaseId = "" ∧ w₃.isRunning = false ∧ w₃.isAvailable = false ∧
      w₃.spec = r.spec ∧ w₃.namespaceName = r.namespaceName ∧
      Undisturbed delay namespaceName name s₃ ps s' := by
  obtain ⟨s₁, first, h⟩ := h.of_cons
  obtain ⟨s₂, second, h⟩ := h.of_cons
  obtain ⟨s₃, third, h⟩ := h.of_cons
  obtain ⟨t₁, trace₁, course₁, untroubled₁⟩ := PassRun.cases_of_untroubled first current
  have brings₁ := course₁.marks current undeleted fresh.unguarded untroubled₁
  obtain ⟨v₁, current₁⟩ := brings₁.stored
  let marked := r.withFinalizer.renumbered v₁
  have guarded : marked.hasFinalizer = true := Resource.hasFinalizer_withFinalizer
  have uninitialized : marked.isInitialized = false := by
    change r.isInitialized = false
    rw [Resource.isInitialized, fresh.conditions]
    rfl
  obtain ⟨t₂, trace₂, course₂, untroubled₂⟩ := PassRun.cases_of_untroubled second current₁
  obtain ⟨now, brings₂⟩ :=
    course₂.initializes current₁ undeleted guarded uninitialized untroubled₂
  obtain ⟨v₂, current₂⟩ := brings₂.stored
  let noted := (marked.setInitial now).1.renumbered v₂
  have initialized : noted.isInitialized = true := Resource.isInitialized_setInitial
  obtain ⟨t₃, trace₃, course₃, untroubled₃⟩ := PassRun.cases_of_untroubled third current₂
  have brings₃ :=
    course₃.flags current₂ undeleted guarded initialized fresh.unflagged untroubled₃
  have flagged : (noted.setRunningFlag false).runningFlag? = some false :=
    Resource.runningFlag?_setRunningFlag false
  have unrecorded : noted.databaseId = r.databaseId := Resource.databaseId_setInitial
  rw [trace₁, trace₂, trace₃]
  exact ⟨s₁, s₂, s₃, _, _, _, brings₁.loaded _, brings₂.loaded _, brings₃.loaded _,
    ⟨undeleted, guarded, initialized, by rw [flagged]; rfl⟩, unrecorded.trans fresh.databaseId,
    Resource.isRunning_setRunningFlag false, Resource.isAvailable_setInitial, rfl, rfl, h⟩

/-- A pass over a prepared resource creates its database, and then the resource waits for it. -/
theorem PassRun.records_of_prepared (h : s.Untroubled p.trace s') (current : s.current = some r)
    (prepared : r.Prepared) (unrecorded : r.databaseId = "") (resting : r.isRunning = false)
    (unavailable : r.isAvailable = false) (creatable : r.Creatable wanted)
    (targeted : r.spec.connectionTarget.name ≠ "") (named : id ≠ "")
    (created : ∀ c db, (⟨.provider (.createDatabase c), .ok db⟩ : Exchange pass) ∈ p.trace →
      db.id = id) :
    ∃ w, Pass.Brings p.trace p.result s' (.after delay)
        [.provider (.createDatabase wanted), .resource (.updateStatus w)] [] w ∧
      w.Pending wanted ∧ w.databaseId = id := by
  obtain ⟨t, trace, course, untroubled⟩ := cases_of_untroubled h current
  obtain ⟨action, res, result, step⟩ := course.cases_of_prepared prepared
  have creating : Pass.Creating delay r t res := by
    rcases step with ⟨_, _, creating⟩ | ⟨⟨_, recorded, _⟩, _⟩ | ⟨available, _⟩
    · exact creating
    · rcases recorded with recorded | running
      · exact absurd unrecorded recorded
      · exact absurd (running.symm.trans resting) (by decide)
    · exact absurd (available.symm.trans unavailable) (by decide)
  rw [trace] at created
  have told (c : Database) (db : Database)
      (mem : (⟨.provider (.createDatabase c), .ok db⟩ : Exchange pass) ∈ t) : db.id = id :=
    created c db (.tail _ mem)
  obtain ⟨db, time, answered, brings⟩ := creating.records current prepared.wanted creatable
    (fun c db mem => told c db mem ▸ named) untroubled
  obtain rfl := told wanted db answered
  rw [trace, result, brings.result]
  refine ⟨_, ⟨rfl, brings.changed, brings.read, brings.stored⟩, ?_,
    Resource.databaseId_setProvisioning⟩
  have recorded : ((r.setDatabaseId db.id).setProvisioning time).1.databaseId = db.id :=
    Resource.databaseId_setProvisioning
  refine ⟨⟨prepared.wanted, prepared.guarded, ?_, prepared.flagged⟩, recorded ▸ named, ?_,
    creatable.of_spec rfl rfl, targeted⟩
  · rw [Resource.isInitialized_setProvisioning, Resource.isInitialized_setDatabaseId]
    exact prepared.initialized
  · rw [Resource.isAvailable_setProvisioning, Resource.isAvailable_setDatabaseId]
    exact unavailable

/-- The way of a fresh resource into service. The passes end as said, the database is created once, its
secret is written once, there are six writes of the resource in this order and none while the passes wait,
and in the end the resource is in service. -/
theorem completes (fresh : r.Fresh) (undeleted : r.isDeletionRequested = false)
    (creatable : r.Creatable wanted) (targeted : r.spec.connectionTarget.name ≠ "") (named : id ≠ "")
    (h : Undisturbed delay namespaceName name (.start r) ps s) (length : ps.length = n + 5)
    (provides : Pass.Provides id n (PassRun.asking ps)) :
    ps.map PassRun.result = [.ok .now, .ok .now, .ok .now, .ok (.after delay)] ++
        (List.replicate n (.ok (.after delay)) ++ [.ok .done]) ∧
      (∃ marked noted flagged recorded ready secret owner finished,
        (ps.map fun p => Pass.changes p.trace) =
          [[.resource (.update marked)], [.resource (.updateStatus noted)],
            [.resource (.update flagged)],
            [.provider (.createDatabase wanted), .resource (.updateStatus recorded)]] ++
          (List.replicate n [] ++ [[.resource (.updateStatus ready), .secret (.set secret owner),
            .resource (.update finished)]])) ∧
      ∃ r', s.current = some r' ∧ r'.InService id := by
  obtain ⟨p₁, p₂, p₃, p₄, ps, rfl⟩ : ∃ p₁ p₂ p₃ p₄ rest, ps = p₁ :: p₂ :: p₃ :: p₄ :: rest := by
    match ps, length with
    | p₁ :: p₂ :: p₃ :: p₄ :: rest, _ => exact ⟨p₁, p₂, p₃, p₄, rest, rfl⟩
  obtain ⟨s₁, s₂, s₃, w₁, w₂, w₃, brings₁, brings₂, brings₃, prepared, unrecorded, resting,
    unavailable, spec, located, h⟩ := h.prepares rfl fresh undeleted
  obtain ⟨v, current⟩ := brings₃.stored
  obtain ⟨s₄, fourth, h⟩ := h.of_cons
  have provides := ((provides.later brings₁.read).later brings₂.read).later brings₃.read
  have creatable : (w₃.renumbered v).Creatable wanted := creatable.of_spec spec located
  obtain ⟨w₄, brings₄, pending, rfl⟩ := PassRun.records_of_prepared (r := w₃.renumbered v) fourth
    current ⟨prepared.wanted, prepared.guarded, prepared.initialized, prepared.flagged⟩ unrecorded
    resting unavailable creatable (show w₃.spec.connectionTarget.name ≠ "" from spec ▸ targeted) named
    fun c db mem => provides.created c db (List.mem_append_left _ mem)
  obtain ⟨v', current⟩ := brings₄.stored
  obtain ⟨results, ⟨ready, secret, owner, finished, changes⟩, r', stored, service⟩ :=
    h.hands_over current (pending.renumbered v') (by simpa using length) (provides.later brings₄.read)
  refine ⟨?_, ⟨w₁, w₂, w₃, w₄, ready, secret, owner, finished, ?_⟩, r', stored, service⟩
  · simp only [List.map_cons, brings₁.result, brings₂.result, brings₃.result, brings₄.result, results]
    rfl
  · simp only [List.map_cons, brings₁.changed, brings₂.changed, brings₃.changed, brings₄.changed,
      changes]
    rfl

/-- A database that runs when it is read for the third time. -/
def slowScript : Script where
  id := "db-1"
  reading i := { pendingDatabase with status := if i < 2 then .provisioning else .running }
  value := "postgres://db"

theorem completes_sample :
    ∃ (wanted : Database) (ps : List (PassRun 30000 "prod" "db")) (s : Chronicle),
      Undisturbed 30000 "prod" "db" (.start sample) ps s ∧ ps.length = 7 ∧
      ps.map PassRun.result = [.ok .now, .ok .now, .ok .now, .ok (.after 30000), .ok (.after 30000),
        .ok (.after 30000), .ok .done] ∧
      (∃ marked noted flagged recorded ready secret owner finished,
        (ps.map fun p => Pass.changes p.trace) =
          [[.resource (.update marked)], [.resource (.updateStatus noted)],
            [.resource (.update flagged)],
            [.provider (.createDatabase wanted), .resource (.updateStatus recorded)], [], [],
            [.resource (.updateStatus ready), .secret (.set secret owner),
              .resource (.update finished)]]) ∧
      ∃ r', s.current = some r' ∧ r'.InService "db-1" := by
  obtain ⟨wanted, creatable⟩ := creatable_sample
  obtain ⟨ps, s, k, undisturbed, length, plays⟩ := exists_undisturbed slowScript 30000 "prod" "db"
    (show (Chronicle.start sample).current = some sample from rfl) rfl 0 7
  have turns (i : Nat) : (slowScript.reading i).isRunning = true ↔ 2 ≤ i := by
    by_cases early : i < 2
    · have rests : (slowScript.reading i).isRunning = false := by
        simp only [slowScript, if_pos early]
        rfl
      exact ⟨fun h => absurd (rests.symm.trans h) Bool.false_ne_true,
        fun late => absurd early (Nat.not_lt.mpr late)⟩
    · have runs : (slowScript.reading i).isRunning = true := by
        simp only [slowScript, if_neg early]
        rfl
      exact ⟨fun _ => Nat.not_lt.mp early, fun _ => runs⟩
  have provides : Pass.Provides "db-1" 2 (PassRun.asking ps) :=
    Pass.provides_of_plays plays (fun _ => rfl) (fun _ => show "app-1" ≠ "" by decide)
      (fun _ => show "addon-1" ≠ "" by decide) turns (show "postgres://db" ≠ "" by decide)
  exact ⟨wanted, ps, s, undisturbed, length, completes fresh_sample rfl creatable
    (show "db-url" ≠ "" by decide) (by decide) undisturbed length provides⟩

end DatabaseOperator
