import DatabaseOperator.Proofs.Cluster.Server
import DatabaseOperator.Proofs.Cluster.Writers

namespace DatabaseOperator

namespace SecretObject

variable {s : SecretObject} {e : Cluster.Entry}

/-- Setting a key is about the bytes and the owners alone. -/
theorem set_eq (s : SecretObject) (key value : String) (owner : Option Owner) :
    ∃ data owners, s.set key value owner =
      { s with data := some data, metadata.ownerReferences := owners } := by
  cases owner with
  | none => exact ⟨_, s.metadata.ownerReferences, rfl⟩
  | some o => exact ⟨_, _, rfl⟩

/-- What is held already is set without a change. -/
theorem set_of_held (value : s.holding.data.get? e.key = some (utf8Bytes e.value))
    (owned : ∀ o, e.owner = some o → ∃ x ∈ s.holding.owners, x.uid = o.uid) :
    s.set e.key e.value e.owner = s := by
  obtain ⟨⟨_, _, _, _, _, _, _, _, _, _, _, owners, _, _, _⟩, data, _, _, _⟩ := s
  cases data with
  | none => cases value
  | some d =>
    have same : d.insert e.key (utf8Bytes e.value) = d := Dictionary.insert_of_get? value
    cases owner : e.owner with
    | none => simp only [set, Option.getD_some, same]
    | some o =>
      obtain ⟨x, mem, known⟩ := owned o owner
      cases owners with
      | none => cases mem
      | some os =>
        have there : (os.any fun x => x.uid = o.uid) = true :=
          List.any_eq_true.mpr ⟨x, mem, decide_eq_true known⟩
        simp only [set, Option.getD_some, same, there, if_true]

end SecretObject

namespace Cluster

open DatabaseOperator.SecretObject (decode)

variable {namespaceName name key : String} {e : Entry} {before after : Option SecretObject}
  {s s' : SecretObject} {t : List (Exchange cluster)}

theorem Holding.owners_add (h : Holding) (e : Entry) : (h.add e).owners =
    h.owners ++ e.owner.toList.filter fun o => !h.owners.any fun x => x.uid = o.uid := by
  unfold add
  cases e.owner with
  | none => exact (List.append_nil _).symm
  | some o => cases known : h.owners.any fun x => x.uid = o.uid <;> simp [known]

/-- What is held in a secret, which is nothing when there is no such secret. -/
def held (s : Option SecretObject) : Holding :=
  s.elim .empty SecretObject.holding

/-- What setting an entry makes of a secret. -/
structure Sets (e : Entry) (before : Option SecretObject) (s : SecretObject) : Prop where
  value : s.holding.data.get? e.key = some (utf8Bytes e.value)
  others : ∀ k ≠ e.key, s.holding.data.get? k = (held before).data.get? k
  /-- The owners stay, and the owner of the entry is added unless there is one with its identity. -/
  owners : s.holding.owners = (held before).owners ++
    e.owner.toList.filter fun o => !(held before).owners.any fun x => x.uid = o.uid
  labels : s.metadata.labels = before.bind fun b => b.metadata.labels
  annotations : s.metadata.annotations = before.bind fun b => b.metadata.annotations
  finalizers : s.metadata.finalizers = before.bind fun b => b.metadata.finalizers
  immutable : s.immutable = before.bind fun b => b.immutable
  stringData : s.stringData = before.bind fun b => b.stringData
  type : s.type = before.elim (some "Opaque") fun b => b.type

namespace Entry

theorem holding_written (e : Entry) (namespaceName name : String) (before : Option SecretObject) :
    (e.written namespaceName name before).holding = (held before).add e := by
  cases before with
  | none => exact SecretObject.holding_new e namespaceName name
  | some s => exact SecretObject.holding_set s e

theorem Kept.holding (kept : e.Kept namespaceName name before s) : s.holding = (held before).add e := by
  obtain ⟨sent, number, read, rfl⟩ := kept
  rw [← e.holding_written namespaceName name]
  exact read.holding_eq

theorem Kept.sets (kept : e.Kept namespaceName name before s) : Sets e before s := by
  have holding := kept.holding
  obtain ⟨sent, number, read, rfl⟩ := kept
  refine ⟨?_, fun k other => ?_, ?_, read.metadata.labels_eq.trans ?_, read.metadata.annotations_eq.trans ?_,
    read.metadata.finalizers_eq.trans ?_, read.immutable.trans ?_, read.stringData.trans ?_,
    read.type.trans ?_⟩
  · rw [holding]
    exact Holding.get?_add_same
  · rw [holding]
    exact Holding.get?_add_of_ne other.symm
  · rw [holding]
    exact Holding.owners_add _ e
  all_goals
    cases before with
    | none => rfl
    | some b =>
      obtain ⟨data, owners, same⟩ := b.set_eq e.key e.value e.owner
      rw [written, same]
      rfl

/-- What has been kept is kept again as another version of the same. -/
theorem Kept.again (kept : e.Kept namespaceName name before s)
    (again : e.Kept namespaceName name (some s) s') : ∃ number, s' = s.renumbered number := by
  have sets := kept.sets
  have owned (o : Owner) (owner : e.owner = some o) : ∃ x ∈ s.holding.owners, x.uid = o.uid := by
    rw [kept.holding]
    exact Holding.exists_owner_add owner
  obtain ⟨sent, number, read, rfl⟩ := kept
  obtain ⟨sent', number', read', rfl⟩ := again
  rw [written, SecretObject.set_of_held sets.value owned] at read'
  -- What is kept has been read once, so it goes back and forth as it is.
  have twice := SecretObject.decode_encode_iff.mpr (read.again.renumbered number)
  cases twice.symm.trans (SecretObject.decode_encode_iff.mpr read')
  exact ⟨number', rfl⟩

theorem Kept.renumbered (kept : e.Kept namespaceName name before s) : ∃ number, s = s.renumbered number := by
  obtain ⟨sent, number, _, rfl⟩ := kept
  exact ⟨number, rfl⟩

end Entry

/-- What a call says of a key: that the secret is missing, that the key has no text, or its text. -/
structure Discloses (key : String) (s : Option SecretObject) (res : Except StoreError String) : Prop where
  missing_iff : (∃ object, res = .error (.notFound object)) ↔ s = none
  unreadable_iff : (∃ detail, res = .error (.invalidData detail)) ↔
    ∃ x, s = some x ∧ ∀ text, x.holding.data.get? key ≠ some (utf8Bytes text)
  text_iff : ∀ text, res = .ok text ↔ ∃ x, s = some x ∧ x.holding.data.get? key = some (utf8Bytes text)

theorem discloses_missing {object : String} : Discloses key none (.error (.notFound object)) where
  missing_iff := iff_of_true ⟨object, rfl⟩ rfl
  unreadable_iff := iff_of_false nofun fun ⟨_, absent, _⟩ => nomatch absent
  text_iff _ := iff_of_false nofun fun ⟨_, absent, _⟩ => nomatch absent

theorem discloses_unreadable {detail : String}
    (unreadable : ∀ text, s.holding.data.get? key ≠ some (utf8Bytes text)) :
    Discloses key (some s) (.error (.invalidData detail)) where
  missing_iff := iff_of_false nofun nofun
  unreadable_iff := iff_of_true ⟨detail, rfl⟩ ⟨s, rfl, unreadable⟩
  text_iff text := iff_of_false nofun fun ⟨x, same, readable⟩ => by
    cases same
    exact unreadable text readable

theorem discloses_text {text : String} (readable : s.holding.data.get? key = some (utf8Bytes text)) :
    Discloses key (some s) (.ok text) where
  missing_iff := iff_of_false nofun nofun
  unreadable_iff := iff_of_false nofun fun ⟨x, same, unreadable⟩ => by
    cases same
    exact unreadable text readable
  text_iff text' := by
    constructor
    · rintro ⟨⟩
      exact ⟨s, rfl, readable⟩
    · rintro ⟨x, same, other⟩
      cases same
      rw [utf8Bytes_injective (Option.some.inj (readable.symm.trans other))]

section getting

variable {res : Except StoreError String}

theorem Getting.cases_res (getting : Getting namespaceName name key before t res) :
    Discloses key before res ∨ Faulted res ∧ (place? namespaceName name = none ∨ ∃ x ∈ t, Faulty x) := by
  cases getting with
  | unplaced unplaced => exact .inr ⟨.inr ⟨none, rfl⟩, .inl unplaced⟩
  | unread faulty faulted => exact .inr ⟨faulted, .inr ⟨_, List.mem_cons_self, faulty⟩⟩
  | missing absent => exact .inl (absent ▸ discloses_missing)
  | unreadable there unreadable => exact .inl (there ▸ discloses_unreadable unreadable)
  | text there readable => exact .inl (there ▸ discloses_text readable)

theorem Getting.discloses (getting : Getting namespaceName name key before t res)
    (placed : place? namespaceName name ≠ none) (answered : ∀ x ∈ t, ¬ Faulty x) :
    Discloses key before res := by
  refine getting.cases_res.resolve_right fun ⟨_, troubled⟩ => ?_
  rcases troubled with unplaced | ⟨x, mem, faulty⟩
  · exact placed unplaced
  · exact answered x mem faulty

end getting

theorem runs_proceeding {sec : Secret} {owner : Option Owner} {fetched : Except ClusterFault SecretObject}
    {res : Except StoreError Unit} (runs : (proceeding sec owner fetched).Runs t res) :
    t.length ≤ 1 ∧ ∀ x ∈ t, x.call.method = .put ∨ x.call.method = .post := by
  have single {method : Method} {place : String} {body : Option Json}
      (writes : method = .put ∨ method = .post)
      (runs : (asking method place body decode (concluding sec)).Runs t res) :
      t.length ≤ 1 ∧ ∀ x ∈ t, x.call.method = .put ∨ x.call.method = .post := by
    rcases runs_write runs with ⟨_, rfl⟩ | ⟨_, _, _, rfl, _⟩
    · exact ⟨Nat.zero_le 1, nofun⟩
    · exact ⟨Nat.le_refl 1, List.forall_mem_singleton.mpr writes⟩
  have silent {fault : ClusterFault} (runs : (concluding sec (.error fault)).Runs t res) :
      t.length ≤ 1 ∧ ∀ x ∈ t, x.call.method = .put ∨ x.call.method = .post := by
    obtain ⟨rfl, _⟩ := Dialogue.runs_done_iff.mp runs
    exact ⟨Nat.zero_le 1, nofun⟩
  rcases fetched with (⟨code, reason⟩ | _) | stored
  · rw [proceeding] at runs
    split at runs
    next => exact single (.inr rfl) runs
    next => exact silent runs
  · exact silent runs
  · exact single (.inl rfl) runs

/-- What the store does about the secret under a name, whatever the secret was before. -/
structure KeepsSecret (namespaceName name : String) : Prop where
  /-- Without a target nothing can be asked. -/
  unplaced : place? namespaceName name = none → ∀ (e : Entry) (key : String),
    (secretStore (.set (e.secret namespaceName name) e.owner)).run = .done (.error (.cluster none)) ∧
      (secretStore (.get namespaceName name key)).run = .done (.error (.cluster none))
  /-- Whatever is answered, there is one read, and one write behind it or none. -/
  requests : ∀ {target : String} {e : Entry} {t : List (Exchange cluster)} {res : Except StoreError Unit},
    place? namespaceName name = some target →
    (secretStore (.set (e.secret namespaceName name) e.owner)).run.Runs t res →
    ∃ answer writes, t = ⟨⟨.get, target, none⟩, answer⟩ :: writes ∧ writes.length ≤ 1 ∧
      ∀ x ∈ writes, x.call.method = .put ∨ x.call.method = .post
  set : ∀ {e : Entry} {before after : Option SecretObject} {t : List (Exchange cluster)},
    Served namespaceName name (.set (e.secret namespaceName name) e.owner) before t (.ok ()) after →
    ∃ s, after = some s ∧ Sets e before s
  /-- A call that fails changes nothing, unless its write is stored and the answer to it gets lost. -/
  failed : ∀ {e : Entry} {before after : Option SecretObject} {t : List (Exchange cluster)}
    {err : StoreError},
    Served namespaceName name (.set (e.secret namespaceName name) e.owner) before t (.error err) after →
    after = before ∨ ∃ read write s, t = [read, write] ∧ Stores namespaceName name before write.call s ∧
      Faulty write ∧ after = some s ∧ Sets e before s
  completes : ∀ {e : Entry} {before after : Option SecretObject} {t : List (Exchange cluster)}
    {res : Except StoreError Unit}, place? namespaceName name ≠ none →
    Served namespaceName name (.set (e.secret namespaceName name) e.owner) before t res after →
    (∀ x ∈ t, ¬ Faulty x) → res = .ok ()
  /-- Setting the same again makes a new version at most. -/
  again : ∀ {e : Entry} {before after : Option SecretObject} {s : SecretObject}
    {t u : List (Exchange cluster)} {res : Except StoreError Unit},
    Served namespaceName name (.set (e.secret namespaceName name) e.owner) before t (.ok ()) (some s) →
    Served namespaceName name (.set (e.secret namespaceName name) e.owner) (some s) u res after →
    ∃ number, after = some (s.renumbered number)
  get : ∀ {key : String} {before after : Option SecretObject} {t : List (Exchange cluster)}
    {res : Except StoreError String},
    Served namespaceName name (.get namespaceName name key) before t res after →
    after = before ∧ (Discloses key before res ∨ Faulted res)
  discloses : ∀ {key : String} {before after : Option SecretObject} {t : List (Exchange cluster)}
    {res : Except StoreError String}, place? namespaceName name ≠ none →
    Served namespaceName name (.get namespaceName name key) before t res after → (∀ x ∈ t, ¬ Faulty x) →
    Discloses key before res
  set_get : ∀ {e : Entry} {before after last : Option SecretObject} {t u : List (Exchange cluster)}
    {res : Except StoreError String},
    Served namespaceName name (.set (e.secret namespaceName name) e.owner) before t (.ok ()) after →
    Served namespaceName name (.get namespaceName name e.key) after u res last → (∀ x ∈ u, ¬ Faulty x) →
    res = .ok e.value

theorem keeps_secret (namespaceName name : String) : KeepsSecret namespaceName name where
  unplaced unplaced e key := by
    rw [run_set_eq, run_get_eq, reading_of_unplaced unplaced, reading_of_unplaced unplaced]
    exact ⟨rfl, rfl⟩
  requests place runs := by
    rw [run_set_eq, reading_of_place place] at runs
    obtain ⟨answer, writes, rfl, later⟩ := Dialogue.runs_ask_iff.mp runs
    exact ⟨answer, writes, rfl, runs_proceeding later⟩
  set served := by
    cases setting_of_served served with
    | writing _ writing =>
      cases writing with
      | stored kept => exact ⟨_, rfl, kept.sets⟩
  failed served := by
    cases setting_of_served served with
    | unplaced | unread => exact .inl rfl
    | writing _ writing =>
      cases writing with
      | failed => exact .inl rfl
      | lost stores faulty kept => exact .inr ⟨_, _, _, rfl, stores, faulty, rfl, kept.sets⟩
  completes placed served answered := by
    cases setting_of_served served with
    | unplaced unplaced => exact absurd unplaced placed
    | unread faulty => exact absurd faulty (answered _ List.mem_cons_self)
    | writing _ writing =>
      cases writing with
      | failed faulty | lost _ faulty =>
        exact absurd faulty (answered _ (List.mem_cons_of_mem _ List.mem_cons_self))
      | stored => rfl
  again first second := by
    cases setting_of_served first with
    | writing _ writing =>
      cases writing with
      | stored kept =>
        cases setting_of_served second with
        | unplaced | unread => exact kept.renumbered.imp fun _ => congrArg some
        | writing _ writing =>
          cases writing with
          | failed => exact kept.renumbered.imp fun _ => congrArg some
          | lost _ _ again | stored again => exact (kept.again again).imp fun _ => congrArg some
  get served := by
    obtain ⟨same, getting⟩ := getting_of_served served
    exact ⟨same, getting.cases_res.imp_right And.left⟩
  discloses placed served answered :=
    (getting_of_served served).2.discloses placed answered
  set_get setting served answered := by
    cases setting_of_served setting with
    | writing placed writing =>
      cases writing with
      | stored kept =>
        have told := (getting_of_served served).2.discloses placed answered
        exact (told.text_iff _).mpr ⟨_, rfl, kept.sets.value⟩

section hosted

/-- What is written when the host is set in the secret without it. -/
def hosting (answer : Option Response) : List (Exchange cluster) :=
  [⟨⟨.get, "/api/v1/namespaces/prod/secrets/db", none⟩, some (answering vacant)⟩,
    ⟨⟨.put, "/api/v1/namespaces/prod/secrets/db", some (vacant.set "HOST" "db-1" none).encode⟩, answer⟩]

theorem place?_db : place? "prod" "db" = some "/api/v1/namespaces/prod/secrets/db" := by
  decide +kernel

theorem bears_vacant : Bears (answering vacant) vacant :=
  bears_answering rfl

theorem bears_hosted : Bears (answering hosted) hosted :=
  bears_answering rfl

theorem stores_hosted : Stores "prod" "db" (some vacant)
    ⟨.put, "/api/v1/namespaces/prod/secrets/db", some (vacant.set "HOST" "db-1" none).encode⟩ hosted := by
  have read : decode (vacant.set "HOST" "db-1" none).encode = some (vacant.set "HOST" "db-1" none) :=
    SecretObject.decode_encode rfl
  exact Stores.replaced "2" place?_db read

theorem runs_hosting (answer : Option Response) :
    (secretStore (.set ((connections true).secret "prod" "db") (connections true).owner)).run.Runs
      (hosting answer) (((heard decode answer).mapError (storeError "secret prod/db")).map fun _ => ()) := by
  rw [run_set_eq, reading_of_place place?_db]
  refine Dialogue.runs_ask_iff.mpr ⟨some (answering vacant), _, rfl, ?_⟩
  have sendable : target? ((connections true).secret "prod" "db").address =
      some "/api/v1/namespaces/prod/secrets/db" := target?_of_place place?_db
  rw [bears_vacant.heard, proceeding, replacing, asking_eq_ask sendable]
  exact Dialogue.runs_ask_iff.mpr ⟨answer, _, rfl, .done _⟩

theorem exists_told (object key : String) (fetched : Except ClusterFault SecretObject) :
    ∃ res, (telling object key fetched).Runs [] res := by
  rcases fetched with (⟨code, reason⟩ | _) | stored
  · rw [telling]
    split
    next => exact ⟨_, .done _⟩
    next => exact ⟨_, .done _⟩
  · exact ⟨_, .done _⟩
  · rw [telling]
    rcases cases_secretText object key stored with ⟨text, _, told⟩ | ⟨_, detail, told⟩
    · exact told ▸ ⟨_, .done _⟩
    · exact told ▸ ⟨_, .done _⟩

theorem exists_runs_getting (answer : Option Response) :
    ∃ res, (secretStore (.get "prod" "db" "HOST")).run.Runs
      [⟨⟨.get, "/api/v1/namespaces/prod/secrets/db", none⟩, answer⟩] res := by
  obtain ⟨res, ends⟩ := exists_told ("secret " ++ "prod" ++ "/" ++ "db") "HOST" (heard decode answer)
  rw [run_get_eq, reading_of_place place?_db]
  exact ⟨res, Dialogue.runs_ask_iff.mpr ⟨answer, _, rfl, ends⟩⟩

def unfound : Response where
  status := 404
  body := "\x7b\"kind\":\"Status\",\"apiVersion\":\"v1\",\"status\":\"Failure\"," ++
    "\"message\":\"secrets db not found\",\"reason\":\"NotFound\",\"code\":404\x7d"

theorem heard_unfound : heard decode (some unfound) = .error (.refused 404 "NotFound") := by
  have refused : isRefusal unfound = true := rfl
  have missing : refusal unfound = .refused 404 "NotFound" := by decide +kernel
  rw [heard, if_pos refused, missing]

/-- A secret that there is not is missing, and the host is got from it as it has been set. -/
theorem keeps_secret_hosted : ∃ (t u : List (Exchange cluster)) (res res' : Except StoreError String),
    Served "prod" "db" (.get "prod" "db" "HOST") none t res none ∧
    (∃ object, res = .error (.notFound object)) ∧
    Served "prod" "db" (.set ((connections true).secret "prod" "db") (connections true).owner) (some vacant)
      (hosting (some (answering hosted))) (.ok ()) (some hosted) ∧
    Served "prod" "db" (.get "prod" "db" "HOST") (some hosted) u res' (some hosted) ∧ res' = .ok "db-1" := by
  have keeps := keeps_secret "prod" "db"
  have placed : place? "prod" "db" ≠ none := place?_db ▸ Option.some_ne_none _
  have setting : Served "prod" "db"
      (.set ((connections true).secret "prod" "db") (connections true).owner) (some vacant)
      (hosting (some (answering hosted))) (.ok ()) (some hosted) := by
    refine ⟨?_, .cons (.got place?_db bears_vacant) (.cons (.stored stores_hosted bears_hosted) .nil)⟩
    have runs := runs_hosting (some (answering hosted))
    rw [bears_hosted.heard] at runs
    exact runs
  obtain ⟨res, missed⟩ := exists_runs_getting (some unfound)
  obtain ⟨res', runs⟩ := exists_runs_getting (some (answering hosted))
  have missing : Served "prod" "db" (.get "prod" "db" "HOST") none _ res none :=
    ⟨missed, .cons (.missing place?_db heard_unfound) .nil⟩
  have getting : Served "prod" "db" (.get "prod" "db" "HOST") (some hosted) _ res' (some hosted) :=
    ⟨runs, .cons (.got place?_db bears_hosted) .nil⟩
  refine ⟨_, _, res, res', missing, ?_, setting, getting, ?_⟩
  · have told := keeps.discloses placed missing
      (List.forall_mem_singleton.mpr (not_faulty_of_missing heard_unfound))
    exact told.missing_iff.mpr rfl
  · exact keeps.set_get setting getting (List.forall_mem_singleton.mpr (not_faulty_of_bears bears_hosted))

/-- A name with a blank in it makes no target: the secret is not looked for, and so neither made nor called
missing. A name with a hash in it stands for another secret. And a write can be stored when the call fails. -/
theorem not_every_name_kept :
    (secretStore (.set ⟨"default", "pg conn", "k", "v"⟩ none)).run = .done (.error (.cluster none)) ∧
      (secretStore (.get "default" "pg conn" "k")).run = .done (.error (.cluster none)) ∧
      place? "default" "a#b" = place? "default" "a" ∧
      Served "prod" "db" (.set ((connections true).secret "prod" "db") (connections true).owner) (some vacant)
        (hosting none) (.error (.cluster none)) (some hosted) ∧ hosted ≠ vacant := by
  have unplaced : place? "default" "pg conn" = none := by decide +kernel
  have setting : (secretStore (.set ((Entry.mk "k" "v" none).secret "default" "pg conn") none)).run =
      .done (.error (.cluster none)) := by
    rw [run_set_eq, reading_of_unplaced unplaced]
    rfl
  have getting : (secretStore (.get "default" "pg conn" "k")).run = .done (.error (.cluster none)) := by
    rw [run_get_eq, reading_of_unplaced unplaced]
    rfl
  have faulty : Faulty ⟨⟨.put, "/api/v1/namespaces/prod/secrets/db",
      some (vacant.set "HOST" "db-1" none).encode⟩, none⟩ := ⟨.other, rfl, nofun⟩
  refine ⟨setting, getting, by decide +kernel, ⟨runs_hosting none, ?_⟩, fun same => ?_⟩
  · exact .cons (.got place?_db bears_vacant) (.cons (.lost stores_hosted faulty) .nil)
  · exact absurd (congrArg SecretObject.number same) (by decide)

end hosted

end Cluster

end DatabaseOperator
