import DatabaseOperator.Proofs.Cluster.Shelf

namespace DatabaseOperator

namespace SecretObject

/-- The same as another version. -/
def renumbered (s : SecretObject) (number : String) : SecretObject :=
  { s with metadata.resourceVersion := some number }

theorem Reread.renumbered {s s' : SecretObject} (h : Reread s s') (number : String) :
    Reread (s.renumbered number) (s'.renumbered number) :=
  { h with metadata := h.metadata.renumbered (some number) }

end SecretObject

namespace Cluster

open DatabaseOperator.SecretObject (decode)

/-- The target that stands for a secret, if one can be made of its name. -/
def place? (namespaceName name : String) : Option String :=
  if name.isEmpty then none else target? (Watch.secretsPath (some namespaceName) ++ "/" ++ name)

/-- The name stands for itself in the target, so what is made under it is found under it. -/
def Plain (namespaceName name : String) : Prop :=
  place? namespaceName name = some (Watch.secretsPath (some namespaceName) ++ "/" ++ name) ∧
    '?' ∉ (Watch.secretsPath (some namespaceName) ++ "/" ++ name).toList

/-- A write of the secret, and what is kept upon it. -/
inductive Stores (namespaceName name : String) : Option SecretObject → ClusterRequest → SecretObject → Prop
  | replaced {s sent : SecretObject} {target : String} {body : Json} (number : String) :
      place? namespaceName name = some target → decode body = some sent →
      Stores namespaceName name (some s) ⟨.put, target, some body⟩ (sent.renumbered number)
  | created {sent : SecretObject} {target : String} {body : Json} (number : String) :
      Plain namespaceName name → target? (Watch.secretsPath (some namespaceName)) = some target →
      decode body = some sent → sent.metadata.name = some name →
      Stores namespaceName name none ⟨.post, target, some body⟩ (sent.renumbered number)

/-- The answer tells of a fault. That a secret is not found is no fault, and a fault does not look like it. -/
def Faulty (x : Exchange cluster) : Prop :=
  ∃ fault, heard decode x.answer = .error fault ∧ (x.call.method = .get →
    ∀ code reason, fault = .refused code reason → code ≠ 404 ∧ reason ≠ "NotFound")

/-- What becomes of the secret by a request. -/
inductive Treats (namespaceName name : String) :
    Option SecretObject → Exchange cluster → Option SecretObject → Prop
  | got {s : SecretObject} {target : String} {r : Response} :
      place? namespaceName name = some target → Bears r s →
      Treats namespaceName name (some s) ⟨⟨.get, target, none⟩, some r⟩ (some s)
  | missing {target : String} {r : Response} :
      place? namespaceName name = some target →
      heard decode (some r) = .error (.refused 404 "NotFound") →
      Treats namespaceName name none ⟨⟨.get, target, none⟩, some r⟩ none
  | stored {before : Option SecretObject} {q : ClusterRequest} {s : SecretObject} {r : Response} :
      Stores namespaceName name before q s → Bears r s →
      Treats namespaceName name before ⟨q, some r⟩ (some s)
  | failed {before : Option SecretObject} {x : Exchange cluster} :
      Faulty x → Treats namespaceName name before x before
  | lost {before : Option SecretObject} {x : Exchange cluster} {s : SecretObject} :
      Stores namespaceName name before x.call s → Faulty x → Treats namespaceName name before x (some s)

/-- What becomes of the secret by several requests. -/
inductive Along (namespaceName name : String) :
    Option SecretObject → List (Exchange cluster) → Option SecretObject → Prop
  | nil {s : Option SecretObject} : Along namespaceName name s [] s
  | cons {s s' s'' : Option SecretObject} {x : Exchange cluster} {t : List (Exchange cluster)} :
      Treats namespaceName name s x s' → Along namespaceName name s' t s'' →
      Along namespaceName name s (x :: t) s''

/-- A call of the store, and what becomes of the secret by it. -/
structure Served (namespaceName name : String) (c : SecretCall) (before : Option SecretObject)
    (t : List (Exchange cluster)) (res : Except StoreError c.Result) (after : Option SecretObject) : Prop where
  runs : (secretStore c).run.Runs t res
  along : Along namespaceName name before t after

variable {namespaceName name key target : String} {e : Entry} {before after : Option SecretObject}
  {s : SecretObject} {t : List (Exchange cluster)} {x : Exchange cluster} {β : Type}

theorem Faulty.heard {q : ClusterRequest} {answer : Option Response} (faulty : Faulty ⟨q, answer⟩) :
    ∃ fault, heard decode answer = .error fault ∧ (q.method = .get →
      ∀ code reason, fault = .refused code reason → code ≠ 404 ∧ reason ≠ "NotFound") :=
  faulty

theorem not_faulty_of_bears {q : ClusterRequest} {r : Response} (bears : Bears r s) :
    ¬ Faulty ⟨q, some r⟩ := by
  rintro ⟨fault, failed, _⟩
  cases bears.heard.symm.trans failed

theorem not_faulty_of_missing {body : Option Json} {r : Response}
    (missing : heard decode (some r) = .error (.refused 404 "NotFound")) :
    ¬ Faulty ⟨⟨.get, target, body⟩, some r⟩ := by
  rintro ⟨fault, failed, known⟩
  cases missing.symm.trans failed
  exact (known rfl 404 "NotFound" rfl).1 rfl

section target

variable {p : Char → Bool} {l m : List Char}

theorem takeWhile_prefix_append : l.takeWhile p <+: (l ++ m).takeWhile p := by
  rw [List.takeWhile_append]
  split
  next => exact (List.takeWhile_prefix p).trans (List.prefix_append l _)
  next => exact List.prefix_refl _

theorem dropWhile_prefix_append : l.dropWhile p <+: (l ++ m).dropWhile p := by
  rw [List.dropWhile_append]
  split
  next none =>
    rw [List.isEmpty_iff.mp none]
    exact List.nil_prefix
  next => exact List.prefix_append _ m

theorem all_of_prefix (first : l <+: m) (all : m.all p = true) : l.all p = true :=
  List.all_eq_true.mpr fun c mem => List.all_eq_true.mp all c (first.subset mem)

/-- What a target begins with can be a target too. -/
theorem target?_of_append {first rest : String} (h : target? (first ++ rest) = some target) :
    ∃ shorter, target? first = some shorter := by
  dsimp only [target?] at h ⊢
  split at h
  next sendable =>
    simp only [Bool.and_eq_true, decide_eq_true_eq, String.toList_append, String.utf8ByteSize_append]
      at sendable ⊢
    obtain ⟨⟨size, path⟩, query⟩ := sendable
    obtain ⟨later, split⟩ := takeWhile_prefix_append (p := (· ≠ '#')) (l := first.toList) (m := rest.toList)
    rw [← split] at path query
    exact ⟨_, if_pos ⟨⟨Nat.le_trans (Nat.le_add_right _ _) size, all_of_prefix takeWhile_prefix_append path⟩,
      all_of_prefix dropWhile_prefix_append query⟩⟩
  next => cases h

end target

theorem target?_of_place (h : place? namespaceName name = some target) :
    target? (Watch.secretsPath (some namespaceName) ++ "/" ++ name) = some target := by
  unfold place? at h
  split at h
  next => cases h
  next => exact h

theorem target?_collection (h : place? namespaceName name = some target) :
    ∃ collection, target? (Watch.secretsPath (some namespaceName)) = some collection := by
  have whole := target?_of_place h
  rw [String.append_assoc] at whole
  exact target?_of_append whole

section reading

variable {next : Except ClusterFault SecretObject → Dialogue cluster β}

/-- A program that reads the secret first. -/
def reading (namespaceName name : String) (next : Except ClusterFault SecretObject → Dialogue cluster β) :
    Dialogue cluster β :=
  if name.isEmpty then next (.error .other)
  else asking .get (Watch.secretsPath (some namespaceName) ++ "/" ++ name) none decode next

theorem reading_of_place (h : place? namespaceName name = some target) : reading namespaceName name next =
    .ask ⟨.get, target, none⟩ fun answer => next (heard decode answer) := by
  unfold place? at h
  split at h
  next => cases h
  next named => rw [reading, if_neg named, asking_eq_ask h]

theorem reading_of_unplaced (h : place? namespaceName name = none) :
    reading namespaceName name next = next (.error .other) := by
  unfold place? at h
  rw [reading]
  split at h
  next unnamed => rw [if_pos unnamed]
  next named => rw [if_neg named, asking, h]

end reading

theorem run_set_eq : (secretStore (.set (e.secret namespaceName name) e.owner)).run =
    reading namespaceName name (proceeding (e.secret namespaceName name) e.owner) :=
  run_set _ _

/-- What is said of a key of the secret that was read. -/
def telling (object key : String) :
    Except ClusterFault SecretObject → Dialogue cluster (Except StoreError String)
  | .ok s => (secretText object key s).run
  | .error (.refused code reason) =>
    if reason = "NotFound" then .done (.error (.notFound object))
    else .done (.error (storeError object (.refused code reason)))
  | .error .other => .done (.error (.cluster none))

theorem run_get_eq : (secretStore (.get namespaceName name key)).run =
    reading namespaceName name (telling ("secret " ++ namespaceName ++ "/" ++ name) key) := by
  change (onObject _ (read? _ name decode) >>= fun found => _ : StoreTask String).run = _
  rw [run_onObject_bind, run_read?, reading]
  split
  next => rfl
  next =>
    rw [bind_asking]
    refine congrArg (asking .get _ none decode) (funext fun res => ?_)
    rcases res with (⟨code, reason⟩ | _) | stored
    · by_cases absent : reason = "NotFound"
      · simp only [found, telling, if_pos absent]
        rfl
      · simp only [found, telling, if_neg absent]
        rfl
    · rfl
    · rfl

/-- What is sent of a secret when an entry of it is set. -/
def Entry.written (e : Entry) (namespaceName name : String) : Option SecretObject → SecretObject
  | some s => s.set e.key e.value e.owner
  | none => .new (e.secret namespaceName name) e.owner

/-- What is kept when an entry has been set: what was sent, as it is read, as a version of its own. -/
def Entry.Kept (e : Entry) (namespaceName name : String) (before : Option SecretObject) (s : SecretObject) :
    Prop :=
  ∃ sent number, (e.written namespaceName name before).Reread sent ∧ s = sent.renumbered number

theorem Stores.kept {method : Method} (stores : Stores namespaceName name before
    ⟨method, target, some (e.written namespaceName name before).encode⟩ s) :
    e.Kept namespaceName name before s := by
  cases stores with
  | replaced number _ read => exact ⟨_, number, SecretObject.decode_encode_iff.mp read, rfl⟩
  | created number _ _ read _ => exact ⟨_, number, SecretObject.decode_encode_iff.mp read, rfl⟩

/-- The write that sets an entry. -/
inductive Writing (namespaceName name : String) (e : Entry) (before : Option SecretObject) :
    List (Exchange cluster) → Except StoreError Unit → Option SecretObject → Prop
  | failed {x : Exchange cluster} {err : StoreError} :
      Faulty x → Writing namespaceName name e before [x] (.error err) before
  | lost {x : Exchange cluster} {err : StoreError} {s : SecretObject} :
      Stores namespaceName name before x.call s → Faulty x → e.Kept namespaceName name before s →
      Writing namespaceName name e before [x] (.error err) (some s)
  | stored {x : Exchange cluster} {s : SecretObject} :
      e.Kept namespaceName name before s → Writing namespaceName name e before [x] (.ok ()) (some s)

/-- A call that sets an entry. -/
inductive Setting (namespaceName name : String) (e : Entry) (before : Option SecretObject) :
    List (Exchange cluster) → Except StoreError Unit → Option SecretObject → Prop
  | unplaced : place? namespaceName name = none →
      Setting namespaceName name e before [] (.error (.cluster none)) before
  | unread {x : Exchange cluster} {err : StoreError} :
      Faulty x → Setting namespaceName name e before [x] (.error err) before
  | writing {x : Exchange cluster} {t : List (Exchange cluster)} {res : Except StoreError Unit}
      {after : Option SecretObject} : place? namespaceName name ≠ none →
      Writing namespaceName name e before t res after →
      Setting namespaceName name e before (x :: t) res after

section setting

variable {res : Except StoreError Unit} {method : Method} {place : String} {body : Option Json} {sec : Secret}

theorem runs_write (runs : (asking method place body decode (concluding sec)).Runs t res) :
    target? place = none ∧ t = [] ∨ ∃ target answer, target? place = some target ∧
      t = [⟨⟨method, target, body⟩, answer⟩] ∧
      res = ((heard decode answer).mapError (storeError sec.object)).map fun _ => () := by
  unfold asking at runs
  split at runs
  next none => exact .inl ⟨none, (Dialogue.runs_done_iff.mp runs).1⟩
  next target some =>
    obtain ⟨answer, rest, rfl, ends⟩ := Dialogue.runs_ask_iff.mp runs
    obtain ⟨rfl, rfl⟩ := Dialogue.runs_done_iff.mp ends
    exact .inr ⟨target, answer, some, rfl, rfl⟩

theorem writing_of_along (sendable : target? place = some target)
    (runs : (asking method place (some (e.written namespaceName name before).encode) decode
      (concluding sec)).Runs t res) (along : Along namespaceName name before t after) :
    Writing namespaceName name e before t res after := by
  rcases runs_write runs with ⟨unsendable, _⟩ | ⟨_, answer, _, rfl, rfl⟩
  · cases sendable.symm.trans unsendable
  · cases along with
    | cons treats rest =>
      cases rest
      cases treats with
      | stored stores bears =>
        rw [bears.heard]
        exact .stored stores.kept
      | failed faulty =>
        obtain ⟨fault, failed, _⟩ := faulty.heard
        rw [failed]
        exact .failed faulty
      | lost stores faulty =>
        obtain ⟨fault, failed, _⟩ := faulty.heard
        rw [failed]
        exact .lost stores faulty stores.kept

theorem setting_of_served
    (h : Served namespaceName name (.set (e.secret namespaceName name) e.owner) before t res after) :
    Setting namespaceName name e before t res after := by
  obtain ⟨runs, along⟩ := h
  rw [run_set_eq] at runs
  cases place : place? namespaceName name with
  | none =>
    rw [reading_of_unplaced place] at runs
    obtain ⟨rfl, rfl⟩ := Dialogue.runs_done_iff.mp runs
    cases along
    exact .unplaced place
  | some target =>
    have placed : place? namespaceName name ≠ none := place ▸ Option.some_ne_none target
    rw [reading_of_place place] at runs
    obtain ⟨answer, rest, rfl, later⟩ := Dialogue.runs_ask_iff.mp runs
    cases along with
    | cons treats along =>
      cases treats with
      | got _ bears =>
        rw [bears.heard] at later
        exact .writing placed (writing_of_along (target?_of_place place) later along)
      | missing _ missing =>
        rw [missing] at later
        obtain ⟨collection, sendable⟩ := target?_collection place
        exact .writing placed (writing_of_along sendable later along)
      | stored stores => cases stores
      | failed faulty =>
        obtain ⟨fault, failed, known⟩ := faulty.heard
        rw [failed] at later
        cases fault with
        | other =>
          obtain ⟨rfl, rfl⟩ := Dialogue.runs_done_iff.mp later
          cases along
          exact .unread faulty
        | refused code reason =>
          -- A fault does not look like a missing secret, so nothing is made upon it.
          rw [proceeding, if_neg (known rfl code reason rfl).2] at later
          obtain ⟨rfl, rfl⟩ := Dialogue.runs_done_iff.mp later
          cases along
          exact .unread faulty
      | lost stores => cases stores

end setting

/-- The fault of a request, and not something that is said of the secret. -/
def Faulted {α : Type} (res : Except StoreError α) : Prop :=
  (∃ object, res = .error (.conflict object)) ∨ ∃ code, res = .error (.cluster code)

/-- A call that gets a key. -/
inductive Getting (namespaceName name key : String) (before : Option SecretObject) :
    List (Exchange cluster) → Except StoreError String → Prop
  | unplaced : place? namespaceName name = none →
      Getting namespaceName name key before [] (.error (.cluster none))
  | unread {x : Exchange cluster} {res : Except StoreError String} :
      Faulty x → Faulted res → Getting namespaceName name key before [x] res
  | missing {x : Exchange cluster} {object : String} :
      before = none → Getting namespaceName name key before [x] (.error (.notFound object))
  | unreadable {x : Exchange cluster} {s : SecretObject} {detail : String} : before = some s →
      (∀ text, s.holding.data.get? key ≠ some (utf8Bytes text)) →
      Getting namespaceName name key before [x] (.error (.invalidData detail))
  | text {x : Exchange cluster} {s : SecretObject} {text : String} : before = some s →
      s.holding.data.get? key = some (utf8Bytes text) →
      Getting namespaceName name key before [x] (.ok text)

section getting

variable {object : String} {res : Except StoreError String}

theorem holding_get? : s.holding.data.get? key = s.data.bind fun d => d.get? key := by
  unfold SecretObject.holding
  cases s.data <;> rfl

theorem cases_secretText (object key : String) (s : SecretObject) :
    (∃ text, s.holding.data.get? key = some (utf8Bytes text) ∧
        (secretText object key s).run = .done (.ok text)) ∨
      (∀ text, s.holding.data.get? key ≠ some (utf8Bytes text)) ∧
        ∃ detail, (secretText object key s).run = .done (.error (.invalidData detail)) := by
  rw [holding_get?, secretText]
  cases held : s.data.bind fun d => d.get? key with
  | none => exact .inr ⟨fun _ => nofun, _, rfl⟩
  | some bytes =>
    cases spelled : ofUtf8Bytes? bytes with
    | none =>
      refine .inr ⟨fun text same => ?_, object ++ " key " ++ key ++ " is not utf-8", ?_⟩
      · cases spelled.symm.trans (ofUtf8Bytes?_eq_some_iff.mpr (Option.some.inj same))
      · simp only [spelled]
        rfl
    | some text =>
      refine .inl ⟨text, congrArg some (ofUtf8Bytes?_eq_some_iff.mp spelled), ?_⟩
      simp only [spelled]
      rfl

theorem faulted_of_known {fault : ClusterFault}
    (known : ∀ code reason, fault = .refused code reason → code ≠ 404 ∧ reason ≠ "NotFound") :
    ∃ err, telling object key (.error fault) = .done (.error err) ∧
      Faulted (.error err : Except StoreError String) := by
  cases fault with
  | other => exact ⟨_, rfl, .inr ⟨none, rfl⟩⟩
  | refused code reason =>
    obtain ⟨found, named⟩ := known code reason rfl
    refine ⟨_, if_neg named, ?_⟩
    rw [storeError, if_neg found]
    split
    next => exact .inl ⟨object, rfl⟩
    next => exact .inr ⟨some code, rfl⟩

/-- Getting a key leaves the secret as it is. -/
theorem getting_of_served (h : Served namespaceName name (.get namespaceName name key) before t res after) :
    after = before ∧ Getting namespaceName name key before t res := by
  obtain ⟨runs, along⟩ := h
  rw [run_get_eq] at runs
  cases place : place? namespaceName name with
  | none =>
    rw [reading_of_unplaced place] at runs
    obtain ⟨rfl, rfl⟩ := Dialogue.runs_done_iff.mp runs
    cases along
    exact ⟨rfl, .unplaced place⟩
  | some target =>
    rw [reading_of_place place] at runs
    obtain ⟨answer, rest, rfl, later⟩ := Dialogue.runs_ask_iff.mp runs
    cases along with
    | cons treats along =>
      cases treats with
      | @got s _ r _ bears =>
        rw [bears.heard, telling] at later
        rcases cases_secretText ("secret " ++ namespaceName ++ "/" ++ name) key s with
          ⟨text, held, told⟩ | ⟨unheld, detail, told⟩
        all_goals
          rw [told] at later
          obtain ⟨rfl, rfl⟩ := Dialogue.runs_done_iff.mp later
          cases along
        · exact ⟨rfl, .text rfl held⟩
        · exact ⟨rfl, .unreadable rfl unheld⟩
      | missing _ missing =>
        rw [missing, telling, if_pos rfl] at later
        obtain ⟨rfl, rfl⟩ := Dialogue.runs_done_iff.mp later
        cases along
        exact ⟨rfl, .missing rfl⟩
      | stored stores => cases stores
      | failed faulty =>
        obtain ⟨fault, failed, known⟩ := faulty.heard
        obtain ⟨err, told, faulted⟩ := faulted_of_known (known rfl)
        rw [failed, told] at later
        obtain ⟨rfl, rfl⟩ := Dialogue.runs_done_iff.mp later
        cases along
        exact ⟨rfl, .unread faulty faulted⟩
      | lost stores => cases stores

end getting

end Cluster

end DatabaseOperator
