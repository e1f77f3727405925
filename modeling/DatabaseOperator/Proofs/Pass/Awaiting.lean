import DatabaseOperator.Proofs.Pass.Calls

namespace DatabaseOperator

/-- The secret that receives a connection string. -/
def Resource.connectionSecret (r : Resource) (url : ConnectionUrl) : Secret :=
  ⟨r.namespaceName, r.spec.connectionTarget.name,
    connectionKey (r.spec.connectionTarget.keyStart.getD "") url.name, url.value⟩

namespace Pass

variable {t : List (Exchange pass)}

/-- The courses of the part that hands a running database over. -/
inductive HandingOver (r : Resource) (db : Database) :
    List (Exchange pass) → Except Error Requeue → Prop
  | unnamed {t : List (Exchange provider)} {e : Error} :
      (Manager.connectionUrl db).run.Runs t (.error e) →
      HandingOver r db (t.map .ofProvider) (.error e)
  | unsaved {t : List (Exchange provider)} {s : List (Exchange secrets)} {url : ConnectionUrl}
      {e : Error} : (Manager.connectionUrl db).run.Runs t (.ok url) →
      (writeSecret (r.connectionSecret url) r.owner?).run.Runs s (.error e) →
      HandingOver r db (t.map .ofProvider ++ s.map .ofSecret)
        (.error (.phase "write connection secret" e))
  | saved {t : List (Exchange provider)} {s : List (Exchange secrets)} {url : ConnectionUrl}
      (a : Except StoreError Resource) : (Manager.connectionUrl db).run.Runs t (.ok url) →
      (writeSecret (r.connectionSecret url) r.owner?).run.Runs s (.ok ()) →
      HandingOver r db
        (t.map .ofProvider ++ (s.map .ofSecret ++ [⟨.resource (.update (r.setRunningFlag true)), a⟩]))
        (ended "set running annotation" .done a)

theorem handingOver_of_runs {r : Resource} {db : Database} {res : Except Error Requeue}
    (h : (handOver r db).run.Runs t res) : HandingOver r db t res := by
  rcases runs_provided_iff.mp h with ⟨p, e, rfl, rfl, unnamed⟩ | ⟨p, u, url, rfl, named, h₂⟩
  · exact .unnamed unnamed
  rcases Task.runs_bind_iff.mp h₂ with ⟨e, rfl, h₃⟩ | ⟨t₃, t₄, _, rfl, h₃, h₄⟩
  · obtain ⟨res, h₅, he⟩ := Task.runs_inPhase_iff.mp h₃
    obtain ⟨s, rfl, written⟩ := runs_secretTask_iff.mp h₅
    cases res with
    | ok _ => cases he
    | error f => cases he; exact .unsaved named written
  · obtain ⟨res, h₅, he⟩ := Task.runs_inPhase_iff.mp h₃
    obtain ⟨s, rfl, written⟩ := runs_secretTask_iff.mp h₅
    obtain ⟨a, rfl, rfl⟩ := runs_lastWrite_iff.mp h₄
    cases res with
    | error f => cases he
    | ok _ => exact .saved a named written

theorem runs_of_handingOver {r : Resource} {db : Database} {res : Except Error Requeue}
    (h : HandingOver r db t res) : (handOver r db).run.Runs t res := by
  cases h with
  | unnamed named =>
    exact runs_of_unprovided named
  | unsaved named written =>
    refine runs_of_provided named ?_
    exact Task.runs_bind_of_error (Task.runs_inPhase_iff.mpr
      ⟨_, runs_secretTask_iff.mpr ⟨_, rfl, written⟩, rfl⟩)
  | saved a named written =>
    refine runs_of_provided named ?_
    exact Task.runs_bind_of_ok (Task.runs_inPhase_iff.mpr
      ⟨_, runs_secretTask_iff.mpr ⟨_, rfl, written⟩, rfl⟩) (runs_lastWrite_iff.mpr ⟨a, rfl, rfl⟩)

/-- The courses of the step that waits for the database to run. -/
inductive Awaiting (delay : Nat) (r : Resource) :
    List (Exchange pass) → Except Error Requeue → Prop
  | closed {t : List (Exchange pass)} {e : Error} : Opening r t (.error e) →
      Awaiting delay r t (.error e)
  | unread {t : List (Exchange pass)} {p : List (Exchange provider)} {e : Error} :
      Opening r t (.ok ()) → (Manager.get r.databaseId).run.Runs p (.error e) →
      Awaiting delay r (t ++ p.map .ofProvider) (.error e)
  | early {t : List (Exchange pass)} {p : List (Exchange provider)} {db : Database} :
      Opening r t (.ok ()) → (Manager.get r.databaseId).run.Runs p (.ok db) →
      db.isRunning = false →
      Awaiting delay r (t ++ p.map .ofProvider) (.ok (.after delay))
  | noted {t : List (Exchange pass)} {p : List (Exchange provider)} {db : Database}
      {u : List (Exchange pass)} {res : Except Error Requeue} (now : Times) :
      Opening r t (.ok ()) → (Manager.get r.databaseId).run.Runs p (.ok db) →
      db.isRunning = true → (r.setProvisioned now).2 = false → HandingOver r db u res →
      Awaiting delay r (t ++ (p.map .ofProvider ++ (ticks now.toList ++ u))) res
  | unnoted {t : List (Exchange pass)} {p : List (Exchange provider)} {db : Database}
      (now : Times) (e : StoreError) : Opening r t (.ok ()) →
      (Manager.get r.databaseId).run.Runs p (.ok db) → db.isRunning = true →
      (r.setProvisioned now).2 = true →
      Awaiting delay r (t ++ (p.map .ofProvider ++ (ticks now.toList ++
        [⟨.resource (.updateStatus (r.setProvisioned now).1), .error e⟩])))
        (.error (.store "update status" e))
  | renoted {t : List (Exchange pass)} {p : List (Exchange provider)} {db : Database}
      {u : List (Exchange pass)} {res : Except Error Requeue} (now : Times) (stored : Resource) :
      Opening r t (.ok ()) → (Manager.get r.databaseId).run.Runs p (.ok db) →
      db.isRunning = true → (r.setProvisioned now).2 = true → HandingOver stored db u res →
      Awaiting delay r (t ++ (p.map .ofProvider ++ (ticks now.toList ++
        ⟨.resource (.updateStatus (r.setProvisioned now).1), .ok stored⟩ :: u))) res

theorem awaiting_of_runs {delay : Nat} {r : Resource} {res : Except Error Requeue}
    (h : (awaitRunning delay r).run.Runs t res) : Awaiting delay r t res := by
  rcases Task.runs_bind_iff.mp h with ⟨e, rfl, h₁⟩ | ⟨t₁, t₂, _, rfl, h₁, h₂⟩
  · exact .closed (opening_of_runs h₁)
  have opened := opening_of_runs h₁
  rcases runs_provided_iff.mp h₂ with ⟨p, e, rfl, rfl, unread⟩ | ⟨p, t₄, db, rfl, read, h₄⟩
  · exact .unread opened unread
  split at h₄
  next resting =>
    obtain ⟨rfl, rfl⟩ := Task.runs_pure_iff.mp h₄
    rw [List.append_nil]
    exact .early opened read (by simpa using resting)
  next running =>
    have running : db.isRunning = true := by simpa using running
    obtain ⟨now, u, rfl, h₅⟩ := reads_times.runs_bind_iff.mp h₄
    cases hs : r.setProvisioned now with
    | mk ready changed =>
      rw [hs] at h₅
      cases changed with
      | false => exact .noted now opened read running (by rw [hs]) (handingOver_of_runs h₅)
      | true =>
        have ready_eq : ready = (r.setProvisioned now).1 := by rw [hs]
        rcases Task.runs_bind_iff.mp h₅ with ⟨e, rfl, h₆⟩ | ⟨t₆, t₇, stored, rfl, h₆, h₇⟩
        · obtain ⟨a, rfl, ha⟩ := runs_resource_iff.mp h₆
          cases a with
          | ok _ => cases ha
          | error f =>
            cases ha
            rw [ready_eq]
            exact .unnoted now f opened read running (by rw [hs])
        · obtain ⟨a, rfl, ha⟩ := runs_resource_iff.mp h₆
          cases a with
          | error f => cases ha
          | ok _ =>
            cases ha
            rw [ready_eq]
            exact .renoted now stored opened read running (by rw [hs]) (handingOver_of_runs h₇)

/-- The step goes on to the conditions once it has found the database running. -/
theorem runs_of_running {delay : Nat} {r : Resource} {p : List (Exchange provider)} {db : Database}
    {u : List (Exchange pass)} {res : Except Error Requeue} (now : Times)
    (opening : Opening r t (.ok ())) (read : (Manager.get r.databaseId).run.Runs p (.ok db))
    (running : db.isRunning = true)
    (h : (match r.setProvisioned now with
      | (_, false) => handOver r db
      | (ready, true) => do
        let stored ← resource "update status" (.updateStatus ready)
        handOver stored db : PassTask Requeue).run.Runs u res) :
    (awaitRunning delay r).run.Runs (t ++ (p.map .ofProvider ++ (ticks now.toList ++ u))) res := by
  refine runs_of_opened opening (runs_of_provided read ?_)
  rw [if_neg (by simp [running])]
  exact reads_times.runs_bind_iff.mpr ⟨now, u, rfl, h⟩

theorem runs_of_awaiting {delay : Nat} {r : Resource} {res : Except Error Requeue}
    (h : Awaiting delay r t res) : (awaitRunning delay r).run.Runs t res := by
  cases h with
  | closed opening => exact Task.runs_bind_of_error (runs_of_opening opening)
  | unread opening read =>
    exact runs_of_opened opening (runs_of_unprovided read)
  | early opening read resting =>
    rw [← List.append_nil (_ ++ _), List.append_assoc]
    refine runs_of_opened opening (runs_of_provided read ?_)
    rw [if_pos (by simp [resting])]
    exact Task.runs_pure_iff.mpr ⟨rfl, rfl⟩
  | noted now opening read running same handed =>
    apply runs_of_running now opening read running
    cases hs : r.setProvisioned now with
    | mk ready changed =>
      obtain rfl : changed = false := by rw [hs] at same; exact same
      exact runs_of_handingOver handed
  | unnoted now e opening read running differs =>
    apply runs_of_running now opening read running
    cases hs : r.setProvisioned now with
    | mk ready changed =>
      obtain rfl : changed = true := by rw [hs] at differs; exact differs
      exact Task.runs_bind_of_error (runs_resource_iff.mpr ⟨.error e, rfl, rfl⟩)
  | renoted now stored opening read running differs handed =>
    apply runs_of_running now opening read running
    cases hs : r.setProvisioned now with
    | mk ready changed =>
      obtain rfl : changed = true := by rw [hs] at differs; exact differs
      exact Task.runs_bind_of_single (runs_resource_iff.mpr ⟨.ok stored, rfl, rfl⟩)
        (runs_of_handingOver handed)

end Pass

end DatabaseOperator
