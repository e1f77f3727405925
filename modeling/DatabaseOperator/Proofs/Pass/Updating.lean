import DatabaseOperator.Proofs.Pass.Creating

namespace DatabaseOperator

namespace Pass

variable {t : List (Exchange pass)}

/-- The courses of the step that keeps a database as it is declared. -/
inductive Updating (delay : Nat) (r : Resource) :
    List (Exchange pass) → Except Error Requeue → Prop
  | invalid {e : ValidationError} : r.spec.database = .error e →
      Updating delay r [] (.error (.phase "translate database spec" (.invalid e)))
  | closed {wanted : Database} {t : List (Exchange pass)} {e : Error} :
      r.spec.database = .ok wanted → Opening r t (.error e) → Updating delay r t (.error e)
  | unread {wanted : Database} {t : List (Exchange pass)} {p : List (Exchange provider)}
      {e : Error} : r.spec.database = .ok wanted → Opening r t (.ok ()) →
      r.isProvisioning = true → (Manager.get r.databaseId).run.Runs p (.error e) →
      Updating delay r (t ++ p.map .ofProvider) (.error e)
  | busy {wanted db : Database} {t : List (Exchange pass)} {p : List (Exchange provider)} :
      r.spec.database = .ok wanted → Opening r t (.ok ()) → r.isProvisioning = true →
      (Manager.get r.databaseId).run.Runs p (.ok db) → db.isRunning = false →
      Updating delay r (t ++ p.map .ofProvider) (.ok (.after delay))
  | arrived {wanted db : Database} {t : List (Exchange pass)} {p : List (Exchange provider)}
      (now : Times) (a : Except StoreError Resource) : r.spec.database = .ok wanted →
      Opening r t (.ok ()) → r.isProvisioning = true →
      (Manager.get r.databaseId).run.Runs p (.ok db) → db.isRunning = true →
      Updating delay r (t ++ (p.map .ofProvider ++ (ticks now.toList ++
        [⟨.resource (.updateStatus (r.setProvisioned now).1), a⟩])))
        (ended "update status" .now a)
  | failed {wanted : Database} {t : List (Exchange pass)} {p : List (Exchange provider)}
      {e : Error} : r.spec.database = .ok wanted → Opening r t (.ok ()) →
      r.isProvisioning = false → (Manager.update r.databaseId wanted).run.Runs p (.error e) →
      Updating delay r (t ++ p.map .ofProvider) (.error e)
  | planned {wanted : Database} {t : List (Exchange pass)} {p : List (Exchange provider)}
      (time : Time) (a : Except StoreError Resource) : r.spec.database = .ok wanted →
      Opening r t (.ok ()) → r.isProvisioning = false →
      (Manager.update r.databaseId wanted).run.Runs p (.ok .provisioning) →
      Updating delay r (t ++ (p.map .ofProvider ++ (ticks [time] ++
        [⟨.resource (.updateStatus (r.setProvisioning time).1), a⟩])))
        (ended "update status" (.after delay) a)
  | noted {wanted : Database} {t : List (Exchange pass)} {p : List (Exchange provider)}
      {outcome : UpdateOutcome} (now : Times) : r.spec.database = .ok wanted →
      Opening r t (.ok ()) → r.isProvisioning = false → outcome ≠ .provisioning →
      (Manager.update r.databaseId wanted).run.Runs p (.ok outcome) →
      (r.setProvisioned now).2 = false →
      Updating delay r (t ++ (p.map .ofProvider ++ ticks now.toList)) (.ok .done)
  | renoted {wanted : Database} {t : List (Exchange pass)} {p : List (Exchange provider)}
      {outcome : UpdateOutcome} (now : Times) (a : Except StoreError Resource) :
      r.spec.database = .ok wanted → Opening r t (.ok ()) → r.isProvisioning = false →
      outcome ≠ .provisioning → (Manager.update r.databaseId wanted).run.Runs p (.ok outcome) →
      (r.setProvisioned now).2 = true →
      Updating delay r (t ++ (p.map .ofProvider ++ (ticks now.toList ++
        [⟨.resource (.updateStatus (r.setProvisioned now).1), a⟩])))
        (ended "update status" .done a)

/-- The end of an update that did not change the plan. -/
theorem runs_settle_iff {r : Resource} {res : Except Error Requeue} :
    (do
      let now ← times
      match r.setProvisioned now with
      | (_, false) => pure .done
      | (ready, true) =>
        let _ ← resource "update status" (.updateStatus ready)
        pure .done : PassTask Requeue).run.Runs t res ↔
    ∃ now : Times, (t = ticks now.toList ∧ (r.setProvisioned now).2 = false ∧ res = .ok .done) ∨
      ∃ a : Except StoreError Resource,
        t = ticks now.toList ++ [⟨.resource (.updateStatus (r.setProvisioned now).1), a⟩] ∧
        (r.setProvisioned now).2 = true ∧ res = ended "update status" .done a := by
  refine reads_times.runs_bind_iff.trans ?_
  constructor
  · rintro ⟨now, u, rfl, h⟩
    refine ⟨now, ?_⟩
    cases hs : r.setProvisioned now with
    | mk ready changed =>
      rw [hs] at h
      cases changed with
      | false =>
        obtain ⟨rfl, rfl⟩ := Task.runs_pure_iff.mp h
        exact .inl ⟨rfl, rfl, rfl⟩
      | true =>
        obtain ⟨a, rfl, rfl⟩ := runs_lastWrite_iff.mp h
        exact .inr ⟨a, rfl, rfl, rfl⟩
  · rintro ⟨now, ⟨rfl, same, rfl⟩ | ⟨a, rfl, differs, rfl⟩⟩
    · refine ⟨now, [], (List.append_nil _).symm, ?_⟩
      cases hs : r.setProvisioned now with
      | mk ready changed =>
        obtain rfl : changed = false := by rw [hs] at same; exact same
        exact Task.runs_pure_iff.mpr ⟨rfl, rfl⟩
    · refine ⟨now, _, rfl, ?_⟩
      cases hs : r.setProvisioned now with
      | mk ready changed =>
        obtain rfl : changed = true := by rw [hs] at differs; exact differs
        exact runs_lastWrite_iff.mpr ⟨a, rfl, rfl⟩

theorem updating_of_runs {delay : Nat} {r : Resource} {res : Except Error Requeue}
    (h : (update delay r).run.Runs t res) : Updating delay r t res := by
  rcases cases_of_desired h with ⟨e, invalid, rfl, rfl⟩ | ⟨wanted, valid, h₁⟩
  · exact .invalid invalid
  rcases Task.runs_bind_iff.mp h₁ with ⟨e, rfl, h₂⟩ | ⟨t₁, t₂, _, rfl, h₂, h₃⟩
  · exact .closed valid (opening_of_runs h₂)
  have opened := opening_of_runs h₂
  split at h₃
  next planning =>
    rcases runs_provided_iff.mp h₃ with ⟨p, e, rfl, rfl, unread⟩ | ⟨p, u, found, rfl, read, h₄⟩
    · exact .unread valid opened planning unread
    split at h₄
    next resting =>
      obtain ⟨rfl, rfl⟩ := Task.runs_pure_iff.mp h₄
      rw [List.append_nil]
      exact .busy valid opened planning read (by simpa using resting)
    next running =>
      obtain ⟨now, a, rfl, rfl⟩ := reads_times.runs_write_iff.mp h₄
      exact .arrived now a valid opened planning read (by simpa using running)
  next steady =>
    have steady : r.isProvisioning = false := by simpa using steady
    rcases runs_provided_iff.mp h₃ with
      ⟨p, e, rfl, rfl, failed⟩ | ⟨p, u, outcome, rfl, updated, h₄⟩
    · exact .failed valid opened steady failed
    split at h₄
    next =>
      obtain ⟨time, a, rfl, rfl⟩ := reads_now.runs_write_iff.mp h₄
      exact .planned time a valid opened steady updated
    next other =>
      obtain ⟨now, ⟨rfl, same, rfl⟩ | ⟨a, rfl, differs, rfl⟩⟩ := runs_settle_iff.mp h₄
      · exact .noted now valid opened steady other updated same
      · exact .renoted now a valid opened steady other updated differs

theorem runs_of_updating {delay : Nat} {r : Resource} {res : Except Error Requeue}
    (h : Updating delay r t res) : (update delay r).run.Runs t res := by
  cases h with
  | invalid invalid =>
    exact Task.runs_bind_of_error (runs_desired_iff.mpr ⟨rfl, by rw [invalid]; rfl⟩)
  | closed valid opening =>
    exact runs_of_desired valid (Task.runs_bind_of_error (runs_of_opening opening))
  | unread valid opening planning read =>
    refine runs_of_desired valid (runs_of_opened opening ?_)
    rw [if_pos planning]
    exact runs_of_unprovided read
  | busy valid opening planning read resting =>
    refine runs_of_desired valid (runs_of_opened opening ?_)
    rw [if_pos planning]
    rw [← List.append_nil (List.map _ _)]
    refine runs_of_provided read ?_
    rw [if_pos (by simp [resting])]
    exact Task.runs_pure_iff.mpr ⟨rfl, rfl⟩
  | arrived now a valid opening planning read running =>
    refine runs_of_desired valid (runs_of_opened opening ?_)
    rw [if_pos planning]
    refine runs_of_provided read ?_
    rw [if_neg (by simp [running])]
    exact reads_times.runs_write_iff.mpr ⟨now, a, rfl, rfl⟩
  | failed valid opening steady updated =>
    refine runs_of_desired valid (runs_of_opened opening ?_)
    rw [if_neg (by simp [steady])]
    exact runs_of_unprovided updated
  | planned time a valid opening steady updated =>
    refine runs_of_desired valid (runs_of_opened opening ?_)
    rw [if_neg (by simp [steady])]
    exact runs_of_provided updated (reads_now.runs_write_iff.mpr ⟨time, a, rfl, rfl⟩)
  | @noted _ _ _ outcome now valid opening steady other updated same =>
    refine runs_of_desired valid (runs_of_opened opening ?_)
    rw [if_neg (by simp [steady])]
    refine runs_of_provided updated ?_
    cases outcome with
    | provisioning => exact absurd rfl other
    | unchanged => exact runs_settle_iff.mpr ⟨now, .inl ⟨rfl, same, rfl⟩⟩
    | updated => exact runs_settle_iff.mpr ⟨now, .inl ⟨rfl, same, rfl⟩⟩
  | @renoted _ _ _ outcome now a valid opening steady other updated differs =>
    refine runs_of_desired valid (runs_of_opened opening ?_)
    rw [if_neg (by simp [steady])]
    refine runs_of_provided updated ?_
    cases outcome with
    | provisioning => exact absurd rfl other
    | unchanged => exact runs_settle_iff.mpr ⟨now, .inr ⟨a, rfl, differs, rfl⟩⟩
    | updated => exact runs_settle_iff.mpr ⟨now, .inr ⟨a, rfl, differs, rfl⟩⟩

end Pass

end DatabaseOperator
