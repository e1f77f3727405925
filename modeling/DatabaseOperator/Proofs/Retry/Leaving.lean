import DatabaseOperator.Proofs.Counterpart.Reading

namespace DatabaseOperator

variable {π : Type} {R : Counterpart π} {l : Login} {a b : Site π} {r r' : Resource} {t : List (Exchange pass)}
  {res : Except Error Requeue} {err : Error} {id : String} {stored : Except StoreError Resource}

namespace Counterpart

/-- What the deletion of a database comes to, and what there is then, with what is kept of the resource. -/
def drop (R : Counterpart π) (l : Login) (id : String) (kept : Option Resource) (a : Site π) :
    Except Error Requeue × Site π :=
  let told := R.answer l (.deleteDatabase id) a.remote
  if Pass.isGone told.1 then (.ok .done, { a with resource := kept, remote := told.2 })
  else ((told.1.mapError (Error.provider ("delete database " ++ id))).map fun _ => .done, a)

/-- What the step comes to for a resource that is to be deleted, and what there is then. -/
def leave (R : Counterpart π) (r : Resource) (a : Site π) : Except Error Requeue × Site π :=
  if r.databaseId = "" then (.ok .done, { a with resource := r.removeFinalizer.kept? })
  else
    match R.opened r a.secrets a.remote with
    | .error e => (.error e, a)
    | .ok _ => R.drop (r.login a.secrets) r.databaseId r.removeFinalizer.kept? a

/-- The database of the resource can be deleted. -/
structure Dropping (R : Counterpart π) (r : Resource) (a : Site π) : Prop where
  recorded : r.databaseId ≠ ""
  opened : R.opened r a.secrets a.remote = .ok ()
  gone : Pass.isGone (R.answer (r.login a.secrets) (.deleteDatabase r.databaseId) a.remote).1 = true

/-- What deletions that fail leave behind. -/
inductive Left (R : Counterpart π) (r : Resource) (a b : Site π) : Prop
  | still : b.Like a → Left R r a b
  | dropped : R.Dropping r a →
      b.Like { a with remote := (R.answer (r.login a.secrets) (.deleteDatabase r.databaseId) a.remote).2 } → Left R r a b

theorem Dropping.leave_eq (h : R.Dropping r a) : R.leave r a = (.ok .done, { a with
    resource := r.removeFinalizer.kept?
    remote := (R.answer (r.login a.secrets) (.deleteDatabase r.databaseId) a.remote).2 }) := by
  unfold leave drop
  simp only [if_neg h.recorded, h.opened, if_pos h.gone]

theorem leave_of_refused (recorded : r.databaseId ≠ "") (opened : R.opened r a.secrets a.remote = .ok ())
    {e : ProviderError} (told : (R.answer (r.login a.secrets) (.deleteDatabase r.databaseId) a.remote).1 = .error e)
    (refused : Pass.isGone (.error e) = false) :
    R.leave r a = (.error (.provider ("delete database " ++ r.databaseId) e), a) := by
  unfold leave drop
  simp only [if_neg recorded, opened, told, refused]
  rfl

end Counterpart

namespace Pass

open Counterpart

/-- A deletion that is answered in calm times is answered as things are. -/
theorem answers_of_deletion {a : Site π} {answer : Except ProviderError Unit} {b : Site π}
    (h : R.Answers l a ⟨.provider (.deleteDatabase id), answer⟩ b) :
    answer = (R.answer l (.deleteDatabase id) a.remote).1 ∧
      b = { a with remote := (R.answer l (.deleteDatabase id) a.remote).2 } := by
  cases h with
  | asked => exact ⟨rfl, rfl⟩

/-- In calm times, the step comes to what it should. -/
theorem Finalizing.calm (h : Finalizing r t res) (serves : R.Serves false l a t b) (steady : R.Steady)
    (current : a.resource = some r) (guarded : r.hasFinalizer = true) :
    res = (R.leave r a).1 ∧ b.Like (R.leave r a).2 := by
  cases h with
  | unguarded unguarded => exact absurd (guarded.symm.trans unguarded) (by decide)
  | unrecorded stored _ unrecorded =>
    obtain ⟨⟨x, rfl⟩, like⟩ := serves.of_update current rfl rfl
    unfold leave
    rw [if_pos unrecorded]
    exact ⟨rfl, like⟩
  | closed _ recorded opening =>
    obtain ⟨opened, like, _, _⟩ := serves.opens steady opening (.inl rfl)
    unfold leave
    simp only [if_neg recorded, opened]
    exact ⟨trivial, like⟩
  | refused _ recorded opening refused =>
    obtain ⟨opened, a₁, _, same, rest⟩ := serves.of_opening steady opening
    obtain rfl := same rfl
    obtain ⟨a₂, answers, after⟩ := rest.of_calm
    obtain ⟨told, rfl⟩ := answers_of_deletion answers
    obtain rfl := after.eq_of_rest
    have kept := steady.refuses _ r.databaseId a₁.remote (told ▸ refused)
    rw [leave_of_refused recorded opened told.symm refused, kept]
    exact ⟨rfl, .refl a₁⟩
  | deleted answer stored _ recorded opening gone =>
    obtain ⟨opened, a₁, _, same, rest⟩ := serves.of_opening steady opening
    obtain rfl := same rfl
    obtain ⟨a₂, answers, after⟩ := rest.of_calm
    obtain ⟨told, rfl⟩ := answers_of_deletion answers
    obtain ⟨⟨x, rfl⟩, like⟩ := after.of_update current rfl rfl
    have dropping : R.Dropping r a₁ := ⟨recorded, opened, told ▸ gone⟩
    rw [dropping.leave_eq]
    exact ⟨rfl, like⟩

/-- What a deletion that fails leaves behind. -/
theorem Finalizing.troubled (h : Finalizing r t (.error err)) (serves : R.Serves true l a t b)
    (steady : R.Steady) : R.Left r a b := by
  generalize eq : Except.error err = res at h
  cases h with
  | unguarded => cases eq
  | unrecorded stored =>
    cases stored with
    | ok x => cases eq
    | error f => exact .still (serves.of_idle steady Exchange.idle_of_refused).1
  | closed _ _ opening => exact .still (serves.of_idle steady opening.idle).1
  | refused _ recorded opening refused =>
    obtain ⟨a₁, first, rest⟩ := serves.of_append
    have like := (first.of_idle steady opening.idle).1
    obtain ⟨a₂, like', _, ⟨a₃, answers, after⟩ | ⟨_, _, after⟩⟩ := rest.of_cons
    · obtain ⟨told, rfl⟩ := answers_of_deletion answers
      have kept := steady.refuses _ r.databaseId a₂.remote (told ▸ refused)
      rw [kept] at after
      have ended := (after.of_idle steady fun _ mem => nomatch mem).1
      exact .still (ended.trans (like'.trans like))
    · have ended := (after.of_idle steady fun _ mem => nomatch mem).1
      exact .still (ended.trans (like'.trans like))
  | deleted answer stored _ recorded opening gone =>
    cases stored with
    | ok x => cases eq
    | error f =>
      obtain ⟨opened, a₁, like, _, rest⟩ := serves.of_opening steady opening
      obtain ⟨a₂, like', _, ⟨a₃, answers, after⟩ | ⟨_, _, after⟩⟩ := rest.of_cons
      -- the deletion was answered as things are, or the answer that the database is gone was a failure
      · obtain ⟨told, rfl⟩ := answers_of_deletion answers
        have before := like'.trans like
        have ended := (after.of_idle steady Exchange.idle_of_refused).1
        rw [before.remote] at told ended
        exact .dropped ⟨recorded, opened, told ▸ gone⟩
          (ended.trans ⟨before.resource, before.secrets, rfl⟩)
      · have ended := (after.of_idle steady Exchange.idle_of_refused).1
        exact .still (ended.trans (like'.trans like))

/-- A database that was deleted was there to be deleted. -/
theorem Finalizing.dropping {troubled : Bool} (h : Finalizing r t res)
    (serves : R.Serves troubled l a t b) (steady : R.Steady)
    (deleted : (⟨.provider (.deleteDatabase id), .ok ()⟩ : Exchange pass) ∈ t) : R.Dropping r a := by
  cases h with
  | unguarded => cases deleted
  | unrecorded => cases List.mem_singleton.mp deleted
  | closed _ _ opening => exact absurd rfl (opening.unasked _ deleted _)
  | refused _ _ opening =>
    rcases List.mem_append.mp deleted with early | late
    · exact absurd rfl (opening.unasked _ early _)
    · cases List.mem_singleton.mp late
  | deleted answer stored _ recorded opening =>
    rcases List.mem_append.mp deleted with early | late
    · exact absurd rfl (opening.unasked _ early _)
    rcases List.mem_cons.mp late with same | late
    · cases same
      obtain ⟨opened, a₁, like, _, rest⟩ := serves.of_opening steady opening
      obtain ⟨a₂, a₃, like', _, answers, _⟩ := rest.of_granted trivial
      obtain ⟨told, _⟩ := answers_of_deletion answers
      rw [(like'.trans like).remote] at told
      exact ⟨recorded, opened, told ▸ rfl⟩
    · cases List.mem_singleton.mp late

end Pass

namespace Counterpart

theorem drop_congr {x y : Option Resource} (kept : y.map Resource.timeless = x.map Resource.timeless)
    (like : b.Like a) :
    (R.drop l id y b).1 = (R.drop l id x a).1 ∧ (R.drop l id y b).2.Like (R.drop l id x a).2 := by
  unfold drop
  rw [like.remote]
  simp only
  split
  next => exact ⟨rfl, kept, like.secrets, rfl⟩
  next => exact ⟨rfl, like⟩

theorem leave_congr (same : r'.timeless = r.timeless) (like : b.Like a) :
    (R.leave r' b).1 = (R.leave r a).1 ∧ (R.leave r' b).2.Like (R.leave r a).2 := by
  have concurs := Resource.concurs_of_timeless same
  have released : r'.removeFinalizer.timeless = r.removeFinalizer.timeless :=
    congrArg Resource.removeFinalizer same
  have kept := Resource.timeless_kept? released
  unfold leave
  rw [concurs.recorded, opened_congr concurs like.secrets like.remote,
    Resource.login_of_concurs concurs, like.secrets]
  split
  next => exact ⟨rfl, kept, rfl, like.remote⟩
  split
  next => exact ⟨rfl, like⟩
  next => exact drop_congr kept like

/-- A deletion comes to the same after one that has failed. -/
theorem Left.leave_eq (h : R.Left r a b) (steady : R.Steady) (current : a.resource = some r)
    (current' : b.resource = some r') :
    (R.leave r' b).1 = (R.leave r a).1 ∧ (R.leave r' b).2.Like (R.leave r a).2 := by
  cases h with
  | still like => exact leave_congr (like.timeless current' current) like
  | dropped dropping like =>
    let x := (R.answer (r.login a.secrets) (.deleteDatabase r.databaseId) a.remote).2
    obtain ⟨gone, kept⟩ := steady.deletes _ r.databaseId a.remote dropping.gone
    obtain ⟨addressed, token, found, connected⟩ := opened_iff.mp dropping.opened
    have connected' := steady.connects (r.login a.secrets) r.databaseId a.remote
    rw [Resource.login_eq found, connected, ← Resource.login_eq found] at connected'
    have opened : R.opened r a.secrets x = .ok () :=
      opened_iff.mpr ⟨addressed, token, found, Resource.login_eq found ▸ connected'⟩
    have again : R.Dropping r { a with remote := x } := ⟨dropping.recorded, opened, gone⟩
    have same := leave_congr (R := R) (like.timeless current' current) like
    rw [again.leave_eq] at same
    rw [dropping.leave_eq]
    exact ⟨same.1, same.2.trans ⟨rfl, rfl, kept⟩⟩

end Counterpart

end DatabaseOperator
