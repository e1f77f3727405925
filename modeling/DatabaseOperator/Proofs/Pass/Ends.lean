import DatabaseOperator.Proofs.Pass.Writes

namespace DatabaseOperator

namespace Exchange

/-- The store of resources refused the call with this error. -/
def Refused (f : StoreError) : Exchange pass → Prop
  | ⟨.resource _, .error g⟩ => g = f
  | _ => False

/-- The store of resources answered a write with what is stored. -/
def Stored : Exchange pass → Prop
  | ⟨.resource (.update _), .ok _⟩ => True
  | ⟨.resource (.updateStatus _), .ok _⟩ => True
  | _ => False

theorem not_stored_of_quiet {e : Exchange pass} (quiet : ∀ c, e.call ≠ .resource c) : ¬ e.Stored := by
  obtain ⟨c, a⟩ := e
  cases c with
  | resource d => exact absurd rfl (quiet d)
  | secret | connect | provider | now => exact id

theorem not_stored_of_error {c : ResourceCall} {f : StoreError} :
    ¬ Stored ⟨.resource c, .error f⟩ := by
  cases c <;> exact id

theorem not_refused_of_quiet {e : Exchange pass} {f : StoreError} (quiet : ∀ c, e.call ≠ .resource c) :
    ¬ e.Refused f := by
  obtain ⟨c, a⟩ := e
  cases c with
  | resource d => exact absurd rfl (quiet d)
  | secret | connect | provider | now => exact id

end Exchange

/-- The resource is due for the wait for its database. -/
def Resource.Awaits (r : Resource) : Prop :=
  r.Prepared ∧ (r.databaseId ≠ "" ∨ r.isRunning = true) ∧ (r.isAvailable = false ∨ r.isRunning = false)

/-- What is due for the wait is due for no creation and no update. -/
theorem Resource.Awaits.not_bringing {r : Resource} (h : r.Awaits) :
    ¬ ((r.databaseId = "" ∧ r.isRunning = false) ∨ (r.isAvailable = true ∧ r.isRunning = true)) := by
  obtain ⟨_, recorded, waiting⟩ := h
  rintro (⟨unrecorded, resting⟩ | ⟨available, running⟩)
  · rcases recorded with recorded | running
    · exact recorded unrecorded
    · exact absurd (running.symm.trans resting) (by decide)
  · rw [available, running] at waiting
    rcases waiting with none | none <;> cases none

namespace Pass

variable {t u : List (Exchange pass)} {r : Resource} {delay : Nat} {res : Except Error Requeue}
  {action : String} {e : Exchange pass} {f : StoreError} {err : Error}

/-- The answer to the last write decides how the pass ends. -/
structure Concludes {α : Type} (a : Except StoreError α) (res : Except Error Requeue) : Prop where
  ok : ∀ x, a = .ok x → ∃ next, res = .ok next
  error : ∀ f, a = .error f → ∃ action err, res = .error err ∧ err.root = .store action f

theorem concludes_ended {α : Type} (action : String) (next : Requeue) (a : Except StoreError α) :
    Concludes a (ended action next a) := by
  constructor
  · rintro x rfl
    exact ⟨next, rfl⟩
  · rintro f rfl
    exact ⟨action, _, rfl, rfl⟩

theorem Concludes.phase {α : Type} {a : Except StoreError α} (h : Concludes a res) (action : String) :
    Concludes a (res.mapError (Error.phase action)) := by
  constructor
  · intro x answered
    obtain ⟨next, rfl⟩ := h.ok x answered
    exact ⟨next, rfl⟩
  · intro f refused
    obtain ⟨action', err, rfl, root⟩ := h.error f refused
    exact ⟨action', _, rfl, root⟩

/-- There is at most one write, it comes last, and its answer decides how the pass ends. -/
inductive Closing (res : Except Error Requeue) : List (Exchange pass) → Prop
  | quiet {t : List (Exchange pass)} : Quiet t → Closing res t
  | written {t : List (Exchange pass)} {c : ResourceCall} (a : Except StoreError c.Result) :
      Quiet t → Concludes a res → Closing res (t ++ [⟨.resource c, a⟩])

theorem Closing.phase (h : Closing res t) (action : String) :
    Closing (res.mapError (Error.phase action)) t := by
  cases h with
  | quiet quiet => exact .quiet quiet
  | written a quiet concludes => exact .written a quiet (concludes.phase action)

theorem Quiet.closing_append (h : Quiet u) (g : Closing res t) : Closing res (u ++ t) := by
  cases g with
  | quiet quiet => exact .quiet (h.append quiet)
  | written a quiet concludes =>
    rw [← List.append_assoc]
    exact .written a (h.append quiet) concludes

theorem closing_update {w : Resource} (action : String) (next : Requeue)
    (a : Except StoreError Resource) :
    Closing (ended action next a) [⟨.resource (.update w), a⟩] :=
  .written (t := []) (c := .update w) a quiet_nil (concludes_ended action next a)

theorem closing_timed {w : Resource} (action : String) (next : Requeue) (times : List Time)
    (a : Except StoreError Resource) :
    Closing (ended action next a) (ticks times ++ [⟨.resource (.updateStatus w), a⟩]) :=
  .written (c := .updateStatus w) a (quiet_ticks times) (concludes_ended action next a)

/-- A write that is refused is what the pass fails with. -/
theorem Closing.reported (h : Closing res t) (mem : e ∈ t) (refused : e.Refused f) :
    ∃ action err, res = .error err ∧ err.root = .store action f := by
  cases h with
  | quiet quiet => exact absurd refused (Exchange.not_refused_of_quiet (quiet e mem))
  | written a quiet concludes =>
    rcases List.mem_append.mp mem with early | last
    · exact absurd refused (Exchange.not_refused_of_quiet (quiet e early))
    · obtain rfl := List.mem_singleton.mp last
      cases a with
      | ok x => exact refused.elim
      | error g =>
        obtain rfl : g = f := refused
        exact concludes.error g rfl

/-- What fails has stored nothing. -/
theorem Closing.unstored (h : Closing (.error err) t) : ∀ e ∈ t, ¬ e.Stored := by
  intro e mem
  cases h with
  | quiet quiet => exact Exchange.not_stored_of_quiet (quiet e mem)
  | written a quiet concludes =>
    rcases List.mem_append.mp mem with early | last
    · exact Exchange.not_stored_of_quiet (quiet e early)
    · obtain rfl := List.mem_singleton.mp last
      cases a with
      | ok x =>
        obtain ⟨next, same⟩ := concludes.ok x rfl
        cases same
      | error g => exact Exchange.not_stored_of_error

theorem Finalizing.closing (h : Finalizing r t res) : Closing res t := by
  cases h with
  | unguarded => exact .quiet quiet_nil
  | unrecorded a => exact closing_update _ _ _
  | closed _ _ opening => exact .quiet opening.quiet
  | refused _ _ opening =>
    exact .quiet (opening.quiet.append (quiet_single fun _ => PassCall.noConfusion))
  | deleted a b _ _ opening =>
    exact opening.quiet.closing_append
      ((quiet_single fun _ => PassCall.noConfusion).closing_append (closing_update _ _ _))

theorem Creating.closing (h : Creating delay r t res) : Closing res t := by
  cases h with
  | invalid => exact .quiet quiet_nil
  | closed _ opening => exact .quiet opening.quiet
  | refused _ opening | nameless _ opening =>
    exact .quiet (opening.quiet.append (quiet_single fun _ => PassCall.noConfusion))
  | created time a _ opening =>
    exact opening.quiet.closing_append
      ((quiet_single fun _ => PassCall.noConfusion).closing_append (closing_timed _ _ [time] _))

theorem HandingOver.closing {db : Database} (h : HandingOver r db t res) : Closing res t := by
  cases h with
  | unnamed => exact .quiet (quiet_ofProvider _)
  | unsaved => exact .quiet ((quiet_ofProvider _).append (quiet_ofSecret _))
  | saved a =>
    exact (quiet_ofProvider _).closing_append
      ((quiet_ofSecret _).closing_append (closing_update _ _ _))

theorem Updating.closing (h : Updating delay r t res) : Closing res t := by
  cases h with
  | invalid => exact .quiet quiet_nil
  | closed _ opening => exact .quiet opening.quiet
  | unread _ opening | busy _ opening | failed _ opening =>
    exact .quiet (opening.quiet.append (quiet_ofProvider _))
  | arrived _ a _ opening | planned _ a _ opening | renoted _ a _ opening =>
    exact opening.quiet.closing_append
      ((quiet_ofProvider _).closing_append (closing_timed _ _ _ a))
  | noted now _ opening =>
    exact .quiet (opening.quiet_timed _ _)

/-- A wait can have its conditions stored before it goes on. -/
theorem Awaiting.closing (h : Awaiting delay r t res) :
    Closing res t ∨ ∃ (u : List (Exchange pass)) (now : Times) (stored : Resource)
      (v : List (Exchange pass)), Quiet u ∧ Closing res v ∧
      t = u ++ ⟨.resource (.updateStatus (r.setProvisioned now).1), .ok stored⟩ :: v := by
  cases h with
  | closed opening => exact .inl (.quiet opening.quiet)
  | unread opening | early opening =>
    exact .inl (.quiet (opening.quiet.append (quiet_ofProvider _)))
  | noted now opening _ _ _ handing =>
    exact .inl (opening.quiet.closing_append ((quiet_ofProvider _).closing_append
      ((quiet_ticks _).closing_append handing.closing)))
  | unnoted now e opening =>
    exact .inl (opening.quiet.closing_append
      ((quiet_ofProvider _).closing_append (closing_timed "update status" .now _ (.error e))))
  | @renoted _ p _ v _ now stored opening _ _ _ handing =>
    exact .inr ⟨_, now, stored, v, opening.quiet_timed p now.toList, handing.closing,
      append_timed _ _ _ _⟩

theorem Course.closing (h : Course delay r t res) :
    Closing res t ∨ r.Awaits ∧ ∃ (u : List (Exchange pass)) (now : Times) (stored : Resource)
      (v : List (Exchange pass)), Quiet u ∧ Closing res v ∧
      t = u ++ ⟨.resource (.updateStatus (r.setProvisioned now).1), .ok stored⟩ :: v := by
  cases h with
  | finalize _ h => exact .inl (h.closing.phase _)
  | mark a | flag a => exact .inl (closing_update _ _ a)
  | init now a => exact .inl (closing_timed _ _ _ a)
  | create _ _ _ h => exact .inl (h.closing.phase _)
  | await prepared recorded waiting h =>
    rcases h.closing with closing | ⟨u, now, stored, v, quiet, closing, split⟩
    · exact .inl (closing.phase _)
    · exact .inr ⟨⟨prepared, recorded, waiting⟩, u, now, stored, v, quiet, closing.phase _, split⟩
  | update _ _ _ h => exact .inl (h.closing.phase _)

/-- Whatever the step, a write that is refused is what the pass fails with. -/
theorem Course.reported (h : Course delay r t res) (mem : e ∈ t) (refused : e.Refused f) :
    ∃ action err, res = .error err ∧ err.root = .store action f := by
  rcases h.closing with closing | ⟨_, u, now, stored, v, quiet, closing, rfl⟩
  · exact closing.reported mem refused
  · rcases List.mem_append.mp mem with early | late
    · exact absurd refused (Exchange.not_refused_of_quiet (quiet e early))
    · rcases List.mem_cons.mp late with rfl | later
      · exact refused.elim
      · exact closing.reported later refused

/-- A step that fails has stored nothing, but for the conditions at the end of a wait. -/
theorem Course.unstored (h : Course delay r t (.error err)) :
    (∀ e ∈ t, ¬ e.Stored) ∨ r.Awaits ∧ ∃ (u : List (Exchange pass)) (now : Times)
      (stored : Resource) (v : List (Exchange pass)), (∀ e ∈ u, ¬ e.Stored) ∧
      (∀ e ∈ v, ¬ e.Stored) ∧
      t = u ++ ⟨.resource (.updateStatus (r.setProvisioned now).1), .ok stored⟩ :: v := by
  rcases h.closing with closing | ⟨awaits, u, now, stored, v, quiet, closing, split⟩
  · exact .inl closing.unstored
  · have early : ∀ e ∈ u, ¬ e.Stored := fun e mem => Exchange.not_stored_of_quiet (quiet e mem)
    exact .inr ⟨awaits, u, now, stored, v, early, closing.unstored, split⟩

/-- What is prepared is due for the creation of its database, the wait for it, or an update. -/
theorem Course.cases_of_prepared (h : Course delay r t res) (prepared : r.Prepared) :
    ∃ action res', res = res'.mapError (Error.phase action) ∧
      ((r.databaseId = "" ∧ r.isRunning = false ∧ Creating delay r t res') ∨
        (r.Awaits ∧ Awaiting delay r t res') ∨
        (r.isAvailable = true ∧ r.isRunning = true ∧ Updating delay r t res')) := by
  cases h with
  | finalize deleting => exact absurd (prepared.wanted.symm.trans deleting) (by decide)
  | mark _ _ unguarded => exact absurd (prepared.guarded.symm.trans unguarded) (by decide)
  | init _ _ _ _ uninitialized =>
    exact absurd (prepared.initialized.symm.trans uninitialized) (by decide)
  | flag _ _ _ _ unflagged =>
    have flagged := prepared.flagged
    rw [unflagged] at flagged
    cases flagged
  | create _ unrecorded resting h => exact ⟨_, _, rfl, .inl ⟨unrecorded, resting, h⟩⟩
  | await _ recorded waiting h => exact ⟨_, _, rfl, .inr (.inl ⟨⟨prepared, recorded, waiting⟩, h⟩)⟩
  | update _ available running h => exact ⟨_, _, rfl, .inr (.inr ⟨available, running, h⟩)⟩

end Pass

end DatabaseOperator
