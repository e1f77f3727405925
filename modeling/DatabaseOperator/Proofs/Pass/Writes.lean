import DatabaseOperator.Proofs.Pass.Course

namespace DatabaseOperator

namespace Pass

variable {t u : List (Exchange pass)} {r : Resource}

/-- There is no call to the store of resources. -/
def Quiet (t : List (Exchange pass)) : Prop :=
  ∀ e ∈ t, ∀ c, e.call ≠ .resource c

theorem quiet_nil : Quiet [] :=
  fun _ mem => nomatch mem

theorem Quiet.append (h : Quiet t) (g : Quiet u) : Quiet (t ++ u) :=
  fun e he => (List.mem_append.mp he).elim (h e) (g e)

theorem quiet_ofSecret (t : List (Exchange secrets)) : Quiet (t.map .ofSecret) := by
  intro e he c
  obtain ⟨x, _, rfl⟩ := List.mem_map.mp he
  exact PassCall.noConfusion

theorem quiet_ofProvider (t : List (Exchange provider)) : Quiet (t.map .ofProvider) := by
  intro e he c
  obtain ⟨x, _, rfl⟩ := List.mem_map.mp he
  exact PassCall.noConfusion

theorem quiet_single {c : PassCall} {a : pass.Answer c} (h : ∀ d, c ≠ .resource d) :
    Quiet [⟨c, a⟩] := by
  intro e he
  obtain rfl := List.mem_singleton.mp he
  exact h

theorem quiet_ticks (times : List Time) : Quiet (ticks times) := by
  intro e he c
  obtain ⟨time, _, rfl⟩ := List.mem_map.mp he
  exact PassCall.noConfusion

theorem Opening.quiet {res : Except Error Unit} (h : Opening r t res) : Quiet t := by
  cases h with
  | tokenless => exact quiet_ofSecret _
  | connected => exact (quiet_ofSecret _).append (quiet_single fun _ => PassCall.noConfusion)

theorem Opening.quiet_timed {res : Except Error Unit} (h : Opening r t res)
    (p : List (Exchange provider)) (times : List Time) :
    Quiet (t ++ (p.map .ofProvider ++ ticks times)) :=
  h.quiet.append ((quiet_ofProvider p).append (quiet_ticks times))

/-- The provider is asked nothing before the connection stands. -/
theorem Opening.unasked {res : Except Error Unit} (h : Opening r t res) :
    ∀ e ∈ t, ∀ c, e.call ≠ .provider c := by
  have unasked (s : List (Exchange secrets)) (e : Exchange pass) (he : e ∈ s.map .ofSecret)
      (c : ProviderCall) : e.call ≠ .provider c := by
    obtain ⟨x, _, rfl⟩ := List.mem_map.mp he
    exact PassCall.noConfusion
  cases h with
  | tokenless => exact unasked _
  | connected a =>
    intro e he
    rcases List.mem_append.mp he with early | last
    · exact unasked _ e early
    · cases List.mem_singleton.mp last
      exact fun _ => PassCall.noConfusion

/-- The writes go on from the resource, step by step, and end with one that fails. -/
inductive Allowed : Resource → List (Exchange pass) → Prop
  | done (r : Resource) : Allowed r []
  | other {r : Resource} {c : PassCall} {t : List (Exchange pass)} (a : pass.Answer c) :
      (∀ d, c ≠ .resource d) → Allowed r t → Allowed r (⟨c, a⟩ :: t)
  | update {r w : Resource} {t : List (Exchange pass)} (a : Except StoreError Resource) :
      r.Change w → w.status = r.status →
      (∀ v, a = .ok (w.renumbered v) → Allowed (w.renumbered v) t) →
      (∀ e, a = .error e → t = []) → Allowed r (⟨.resource (.update w), a⟩ :: t)
  | updateStatus {r w : Resource} {t : List (Exchange pass)} (a : Except StoreError Resource) :
      r.Change w → w.metadata = r.metadata → w.spec = r.spec →
      (∀ v, a = .ok (w.renumbered v) → Allowed (w.renumbered v) t) →
      (∀ e, a = .error e → t = []) → Allowed r (⟨.resource (.updateStatus w), a⟩ :: t)

theorem Quiet.allowed_append (h : Quiet t) (g : Allowed r u) : Allowed r (t ++ u) := by
  induction t with
  | nil => exact g
  | cons e t ih =>
    exact .other e.answer (h e List.mem_cons_self)
      (ih fun x hx => h x (List.mem_cons_of_mem _ hx))

theorem Quiet.allowed (h : Quiet t) : Allowed r t := by
  rw [← List.append_nil t]
  exact h.allowed_append (.done r)

theorem allowed_update {w : Resource} (a : Except StoreError Resource) (change : r.Change w)
    (status : w.status = r.status) : Allowed r [⟨.resource (.update w), a⟩] :=
  .update a change status (fun _ _ => .done _) fun _ _ => rfl

theorem allowed_updateStatus {w : Resource} (a : Except StoreError Resource)
    (change : r.Change w) (metadata : w.metadata = r.metadata) (spec : w.spec = r.spec) :
    Allowed r [⟨.resource (.updateStatus w), a⟩] :=
  .updateStatus a change metadata spec (fun _ _ => .done _) fun _ _ => rfl

theorem allowed_timed {w : Resource} (times : List Time) (a : Except StoreError Resource)
    (change : r.Change w) (metadata : w.metadata = r.metadata) (spec : w.spec = r.spec) :
    Allowed r (ticks times ++ [⟨.resource (.updateStatus w), a⟩]) :=
  (quiet_ticks times).allowed_append (allowed_updateStatus a change metadata spec)

theorem Finalizing.allowed {res : Except Error Requeue} (deleting : r.isDeletionRequested = true)
    (h : Finalizing r t res) : Allowed r t := by
  cases h with
  | unguarded => exact .done r
  | unrecorded a guarded _ => exact allowed_update a (.release deleting guarded) rfl
  | closed _ _ opening => exact opening.quiet.allowed
  | refused _ _ opening _ =>
    exact (opening.quiet.append (quiet_single fun _ => PassCall.noConfusion)).allowed
  | deleted a b guarded _ opening _ =>
    exact opening.quiet.allowed_append (.other _ (fun _ => PassCall.noConfusion)
      (allowed_update b (.release deleting guarded) rfl))

theorem Creating.allowed {delay : Nat} {res : Except Error Requeue} (prepared : r.Prepared)
    (unrecorded : r.databaseId = "") (resting : r.isRunning = false)
    (h : Creating delay r t res) : Allowed r t := by
  cases h with
  | invalid => exact .done r
  | closed _ opening => exact opening.quiet.allowed
  | refused _ opening | nameless _ opening =>
    exact (opening.quiet.append (quiet_single fun _ => PassCall.noConfusion)).allowed
  | created time a _ opening named =>
    exact opening.quiet.allowed_append (.other _ (fun _ => PassCall.noConfusion)
      (allowed_timed [time] a (.record _ time prepared unrecorded resting named) rfl rfl))

theorem HandingOver.allowed {db : Database} {res : Except Error Requeue} (prepared : r.Prepared)
    (available : r.isAvailable = true) (h : HandingOver r db t res) : Allowed r t := by
  cases h with
  | unnamed => exact (quiet_ofProvider _).allowed
  | unsaved => exact ((quiet_ofProvider _).append (quiet_ofSecret _)).allowed
  | saved a =>
    exact (quiet_ofProvider _).allowed_append ((quiet_ofSecret _).allowed_append
      (allowed_update a (.handOver prepared available) rfl))

theorem Awaiting.allowed {delay : Nat} {res : Except Error Requeue} (prepared : r.Prepared)
    (due : r.databaseId ≠ "" ∨ r.isRunning = true) (h : Awaiting delay r t res) :
    Allowed r t := by
  cases h with
  | closed opening => exact opening.quiet.allowed
  | unread opening | early opening =>
    exact (opening.quiet.append (quiet_ofProvider _)).allowed
  | noted now opening _ _ same handing =>
    exact opening.quiet.allowed_append ((quiet_ofProvider _).allowed_append
      ((quiet_ticks _).allowed_append
        (handing.allowed prepared (Resource.isAvailable_of_provisioned same))))
  | unnoted now e opening =>
    exact opening.quiet.allowed_append ((quiet_ofProvider _).allowed_append
      (allowed_timed _ _ (.provision now prepared due) rfl rfl))
  | renoted now stored opening _ _ _ handing =>
    refine opening.quiet.allowed_append ((quiet_ofProvider _).allowed_append
      ((quiet_ticks _).allowed_append
        (.updateStatus _ (.provision now prepared due) rfl rfl (fun v eq => ?_)
          fun _ eq => nomatch eq)))
    cases eq
    exact handing.allowed ⟨prepared.wanted, prepared.guarded,
      Resource.isInitialized_setProvisioned, prepared.flagged⟩ Resource.isAvailable_setProvisioned

theorem Updating.allowed {delay : Nat} {res : Except Error Requeue} (prepared : r.Prepared)
    (available : r.isAvailable = true) (running : r.isRunning = true)
    (h : Updating delay r t res) : Allowed r t := by
  cases h with
  | invalid => exact .done r
  | closed _ opening => exact opening.quiet.allowed
  | unread _ opening | busy _ opening | failed _ opening =>
    exact (opening.quiet.append (quiet_ofProvider _)).allowed
  | arrived now a _ opening | renoted now a _ opening =>
    exact opening.quiet.allowed_append ((quiet_ofProvider _).allowed_append
      (allowed_timed _ a (.provision now prepared (.inr running)) rfl rfl))
  | planned time a _ opening =>
    exact opening.quiet.allowed_append ((quiet_ofProvider _).allowed_append
      (allowed_timed _ a (.plan time prepared available running) rfl rfl))
  | noted now _ opening =>
    exact (opening.quiet_timed _ _).allowed

theorem Course.allowed {delay : Nat} {res : Except Error Requeue} (h : Course delay r t res) :
    Allowed r t := by
  cases h with
  | finalize deleting h => exact h.allowed deleting
  | mark a wanted unguarded => exact allowed_update a (.mark wanted unguarded) rfl
  | init now a _ guarded uninitialized =>
    exact allowed_timed _ a (.init now guarded uninitialized) rfl rfl
  | flag a _ guarded initialized unflagged =>
    exact allowed_update a (.flag guarded initialized unflagged) rfl
  | create prepared unrecorded resting h => exact h.allowed prepared unrecorded resting
  | await prepared due _ h => exact h.allowed prepared due
  | update prepared available running h => exact h.allowed prepared available running

variable {w : Resource} {a : Except StoreError Resource} {delay : Nat}
  {res : Except Error Requeue}

theorem Quiet.mem_of_append {c : ResourceCall} {a : pass.Answer (.resource c)} (h : Quiet t)
    (mem : (⟨.resource c, a⟩ : Exchange pass) ∈ t ++ u) : (⟨.resource c, a⟩ : Exchange pass) ∈ u :=
  (List.mem_append.mp mem).resolve_left fun early => h _ early _ rfl

theorem Quiet.not_mem {c : ResourceCall} {a : pass.Answer (.resource c)} (h : Quiet t) :
    (⟨.resource c, a⟩ : Exchange pass) ∉ t :=
  fun mem => h _ mem _ rfl

/-- When a resource with a recorded id loses its finalizer, the database has just been deleted. -/
theorem Finalizing.deletes (h : Finalizing r t res)
    (mem : (⟨.resource (.update w), a⟩ : Exchange pass) ∈ t) (recorded : r.databaseId ≠ "") :
    ∃ b, isGone b = true ∧
      (⟨.provider (.deleteDatabase r.databaseId), b⟩ : Exchange pass) ∈ t := by
  cases h with
  | unguarded => cases mem
  | unrecorded _ _ unrecorded => exact absurd unrecorded recorded
  | closed _ _ opening => exact absurd mem opening.quiet.not_mem
  | refused _ _ opening => cases List.mem_singleton.mp (opening.quiet.mem_of_append mem)
  | deleted b _ _ _ _ gone => exact ⟨b, gone, List.mem_append_right _ (.head _)⟩

theorem Creating.not_update (h : Creating delay r t res) :
    (⟨.resource (.update w), a⟩ : Exchange pass) ∉ t := by
  intro mem
  cases h with
  | invalid => cases mem
  | closed _ opening => exact opening.quiet.not_mem mem
  | refused _ opening | nameless _ opening =>
    cases List.mem_singleton.mp (opening.quiet.mem_of_append mem)
  | created time b _ opening =>
    have mem := opening.quiet.mem_of_append mem
    simp only [List.mem_cons, List.not_mem_nil, or_false] at mem
    rcases mem with other | other | other <;> cases other

theorem Updating.not_update (h : Updating delay r t res) :
    (⟨.resource (.update w), a⟩ : Exchange pass) ∉ t := by
  intro mem
  cases h with
  | invalid => cases mem
  | closed _ opening => exact opening.quiet.not_mem mem
  | unread _ opening | busy _ opening | failed _ opening =>
    exact (opening.quiet.append (quiet_ofProvider _)).not_mem mem
  | noted now _ opening =>
    exact (opening.quiet_timed _ _).not_mem mem
  | arrived _ b _ opening | planned _ b _ opening | renoted _ b _ opening =>
    have mem := (quiet_ofProvider _).mem_of_append (opening.quiet.mem_of_append mem)
    cases List.mem_singleton.mp ((quiet_ticks _).mem_of_append mem)

theorem HandingOver.eq_of_update {db : Database} (h : HandingOver r db t res)
    (mem : (⟨.resource (.update w), a⟩ : Exchange pass) ∈ t) : w = r.setRunningFlag true := by
  cases h with
  | unnamed => exact absurd mem (quiet_ofProvider _).not_mem
  | unsaved => exact absurd mem ((quiet_ofProvider _).append (quiet_ofSecret _)).not_mem
  | saved b =>
    cases List.mem_singleton.mp
      ((quiet_ofSecret _).mem_of_append ((quiet_ofProvider _).mem_of_append mem))
    rfl

/-- A wait sets the flag on what it saw last. -/
theorem Awaiting.eq_of_update (h : Awaiting delay r t res)
    (mem : (⟨.resource (.update w), a⟩ : Exchange pass) ∈ t) :
    w = r.setRunningFlag true ∨ ∃ now stored, w = stored.setRunningFlag true ∧
      (⟨.resource (.updateStatus (r.setProvisioned now).1), .ok stored⟩ : Exchange pass) ∈ t := by
  cases h with
  | closed opening => exact absurd mem opening.quiet.not_mem
  | unread opening | early opening =>
    exact absurd mem (opening.quiet.append (quiet_ofProvider _)).not_mem
  | noted now opening _ _ _ handing =>
    have mem := (quiet_ofProvider _).mem_of_append (opening.quiet.mem_of_append mem)
    exact .inl (handing.eq_of_update ((quiet_ticks _).mem_of_append mem))
  | unnoted now e opening =>
    have mem := (quiet_ofProvider _).mem_of_append (opening.quiet.mem_of_append mem)
    cases List.mem_singleton.mp ((quiet_ticks _).mem_of_append mem)
  | renoted now stored opening _ _ _ handing =>
    have mem := (quiet_ofProvider _).mem_of_append (opening.quiet.mem_of_append mem)
    have mem := (quiet_ticks _).mem_of_append mem
    have mem := (List.mem_cons.mp mem).resolve_left nofun
    exact .inr ⟨now, stored, handing.eq_of_update mem,
      List.mem_append_right _ (List.mem_append_right _ (List.mem_append_right _ (.head _)))⟩

/-- Only what is written for a resource that is to be deleted can lack the finalizer, as long as the
store gives back the metadata that it was given. -/
theorem Course.finalizing_of_update (h : Course delay r t res)
    (mem : (⟨.resource (.update w), a⟩ : Exchange pass) ∈ t) (bare : w.hasFinalizer = false)
    (kept : ∀ (x stored : Resource),
      (⟨.resource (.updateStatus x), .ok stored⟩ : Exchange pass) ∈ t →
      x.metadata.resourceVersion = r.metadata.resourceVersion → stored.finalizers = r.finalizers) :
    ∃ res', Finalizing r t res' := by
  cases h with
  | finalize _ h => exact ⟨_, h⟩
  | mark b =>
    cases List.mem_singleton.mp mem
    simp at bare
  | init now b => cases List.mem_singleton.mp ((quiet_ticks _).mem_of_append mem)
  | flag b _ guarded =>
    cases List.mem_singleton.mp mem
    exact absurd (guarded.symm.trans bare) (by decide)
  | create _ _ _ h => exact absurd mem h.not_update
  | await prepared _ _ h =>
    rcases h.eq_of_update mem with rfl | ⟨now, stored, rfl, written⟩
    · exact absurd (prepared.guarded.symm.trans bare) (by decide)
    · have same : stored.hasFinalizer = r.hasFinalizer := by
        unfold Resource.hasFinalizer
        rw [kept _ _ written rfl]
      exact absurd (prepared.guarded.symm.trans (same.symm.trans bare)) (by decide)
  | update _ _ _ h => exact absurd mem h.not_update

end Pass

end DatabaseOperator
