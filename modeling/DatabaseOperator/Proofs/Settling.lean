import DatabaseOperator.Proofs.Chronicle.Edits
import DatabaseOperator.Proofs.Convergence

namespace DatabaseOperator

open FirewallRule

/-- A call that changes something, be it stored or at the provider. -/
def PassCall.Changes : PassCall → Prop
  | .resource (.update _) => True
  | .resource (.updateStatus _) => True
  | .secret (.set _ _) => True
  | .provider c => ¬ c.Reads
  | _ => False

/-- The database once it runs again. -/
def Database.restarted (db : Database) : Database :=
  { db with status := .running }

/-- Passes one after the other in which nothing fails, with the database after them. It runs again
whenever a pass begins. -/
inductive Settling (delay : Nat) (namespaceName name : String) (s : Chronicle) (db : Database) :
    List (PassRun delay namespaceName name) → Chronicle → Database → Prop
  | start : Settling delay namespaceName name s db [] s db
  | next {ps : List (PassRun delay namespaceName name)} {p : PassRun delay namespaceName name}
      {s' s'' : Chronicle} {db' db'' : Database} :
      Settling delay namespaceName name s db ps s' db' → s'.Evolves p.trace s'' →
      db'.restarted.Undergoes (Pass.asked p.trace) db'' → (∀ e ∈ p.trace, e.Granted) →
      Settling delay namespaceName name s db (ps ++ [p]) s'' db''

variable {delay : Nat} {namespaceName name : String} {r r' w : Resource}
  {wanted db db' : Database} {s s' : Chronicle} {t : List (Exchange pass)}
  {res : Except Error Requeue} {n : Nat}

namespace Resource

/-- Nothing is left to do but to delete rules that are not declared. -/
structure Kept (r : Resource) (wanted db : Database) : Prop where
  plan : db.plan = wanted.plan
  access : db.features.isActive Features.publiclyAvailable =
    wanted.features.isActive Features.publiclyAvailable
  allowed : ∀ x ∈ ranges wanted.firewallRules, x ∈ ranges db.firewallRules
  settled : r.isProvisioning = true ∨ r.Settled

/-- The work takes at most so many passes. One is for the end of a change of plan, as many as rules share
a range for deleting them, and two for all the rest. -/
def Within (n : Nat) (r : Resource) (wanted db : Database) : Prop :=
  surplus wanted.firewallRules db.firewallRules + r.isProvisioning.toNat + 2 ≤ n ∨
    r.Kept wanted db ∧
      surplus wanted.firewallRules db.firewallRules + r.isProvisioning.toNat ≤ n

theorem within_start (r : Resource) (wanted db : Database) :
    r.Within (surplus wanted.firewallRules db.firewallRules + 3) wanted db := by
  have one := Bool.toNat_le r.isProvisioning
  left
  omega

theorem Within.of_edit (h : r.Within n wanted db) (edit : r.Edit r') (alike : r.Alike r') :
    r'.Within n wanted db := by
  unfold Within at *
  rw [edit.isProvisioning]
  refine h.imp_right fun ⟨kept, bound⟩ => ⟨⟨kept.plan, kept.access, kept.allowed, ?_⟩, bound⟩
  rw [edit.isProvisioning]
  exact kept.settled.imp_right fun settled => settled.of_status edit.status alike.generation

/-- A resource stays in service under what passes write and other people edit. -/
theorem Serving.of_edit (h : r.Serving wanted db) (edit : w.Edit r') (alike : r.Alike r')
    (available : w.isAvailable = true) (running : w.isRunning = true) (guarded : w.hasFinalizer = true)
    (recorded : w.databaseId = r.databaseId) (id : db'.id = db.id) (addonId : db'.addonId = db.addonId)
    (identified : Identified db'.firewallRules) : r'.Serving wanted db' where
  prepared := prepared_of_running (alike.deletion.trans h.prepared.wanted)
    (edit.finalizer.trans guarded) (edit.isAvailable.trans available) (edit.isRunning.trans running)
  available := edit.isAvailable.trans available
  running := edit.isRunning.trans running
  creatable := h.creatable.of_spec alike.spec alike.located
  recorded := by rw [edit.databaseId, recorded, h.recorded, id]
  named := by rw [id]; exact h.named
  addressed := by rw [addonId]; exact h.addressed
  identified := identified

theorem Serving.edited (h : r.Serving wanted db) (edit : r.Edit r') (alike : r.Alike r') :
    r'.Serving wanted db :=
  h.of_edit edit alike h.available h.running h.prepared.guarded rfl rfl rfl h.identified

theorem Serving.restarted (h : r.Serving wanted db) : r.Serving wanted db.restarted :=
  ⟨h.prepared, h.available, h.running, h.creatable, h.recorded, h.named, h.addressed, h.identified⟩

theorem Within.restarted (h : r.Within n wanted db) : r.Within n wanted db.restarted :=
  h.imp_right fun ⟨kept, bound⟩ => ⟨⟨kept.plan, kept.access, kept.allowed, kept.settled⟩, bound⟩

/-- What an update leaves to do. -/
theorem kept_of_updated (updated : Manager.Updated wanted db db')
    (settled : r.isProvisioning = true ∨ r.Settled) : r.Kept wanted db' :=
  ⟨updated.plan, updated.access, fun _ mem => updated.rules.mem_ranges_iff.mpr (.inl mem), settled⟩

theorem Within.of_updated (h : r.Within n wanted db) (updated : Manager.Updated wanted db db')
    (off : r'.isProvisioning = false) (settled : r'.Settled) : r'.Within (n - 1) wanted db' := by
  have fewer := updated.rules.surplus_le
  refine .inr ⟨kept_of_updated updated (.inr settled), ?_⟩
  rw [off, Bool.toNat_false]
  rcases h with bound | ⟨_, bound⟩ <;> omega

end Resource

namespace Pass

open Resource

/-- A pass brings the work one pass nearer to its end. -/
theorem Serviced.step (h : Serviced delay r wanted db t res db') (serving : r.Serving wanted db)
    (current : s.current = some r) (evolves : s.Evolves t s')
    (steady : ∀ v ∈ s'.versions, r.Alike v) (within : r.Within n wanted db) :
    ∃ r', s'.current = some r' ∧ r'.Serving wanted db' ∧ r'.Within (n - 1) wanted db' := by
  have guarded := serving.prepared.guarded
  cases h with
  | arrived now stored provisioning quiet =>
    obtain ⟨r', current', edit⟩ := evolves.written current rfl rfl guarded
    have alike := steady r' (Chronicle.mem_of_current current')
    have off : r'.isProvisioning = false := edit.isProvisioning.trans isProvisioning_setProvisioned
    have settled : r'.Settled := settled_setProvisioned.of_status edit.status alike.generation
    refine ⟨r', current', serving.of_edit edit alike isAvailable_setProvisioned serving.running guarded
      databaseId_setProvisioned rfl rfl serving.identified, ?_⟩
    -- the database is as before, and the bound loses the pass that it had for the end of the change
    unfold Within at *
    rw [provisioning, Bool.toNat_true] at within
    rw [off, Bool.toNat_false]
    rcases within with bound | ⟨kept, bound⟩
    · left
      omega
    · right
      exact ⟨⟨kept.plan, kept.access, kept.allowed, .inr settled⟩, by omega⟩
  | planned time stored steadily differs updated quiet =>
    obtain ⟨r', current', edit⟩ := evolves.written current rfl rfl guarded
    have alike := steady r' (Chronicle.mem_of_current current')
    have on : r'.isProvisioning = true := edit.isProvisioning.trans isProvisioning_setProvisioning
    have fewer := updated.rules.surplus_le
    refine ⟨r', current', serving.of_edit edit alike
      (isAvailable_setProvisioning.trans serving.available) serving.running guarded
      databaseId_setProvisioning updated.id updated.addonId updated.rules.identified, .inr
        ⟨kept_of_updated updated (.inl on), ?_⟩⟩
    -- the plan was not as declared, so only the first bound can have held
    rw [on, Bool.toNat_true]
    rcases within with bound | ⟨kept, _⟩
    · omega
    · exact absurd kept.plan differs
  | renoted now stored steadily kept unsettled updated quiet =>
    obtain ⟨r', current', edit⟩ := evolves.written current rfl rfl guarded
    have alike := steady r' (Chronicle.mem_of_current current')
    exact ⟨r', current', serving.of_edit edit alike isAvailable_setProvisioned serving.running guarded
      databaseId_setProvisioned updated.id updated.addonId updated.rules.identified,
      within.of_updated updated (edit.isProvisioning.trans isProvisioning_setProvisioned)
        (settled_setProvisioned.of_status edit.status alike.generation)⟩
  | noted steadily kept settled updated quiet =>
    obtain ⟨r', current', edit⟩ := evolves.edited quiet current guarded
    have alike := steady r' (Chronicle.mem_of_current current')
    exact ⟨r', current', serving.of_edit edit alike serving.available serving.running guarded rfl
      updated.id updated.addonId updated.rules.identified,
      within.of_updated updated (edit.isProvisioning.trans steadily)
        (settled.of_status edit.status alike.generation)⟩

/-- Opening the connection changes nothing. -/
theorem Opening.harmless {res : Except Error Unit} (h : Opening r t res) :
    ∀ e ∈ t, ¬ e.call.Changes := by
  have read {p : List (Exchange secrets)} {res : Except Error String}
      (runs : (readSecret r.namespaceName r.spec.authSecret.name r.spec.authSecret.key).run.Runs p res) :
      ∀ e ∈ p.map Exchange.ofSecret, ¬ e.call.Changes := by
    intro e mem
    obtain ⟨⟨c, a⟩, asked, rfl⟩ := List.mem_map.mp mem
    have reads := only_readSecret _ _ _ _ _ runs _ asked
    cases c with
    | get => exact id
    | set => exact reads.elim
  cases h with
  | tokenless runs => exact read runs
  | connected a runs =>
    intro e mem
    rcases List.mem_append.mp mem with early | late
    · exact read runs e early
    · cases List.mem_singleton.mp late
      exact id

theorem harmless_ticks (times : List Time) : ∀ e ∈ ticks times, ¬ e.call.Changes :=
  List.forall_mem_map.mpr fun _ _ => id

/-- Where nothing is left to do, a pass is done and changes nothing. -/
theorem Updating.harmless (h : Updating delay r t res) (serving : r.Serving wanted db)
    (up : db.isRunning = true) (granted : ∀ e ∈ t, e.Granted)
    (undergoes : db.Undergoes (asked t) db') (within : r.Within 0 wanted db) :
    res = .ok .done ∧ ∀ e ∈ t, ¬ e.call.Changes := by
  obtain ⟨kept, bound⟩ := within.resolve_left (by omega)
  have off : r.isProvisioning = false := by
    cases provisioning : r.isProvisioning with
    | false => rfl
    | true =>
      rw [provisioning, Bool.toNat_true] at bound
      omega
  have settled : r.Settled := kept.settled.resolve_left (by simp [off])
  have same : ∀ x, x ∈ ranges db.firewallRules ↔ x ∈ ranges wanted.firewallRules :=
    fun x => ⟨mem_ranges_of_surplus (by omega), kept.allowed x⟩
  have valid := serving.creatable.valid
  cases h with
  | invalid invalid => cases valid.symm.trans invalid
  | closed _ opening => cases opening.ok_of_granted serving.creatable granted
  | unread _ _ provisioning | busy _ _ provisioning | arrived _ _ _ _ provisioning =>
    exact absurd (off.symm.trans provisioning) (by decide)
  | failed valid' opening _ update =>
    cases valid.symm.trans valid'
    rw [opening.asked_provided] at undergoes
    obtain ⟨_, ok, _⟩ := update_of_serving update serving up undergoes
    cases ok
  | planned time a valid' opening _ update =>
    cases valid.symm.trans valid'
    rw [opening.asked_provided_append _ rfl] at undergoes
    obtain ⟨_, ok, _, planned⟩ := update_of_serving update serving up undergoes
    cases ok
    exact absurd kept.plan (planned.mp rfl)
  | renoted now a _ _ _ _ _ differs =>
    exact absurd (differs.symm.trans (settled_iff.mp settled)) (by decide)
  | noted now valid' opening _ _ update =>
    cases valid.symm.trans valid'
    rw [opening.asked_provided_append _ rfl] at undergoes
    refine ⟨rfl, fun e mem => ?_⟩
    rcases List.mem_append.mp mem with early | mem
    · exact opening.harmless e early
    rcases List.mem_append.mp mem with asking | timed
    · obtain ⟨x, asked, rfl⟩ := List.mem_map.mp asking
      have reads := Manager.reads_update ⟨update, undergoes⟩ serving.recorded kept.plan kept.access
        same x asked
      exact fun changes => changes reads
    · exact harmless_ticks _ e timed

end Pass

/-- A pass over a resource in service is an update of it. -/
theorem PassRun.updating_of_serving (p : PassRun delay namespaceName name)
    (evolves : s.Evolves p.trace s') (current : s.current = some r) (serving : r.Serving wanted db)
    (steady : ∀ v ∈ s'.versions, r.Alike v) (granted : ∀ e ∈ p.trace, e.Granted) :
    ∃ (found : Resource) (s₁ : Chronicle) (t : List (Exchange pass)) (res : Except Error Requeue),
      p.trace = ⟨.resource (.get namespaceName name), .ok (some found)⟩ :: t ∧
      p.result = res.mapError (Error.phase "update database") ∧ Pass.Updating delay found t res ∧
      r.Edit found ∧ r.Alike found ∧ s₁.current = some found ∧ s₁.Evolves t s' := by
  rcases p.cases_of_guarded evolves current serving.prepared.guarded with
    ⟨e, trace, _⟩ | ⟨found, s₁, t, trace, course, current', edit, after⟩
  · rw [trace] at granted
    exact (granted _ List.mem_cons_self).elim
  · have alike := steady found (after.subset (Chronicle.mem_of_current current'))
    have serving' := serving.edited edit alike
    obtain ⟨res, result, updating⟩ :=
      course.updating serving'.prepared serving'.available serving'.running
    exact ⟨found, s₁, t, res, trace, result, updating, edit, alike, current', after⟩

/-- A pass that finds nothing left to do is done. -/
theorem PassRun.idle_of_within (p : PassRun delay namespaceName name)
    (evolves : s.Evolves p.trace s') (current : s.current = some r) (serving : r.Serving wanted db)
    (within : r.Within 0 wanted db) (steady : ∀ v ∈ s'.versions, r.Alike v)
    (granted : ∀ e ∈ p.trace, e.Granted)
    (undergoes : db.restarted.Undergoes (Pass.asked p.trace) db') :
    p.result = .ok .done ∧ ∀ e ∈ p.trace, ¬ e.call.Changes := by
  obtain ⟨found, s₁, t, res, trace, result, updating, edit, alike, _⟩ :=
    p.updating_of_serving evolves current serving steady granted
  rw [trace] at granted undergoes
  obtain ⟨rfl, harmless⟩ := updating.harmless (serving.edited edit alike).restarted rfl
    (fun e mem => granted e (List.mem_cons_of_mem _ mem)) undergoes
    (within.of_edit edit alike).restarted
  refine ⟨result, ?_⟩
  rw [trace]
  exact List.forall_mem_cons.mpr ⟨id, harmless⟩

/-- Each pass of a run brings the work nearer to its end. -/
theorem Settling.within {ps : List (PassRun delay namespaceName name)}
    (h : Settling delay namespaceName name s db ps s' db') (current : s.current = some r)
    (serving : r.Serving wanted db) (within : r.Within n wanted db)
    (steady : ∀ v ∈ s'.versions, r.Alike v) :
    ∃ r', s'.current = some r' ∧ r.Alike r' ∧ r'.Serving wanted db' ∧
      r'.Within (n - ps.length) wanted db' := by
  -- the versions of the whole run are alike, so those of a shorter run are
  induction h with
  | start => exact ⟨r, current, steady r (Chronicle.mem_of_current current), serving, within⟩
  | @next ps p s₁ s₂ db₁ db₂ _ evolves undergoes granted ih =>
    obtain ⟨r₁, current₁, alike₁, serving₁, within₁⟩ := ih fun v hv => steady v (evolves.subset hv)
    have steady₁ : ∀ v ∈ s₂.versions, r₁.Alike v := fun v hv => alike₁.symm.trans (steady v hv)
    obtain ⟨r₂, s₃, t, res, trace, _, updating, edit, alike₂, current₂, after⟩ :=
      p.updating_of_serving evolves current₁ serving₁ steady₁ granted
    rw [trace] at granted undergoes
    have serving₂ := (serving₁.edited edit alike₂).restarted
    have serviced := updating.serviced serving₂ rfl
      (fun e mem => granted e (List.mem_cons_of_mem _ mem)) undergoes
    obtain ⟨r₃, current₃, serving₃, within₃⟩ := serviced.step serving₂ current₂ after
      (fun v hv => alike₂.symm.trans (steady₁ v hv)) (within₁.of_edit edit alike₂).restarted
    refine ⟨r₃, current₃, steady r₃ (Chronicle.mem_of_current current₃), serving₃, ?_⟩
    rw [List.length_append, List.length_singleton, ← Nat.sub_sub]
    exact within₃

namespace PassRun

variable {p : PassRun delay namespaceName name}

/-- When the deletion is asked for, the first pass deletes the database and removes the finalizer. -/
theorem released_of_deleting (evolves : s.Evolves p.trace s') (current : s.current = some r)
    (guarded : r.hasFinalizer = true) (recorded : r.databaseId ≠ "") (creatable : r.Creatable wanted)
    (deleting : r.isDeletionRequested = true) (steady : ∀ v ∈ s'.versions, r.Alike v)
    (granted : ∀ e ∈ p.trace, e.Granted) : s'.Released := by
  rcases p.cases_of_guarded evolves current guarded with
    ⟨e, trace, _⟩ | ⟨found, s₁, t, trace, course, current', edit, after⟩
  · rw [trace] at granted
    exact (granted _ List.mem_cons_self).elim
  rw [trace] at granted
  have granted : ∀ e ∈ t, e.Granted := fun e mem => granted e (List.mem_cons_of_mem _ mem)
  have alike := steady found (after.subset (Chronicle.mem_of_current current'))
  have creatable := creatable.of_spec alike.spec alike.located
  obtain ⟨_, _, finalizing⟩ := course.finalizing (alike.deletion.trans deleting)
  cases finalizing with
  | unguarded unguarded =>
    exact absurd (guarded.symm.trans (edit.finalizer.symm.trans unguarded)) (by decide)
  | unrecorded _ _ unrecorded => exact absurd (edit.databaseId.symm.trans unrecorded) recorded
  | closed _ _ opening => cases opening.ok_of_granted creatable granted
  | refused => exact (granted _ (List.mem_append_right _ List.mem_cons_self)).elim
  | @deleted u a b _ _ opening =>
    cases b with
    | error e => exact (granted _ (List.mem_append_right _ (.tail _ (.head _)))).elim
    | ok stored =>
      have last : u ++ [⟨.provider (.deleteDatabase found.databaseId), a⟩,
          ⟨.resource (.update found.removeFinalizer), .ok stored⟩] =
          u ++ [⟨.provider (.deleteDatabase found.databaseId), a⟩] ++
            [⟨.resource (.update found.removeFinalizer), .ok stored⟩] := by simp
      rw [last] at after
      exact after.released_of_update Resource.hasFinalizer_removeFinalizer

/-- After that passes have nothing to do. -/
theorem idle_of_released (evolves : s.Evolves p.trace s') (released : s.Released)
    (deleting : ∀ v ∈ s'.versions, v.isDeletionRequested = true) (granted : ∀ e ∈ p.trace, e.Granted) :
    p.result = .ok .done ∧ (∀ e ∈ p.trace, ¬ e.call.Changes) ∧ s'.Released := by
  have passing := Pass.runs_run_iff.mp p.runs
  generalize p.trace = trace at evolves granted passing ⊢
  generalize p.result = result at passing ⊢
  cases passing with
  | unread e => exact (granted _ List.mem_cons_self).elim
  | gone =>
    obtain ⟨s₁, s₂, before, serves, after⟩ := evolves.of_cons
    obtain ⟨rfl, _⟩ := serves.of_get
    refine ⟨rfl, fun e mem => ?_, (before.append after).released Pass.quiet_nil released⟩
    cases List.mem_singleton.mp mem
    exact id
  | @found r t res course =>
    obtain ⟨s₁, s₂, before, serves, after⟩ := evolves.of_cons
    obtain ⟨rfl, told⟩ := serves.of_get
    have released₁ := before.released Pass.quiet_nil released
    have current := (told _ rfl).symm
    have bare := released₁ r current
    obtain ⟨res', rfl, finalizing⟩ :=
      course.finalizing (deleting r (after.subset (Chronicle.mem_of_current current)))
    cases finalizing with
    | unguarded =>
      refine ⟨rfl, fun e mem => ?_, after.released Pass.quiet_nil released₁⟩
      cases List.mem_singleton.mp mem
      exact id
    | unrecorded _ guarded | closed guarded | refused guarded | deleted _ _ guarded =>
      exact absurd (guarded.symm.trans bare) (by decide)

end PassRun

/-- Under deletion the first pass of a run is the last one that does anything. -/
theorem Settling.released {ps : List (PassRun delay namespaceName name)}
    (h : Settling delay namespaceName name s db ps s' db') (current : s.current = some r)
    (guarded : r.hasFinalizer = true) (recorded : r.databaseId ≠ "") (creatable : r.Creatable wanted)
    (deleting : r.isDeletionRequested = true) (steady : ∀ v ∈ s'.versions, r.Alike v) :
    (ps = [] ∧ s' = s) ∨ s'.Released := by
  induction h with
  | start => exact .inl ⟨rfl, rfl⟩
  | @next ps p s₁ s₂ _ _ _ evolves _ granted ih =>
    rcases ih fun v hv => steady v (evolves.subset hv) with ⟨rfl, rfl⟩ | released
    · exact .inr (p.released_of_deleting evolves current guarded recorded creatable deleting steady
        granted)
    · exact .inr (p.idle_of_released evolves released
        (fun v hv => (steady v hv).deletion.trans deleting) granted).2.2

variable {ps : List (PassRun delay namespaceName name)} {p : PassRun delay namespaceName name}

theorem Settling.of_concat (h : Settling delay namespaceName name s db (ps ++ [p]) s' db') :
    ∃ s₁ db₁, Settling delay namespaceName name s db ps s₁ db₁ ∧ s₁.Evolves p.trace s' ∧
      db₁.restarted.Undergoes (Pass.asked p.trace) db' ∧ ∀ e ∈ p.trace, e.Granted := by
  generalize run : ps ++ [p] = qs at h
  cases h with
  | start => simp at run
  | next before evolves undergoes granted =>
    obtain ⟨rfl, same⟩ := List.append_inj' run rfl
    cases same
    exact ⟨_, _, before, evolves, undergoes, granted⟩

/-- A run can always go on. -/
theorem Settling.exists_next (h : Settling delay namespaceName name (.start r) db ps s db')
    (serving : r.Serving wanted db) (steady : ∀ v ∈ s.versions, r.Alike v) :
    ∃ (p : PassRun delay namespaceName name) (s' : Chronicle) (db'' : Database),
      Settling delay namespaceName name (.start r) db (ps ++ [p]) s' db'' ∧
      ∀ v ∈ s'.versions, r.Alike v := by
  obtain ⟨r₁, current, alike, serving₁, _⟩ :=
    h.within rfl serving (r.within_start wanted db) steady
  obtain ⟨t, res, db'', s', unfailing, undergoes⟩ :=
    Pass.exists_updating delay serving₁.restarted rfl current
  let p : PassRun delay namespaceName name :=
    .found (.update serving₁.prepared serving₁.available serving₁.running unfailing.updating)
  refine ⟨p, s', db'', h.next (.exchange (.of_current current namespaceName name) unfailing.evolves)
    undergoes (List.forall_mem_cons.mpr ⟨trivial, unfailing.granted⟩), fun v mem => ?_⟩
  rcases unfailing.added v mem with known | alike'
  · exact steady v known
  · exact alike.trans alike'

theorem exists_settling (delay : Nat) (namespaceName name : String) (serving : r.Serving wanted db)
    (n : Nat) :
    ∃ (ps : List (PassRun delay namespaceName name)) (s : Chronicle) (db' : Database),
      Settling delay namespaceName name (.start r) db ps s db' ∧ ps.length = n ∧
      ∀ v ∈ s.versions, r.Alike v := by
  induction n with
  | zero =>
    refine ⟨[], .start r, db, .start, rfl, fun v mem => ?_⟩
    obtain rfl := List.mem_singleton.mp mem
    exact ⟨rfl, rfl, rfl, rfl⟩
  | succ n ih =>
    obtain ⟨ps, s, db', h, length, steady⟩ := ih
    obtain ⟨p, s', db'', h', steady'⟩ := h.exists_next serving steady
    exact ⟨ps ++ [p], s', db'', h', by simp [length], steady'⟩

/-- Passes in which nothing fails come to rest: with as many before it as rules share a range that is not
declared, and three more, a pass is done and changes nothing. -/
theorem settled_after (guarded : r.hasFinalizer = true) (available : r.isAvailable = true)
    (running : r.isRunning = true) (creatable : r.Creatable wanted) (recorded : r.databaseId = db.id)
    (named : db.id ≠ "") (addressed : db.addonId ≠ "") (identified : Identified db.firewallRules)
    (h : Settling delay namespaceName name (.start r) db (ps ++ [p]) s db')
    (steady : ∀ v ∈ s.versions, r.Alike v)
    (long : surplus wanted.firewallRules db.firewallRules + 3 ≤ ps.length) :
    p.result = .ok .done ∧ ∀ e ∈ p.trace, ¬ e.call.Changes := by
  obtain ⟨s₁, db₁, before, evolves, undergoes, granted⟩ := h.of_concat
  have earlier : ∀ v ∈ s₁.versions, r.Alike v := fun v hv => steady v (evolves.subset hv)
  cases deletion : r.isDeletionRequested with
  | true =>
    rcases before.released rfl guarded (recorded ▸ named) creatable deletion earlier with
      ⟨rfl, _⟩ | released
    · simp at long
    · obtain ⟨done, harmless, _⟩ := p.idle_of_released evolves released
        (fun v hv => (steady v hv).deletion.trans deletion) granted
      exact ⟨done, harmless⟩
  | false =>
    have serving : r.Serving wanted db :=
      ⟨Resource.prepared_of_running deletion guarded available running, available, running,
        creatable, recorded, named, addressed, identified⟩
    obtain ⟨r₁, current₁, alike₁, serving₁, within₁⟩ :=
      before.within rfl serving (r.within_start wanted db) earlier
    rw [Nat.sub_eq_zero_of_le long] at within₁
    exact p.idle_of_within evolves current₁ serving₁ within₁
      (fun v hv => alike₁.symm.trans (steady v hv)) granted undergoes

/-- A change of plan and two rules that share a range take no more than five passes. -/
theorem settled_after_standing :
    ∃ (ps : List (PassRun 30000 "prod" "db")) (p : PassRun 30000 "prod" "db") (s : Chronicle)
      (db' : Database), Settling 30000 "prod" "db" (.start standing)
        (standingDatabase "postgresql-sandbox" openRules) (ps ++ [p]) s db' ∧
      ps.length = 5 ∧ p.result = .ok .done ∧ ∀ e ∈ p.trace, ¬ e.call.Changes := by
  obtain ⟨wanted, _, none, serving⟩ :=
    exists_serving_standing "postgresql-sandbox" identified_openRules
  obtain ⟨ps, s, db', h, length, steady⟩ := exists_settling 30000 "prod" "db" serving 5
  obtain ⟨p, s', db'', h', steady'⟩ := h.exists_next serving steady
  have long : surplus wanted.firewallRules openRules + 3 ≤ ps.length := by
    rw [none, length]
    decide
  exact ⟨ps, p, s', db'', h', length, settled_after serving.prepared.guarded serving.available
    serving.running serving.creatable serving.recorded serving.named serving.addressed
    serving.identified h' steady' long⟩

end DatabaseOperator
