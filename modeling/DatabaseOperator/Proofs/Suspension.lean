import DatabaseOperator.Proofs.Guards
import DatabaseOperator.Proofs.Settling

namespace DatabaseOperator

variable {delay : Nat} {namespaceName name : String} {r r' : Resource} {s s' : Chronicle}
  {t : List (Exchange pass)} {res : Except Error Requeue} {wanted db : Database}

namespace PassRun

variable {p q : PassRun delay namespaceName name}

/-- The provider accepted a change of plan. -/
def Plans (p : PassRun delay namespaceName name) : Prop :=
  ∃ target, (⟨.provider (.updateDatabasePlan target), .ok ()⟩ : Exchange pass) ∈ p.trace

/-- A write of the status was answered. -/
def Notes (p : PassRun delay namespaceName name) : Prop :=
  ∃ w stored, (⟨.resource (.updateStatus w), .ok stored⟩ : Exchange pass) ∈ p.trace

/-- The provider said that a database runs. -/
def SeesRunning (p : PassRun delay namespaceName name) : Prop :=
  ∃ id db, (⟨.provider (.getDatabase id), .ok db⟩ : Exchange pass) ∈ p.trace ∧ db.isRunning = true

/-- Nothing is changed at the provider, and there is something left to do. -/
structure Waits (p : PassRun delay namespaceName name) : Prop where
  reads : ∀ c, p.Asks (.provider c) → c.Reads
  undone : p.result ≠ .ok .done

end PassRun

namespace Pass

/-- While the conditions say that a change is in flight, an update that is not told otherwise only reads
and writes nothing. -/
theorem Updating.waiting (h : Updating delay r t res) (provisioning : r.isProvisioning = true)
    (blind : ∀ id db, (⟨.provider (.getDatabase id), .ok db⟩ : Exchange pass) ∈ t →
      db.isRunning = false) :
    Quiet t ∧ (∀ e ∈ asked t, e.call.Reads) ∧ res ≠ .ok .done := by
  cases h with
  | invalid => exact ⟨quiet_nil, (fun _ mem => nomatch mem), nofun⟩
  | closed _ opening =>
    refine ⟨opening.quiet, fun e mem => ?_, nofun⟩
    rw [opening.asked_eq] at mem
    cases mem
  | unread _ opening _ read | busy _ opening _ read =>
    refine ⟨opening.quiet.append (quiet_ofProvider _), ?_, nofun⟩
    rw [opening.asked_provided]
    exact Manager.reads_get _ _ read
  | @arrived _ db _ _ now a _ opening _ read up =>
    obtain ⟨seen, mem, status⟩ := Manager.seen_of_get read
    have resting := blind _ seen (List.mem_append_right _ (List.mem_append_left _
      (List.mem_map.mpr ⟨_, mem, rfl⟩)))
    unfold Database.isRunning at up resting
    rw [status] at resting
    exact absurd (up.symm.trans resting) (by decide)
  | failed _ _ steady | planned _ _ _ _ steady | noted _ _ _ steady | renoted _ _ _ _ steady =>
    exact absurd (provisioning.symm.trans steady) (by decide)

/-- An update that had a change of plan accepted notes it last, if it can. -/
theorem Updating.noted_of_accepted (h : Updating delay r t res)
    (accepted : Manager.Accepts (asked t)) :
    r.databaseId ≠ "" ∧ ∃ (u : List (Exchange pass)) (time : Time) (a : Except StoreError Resource),
      Quiet u ∧ t = u ++ [⟨.resource (.updateStatus (r.setProvisioning time).1), a⟩] := by
  have unread {p : List (Exchange provider)} {res' : Except Error Database}
      (read : (Manager.get r.databaseId).run.Runs p res') : ¬ Manager.Accepts p :=
    fun ⟨_, mem⟩ => Manager.reads_get _ _ read _ mem
  cases h with
  | invalid => cases accepted.choose_spec
  | closed _ opening =>
    rw [opening.asked_eq] at accepted
    cases accepted.choose_spec
  | unread _ opening _ read | busy _ opening _ read =>
    rw [opening.asked_provided] at accepted
    exact absurd accepted (unread read)
  | arrived _ _ _ opening _ read =>
    rw [opening.asked_provided_append _ rfl] at accepted
    exact absurd accepted (unread read)
  | failed _ opening _ update =>
    rw [opening.asked_provided] at accepted
    cases (Manager.update_ok_provisioning_iff update).mpr accepted
  | noted _ _ opening _ other update | renoted _ _ _ opening _ other update =>
    rw [opening.asked_provided_append _ rfl] at accepted
    cases (Manager.update_ok_provisioning_iff update).mpr accepted
    exact absurd rfl other
  | planned time a _ opening _ update =>
    rw [opening.asked_provided_append _ rfl] at accepted
    refine ⟨fun unnamed => ?_, _, time, a, opening.quiet_timed _ [time], append_timed _ _ _ _⟩
    rw [unnamed] at update
    rw [Manager.unasked_of_unnamed update] at accepted
    cases accepted.choose_spec

end Pass

namespace PassRun

variable {p : PassRun delay namespaceName name}

/-- A pass waits while the conditions say that a change is in flight, and they stay. -/
theorem waits (q : PassRun delay namespaceName name) (evolves : s.Evolves q.trace s')
    (current : s.current = some r) (guarded : r.hasFinalizer = true)
    (available : r.isAvailable = true) (running : r.isRunning = true)
    (provisioning : r.isProvisioning = true)
    (wanted : ∀ v ∈ s'.versions, v.isDeletionRequested = false) (blind : ¬ q.SeesRunning) :
    q.Waits ∧ ∃ r', s'.current = some r' ∧ r.Edit r' := by
  rcases q.cases_of_guarded evolves current guarded with
    ⟨e, trace, result, edits⟩ | ⟨found, s₁, t, trace, course, current', edit, after⟩
  · refine ⟨⟨?_, ?_⟩, edits.edited Pass.quiet_nil current guarded⟩
    · rintro c ⟨x, mem, asked⟩
      rw [trace] at mem
      cases List.mem_singleton.mp mem
      cases asked
    · rw [result]
      exact nofun
  have guarded' := edit.finalizer.trans guarded
  have available' := edit.isAvailable.trans available
  have running' := edit.isRunning.trans running
  have prepared := Resource.prepared_of_running
    (wanted found (after.subset (Chronicle.mem_of_current current'))) guarded' available' running'
  obtain ⟨res, result, updating⟩ := course.updating prepared available' running'
  obtain ⟨quiet, reads, undone⟩ := updating.waiting (edit.isProvisioning.trans provisioning)
    fun id db mem => by
      rw [Bool.eq_false_iff]
      intro up
      exact blind ⟨id, db, trace ▸ .tail _ mem, up⟩
  obtain ⟨r', current'', edit'⟩ := after.edited quiet current' guarded'
  refine ⟨⟨?_, ?_⟩, r', current'', edit.trans edit'⟩
  · rintro c ⟨⟨_, a⟩, mem, rfl⟩
    rw [trace] at mem
    rcases List.mem_cons.mp mem with first | mem
    · cases first
    · exact reads _ (Pass.mem_asked_iff.mpr mem)
  · rw [result]
    cases res with
    | error e => exact nofun
    | ok next =>
      intro done
      cases done
      exact undone rfl

/-- What is stored after a pass that had a change of plan accepted. -/
theorem noted_of_plans (plans : p.Plans) (evolves : s.Evolves p.trace s') (forward : s.Forward)
    (known : r ∈ s.versions) (available : r.isAvailable = true) (running : r.isRunning = true)
    (wanted : ∀ v ∈ s'.versions, v.isDeletionRequested = false) (current : s'.current = some r') :
    r'.hasFinalizer = true ∧ r'.databaseId ≠ "" ∧ (p.Notes → r'.isProvisioning = true) := by
  obtain ⟨target, accepted⟩ := plans
  rcases p.cases_of_evolves evolves with
    ⟨a, trace, _⟩ | ⟨found, s₁, t, trace, course, edits, current₁, after⟩
  · rw [trace] at accepted
    cases List.mem_singleton.mp accepted
  rw [trace] at accepted
  have accepted := (List.mem_cons.mp accepted).resolve_left nofun
  have precedes := (edits.moves_of_edits.forward forward).precedes current₁ r (edits.subset known)
  have found_mem := Chronicle.mem_of_current current₁
  have guarded : found.hasFinalizer = true := course.guarded accepted trivial
  have prepared := Resource.prepared_of_running (wanted found (after.subset found_mem)) guarded
    (precedes.available available) (precedes.running running)
  obtain ⟨res, _, updating⟩ :=
    course.updating prepared (precedes.available available) (precedes.running running)
  obtain ⟨named, u, time, a, quiet, rfl⟩ :=
    updating.noted_of_accepted ⟨target, Pass.mem_asked_iff.mpr accepted⟩
  have moves := after.moves found_mem course.allowed
  obtain ⟨_, current₂, guarded'⟩ := moves.guarded current₁ guarded wanted
  obtain rfl := Option.some.inj (current₂.symm.trans current)
  have recorded := ((moves.forward (edits.moves_of_edits.forward forward)).precedes current found
    (after.subset found_mem)).recorded named
  refine ⟨guarded', recorded ▸ named, ?_⟩
  rintro ⟨w, stored, written⟩
  rw [trace] at written
  have written := quiet.mem_of_append ((List.mem_cons.mp written).resolve_left nofun)
  cases List.mem_singleton.mp written
  obtain ⟨_, current₃, edit⟩ := after.written current₁ rfl rfl guarded
  obtain rfl := Option.some.inj (current₃.symm.trans current)
  exact edit.isProvisioning.trans Resource.isProvisioning_setProvisioning

end PassRun

/-- So do passes one after the other. -/
theorem History.waits {qs : List (PassRun delay namespaceName name)}
    (h : History delay namespaceName name s qs s') (current : s.current = some r)
    (guarded : r.hasFinalizer = true) (available : r.isAvailable = true)
    (running : r.isRunning = true) (provisioning : r.isProvisioning = true)
    (wanted : ∀ v ∈ s'.versions, v.isDeletionRequested = false) (blind : ∀ q ∈ qs, ¬ q.SeesRunning) :
    (∀ q ∈ qs, q.Waits) ∧ ∃ r', s'.current = some r' ∧ r.Edit r' := by
  induction h with
  | start => exact ⟨fun _ mem => (nomatch mem), r, current, .refl r⟩
  | @next ps p s₁ s₂ _ evolves ih =>
    obtain ⟨waits, r₁, current₁, edit⟩ := ih (fun v mem => wanted v (evolves.subset mem))
      fun q mem => blind q (List.mem_append_left _ mem)
    obtain ⟨last, r₂, current₂, edit'⟩ := p.waits evolves current₁ (edit.finalizer.trans guarded)
      (edit.isAvailable.trans available) (edit.isRunning.trans running)
      (edit.isProvisioning.trans provisioning) wanted
      (blind p (List.mem_append_right _ List.mem_cons_self))
    refine ⟨fun q mem => ?_, r₂, current₂, edit.trans edit'⟩
    rcases List.mem_append.mp mem with early | late
    · exact waits q early
    · cases List.mem_singleton.mp late
      exact last

/-- Without the condition a pass can be done while the provider says that the database does not run
yet. -/
theorem Pass.exists_unaware (delay : Nat) (creatable : r.Creatable wanted) (prepared : r.Prepared)
    (running : r.isRunning = true) (steadily : r.isProvisioning = false) (named : r.databaseId ≠ "")
    (current : s.current = some r) :
    ∃ t s', Pass.Unfailing delay s r t (.ok .done) s' ∧
      ∀ id db, (⟨.provider (.getDatabase id), .ok db⟩ : Exchange pass) ∈ t →
        db.isRunning = false := by
  -- all that is declared is in flight already, so there is nothing to change
  let seen : Database := { wanted with addonId := "addon-1", status := .provisioning }
  have addressed : seen.addonId ≠ "" := show "addon-1" ≠ "" by decide
  have update := Manager.runs_update_of_kept
    (Manager.runs_get wanted.firewallRules named addressed) rfl rfl fun _ => Iff.rfl
  have answered : ∀ e ∈ ([⟨.getDatabase r.databaseId, .ok seen⟩,
      ⟨.listFirewallRules seen.id seen.addonId, .ok wanted.firewallRules⟩] :
      List (Exchange provider)), e.Answered := by
    simp [Exchange.Answered]
  obtain ⟨u, opening, granted⟩ := Pass.exists_granted_opening creatable
  obtain ⟨t, s', unfailing, asked⟩ := Pass.exists_done delay opening granted answered current
    prepared running creatable.valid steadily (by decide) update
  refine ⟨t, s', unfailing, fun id db mem => ?_⟩
  have mem := Pass.mem_asked_iff.mpr mem
  rw [asked] at mem
  simp only [List.mem_cons, List.not_mem_nil, or_false] at mem
  rcases mem with same | other
  · cases same
    rfl
  · cases other

/-- So there can be a pass that does not wait, once the declaration is valid. -/
theorem exists_hasty (delay : Nat) (namespaceName name : String) (current : s.current = some r)
    (prepared : r.Prepared) (available : r.isAvailable = true) (running : r.isRunning = true)
    (steadily : r.isProvisioning = false) (named : r.databaseId ≠ "") (located : r.namespaceName ≠ "")
    (wanted : ∀ v ∈ s.versions, v.isDeletionRequested = false) :
    ∃ (q : PassRun delay namespaceName name) (s' : Chronicle),
      History delay namespaceName name s [q] s' ∧
      (∀ v ∈ s'.versions, v.isDeletionRequested = false) ∧ ¬ q.SeesRunning ∧ ¬ q.Waits := by
  obtain ⟨v, unused⟩ := s.exists_unused
  obtain ⟨target, sampled⟩ := creatable_sample
  let declared : Resource := { r with spec := sample.spec }
  let stored : Resource := declared.renumbered v
  have edit : r.Edit declared := ⟨rfl, rfl, rfl, id⟩
  have current' : (s.put declared v unused).current = some stored := s.current_put prepared.wanted
  have prepared' : stored.Prepared :=
    ⟨prepared.wanted, prepared.guarded, prepared.initialized, prepared.flagged⟩
  have creatable : stored.Creatable target :=
    ⟨sampled.valid, located, sampled.secretNamed, sampled.keyNamed⟩
  obtain ⟨t, s', unfailing, blind⟩ :=
    Pass.exists_unaware delay creatable prepared' running steadily named current'
  let q : PassRun delay namespaceName name :=
    .found (.update prepared' available running unfailing.updating)
  refine ⟨q, s', .next .start (.edit v unused current edit
    (.exchange (.of_current current' namespaceName name) unfailing.evolves)), ?_, ?_, ?_⟩
  · intro x mem
    rcases unfailing.added x mem with known | alike
    · rcases List.mem_cons.mp known with rfl | known
      · exact prepared.wanted
      · exact wanted x known
    · exact alike.deletion.trans prepared.wanted
  · rintro ⟨id, db, mem, up⟩
    have resting := blind id db ((List.mem_cons.mp mem).resolve_left nofun)
    exact absurd (up.symm.trans resting) (by decide)
  · exact fun waits => waits.undone rfl

/-- After a change of plan was accepted the later passes wait until they are told that the database runs,
exactly when the condition that says so is stored. It is whenever the pass had its status written. -/
theorem PassRun.suspends_iff {ps : List (PassRun delay namespaceName name)}
    {p : PassRun delay namespaceName name} (available : r.isAvailable = true)
    (running : r.isRunning = true)
    (h : History delay namespaceName name (.start r) (ps ++ [p]) s) (plans : p.Plans)
    (wanted : ∀ v ∈ s.versions, v.isDeletionRequested = false) (current : s.current = some r')
    (located : r'.namespaceName ≠ "") :
    (p.Notes → r'.isProvisioning = true) ∧
      ((∀ (qs : List (PassRun delay namespaceName name)) (s' : Chronicle),
          History delay namespaceName name s qs s' →
          (∀ v ∈ s'.versions, v.isDeletionRequested = false) → (∀ q ∈ qs, ¬ q.SeesRunning) →
          ∀ q ∈ qs, q.Waits) ↔
        r'.isProvisioning = true) := by
  obtain ⟨s₁, before, evolves⟩ := h.of_concat
  have forward := before.moves.forward (Chronicle.forward_start r)
  have known : r ∈ s₁.versions := before.moves.subset (List.mem_singleton.mpr rfl)
  obtain ⟨guarded, named, noted⟩ :=
    noted_of_plans plans evolves forward known available running wanted current
  have precedes := ((p.moves evolves).forward forward).precedes current r (evolves.subset known)
  have available' := precedes.available available
  have running' := precedes.running running
  refine ⟨noted, fun suspended => ?_, fun provisioning qs s' later wanted' blind =>
    (later.waits current guarded available' running' provisioning wanted' blind).1⟩
  by_contra steadily
  have prepared := Resource.prepared_of_running (wanted r' (Chronicle.mem_of_current current))
    guarded available' running'
  obtain ⟨q, s', later, wanted', blind, hasty⟩ := exists_hasty delay namespaceName name current
    prepared available' running' (Bool.eq_false_iff.mpr steadily) named located wanted
  refine hasty (suspended [q] s' later wanted' (fun x mem => ?_) q List.mem_cons_self)
  cases List.mem_singleton.mp mem
  exact blind

/-- A pass over a resource in service whose declared plan is another one, with every answer to its
write. -/
theorem exists_planning (delay : Nat) (serving : r.Serving wanted db) (up : db.isRunning = true)
    (steadily : r.isProvisioning = false) (differs : db.plan ≠ wanted.plan) :
    ∃ (u : List (Exchange pass)) (time : Time), Pass.Quiet u ∧ Manager.Accepts (Pass.asked u) ∧
      ∀ a, Pass.Updating delay r
        (u ++ [⟨.resource (.updateStatus (r.setProvisioning time).1), a⟩])
        (Pass.ended "update status" (.after delay) a) := by
  obtain ⟨t, opening, _⟩ := Pass.exists_granted_opening serving.creatable
  obtain ⟨p, res, db', update, undergoes, _⟩ :=
    db.exists_undergoes (Manager.update r.databaseId wanted).run
  obtain ⟨outcome, rfl, _, planned⟩ := Pass.update_of_serving update serving up undergoes
  cases planned.mpr differs
  refine ⟨_, .epoch, opening.quiet_timed p [.epoch], ?_, fun a => ?_⟩
  · rw [opening.asked_provided_append p rfl]
    exact (Manager.update_ok_provisioning_iff update).mp rfl
  · rw [← Pass.append_timed]
    exact .planned .epoch a serving.creatable.valid opening steadily update

/-- A change of plan of a resource that runs, with every answer to the write that notes it. -/
theorem exists_planning_standing (delay : Nat) (namespaceName name : String) :
    ∃ (u : List (Exchange pass)) (time : Time), Pass.Quiet u ∧ ∀ a,
      ∃ p : PassRun delay namespaceName name, p.Plans ∧
        p.trace = ⟨.resource (.get namespaceName name), .ok (some standing)⟩ ::
          (u ++ [⟨.resource (.updateStatus (standing.setProvisioning time).1), a⟩]) := by
  obtain ⟨wanted, plan, _, serving⟩ :=
    exists_serving_standing "postgresql-sandbox" identified_openRules
  obtain ⟨u, time, quiet, ⟨target, accepted⟩, updating⟩ := exists_planning delay serving rfl
    isProvisioning_standing (by rw [plan]; decide)
  refine ⟨u, time, quiet, fun a => ⟨.found (.update serving.prepared serving.available
    serving.running (updating a)), ⟨target, ?_⟩, rfl⟩⟩
  exact .tail _ (List.mem_append_left _ (Pass.mem_asked_iff.mp accepted))

theorem wanted_start_standing : ∀ v ∈ (Chronicle.start standing).versions,
    v.isDeletionRequested = false := by
  intro v mem
  cases List.mem_singleton.mp mem
  exact prepared_standing.wanted

/-- When the write of the condition fails, the next pass can be done while the change is in flight. -/
theorem not_always_suspended :
    ¬ ∀ (delay : Nat) (namespaceName name : String) (r : Resource) (s s' : Chronicle)
      (ps qs : List (PassRun delay namespaceName name)) (p : PassRun delay namespaceName name),
      r.isAvailable = true → r.isRunning = true →
      History delay namespaceName name (.start r) (ps ++ [p]) s → p.Plans →
      History delay namespaceName name s qs s' →
      (∀ v ∈ s'.versions, v.isDeletionRequested = false) → (∀ q ∈ qs, ¬ q.SeesRunning) →
      ∀ q ∈ qs, q.Waits := by
  intro always
  obtain ⟨u, time, quiet, planning⟩ := exists_planning_standing 30000 "prod" "db"
  obtain ⟨p, plans, trace⟩ := planning (.error (.conflict "db"))
  have evolves : (Chronicle.start standing).Evolves p.trace (.start standing) := by
    rw [trace]
    exact .exchange (.of_current rfl "prod" "db")
      ((Chronicle.Evolves.of_quiet quiet).append (.exchange (.failed _ _) (.rest _)))
  obtain ⟨q, s', later, wanted, blind, hasty⟩ := exists_hasty 30000 "prod" "db"
    (s := .start standing) rfl prepared_standing isAvailable_standing isRunning_standing
    isProvisioning_standing (by rw [databaseId_standing]; decide) (by decide) wanted_start_standing
  refine hasty (always 30000 "prod" "db" standing (.start standing) s' [] [q] p isAvailable_standing
    isRunning_standing (.next .start evolves) plans later wanted (fun x mem => ?_) q
    List.mem_cons_self)
  cases List.mem_singleton.mp mem
  exact blind

theorem PassRun.suspends_iff_standing :
    ∃ (p : PassRun 30000 "prod" "db") (s : Chronicle),
      History 30000 "prod" "db" (.start standing) ([] ++ [p]) s ∧ p.Plans ∧ p.Notes ∧
      ∀ (qs : List (PassRun 30000 "prod" "db")) (s' : Chronicle), History 30000 "prod" "db" s qs s' →
        (∀ v ∈ s'.versions, v.isDeletionRequested = false) → (∀ q ∈ qs, ¬ q.SeesRunning) →
        ∀ q ∈ qs, q.Waits := by
  obtain ⟨u, time, quiet, planning⟩ := exists_planning_standing 30000 "prod" "db"
  obtain ⟨v, unused⟩ := (Chronicle.start standing).exists_unused
  let w := (standing.setProvisioning time).1
  obtain ⟨p, plans, trace⟩ := planning (.ok (w.renumbered v))
  let s := (Chronicle.start standing).put w v unused
  have evolves : (Chronicle.start standing).Evolves p.trace s := by
    rw [trace]
    exact .exchange (.of_current rfl "prod" "db") ((Chronicle.Evolves.of_quiet quiet).append
      (.of_updateStatus rfl unused (.plan time prepared_standing isAvailable_standing
        isRunning_standing) rfl rfl))
  have history : History 30000 "prod" "db" (.start standing) ([] ++ [p]) s := .next .start evolves
  have notes : p.Notes := by
    refine ⟨w, w.renumbered v, ?_⟩
    rw [trace]
    exact .tail _ (List.mem_append_right _ List.mem_cons_self)
  have current : s.current = some (w.renumbered v) := Chronicle.current_put prepared_standing.wanted
  have wanted : ∀ x ∈ s.versions, x.isDeletionRequested = false := by
    intro x mem
    rcases List.mem_cons.mp mem with rfl | known
    · exact prepared_standing.wanted
    · exact wanted_start_standing x known
  obtain ⟨noted, suspended⟩ := PassRun.suspends_iff isAvailable_standing isRunning_standing history
    plans wanted current (show sample.namespaceName ≠ "" by decide)
  exact ⟨p, s, history, plans, notes, suspended.mpr (noted notes)⟩

end DatabaseOperator
