import DatabaseOperator.Proofs.Pass.Service

namespace DatabaseOperator

namespace Resource

variable {r : Resource} {now : Times}

/-- What is still to be brought into place by passes that ask for the next one at once. -/
def haste (r : Resource) : Nat :=
  (!r.hasFinalizer).toNat + (!r.isInitialized).toNat + r.runningFlag?.isNone.toNat +
    (r.isAvailable && r.isRunning && r.isProvisioning).toNat

/-- A change of plan can only be awaited where the conditions and the flag are in place. -/
theorem haste_le (r : Resource) : r.haste ≤ 3 := by
  have finalizer := Bool.toNat_le (!r.hasFinalizer)
  have initialized := Bool.toNat_le (!r.isInitialized)
  have flag := Bool.toNat_le r.runningFlag?.isNone
  unfold haste
  cases moving : r.isAvailable && r.isRunning && r.isProvisioning with
  | false =>
    rw [Bool.toNat_false]
    omega
  | true =>
    obtain ⟨⟨available, running⟩, _⟩ : (r.isAvailable = true ∧ r.isRunning = true) ∧
        r.isProvisioning = true := by simpa using moving
    rw [isInitialized_of_available available, Bool.toNat_true]
    simp only [Bool.not_true, Bool.toNat_false]
    omega

theorem haste_withFinalizer (unguarded : r.hasFinalizer = false) :
    r.withFinalizer.haste + 1 = r.haste := by
  have initialized : r.withFinalizer.isInitialized = r.isInitialized := rfl
  have flag : r.withFinalizer.runningFlag? = r.runningFlag? := rfl
  have moving : (r.withFinalizer.isAvailable && r.withFinalizer.isRunning &&
      r.withFinalizer.isProvisioning) = (r.isAvailable && r.isRunning && r.isProvisioning) := rfl
  unfold haste
  rw [hasFinalizer_withFinalizer, unguarded, initialized, flag, moving]
  simp only [Bool.not_true, Bool.not_false, Bool.toNat_false, Bool.toNat_true]
  omega

theorem haste_setInitial (uninitialized : r.isInitialized = false) :
    (r.setInitial now).1.haste + 1 = r.haste := by
  have unavailable : r.isAvailable = false := by
    cases available : r.isAvailable with
    | false => rfl
    | true => exact absurd (uninitialized.symm.trans (isInitialized_of_available available)) (by decide)
  have guarded : (r.setInitial now).1.hasFinalizer = r.hasFinalizer := rfl
  have flag : (r.setInitial now).1.runningFlag? = r.runningFlag? := rfl
  unfold haste
  rw [isInitialized_setInitial, uninitialized, guarded, flag, isAvailable_setInitial, unavailable]
  simp only [Bool.not_true, Bool.not_false, Bool.toNat_false, Bool.toNat_true, Bool.false_and]
  omega

theorem haste_setRunningFlag (unflagged : r.runningFlag? = none) :
    (r.setRunningFlag false).haste + 1 = r.haste := by
  have resting : r.isRunning = false := by
    rw [isRunning, unflagged]
    rfl
  have guarded : (r.setRunningFlag false).hasFinalizer = r.hasFinalizer := rfl
  have initialized : (r.setRunningFlag false).isInitialized = r.isInitialized := rfl
  unfold haste
  rw [runningFlag?_setRunningFlag, unflagged, guarded, initialized, isRunning_setRunningFlag, resting]
  simp only [Option.isNone_none, Option.isNone_some, Bool.toNat_false, Bool.toNat_true,
    Bool.and_false, Bool.false_and]

theorem haste_setProvisioned (available : r.isAvailable = true) (running : r.isRunning = true)
    (provisioning : r.isProvisioning = true) : (r.setProvisioned now).1.haste + 1 = r.haste := by
  have guarded : (r.setProvisioned now).1.hasFinalizer = r.hasFinalizer := rfl
  have flag : (r.setProvisioned now).1.runningFlag? = r.runningFlag? := rfl
  unfold haste
  rw [isInitialized_setProvisioned, isInitialized_of_available available, guarded, flag,
    isProvisioning_setProvisioned, available, running, provisioning]
  simp only [Bool.and_false, Bool.and_true, Bool.toNat_false, Bool.toNat_true]

@[simp]
theorem haste_renumbered (v : Option String) : (r.renumbered v).haste = r.haste := rfl

end Resource

namespace Pass

variable {delay : Nat} {r w stored : Resource} {t : List (Exchange pass)} {db : Database}
  {e : Exchange pass}

theorem ended_eq_now {action : String} {next : Requeue} {a : Except StoreError Resource}
    (h : ended action next a = .ok .now) : next = .now ∧ ∃ stored, a = .ok stored := by
  cases a with
  | error f => cases h
  | ok stored =>
    cases h
    exact ⟨rfl, stored, rfl⟩

theorem ok_of_phase {action : String} {res : Except Error Requeue} {next : Requeue}
    (h : res.mapError (Error.phase action) = .ok next) : res = .ok next := by
  cases res with
  | error e => cases h
  | ok x =>
    cases h
    rfl

theorem Finalizing.not_now : ¬ Finalizing r t (.ok .now) := by
  intro h
  generalize eq : (Except.ok Requeue.now : Except Error Requeue) = res at h
  cases h with
  | unguarded | closed | refused => cases eq
  | unrecorded a | deleted _ a => cases (ended_eq_now eq.symm).1

theorem Creating.not_now : ¬ Creating delay r t (.ok .now) := by
  intro h
  generalize eq : (Except.ok Requeue.now : Except Error Requeue) = res at h
  cases h with
  | invalid | closed | refused | nameless => cases eq
  | created => cases (ended_eq_now eq.symm).1

theorem HandingOver.not_now : ¬ HandingOver r db t (.ok .now) := by
  intro h
  generalize eq : (Except.ok Requeue.now : Except Error Requeue) = res at h
  cases h with
  | unnamed | unsaved => cases eq
  | saved => cases (ended_eq_now eq.symm).1

theorem Awaiting.not_now : ¬ Awaiting delay r t (.ok .now) := by
  intro h
  generalize eq : (Except.ok Requeue.now : Except Error Requeue) = res at h
  cases h with
  | closed | unread | early | unnoted => cases eq
  | noted _ _ _ _ _ handing | renoted _ _ _ _ _ _ handing => exact (eq ▸ handing).not_now

/-- A write of a new version, and what the store says that it keeps. -/
inductive Storing (r w stored : Resource) : Exchange pass → Prop
  | update : w.status = r.status → Storing r w stored ⟨.resource (.update w), .ok stored⟩
  | updateStatus : w.metadata = r.metadata → w.spec = r.spec →
      Storing r w stored ⟨.resource (.updateStatus w), .ok stored⟩

/-- What a step does that asks for the next pass at once: it ends with the only write, and that brings
something into place. -/
structure Hurrying (r w stored : Resource) (t : List (Exchange pass)) : Prop where
  wanted : r.isDeletionRequested = false
  change : r.Change w
  haste : w.haste + 1 = r.haste
  writes : ∃ u e, t = u ++ [e] ∧ Quiet u ∧ Storing r w stored e

theorem Course.of_now (h : Course delay r t (.ok .now)) : ∃ w stored, Hurrying r w stored t := by
  generalize eq : (Except.ok Requeue.now : Except Error Requeue) = res at h
  cases h with
  | finalize _ h => exact absurd (ok_of_phase eq.symm ▸ h) Finalizing.not_now
  | create _ _ _ h => exact absurd (ok_of_phase eq.symm ▸ h) Creating.not_now
  | await _ _ _ h => exact absurd (ok_of_phase eq.symm ▸ h) Awaiting.not_now
  | mark a wanted unguarded =>
    obtain ⟨_, stored, rfl⟩ := ended_eq_now eq.symm
    exact ⟨_, stored, wanted, .mark wanted unguarded, Resource.haste_withFinalizer unguarded,
      [], _, rfl, quiet_nil, .update rfl⟩
  | init now a wanted guarded uninitialized =>
    obtain ⟨_, stored, rfl⟩ := ended_eq_now eq.symm
    exact ⟨_, stored, wanted, .init now guarded uninitialized,
      Resource.haste_setInitial uninitialized, _, _, rfl, quiet_ticks _, .updateStatus rfl rfl⟩
  | flag a wanted guarded initialized unflagged =>
    obtain ⟨_, stored, rfl⟩ := ended_eq_now eq.symm
    exact ⟨_, stored, wanted, .flag guarded initialized unflagged,
      Resource.haste_setRunningFlag unflagged, [], _, rfl, quiet_nil, .update rfl⟩
  | update prepared available running h =>
    have eq := ok_of_phase eq.symm
    cases h with
    | invalid | closed | unread | busy | failed | noted => cases eq
    | planned | renoted => cases (ended_eq_now eq).1
    | @arrived _ _ t p now a _ opening provisioning =>
      obtain ⟨_, stored, rfl⟩ := ended_eq_now eq
      exact ⟨_, stored, prepared.wanted, .provision now prepared (.inr running),
        Resource.haste_setProvisioned available running provisioning, _, _, append_timed t _ p now.toList,
        opening.quiet_timed p now.toList, .updateStatus rfl rfl⟩

end Pass

namespace Chronicle

variable {s s' s'' : Chronicle} {r w stored : Resource} {t u : List (Exchange pass)} {e : Exchange pass}

/-- The outside answers these calls in this order, and nobody else changes the resource. -/
inductive Replies : Chronicle → List (Exchange pass) → Chronicle → Prop
  | rest (s : Chronicle) : Replies s [] s
  | call {s s' s'' : Chronicle} {e : Exchange pass} {t : List (Exchange pass)} : Serves s e s' →
      Replies s' t s'' → Replies s (e :: t) s''

theorem Replies.of_quiet_append (h : s.Replies (t ++ u) s') (quiet : Pass.Quiet t) :
    s.Replies u s' := by
  induction t with
  | nil => exact h
  | cons e t ih =>
    cases h with
    | call serves after =>
      rw [serves.eq_of_quiet (quiet e List.mem_cons_self)] at after
      exact ih after fun x mem => quiet x (.tail _ mem)

/-- A write of the stored version that is answered is stored, under a new number. -/
theorem Serves.of_storing (h : s.Serves e s') (current : s.current = some r)
    (storing : Pass.Storing r w stored e) (undeleted : w.isDeletionRequested = false) :
    ∃ v, stored = w.renumbered v ∧ s'.current = some stored := by
  cases storing with
  | update status =>
    cases h with
    | @updated old _ _ v unused known _ tells =>
      obtain rfl : r = old := Option.some.inj (current.symm.trans known)
      have merged : { r with metadata := w.metadata, spec := w.spec } = w := by
        rw [← status]
      rw [merged] at tells ⊢
      exact ⟨v, tells stored rfl, tells stored rfl ▸ s.current_put undeleted⟩
    | other _ other => exact absurd rfl (other _)
  | updateStatus metadata spec =>
    cases h with
    | @statusUpdated old _ _ v unused known _ tells =>
      obtain rfl : r = old := Option.some.inj (current.symm.trans known)
      have merged : { r with status := w.status } = w := by
        rw [← metadata, ← spec]
      rw [merged] at tells ⊢
      exact ⟨v, tells stored rfl, tells stored rfl ▸ s.current_put undeleted⟩
    | other _ other => exact absurd rfl (other _)

end Chronicle

/-- Passes over one resource that nobody else changes, oldest first. -/
inductive Solitary (delay : Nat) (namespaceName name : String) :
    Chronicle → List (PassRun delay namespaceName name) → Chronicle → Prop
  | start (s : Chronicle) : Solitary delay namespaceName name s [] s
  | next {s s' s'' : Chronicle} {p : PassRun delay namespaceName name}
      {ps : List (PassRun delay namespaceName name)} : s.Replies p.trace s' →
      Solitary delay namespaceName name s' ps s'' → Solitary delay namespaceName name s (p :: ps) s''

namespace PassRun

variable {delay : Nat} {namespaceName name : String} {s s' : Chronicle} {r : Resource}

/-- A pass that asks for the next one at once has stored one new version, and nothing else. -/
structure Hastens (p : PassRun delay namespaceName name) (s s' : Chronicle) (r w : Resource)
    (v : Option String) : Prop where
  loaded : s.current = some r
  wanted : r.isDeletionRequested = false
  stored : s'.current = some (w.renumbered v)
  changes : ∀ number, w.renumbered number ≠ r
  brings : w.haste + 1 = r.haste
  writes : ∃ u e, p.trace = ⟨.resource (.get namespaceName name), .ok (some r)⟩ :: (u ++ [e]) ∧
    Pass.Quiet u ∧ Pass.Storing r w (w.renumbered v) e

theorem hastens_of_now (p : PassRun delay namespaceName name) (h : s.Replies p.trace s')
    (now : p.result = .ok .now) : ∃ r w v, p.Hastens s s' r w v := by
  have passing := Pass.runs_run_iff.mp p.runs
  rw [now] at passing
  generalize eq : p.trace = trace at h passing
  generalize done : (Except.ok Requeue.now : Except Error Requeue) = res at passing
  cases passing with
  | unread => cases done
  | gone => cases done
  | @found r t _ course =>
    subst done
    cases h with
    | call serves after =>
      obtain ⟨rfl, told⟩ := serves.of_get
      have loaded := (told _ rfl).symm
      obtain ⟨w, stored, wanted, change, haste, u, e, rfl, quiet, storing⟩ := course.of_now
      cases after.of_quiet_append quiet with
      | call serves rest =>
        cases rest
        obtain ⟨v, rfl, current⟩ := serves.of_storing loaded storing (change.deletion.trans wanted)
        refine ⟨r, w, v, loaded, wanted, current, fun number same => ?_, haste, u, e, eq, quiet, storing⟩
        rw [← same, Resource.haste_renumbered] at haste
        omega

/-- What is to be deleted is not hurried. -/
theorem not_now_of_deleting (p : PassRun delay namespaceName name) (loads : p.Loads r)
    (deleting : r.isDeletionRequested = true) : p.result ≠ .ok .now := by
  intro now
  have passing := Pass.runs_run_iff.mp p.runs
  obtain ⟨t, found⟩ := loads
  rw [found, now] at passing
  cases passing with
  | found course =>
    obtain ⟨w, stored, hurrying⟩ := course.of_now
    exact absurd (hurrying.wanted.symm.trans deleting) (by decide)

end PassRun

namespace Solitary

variable {delay : Nat} {namespaceName name : String} {s s' : Chronicle} {r : Resource}
  {ps qs : List (PassRun delay namespaceName name)}

theorem of_append (h : Solitary delay namespaceName name s (ps ++ qs) s') :
    ∃ s₁, Solitary delay namespaceName name s ps s₁ ∧ Solitary delay namespaceName name s₁ qs s' := by
  induction ps generalizing s with
  | nil => exact ⟨s, .start s, h⟩
  | cons p ps ih =>
    cases h with
    | next replies later =>
      obtain ⟨s₁, before, after⟩ := ih later
      exact ⟨s₁, .next replies before, after⟩

/-- Each pass that asks for the next one at once leaves one thing less to be brought into place. -/
theorem haste_eq (h : Solitary delay namespaceName name s ps s') (now : ∀ p ∈ ps, p.result = .ok .now)
    (current : s.current = some r) :
    ∃ r', s'.current = some r' ∧ r'.haste + ps.length = r.haste := by
  induction h generalizing r with
  | start s => exact ⟨r, current, rfl⟩
  | @next s s₁ s' p ps replies _ ih =>
    obtain ⟨r₁, w, v, hastens⟩ := p.hastens_of_now replies (now p List.mem_cons_self)
    obtain rfl : r = r₁ := Option.some.inj (current.symm.trans hastens.loaded)
    obtain ⟨r', current', rest⟩ := ih (fun q mem => now q (.tail _ mem)) hastens.stored
    rw [Resource.haste_renumbered] at rest
    refine ⟨r', current', ?_⟩
    have brings := hastens.brings
    rw [List.length_cons]
    omega

theorem length_le (h : Solitary delay namespaceName name s ps s')
    (now : ∀ p ∈ ps, p.result = .ok .now) : ps.length ≤ 3 := by
  cases stored : s.current with
  | some r =>
    obtain ⟨r', _, rest⟩ := h.haste_eq now stored
    have bound := r.haste_le
    omega
  | none =>
    cases h with
    | start => exact Nat.zero_le 3
    | @next _ _ _ p _ replies =>
      obtain ⟨r, w, v, hastens⟩ := p.hastens_of_now replies (now p List.mem_cons_self)
      cases stored.symm.trans hastens.loaded

/-- Whatever the provider and the store of secrets do, at most three passes in a row ask for the next one at
once. Each of these stores one new version, and no pass over what is to be deleted is one of them. -/
theorem hurries_thrice (h : Solitary delay namespaceName name s ps s') :
    (∀ before block after, ps = before ++ (block ++ after) →
      (∀ p ∈ block, p.result = .ok .now) → block.length ≤ 3) ∧
    (∀ before p after, ps = before ++ p :: after → p.result = .ok .now →
      ∃ s₁ s₂ r w v, Solitary delay namespaceName name s before s₁ ∧ s₁.Replies p.trace s₂ ∧
        Solitary delay namespaceName name s₂ after s' ∧ p.Hastens s₁ s₂ r w v) ∧
    ∀ p ∈ ps, ∀ r, p.Loads r → r.isDeletionRequested = true → p.result ≠ .ok .now := by
  refine ⟨?_, ?_, fun p _ r loads deleting => p.not_now_of_deleting loads deleting⟩
  · rintro before block after rfl now
    obtain ⟨s₁, _, later⟩ := h.of_append
    obtain ⟨s₂, during, _⟩ := later.of_append
    exact during.length_le now
  · rintro before p after rfl now
    obtain ⟨s₁, earlier, later⟩ := h.of_append
    cases later with
    | next replies later =>
      obtain ⟨r, w, v, hastens⟩ := p.hastens_of_now replies now
      exact ⟨s₁, _, r, w, v, earlier, replies, later, hastens⟩

/-- A pass that can store what it brings into place. -/
theorem exists_hurried (delay : Nat) (namespaceName name : String) {s : Chronicle} {r : Resource}
    (w : Resource) (current : s.current = some r) (wanted : w.isDeletionRequested = false)
    (course : ∀ v unused, ∃ t, Pass.Course delay r t (.ok .now) ∧ s.Replies t (s.put w v unused)) :
    ∃ (p : PassRun delay namespaceName name) (s' : Chronicle) (v : Option String),
      s.Replies p.trace s' ∧ p.result = .ok .now ∧ s'.current = some (w.renumbered v) := by
  obtain ⟨v, unused⟩ := s.exists_unused
  obtain ⟨t, course, replies⟩ := course v unused
  exact ⟨.found course, s.put w v unused, v, .call (.of_current current namespaceName name) replies, rfl,
    s.current_put wanted⟩

/-- Three passes prepare a new resource, and each of them asks for the next one at once. -/
theorem hurries_thrice_sample :
    ∃ (ps : List (PassRun 30000 "prod" "db")) (s : Chronicle), ps.length = 3 ∧
      (∀ p ∈ ps, p.result = .ok .now) ∧ Solitary 30000 "prod" "db" (.start sample) ps s ∧
      (∀ before block after, ps = before ++ (block ++ after) →
        (∀ p ∈ block, p.result = .ok .now) → block.length ≤ 3) ∧
      (∀ before p after, ps = before ++ p :: after → p.result = .ok .now →
        ∃ s₁ s₂ r w v, Solitary 30000 "prod" "db" (.start sample) before s₁ ∧
          s₁.Replies p.trace s₂ ∧ Solitary 30000 "prod" "db" s₂ after s ∧ p.Hastens s₁ s₂ r w v) ∧
      ∀ p ∈ ps, ∀ r, p.Loads r → r.isDeletionRequested = true → p.result ≠ .ok .now := by
  obtain ⟨p₁, s₁, v₁, marked, now₁, current₁⟩ :=
    exists_hurried (s := .start sample) 30000 "prod" "db" sample.withFinalizer rfl rfl fun v unused =>
      ⟨_, .mark (.ok _) rfl rfl, .call (.of_update rfl unused (.mark rfl rfl) rfl) (.rest _)⟩
  let r₁ := sample.withFinalizer.renumbered v₁
  have guarded : r₁.hasFinalizer = true := Resource.hasFinalizer_withFinalizer
  obtain ⟨p₂, s₂, v₂, initial, now₂, current₂⟩ :=
    exists_hurried 30000 "prod" "db" (r₁.setInitial .epoch).1 current₁ rfl fun v unused =>
      ⟨_, .init .epoch (.ok _) rfl guarded rfl, .call (.other _ fun _ => PassCall.noConfusion)
        (.call (.other _ fun _ => PassCall.noConfusion)
          (.call (.of_updateStatus current₁ unused (.init .epoch guarded rfl) rfl rfl) (.rest _)))⟩
  let r₂ := (r₁.setInitial .epoch).1.renumbered v₂
  have initialized : r₂.isInitialized = true := Resource.isInitialized_setInitial
  obtain ⟨p₃, s₃, v₃, flagged, now₃, _⟩ :=
    exists_hurried 30000 "prod" "db" (r₂.setRunningFlag false) current₂ rfl fun v unused =>
      ⟨_, .flag (.ok _) rfl guarded initialized rfl,
        .call (.of_update current₂ unused (.flag guarded initialized rfl) rfl) (.rest _)⟩
  have run : Solitary 30000 "prod" "db" (.start sample) [p₁, p₂, p₃] s₃ :=
    .next marked (.next initial (.next flagged (.start s₃)))
  refine ⟨[p₁, p₂, p₃], s₃, rfl, ?_, run, run.hurries_thrice⟩
  simp [now₁, now₂, now₃]

end Solitary

end DatabaseOperator
