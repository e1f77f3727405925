import DatabaseOperator.Proofs.Guards
import DatabaseOperator.Proofs.Overtaking
import DatabaseOperator.Proofs.Pass.Secrets
import DatabaseOperator.Proofs.Provider.Rules
import DatabaseOperator.Proofs.Settling

namespace DatabaseOperator

/-- The conditions say that the database is available and no longer provisioning. -/
structure Resource.Delivered (r : Resource) : Prop where
  available : r.isAvailable = true
  provisioned : r.hasCondition Names.provisioning Names.statusFalse = true

namespace Resource

variable {r : Resource} {now : Times}

theorem Settled.delivered (h : r.Settled) : r.Delivered := by
  obtain ⟨⟨x, found, available⟩, ⟨y, found', provisioned⟩⟩ := h
  refine ⟨?_, ?_⟩
  · unfold isAvailable hasCondition
    rw [found, Option.any_some, available.status]
    decide
  · unfold hasCondition
    rw [found', Option.any_some, provisioned.status]
    decide

theorem delivered_setProvisioned (v : Option String) :
    ((r.setProvisioned now).1.renumbered v).Delivered :=
  ⟨isAvailable_setProvisioned (r := r), provisioned_setProvisioned (r := r)⟩

end Resource

theorem Manager.ok_of_read {id : String} {seen : Database} {rules : List FirewallRule}
    {res : Except Error Database}
    (h : (get id).run.Runs [⟨.getDatabase id, .ok seen⟩,
      ⟨.listFirewallRules seen.id seen.addonId, .ok rules⟩] res) :
    res = .ok { seen with firewallRules := rules } := by
  by_cases named : id = ""
  · subst named
    cases (unread_of_unnamed h).1
  · rcases cases_of_get h named with ⟨_, _, one, _⟩ | ⟨_, ⟨_, one, _⟩ | ⟨a, _, both, ended⟩⟩
    · cases one
    · cases one
    · cases both
      exact ended

namespace Pass

variable {s : Chronicle} {r w : Resource} {t : List (Exchange pass)} {delay : Nat} {db : Database}
  {a : Except StoreError Resource} {res : Except Error Requeue}

/-- The version that a wait goes on with says that the database is there: the resource said so when it was
read, or that was stored. -/
inductive Noted (s : Chronicle) (r : Resource) (now : Times) : Resource → List (Exchange pass) → Prop
  | standing : r.Delivered → Noted s r now r []
  | stored {x : Resource} : x ∈ s.versions → x.Delivered →
      Noted s r now x [⟨.resource (.updateStatus (r.setProvisioned now).1), .ok x⟩]

/-- What a pass exchanges up to the write of the running flag, in this order: the connection is opened, the
recorded database is read and runs, the conditions say so, and its connection string is put into the
declared secret. -/
inductive Certified (s : Chronicle) (r : Resource) :
    List (Exchange pass) → Resource → Except StoreError Resource → Prop
  | intro {u noted : List (Exchange pass)} {seen : Database} {rules : List FirewallRule} {now : Times}
      {x : Resource} {value : String} (a : Except StoreError Resource) : Opening r u (.ok ()) →
      seen.isRunning = true → Noted s r now x noted →
      Certified s r (u ++ ⟨.provider (.getDatabase r.databaseId), .ok seen⟩ ::
        ⟨.provider (.listFirewallRules seen.id seen.addonId), .ok rules⟩ ::
        (ticks now.toList ++ (noted ++
          [⟨.provider (.findVariable seen.appId DatabaseType.postgresql.urlVariable), .ok value⟩,
            ⟨.secret (.set (r.connectionSecret ⟨DatabaseType.postgresql.urlVariable, value⟩) r.owner?),
              .ok ()⟩,
            ⟨.resource (.update (x.setRunningFlag true)), a⟩]))) (x.setRunningFlag true) a

/-- The recorded database was read and does not run yet, and that was all. -/
inductive Unready (r : Resource) : List (Exchange pass) → Prop
  | intro {u : List (Exchange pass)} {seen : Database} {rules : List FirewallRule} :
      Opening r u (.ok ()) → seen.isRunning = false →
      Unready r (u ++ [⟨.provider (.getDatabase r.databaseId), .ok seen⟩,
        ⟨.provider (.listFirewallRules seen.id seen.addonId), .ok rules⟩])

/-- A handover sets the flag in the end, right after the secret is written. -/
theorem HandingOver.trace_of_update (h : HandingOver r db t res)
    (mem : (⟨.resource (.update w), a⟩ : Exchange pass) ∈ t) :
    w = r.setRunningFlag true ∧ res = ended "set running annotation" .done a ∧ ∃ value,
      t = [⟨.provider (.findVariable db.appId DatabaseType.postgresql.urlVariable), .ok value⟩,
        ⟨.secret (.set (r.connectionSecret ⟨DatabaseType.postgresql.urlVariable, value⟩) r.owner?),
          .ok ()⟩,
        ⟨.resource (.update (r.setRunningFlag true)), a⟩] := by
  cases h with
  | unnamed => exact absurd mem (quiet_ofProvider _).not_mem
  | unsaved => exact absurd mem ((quiet_ofProvider _).append (quiet_ofSecret _)).not_mem
  | saved b named written =>
    cases List.mem_singleton.mp
      ((quiet_ofSecret _).mem_of_append ((quiet_ofProvider _).mem_of_append mem))
    obtain ⟨value, rfl, rfl⟩ := trace_of_connectionUrl named
    rw [trace_of_writeSecret written]
    exact ⟨rfl, rfl, value, rfl⟩

/-- A handover fails, or it stores the flag. -/
theorem HandingOver.cases_of_end (h : HandingOver r db t res) :
    (∃ e, res = .error e) ∨ res = .ok .done ∧
      ∃ w stored, (⟨.resource (.update w), .ok stored⟩ : Exchange pass) ∈ t := by
  cases h with
  | unnamed | unsaved => exact .inl ⟨_, rfl⟩
  | saved a =>
    cases a with
    | error f => exact .inl ⟨_, rfl⟩
    | ok stored =>
      exact .inr ⟨rfl, _, stored, List.mem_append_right _ (List.mem_append_right _ (.head _))⟩

/-- The status that the store gives back for new conditions is stored, with nothing else changed. -/
def Faithful (s : Chronicle) (r : Resource) (t : List (Exchange pass)) : Prop :=
  ∀ now stored,
    (⟨.resource (.updateStatus (r.setProvisioned now).1), .ok stored⟩ : Exchange pass) ∈ t →
      stored ∈ s.versions ∧ ∃ v, stored = (r.setProvisioned now).1.renumbered v

/-- A wait that writes the running flag has done all that comes before it, and ends with that write. -/
theorem Awaiting.certified (h : Awaiting delay r t res) (faithful : Faithful s r t)
    (mem : (⟨.resource (.update w), a⟩ : Exchange pass) ∈ t) :
    Certified s r t w a ∧ res = ended "set running annotation" .done a := by
  cases h with
  | closed opening => exact absurd mem opening.quiet.not_mem
  | unread opening | early opening =>
    exact absurd mem (opening.quiet.append (quiet_ofProvider _)).not_mem
  | unnoted now e opening =>
    have mem := (quiet_ofProvider _).mem_of_append (opening.quiet.mem_of_append mem)
    cases List.mem_singleton.mp ((quiet_ticks _).mem_of_append mem)
  | noted now opening read running same handing =>
    have mem := (quiet_ofProvider _).mem_of_append (opening.quiet.mem_of_append mem)
    obtain ⟨rfl, ended, value, rfl⟩ := handing.trace_of_update ((quiet_ticks _).mem_of_append mem)
    obtain ⟨seen, rules, rfl, rfl⟩ := Manager.trace_of_get read
    have running : seen.isRunning = true := running
    have standing := (Resource.settled_iff.mpr same).delivered
    exact ⟨.intro a opening running (.standing standing), ended⟩
  | renoted now stored opening read running differs handing =>
    obtain ⟨known, v, rfl⟩ := faithful now stored
      (List.mem_append_right _ (List.mem_append_right _ (List.mem_append_right _ (.head _))))
    have mem := (quiet_ofProvider _).mem_of_append (opening.quiet.mem_of_append mem)
    have mem := (quiet_ticks _).mem_of_append mem
    obtain ⟨rfl, ended, value, rfl⟩ := handing.trace_of_update ((List.mem_cons.mp mem).resolve_left nofun)
    obtain ⟨seen, rules, rfl, rfl⟩ := Manager.trace_of_get read
    have running : seen.isRunning = true := running
    exact ⟨.intro a opening running (.stored known (Resource.delivered_setProvisioned v)), ended⟩

/-- A wait fails, finds the database not ready, or stores the flag. -/
theorem Awaiting.cases_of_end (h : Awaiting delay r t res) :
    (∃ e, res = .error e) ∨ (res = .ok (.after delay) ∧ Unready r t) ∨ res = .ok .done ∧
      ∃ w stored, (⟨.resource (.update w), .ok stored⟩ : Exchange pass) ∈ t := by
  cases h with
  | closed | unread | unnoted => exact .inl ⟨_, rfl⟩
  | early opening read resting =>
    obtain ⟨seen, rules, rfl, rfl⟩ := Manager.trace_of_get read
    have resting : seen.isRunning = false := resting
    exact .inr (.inl ⟨rfl, .intro opening resting⟩)
  | noted now opening _ _ _ handing =>
    rcases handing.cases_of_end with failed | ⟨done, w, stored, mem⟩
    · exact .inl failed
    · exact .inr (.inr ⟨done, w, stored,
        List.mem_append_right _ (List.mem_append_right _ (List.mem_append_right _ mem))⟩)
  | renoted now stored opening _ _ _ handing =>
    rcases handing.cases_of_end with failed | ⟨done, w, stored, mem⟩
    · exact .inl failed
    · exact .inr (.inr ⟨done, w, stored,
        List.mem_append_right _ (List.mem_append_right _ (List.mem_append_right _ (.tail _ mem)))⟩)

/-- A wait that has read the database goes on only when it runs. -/
theorem Awaiting.early_of_unready (h : Awaiting delay r t res) (unready : Unready r t) :
    res = .ok (.after delay) := by
  obtain ⟨seen, rules, reading, resting⟩ : ∃ seen rules,
      asked t = [⟨.getDatabase r.databaseId, .ok seen⟩,
        ⟨.listFirewallRules seen.id seen.addonId, .ok rules⟩] ∧ seen.isRunning = false := by
    cases unready with
    | @intro u seen rules opening resting =>
      refine ⟨seen, rules, ?_, resting⟩
      rw [asked_append, opening.asked_eq]
      rfl
  -- what was read is what the wait went on with, so it cannot have gone on
  have resolved {p : List (Exchange provider)} {db : Database} {u : List (Exchange provider)}
      (read : (Manager.get r.databaseId).run.Runs p (.ok db)) (running : db.isRunning = true)
      (whole : p ++ u = [⟨.getDatabase r.databaseId, .ok seen⟩,
        ⟨.listFirewallRules seen.id seen.addonId, .ok rules⟩]) : False := by
    obtain ⟨seen', rules', rfl, rfl⟩ := Manager.trace_of_get read
    cases whole
    exact absurd (running.symm.trans resting) (by decide)
  cases h with
  | closed opening =>
    rw [opening.asked_eq] at reading
    cases reading
  | unread opening read =>
    rw [opening.asked_provided] at reading
    subst reading
    cases Manager.ok_of_read read
  | early => rfl
  | noted now opening read running | unnoted now e opening read running
  | renoted now stored opening read running =>
    rw [asked_append, opening.asked_eq, asked_append, asked_ofProvider] at reading
    exact (resolved read running reading).elim

theorem Unready.harmless (h : Unready r t) : ∀ e ∈ t, ¬ e.call.Changes := by
  cases h with
  | intro opening resting =>
    intro e mem
    rcases List.mem_append.mp mem with early | reading
    · exact opening.harmless e early
    · simp only [List.mem_cons, List.not_mem_nil, or_false] at reading
      rcases reading with rfl | rfl
      · exact fun changes => changes trivial
      · exact fun changes => changes trivial

theorem Certified.mem (h : Certified s r t w a) : (⟨.resource (.update w), a⟩ : Exchange pass) ∈ t := by
  cases h with
  | intro => simp

/-- How a wait ends. It is done exactly when the flag is stored behind all that it certifies, it comes back
later exactly when the database does not run yet, and then it has written nothing, and otherwise it
fails. -/
structure Waited (s : Chronicle) (delay : Nat) (r : Resource) (t : List (Exchange pass))
    (res : Except Error Requeue) : Prop where
  done : res = .ok .done ↔ ∃ w stored, Certified s r t w (.ok stored)
  early : ∀ d, res = .ok (.after d) ↔ d = delay ∧ Unready r t
  failed : (∃ e, res = .error e) ↔ (¬ ∃ w stored, Certified s r t w (.ok stored)) ∧ ¬ Unready r t
  unwritten : Unready r t → ∀ e ∈ t, ¬ e.call.Changes

theorem Awaiting.waited (h : Awaiting delay r t res) (faithful : Faithful s r t) :
    Waited s delay r t res where
  done := by
    constructor
    · rintro rfl
      rcases h.cases_of_end with ⟨_, error⟩ | ⟨later, _⟩ | ⟨_, w, stored, mem⟩
      · cases error
      · cases later
      · exact ⟨w, stored, (h.certified faithful mem).1⟩
    · rintro ⟨w, stored, certified⟩
      exact (h.certified faithful certified.mem).2
  early d := by
    constructor
    · rintro rfl
      rcases h.cases_of_end with ⟨_, error⟩ | ⟨later, unready⟩ | ⟨done, _⟩
      · cases error
      · cases later
        exact ⟨rfl, unready⟩
      · cases done
    · rintro ⟨rfl, unready⟩
      exact h.early_of_unready unready
  failed := by
    constructor
    · rintro ⟨e, rfl⟩
      refine ⟨?_, fun unready => nomatch h.early_of_unready unready⟩
      rintro ⟨w, stored, certified⟩
      cases (h.certified faithful certified.mem).2
    · rintro ⟨uncertified, ready⟩
      rcases h.cases_of_end with failed | ⟨_, unready⟩ | ⟨_, w, stored, mem⟩
      · exact failed
      · exact absurd unready ready
      · exact absurd ⟨w, stored, (h.certified faithful mem).1⟩ uncertified
  unwritten := Unready.harmless

theorem Waited.inPhase (h : Waited s delay r t res) (action : String) :
    Waited s delay r t (res.mapError (Error.phase action)) := by
  obtain ⟨done, early, failed, unwritten⟩ := h
  cases res with
  | ok next => exact ⟨done, early, failed, unwritten⟩
  | error e =>
    refine ⟨⟨nofun, fun certified => nomatch done.mpr certified⟩,
      fun d => ⟨nofun, fun unready => nomatch (early d).mpr unready⟩, ?_, unwritten⟩
    exact ⟨fun _ => failed.mp ⟨e, rfl⟩, fun _ => ⟨_, rfl⟩⟩

/-- What a pass does about the running flag. It writes the flag only behind all that the flag certifies,
or as it was read, together with another list of finalizers. -/
structure Handover (s : Chronicle) (delay : Nat) (r : Resource) (t : List (Exchange pass))
    (res : Except Error Requeue) : Prop where
  certified : ∀ w a, (⟨.resource (.update w), a⟩ : Exchange pass) ∈ t → w.isRunning = true →
    Certified s r t w a ∨ r.isRunning = true ∧ (w = r.withFinalizer ∨ w = r.removeFinalizer)
  waited : r.Awaits → Waited s delay r t res

theorem Course.certified (h : Course delay r t res) (faithful : Faithful s r t)
    (mem : (⟨.resource (.update w), a⟩ : Exchange pass) ∈ t) (running : w.isRunning = true) :
    Certified s r t w a ∨ r.isRunning = true ∧ (w = r.withFinalizer ∨ w = r.removeFinalizer) := by
  cases h with
  | finalize _ h =>
    cases h.eq_of_stored mem rfl
    exact .inr ⟨running, .inr rfl⟩
  | mark b =>
    cases List.mem_singleton.mp mem
    exact .inr ⟨running, .inl rfl⟩
  | init now b => cases List.mem_singleton.mp ((quiet_ticks _).mem_of_append mem)
  | flag b =>
    cases List.mem_singleton.mp mem
    exact absurd ((Resource.isRunning_setRunningFlag false).symm.trans running) (by decide)
  | create _ _ _ h => exact absurd mem h.not_update
  | await _ _ _ h => exact .inl (h.certified faithful mem).1
  | update _ _ _ h => exact absurd mem h.not_update

theorem Course.waited (h : Course delay r t res) (faithful : Faithful s r t) (awaits : r.Awaits) :
    Waited s delay r t res := by
  obtain ⟨action, res', rfl, step⟩ := h.cases_of_prepared awaits.1
  rcases step with ⟨unrecorded, resting, _⟩ | ⟨_, awaiting⟩ | ⟨available, running, _⟩
  · exact absurd (.inl ⟨unrecorded, resting⟩) awaits.not_bringing
  · exact (awaiting.waited faithful).inPhase action
  · exact absurd (.inr ⟨available, running⟩) awaits.not_bringing

theorem Course.handover (h : Course delay r t res) (faithful : Faithful s r t) :
    Handover s delay r t res :=
  ⟨fun _ _ mem running => h.certified faithful mem running, h.waited faithful⟩

end Pass

namespace Chronicle

variable {s s' : Chronicle} {r : Resource} {t : List (Exchange pass)}

/-- The status that a pass writes for what it has read is stored on that version. -/
theorem Evolves.faithful (h : s.Evolves t s') (current : s.current = some r) :
    Pass.Faithful s' r t := by
  intro now stored mem
  obtain ⟨known, old, older, v, number, rfl⟩ := h.mem_of_updateStatus mem
  have read : r ∈ s'.versions := h.subset (mem_of_current current)
  obtain rfl : old = r := eq_of_number older read number
  exact ⟨known, v, rfl⟩

/-- The flag of a version was there before, or it came with a write. -/
theorem Evolves.flagged (h : s.Evolves t s') (mem : r ∈ s'.versions) (running : r.isRunning = true) :
    (∃ x ∈ s.versions, x.isRunning = true) ∨
      ∃ w a, (⟨.resource (.update w), a⟩ : Exchange pass) ∈ t ∧ w.isRunning = true := by
  induction h with
  | rest => exact .inl ⟨r, mem, running⟩
  | @edit s s' old new t v unused stored edit _ ih =>
    refine (ih mem).imp_left ?_
    rintro ⟨x, known, flagged⟩
    rcases List.mem_cons.mp known with rfl | known
    · exact ⟨old, mem_of_current stored, edit.isRunning.symm.trans flagged⟩
    · exact ⟨x, known, flagged⟩
  | @exchange s s₁ s' e t serves _ ih =>
    rcases ih mem with ⟨x, known, flagged⟩ | ⟨w, a, written, flagged⟩
    · cases serves with
      | got | failed | other => exact .inl ⟨x, known, flagged⟩
      | @updated old w a v unused stored =>
        rcases List.mem_cons.mp known with rfl | known
        · exact .inr ⟨w, a, .head _, flagged⟩
        · exact .inl ⟨x, known, flagged⟩
      | @statusUpdated old w a v unused stored =>
        rcases List.mem_cons.mp known with rfl | known
        · exact .inl ⟨old, mem_of_current stored, flagged⟩
        · exact .inl ⟨x, known, flagged⟩
    · exact .inr ⟨w, a, .tail _ written, flagged⟩

end Chronicle

variable {delay : Nat} {namespaceName name : String} {s₀ s s' : Chronicle} {r : Resource}
  {ps : List (PassRun delay namespaceName name)}

/-- The pass finds the resource without the running flag and writes the flag. -/
def PassRun.Flags (p : PassRun delay namespaceName name) : Prop :=
  ∃ r t w a, p.trace = ⟨.resource (.get namespaceName name), .ok (some r)⟩ :: t ∧
    r.isRunning = false ∧ (⟨.resource (.update w), a⟩ : Exchange pass) ∈ t ∧ w.isRunning = true

theorem PassRun.flags_of_running (p : PassRun delay namespaceName name)
    (h : s.Evolves p.trace s') (mem : r ∈ s'.versions) (running : r.isRunning = true) :
    (∃ x ∈ s.versions, x.isRunning = true) ∨ p.Flags := by
  rcases p.cases_of_evolves h with ⟨_, _, edits⟩ | ⟨x, s₁, t, trace, _, edits, current, after⟩
  · refine (edits.flagged mem running).imp_right ?_
    rintro ⟨_, _, none, _⟩
    cases none
  have before {y : Resource} (known : y ∈ s₁.versions) (flagged : y.isRunning = true) :
      ∃ x ∈ s.versions, x.isRunning = true := by
    rcases edits.flagged known flagged with earlier | ⟨_, _, none, _⟩
    · exact earlier
    · cases none
  cases resting : x.isRunning with
  | true => exact .inl (before (Chronicle.mem_of_current current) resting)
  | false =>
    rcases after.flagged mem running with ⟨y, known, flagged⟩ | ⟨w, a, written, flagged⟩
    · exact .inl (before known flagged)
    · exact .inr ⟨x, t, w, a, trace, resting, written, flagged⟩

namespace History

/-- A resource has the running flag only if it began with it or a pass wrote it. -/
theorem exists_flags (h : History delay namespaceName name s₀ ps s) :
    ∀ r ∈ s.versions, r.isRunning = true →
      (∃ x ∈ s₀.versions, x.isRunning = true) ∨ ∃ p ∈ ps, p.Flags := by
  induction h with
  | start => exact fun r mem running => .inl ⟨r, mem, running⟩
  | @next ps p s' s'' _ evolves ih =>
    intro r mem running
    rcases p.flags_of_running evolves mem running with ⟨x, known, flagged⟩ | flags
    · rcases ih x known flagged with first | ⟨q, earlier, flags⟩
      · exact .inl first
      · exact .inr ⟨q, List.mem_append_left _ earlier, flags⟩
    · exact .inr ⟨p, List.mem_append_right _ (List.mem_singleton_self p), flags⟩

theorem handover (h : History delay namespaceName name s₀ ps s) :
    ∀ p ∈ ps, (∃ a, p.trace = [⟨.resource (.get namespaceName name), a⟩]) ∨
      ∃ r t, p.trace = ⟨.resource (.get namespaceName name), .ok (some r)⟩ :: t ∧
        Pass.Handover s delay r t p.result := by
  intro p mem
  obtain ⟨s₁, s₂, during, known⟩ := h.evolves p mem
  rcases p.cases_of_evolves during with ⟨a, trace, _⟩ | ⟨r, s₃, t, trace, course, _, current, after⟩
  · exact .inl ⟨a, trace⟩
  · have faithful : Pass.Faithful s r t := fun now stored noted =>
      (after.faithful current now stored noted).imp_left fun mem => known mem
    exact .inr ⟨r, t, trace, course.handover faithful⟩

/-- The running flag certifies the connection secret, whatever fails and whatever other people do. A
version has the flag only if the resource began with it or a pass wrote it behind all that it certifies,
and a wait ends as what it has done says. -/
theorem certifies_secret (h : History delay namespaceName name s₀ ps s) :
    (∀ x ∈ s.versions, x.isRunning = true → (∃ y ∈ s₀.versions, y.isRunning = true) ∨
      ∃ p ∈ ps, ∃ r t w a, p.trace = ⟨.resource (.get namespaceName name), .ok (some r)⟩ :: t ∧
        Pass.Certified s r t w a) ∧
    ∀ p ∈ ps, (∃ a, p.trace = [⟨.resource (.get namespaceName name), a⟩]) ∨
      ∃ r t, p.trace = ⟨.resource (.get namespaceName name), .ok (some r)⟩ :: t ∧
        Pass.Handover s delay r t p.result := by
  refine ⟨fun x mem running => ?_, h.handover⟩
  refine (h.exists_flags x mem running).imp_right ?_
  rintro ⟨p, mem, r, t, w, a, trace, resting, written, flagged⟩
  rcases h.handover p mem with ⟨b, alone⟩ | ⟨r', t', trace', handover⟩
  · cases trace.symm.trans alone
    cases written
  · cases trace.symm.trans trace'
    rcases handover.certified w a written flagged with certified | ⟨standing, _⟩
    · exact ⟨p, mem, r, t, w, a, trace, certified⟩
    · exact absurd (standing.symm.trans resting) (by decide)

/-- When nothing fails, the wait for a database that runs ends with the flag. -/
theorem exists_flagging {wanted db : Database} (h : History delay namespaceName name s₀ ps s)
    (current : s.current = some r) (pending : r.Pending wanted) (reachable : db.Reachable) :
    ∃ (p : PassRun delay namespaceName name) (s' : Chronicle) (r' : Resource),
      History delay namespaceName name s₀ (ps ++ [p]) s' ∧ p.result = .ok .done ∧
      s'.current = some r' ∧ r'.isRunning = true := by
  obtain ⟨v, unused⟩ := s.exists_unused
  let ready := (r.setProvisioned .epoch).1
  let stored := ready.renumbered v
  obtain ⟨v', unused'⟩ := (s.put ready v unused).exists_unused
  let w := stored.setRunningFlag true
  have valued : "postgres://db" ≠ "" := by decide
  obtain ⟨t, u, early, late, awaiting⟩ := pending.exists_awaiting delay reachable valued v
  obtain ⟨prepared, recorded, waiting⟩ := pending.awaits
  have wanted : ready.isDeletionRequested = false := prepared.wanted
  have noting : r.Change ready := .provision .epoch prepared recorded
  have noted : (s.put ready v unused).current = some stored := s.current_put wanted
  have flagging : stored.Change w :=
    .handOver ⟨wanted, prepared.guarded, Resource.isInitialized_setProvisioned (r := r), prepared.flagged⟩
      (Resource.isAvailable_setProvisioned (r := r))
  refine ⟨_, (s.put ready v unused).put w v' unused', w.renumbered v',
    h.found current (.await prepared recorded waiting (awaiting (.ok (w.renumbered v')))) ?_, rfl,
    Chronicle.current_put wanted, Resource.isRunning_setRunningFlag (r := stored) true⟩
  exact (Chronicle.Evolves.of_quiet early).append
    (.exchange (.of_updateStatus current unused noting rfl rfl)
      ((Chronicle.Evolves.of_quiet late).append (.of_update noted unused' flagging rfl)))

end History

/-- The wait of the sample ends with the flag, behind all that it certifies. -/
theorem certifies_secret_pending :
    ∃ (p : PassRun 30000 "prod" "db") (s : Chronicle) (r : Resource),
      History 30000 "prod" "db" (.start pending) [p] s ∧ p.result = .ok .done ∧
      s.current = some r ∧ r.isRunning = true ∧
      (∀ x ∈ s.versions, x.isRunning = true →
        (∃ y ∈ (Chronicle.start pending).versions, y.isRunning = true) ∨
          ∃ q ∈ [p], ∃ r t w a, q.trace = ⟨.resource (.get "prod" "db"), .ok (some r)⟩ :: t ∧
            Pass.Certified s r t w a) ∧
      ∀ q ∈ [p], (∃ a, q.trace = [⟨.resource (.get "prod" "db"), a⟩]) ∨
        ∃ r t, q.trace = ⟨.resource (.get "prod" "db"), .ok (some r)⟩ :: t ∧
          Pass.Handover s 30000 r t q.result := by
  obtain ⟨wanted, waiting⟩ := pending_pending
  have begun : History 30000 "prod" "db" (.start pending) [] (.start pending) := .start
  obtain ⟨p, s, r, history, done, current, running⟩ :=
    begun.exists_flagging rfl waiting reachable_pending
  exact ⟨p, s, r, history, done, current, running, history.certifies_secret⟩

end DatabaseOperator
