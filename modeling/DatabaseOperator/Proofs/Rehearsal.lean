import DatabaseOperator.Proofs.Untroubled

namespace DatabaseOperator

/-- What the provider is to answer: the id of the database that it creates, the databases that it gives
one after the other when it is asked for one, and the value of the variables of an application. -/
structure Script where
  id : String
  reading : Nat → Database
  value : String

namespace Script

variable {σ : Script} {k k' k'' : Nat} {t u : List (Exchange pass)} {c : ProviderCall}

/-- The answer when so many databases have been given. -/
def reply (σ : Script) (k : Nat) : (c : ProviderCall) → c.Result
  | .createDatabase wanted => { wanted with id := σ.id }
  | .getDatabase _ => σ.reading k
  | .updateDatabasePlan _ => ()
  | .deleteDatabase _ => ()
  | .createFirewallRule _ _ _ => ()
  | .listFirewallRules _ _ => []
  | .deleteFirewallRule _ _ _ => ()
  | .enableFeature _ _ => .activated
  | .disableFeature _ _ => .failed
  | .findVariable _ _ => σ.value

/-- How many databases have been given after a call. -/
def next (k : Nat) : ProviderCall → Nat
  | .getDatabase _ => k + 1
  | _ => k

/-- The provider answers by the script. -/
inductive Plays (σ : Script) : Nat → List (Exchange pass) → Nat → Prop
  | rest (k : Nat) : Plays σ k [] k
  | asked {k k' : Nat} {t : List (Exchange pass)} (c : ProviderCall) : Plays σ (next k c) t k' →
      Plays σ k (⟨.provider c, .ok (σ.reply k c)⟩ :: t) k'
  | other {k k' : Nat} {e : Exchange pass} {t : List (Exchange pass)} :
      (∀ c, e.call ≠ .provider c) → Plays σ k t k' → Plays σ k (e :: t) k'

theorem Plays.append (h : σ.Plays k t k') (g : σ.Plays k' u k'') : σ.Plays k (t ++ u) k'' := by
  induction h with
  | rest => exact g
  | asked c _ ih => exact .asked c (ih g)
  | other silent _ ih => exact .other silent (ih g)

theorem Plays.mem {a : pass.Answer (.provider c)} (h : σ.Plays k t k')
    (mem : (⟨.provider c, a⟩ : Exchange pass) ∈ t) : ∃ j, a = .ok (σ.reply j c) := by
  induction h with
  | rest => cases mem
  | @asked k _ _ d _ ih =>
    rcases List.mem_cons.mp mem with same | mem
    · cases same
      exact ⟨k, rfl⟩
    · exact ih mem
  | other silent _ ih =>
    rcases List.mem_cons.mp mem with rfl | mem
    · exact absurd rfl (silent c)
    · exact ih mem

/-- The databases that were read are those of the script, in its order. -/
theorem Plays.readings (h : σ.Plays k t k') :
    k ≤ k' ∧ Pass.readings t = (List.range' k (k' - k)).map σ.reading := by
  induction h with
  | rest k => exact ⟨Nat.le_refl k, by simp [Pass.readings]⟩
  | @asked k k' t c _ ih =>
    obtain ⟨le, read⟩ := ih
    cases c with
    | getDatabase id =>
      have later : k + 1 ≤ k' := le
      refine ⟨by omega, ?_⟩
      change σ.reading k :: Pass.readings t = _
      rw [read, show k' - k = (k' - (k + 1)) + 1 by omega, List.range'_succ, List.map_cons]
      rfl
    | _ => exact ⟨le, read⟩
  | @other k k' e t silent _ ih =>
    refine ⟨ih.1, ?_⟩
    have unread : Pass.readings [e] = [] := Pass.readings_eq_nil fun x mem => by
      obtain rfl := List.mem_singleton.mp mem
      exact silent
    rw [show e :: t = [e] ++ t from rfl, Pass.readings_append, unread, List.nil_append]
    exact ih.2

end Script

namespace Chronicle.Untroubled

variable {s s' : Chronicle} {r w : Resource} {t : List (Exchange pass)} {e : Exchange pass}

theorem nil (s : Chronicle) : s.Untroubled [] s :=
  ⟨.rest s, fun _ mem => nomatch mem⟩

theorem cons {s₁ : Chronicle} (keeps : s.Keeps e s₁) (granted : e.Granted)
    (h : s₁.Untroubled t s') : s.Untroubled (e :: t) s' :=
  ⟨.call keeps h.alone, List.forall_mem_cons.mpr ⟨granted, h.granted⟩⟩

end Chronicle.Untroubled

namespace Pass

variable {α : Type} {s : Chronicle} {r w : Resource}

/-- The end of a run that goes by a script. -/
structure Rehearsed (σ : Script) (k : Nat) (x : Dialogue pass α) (s : Chronicle)
    (t : List (Exchange pass)) (a : α) (s' : Chronicle) (k' : Nat) : Prop where
  runs : x.Runs t a
  untroubled : s.Untroubled t s'
  plays : σ.Plays k t k'
  stored : ∃ r, s'.current = some r ∧ r.isDeletionRequested = false

/-- A program whose writes are those of a pass can be run by a script. -/
theorem exists_rehearsed (σ : Script) (k : Nat) (x : Dialogue pass α) (current : s.current = some r)
    (undeleted : r.isDeletionRequested = false) (allowed : ∀ t a, x.Runs t a → Allowed r t) :
    ∃ t a s' k', Rehearsed σ k x s t a s' k' := by
  induction x generalizing s r k with
  | done a => exact ⟨[], a, s, k, .done a, .nil s, .rest k, r, current, undeleted⟩
  | ask c next ih =>
    -- a call that is no write leaves the pass with what it has in mind
    have quiet (silent : ∀ d, c ≠ .resource d) (answer : pass.Answer c)
        (granted : Exchange.Granted ⟨c, answer⟩) {j : Nat}
        (plays : ∀ {t k'}, σ.Plays j t k' → σ.Plays k (⟨c, answer⟩ :: t) k') :
        ∃ t a s' k', Rehearsed σ k (.ask c next) s t a s' k' := by
      have further (t : List (Exchange pass)) (a : α) (runs : (next answer).Runs t a) :
          Allowed r t := by
        cases allowed _ a (.ask answer runs) with
        | other _ _ rest => exact rest
        | update | updateStatus => exact absurd rfl (silent _)
      obtain ⟨t, a, s', k', runs, untroubled, played, stored⟩ := ih answer j current undeleted further
      exact ⟨_, a, s', k', .ask answer runs, .cons (.other _ silent) granted untroubled,
        plays played, stored⟩
    cases c with
    | secret c =>
      have other {t : List (Exchange pass)} {k' : Nat} (a : pass.Answer (.secret c))
          (h : σ.Plays k t k') : σ.Plays k (⟨.secret c, a⟩ :: t) k' :=
        .other (fun _ => PassCall.noConfusion) h
      cases c with
      | get =>
        exact quiet (fun _ => PassCall.noConfusion) (.ok "token") trivial (other _)
      | set =>
        exact quiet (fun _ => PassCall.noConfusion) (.ok ()) trivial (other _)
    | connect =>
      exact quiet (fun _ => PassCall.noConfusion) (.ok ()) trivial
        (.other fun _ => PassCall.noConfusion)
    | now =>
      exact quiet (fun _ => PassCall.noConfusion) Time.epoch trivial
        (.other fun _ => PassCall.noConfusion)
    | provider c =>
      exact quiet (fun _ => PassCall.noConfusion) (.ok (σ.reply k c)) trivial (.asked c)
    | resource c =>
      obtain ⟨v, unused⟩ := s.exists_unused
      have written (w : Resource) (answer : pass.Answer (.resource c))
          (keeps : s.Keeps ⟨.resource c, answer⟩ (s.put w v unused))
          (granted : Exchange.Granted ⟨.resource c, answer⟩) (kept : w.isDeletionRequested = false)
          (further : ∀ t a, (next answer).Runs t a → Allowed (w.renumbered v) t) :
          ∃ t a s' k', Rehearsed σ k (.ask (.resource c) next) s t a s' k' := by
        have current' : (s.put w v unused).current = some (w.renumbered v) := s.current_put kept
        obtain ⟨t, a, s', k', runs, untroubled, played, stored⟩ := ih answer k current' kept further
        exact ⟨_, a, s', k', .ask answer runs, .cons keeps granted untroubled,
          .other (fun _ => PassCall.noConfusion) played, stored⟩
      cases c with
      | get namespaceName name =>
        obtain ⟨t, a, runs⟩ := (next (.ok none)).exists_runs
        cases allowed _ a (.ask _ runs) with
        | other _ silent => exact absurd rfl (silent _)
      | update w =>
        let answer : Except StoreError Resource := .ok (w.renumbered v)
        obtain ⟨t, a, runs⟩ := (next answer).exists_runs
        cases allowed _ a (.ask answer runs) with
        | other _ silent => exact absurd rfl (silent _)
        | update _ change status =>
          have merged : { r with metadata := w.metadata, spec := w.spec } = w := by
            rw [← status]
          have keeps := Chronicle.Keeps.updated (w := w) v unused current change.number
          rw [merged] at keeps
          refine written w answer keeps trivial (change.deletion.trans undeleted) fun t a runs => ?_
          cases allowed _ a (.ask answer runs) with
          | other _ silent => exact absurd rfl (silent _)
          | update _ _ _ further => exact further v rfl
      | updateStatus w =>
        let answer : Except StoreError Resource := .ok (w.renumbered v)
        obtain ⟨t, a, runs⟩ := (next answer).exists_runs
        cases allowed _ a (.ask answer runs) with
        | other _ silent => exact absurd rfl (silent _)
        | updateStatus _ change metadata spec =>
          have merged : { r with status := w.status } = w := by
            rw [← metadata, ← spec]
          have keeps := Chronicle.Keeps.statusUpdated (w := w) v unused current change.number
          rw [merged] at keeps
          refine written w answer keeps trivial (change.deletion.trans undeleted) fun t a runs => ?_
          cases allowed _ a (.ask answer runs) with
          | other _ silent => exact absurd rfl (silent _)
          | updateStatus _ _ _ _ further => exact further v rfl

end Pass

/-- Any number of passes can go by a script. -/
theorem exists_undisturbed (σ : Script) (delay : Nat) (namespaceName name : String) {s : Chronicle}
    {r : Resource} (current : s.current = some r) (undeleted : r.isDeletionRequested = false)
    (k n : Nat) :
    ∃ (ps : List (PassRun delay namespaceName name)) (s' : Chronicle) (k' : Nat),
      Undisturbed delay namespaceName name s ps s' ∧ ps.length = n ∧
      σ.Plays k (PassRun.asking ps) k' := by
  induction n generalizing s r k with
  | zero => exact ⟨[], s, k, .rest s, rfl, .rest k⟩
  | succ n ih =>
    obtain ⟨t, res, s₁, k₁, runs, untroubled, played, r', stored, undeleted'⟩ :=
      Pass.exists_rehearsed σ k (Pass.step delay r).run current undeleted
        fun t res runs => (Pass.course_of_runs runs).allowed
    obtain ⟨ps, s', k', rest, length, later⟩ := ih stored undeleted' k₁
    let p : PassRun delay namespaceName name := .found (Pass.course_of_runs runs)
    have loaded : s.Untroubled p.trace s₁ :=
      .cons (.of_current current namespaceName name) trivial untroubled
    refine ⟨p :: ps, s', k', .pass loaded rest, by simp [length], ?_⟩
    exact .other (fun _ => PassCall.noConfusion) (played.append later)

end DatabaseOperator
