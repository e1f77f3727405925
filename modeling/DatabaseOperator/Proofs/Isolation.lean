import DatabaseOperator.Proofs.Guards
import DatabaseOperator.Proofs.Overtaking
import DatabaseOperator.Proofs.Pass.Bounds
import Mathlib.Logic.Function.Basic

namespace DatabaseOperator

/-- All that is stored in a cluster. A resource is found where it says that it is. -/
structure Estate where
  resources : ObjectKey → Option Resource
  secrets : Vault
  placed : ∀ k r, resources k = some r → SimulatedStores.key r = k

/-- Where a secret is kept. -/
def Secret.LiesAt (s : Secret) (namespaceName name key : String) : Prop :=
  s.namespaceName = namespaceName ∧ s.name = name ∧ s.key = key

namespace Estate

variable {s s' s₁ s₂ : Estate} {e : Exchange pass} {t u : List (Exchange pass)} {k : ObjectKey}
  {namespaceName name key : String}

/-- Puts another version in the place of a resource, or nothing. -/
def store (s : Estate) (k : ObjectKey) (new : Option Resource)
    (placed : ∀ x, new = some x → SimulatedStores.key x = k) : Estate where
  resources := Function.update s.resources k new
  secrets := s.secrets
  placed k' r found := by
    by_cases same : k' = k
    · rw [same, Function.update_self] at found
      exact (placed r found).trans same.symm
    · rw [Function.update_of_ne same] at found
      exact s.placed k' r found

def save (s : Estate) (x : Secret) : Estate :=
  { s with secrets := s.secrets.put x }

/-- An answer of the stores and what becomes of them. Any call can fail, and one that writes may have
taken effect all the same. What is stored for a resource is up to the store, as long as it is found at the
same place. -/
inductive Answers (s : Estate) : Exchange pass → Estate → Prop
  | got (namespaceName name : String) : Answers s
      ⟨.resource (.get namespaceName name), .ok (s.resources (namespaceName, name))⟩ s
  | refused (c : ResourceCall) (f : StoreError) : Answers s ⟨.resource c, .error f⟩ s
  | updated {w : Resource} {a : Except StoreError Resource} (new : Option Resource)
      (placed : ∀ x, new = some x → SimulatedStores.key x = SimulatedStores.key w) :
      (∀ x, a = .ok x → SimulatedStores.key x = SimulatedStores.key w) →
      Answers s ⟨.resource (.update w), a⟩ (s.store (SimulatedStores.key w) new placed)
  | statusUpdated {w : Resource} {a : Except StoreError Resource} (new : Option Resource)
      (placed : ∀ x, new = some x → SimulatedStores.key x = SimulatedStores.key w) :
      (∀ x, a = .ok x → SimulatedStores.key x = SimulatedStores.key w) →
      Answers s ⟨.resource (.updateStatus w), a⟩ (s.store (SimulatedStores.key w) new placed)
  | looked {namespaceName name key : String} (a : Except StoreError String) :
      (∀ value, a = .ok value → s.secrets namespaceName name key = some value) →
      Answers s ⟨.secret (.get namespaceName name key), a⟩ s
  | saved (x : Secret) (owner : Option Owner) (a : Except StoreError Unit) :
      Answers s ⟨.secret (.set x owner), a⟩ (s.save x)
  | unsaved (x : Secret) (owner : Option Owner) (f : StoreError) :
      Answers s ⟨.secret (.set x owner), .error f⟩ s
  | connected (token region : String) (a : Except ProviderError Unit) :
      Answers s ⟨.connect token region, a⟩ s
  | asked (c : ProviderCall) (a : Except ProviderError c.Result) : Answers s ⟨.provider c, a⟩ s
  | timed (time : Time) : Answers s ⟨.now, time⟩ s

/-- The stores answer these calls in this order. -/
inductive Hosts : Estate → List (Exchange pass) → Estate → Prop
  | rest (s : Estate) : Hosts s [] s
  | next {s s₁ s₂ : Estate} {e : Exchange pass} {t : List (Exchange pass)} : s.Answers e s₁ →
      Hosts s₁ t s₂ → Hosts s (e :: t) s₂

theorem store_of_ne {new : Option Resource} {k' : ObjectKey}
    {placed : ∀ x, new = some x → SimulatedStores.key x = k'} (other : k ≠ k') :
    (s.store k' new placed).resources k = s.resources k := by
  rw [store]
  exact Function.update_of_ne other new s.resources

theorem save_of_elsewhere {x : Secret} (elsewhere : ¬ x.LiesAt namespaceName name key) :
    (s.save x).secrets namespaceName name key = s.secrets namespaceName name key := by
  refine if_neg fun ⟨located, named, keyed⟩ => elsewhere ?_
  exact ⟨located.symm, named.symm, keyed.symm⟩

/-- Only a write of a resource can change what is stored in its place. -/
theorem Answers.resources_eq (h : s.Answers e s')
    (elsewhere : ∀ w, e.call.Writes w → SimulatedStores.key w ≠ k) : s'.resources k = s.resources k := by
  cases h with
  | got | refused | looked | saved | unsaved | connected | asked | timed => rfl
  | updated => exact store_of_ne (elsewhere _ (.inl rfl)).symm
  | statusUpdated => exact store_of_ne (elsewhere _ (.inr rfl)).symm

/-- Only a write of a secret can change what is stored in its place. -/
theorem Answers.secrets_eq (h : s.Answers e s')
    (elsewhere : ∀ x, e.call.written? = some x → ¬ x.LiesAt namespaceName name key) :
    s'.secrets namespaceName name key = s.secrets namespaceName name key := by
  cases h with
  | got | refused | updated | statusUpdated | looked | unsaved | connected | asked | timed => rfl
  | saved x => exact save_of_elsewhere (elsewhere x rfl)

theorem Hosts.resources_eq (h : s.Hosts t s')
    (elsewhere : ∀ e ∈ t, ∀ w, e.call.Writes w → SimulatedStores.key w ≠ k) :
    s'.resources k = s.resources k := by
  induction h with
  | rest => rfl
  | next answers _ ih =>
    obtain ⟨first, later⟩ := List.forall_mem_cons.mp elsewhere
    exact (ih later).trans (answers.resources_eq first)

theorem Hosts.secrets_eq (h : s.Hosts t s')
    (elsewhere : ∀ x ∈ Pass.written t, ¬ x.LiesAt namespaceName name key) :
    s'.secrets namespaceName name key = s.secrets namespaceName name key := by
  induction h with
  | rest => rfl
  | @next _ _ _ e t answers _ ih =>
    have first : ∀ x, e.call.written? = some x → ¬ x.LiesAt namespaceName name key :=
      fun x writes => elsewhere x (List.mem_filterMap.mpr ⟨e, List.mem_cons_self, writes⟩)
    have later : ∀ x ∈ Pass.written t, ¬ x.LiesAt namespaceName name key := by
      intro x mem
      obtain ⟨d, asked, writes⟩ := List.mem_filterMap.mp mem
      exact elsewhere x (List.mem_filterMap.mpr ⟨d, List.mem_cons_of_mem e asked, writes⟩)
    exact (ih later).trans (answers.secrets_eq first)

/-- What the stores give for a resource is found where it was asked for. -/
theorem Hosts.key_of_got {r : Resource} (h : s.Hosts t s')
    (mem : (⟨.resource (.get namespaceName name), .ok (some r)⟩ : Exchange pass) ∈ t) :
    SimulatedStores.key r = (namespaceName, name) := by
  induction h with
  | rest => cases mem
  | next answers _ ih =>
    rcases List.mem_cons.mp mem with rfl | later
    · generalize found : Except.ok (some r) = a at answers
      cases answers with
      | got => exact Estate.placed _ _ r (Except.ok.inj found).symm
      | refused => cases found
    · exact ih later

/-- What the stores give back for the conditions of a resource is found where the resource is. -/
theorem Hosts.key_of_noted {w r : Resource} (h : s.Hosts t s')
    (mem : (⟨.resource (.updateStatus w), .ok r⟩ : Exchange pass) ∈ t) :
    SimulatedStores.key r = SimulatedStores.key w := by
  induction h with
  | rest => cases mem
  | next answers _ ih =>
    rcases List.mem_cons.mp mem with rfl | later
    · cases answers with
      | statusUpdated new placed told => exact told r rfl
    · exact ih later

end Estate

/-- A pass over the resource with some name. -/
structure Visit where
  delay : Nat
  namespaceName : String
  name : String
  run : PassRun delay namespaceName name

namespace Visit

/-- Where the resource of the visit is. -/
def key (v : Visit) : ObjectKey :=
  (v.namespaceName, v.name)

/-- The visit has loaded this version of the resource, or got it back for the conditions. -/
def Sees (v : Visit) (r : Resource) : Prop :=
  (⟨.resource (.get v.namespaceName v.name), .ok (some r)⟩ : Exchange pass) ∈ v.run.trace ∨
    ∃ w, (⟨.resource (.updateStatus w), .ok r⟩ : Exchange pass) ∈ v.run.trace

/-- What a visit asks of the stores and what it leaves there. Each call stays within what a version of its
resource declares that it has seen. -/
structure Confined (v : Visit) (s s' : Estate) : Prop where
  seen : ∀ r, v.Sees r → SimulatedStores.key r = v.key
  calls : ∀ e ∈ v.run.trace, e.call = .resource (.get v.namespaceName v.name) ∨
    ∃ r, v.Sees r ∧ e.call.Within r
  once : (Pass.written v.run.trace).length ≤ 1
  resources : ∀ k, k ≠ v.key → s'.resources k = s.resources k
  secrets : ∀ namespaceName name key, (∀ x ∈ Pass.written v.run.trace, ¬ x.LiesAt namespaceName name key) →
    s'.secrets namespaceName name key = s.secrets namespaceName name key

variable {v : Visit} {s s' : Estate} {r : Resource} {t : List (Exchange pass)}

/-- A visit loads its resource and then stays within it. -/
theorem cases_of_trace (v : Visit) :
    (∃ a, v.run.trace = [⟨.resource (.get v.namespaceName v.name), a⟩]) ∨
      ∃ r t, v.run.trace = ⟨.resource (.get v.namespaceName v.name), .ok (some r)⟩ :: t ∧
        Pass.Bounded r t := by
  have passing := Pass.runs_run_iff.mp v.run.runs
  generalize v.run.trace = trace at passing
  generalize v.run.result = result at passing
  cases passing with
  | unread e => exact .inl ⟨_, rfl⟩
  | gone => exact .inl ⟨_, rfl⟩
  | found course => exact .inr ⟨_, _, rfl, course.bounded⟩

/-- Every call stays within a version of the resource that the visit has seen. -/
theorem exists_within (h : s.Hosts v.run.trace s') {e : Exchange pass} (asked : e ∈ v.run.trace) :
    e.call = .resource (.get v.namespaceName v.name) ∨
      ∃ r, v.Sees r ∧ SimulatedStores.key r = v.key ∧ e.call.Within r := by
  rcases v.cases_of_trace with ⟨a, trace⟩ | ⟨r, t, trace, bounded⟩
  · rw [trace] at asked
    cases List.mem_singleton.mp asked
    exact .inl rfl
  have loaded : (⟨.resource (.get v.namespaceName v.name), .ok (some r)⟩ : Exchange pass) ∈ v.run.trace :=
    trace ▸ List.mem_cons_self
  have placed : SimulatedStores.key r = v.key := h.key_of_got loaded
  rw [trace] at asked
  rcases List.mem_cons.mp asked with rfl | asked
  · exact .inl rfl
  refine .inr ?_
  cases bounded with
  | loaded modest => exact ⟨r, .inl loaded, placed, modest.within e asked⟩
  | @renewed t u w stored early placed' declared late =>
    have noted : (⟨.resource (.updateStatus w), .ok stored⟩ : Exchange pass) ∈ v.run.trace :=
      trace ▸ List.mem_cons_of_mem _ (List.mem_append_right t List.mem_cons_self)
    rcases List.mem_append.mp asked with before | asked
    · exact ⟨r, .inl loaded, placed, early.within e before⟩
    rcases List.mem_cons.mp asked with rfl | after
    · exact ⟨r, .inl loaded, placed, placed', declared⟩
    · exact ⟨stored, .inr ⟨w, noted⟩, (h.key_of_noted noted).trans (placed'.trans placed),
        late.within e after⟩

theorem key_of_sees (h : s.Hosts v.run.trace s') (sees : v.Sees r) : SimulatedStores.key r = v.key := by
  rcases sees with loaded | ⟨w, noted⟩
  · exact h.key_of_got loaded
  · rcases exists_within h noted with other | ⟨x, _, placed, within⟩
    · cases other
    · exact (h.key_of_noted noted).trans (within.1.trans placed)

theorem key_of_writes {e : Exchange pass} {w : Resource} (h : s.Hosts v.run.trace s')
    (asked : e ∈ v.run.trace) (writes : e.call.Writes w) : SimulatedStores.key w = v.key := by
  rcases exists_within h asked with got | ⟨x, _, placed, within⟩
  · rw [got] at writes
    rcases writes with other | other <;> cases other
  · rcases writes with update | status
    · rw [update] at within
      exact within.1.trans placed
    · rw [status] at within
      exact within.1.trans placed

theorem once (v : Visit) : (Pass.written v.run.trace).length ≤ 1 := by
  rcases v.cases_of_trace with ⟨a, trace⟩ | ⟨r, t, trace, bounded⟩
  · rw [trace]
    exact Nat.zero_le 1
  rw [trace]
  cases bounded with
  | loaded modest => exact modest.once
  | @renewed t u w stored early _ _ late =>
    have unwritten : Pass.written (t ++ ⟨.resource (.updateStatus w), .ok stored⟩ :: u) =
        Pass.written u := by
      rw [Pass.written_append, early.unwritten]
      rfl
    exact unwritten ▸ late.once

theorem confined (h : s.Hosts v.run.trace s') : v.Confined s s' where
  seen _ sees := key_of_sees h sees
  calls _ asked := (exists_within h asked).imp_right fun ⟨r, sees, _, within⟩ => ⟨r, sees, within⟩
  once := v.once
  resources _ other := h.resources_eq fun _ asked _ writes same =>
    other (same.symm.trans (key_of_writes h asked writes))
  secrets _ _ _ elsewhere := h.secrets_eq elsewhere

/-- A secret that a visit writes lies in its namespace. -/
theorem Confined.namespaceName_eq {x : Secret} (h : v.Confined s s')
    (written : x ∈ Pass.written v.run.trace) : x.namespaceName = v.namespaceName := by
  obtain ⟨e, asked, writes⟩ := List.mem_filterMap.mp written
  obtain ⟨owner, saves⟩ := PassCall.eq_of_written writes
  rcases h.calls e asked with got | ⟨r, sees, within⟩
  · cases saves.symm.trans got
  · rw [saves] at within
    exact within.1.trans (congrArg Prod.fst (h.seen r sees))

end Visit

/-- Visits one after the other. -/
inductive Tour : Estate → List Visit → Estate → Prop
  | start (s : Estate) : Tour s [] s
  | visit {s s₁ s₂ : Estate} {v : Visit} {vs : List Visit} : s.Hosts v.run.trace s₁ → Tour s₁ vs s₂ →
      Tour s (v :: vs) s₂

namespace Tour

variable {s s' : Estate} {vs before after : List Visit} {v : Visit}

theorem of_append (h : Tour s (before ++ v :: after) s') :
    ∃ s₁ s₂, Tour s before s₁ ∧ s₁.Hosts v.run.trace s₂ ∧ Tour s₂ after s' := by
  induction before generalizing s with
  | nil =>
    cases h with
    | visit hosts rest => exact ⟨s, _, .start s, hosts, rest⟩
  | cons u before ih =>
    cases h with
    | visit hosts rest =>
      obtain ⟨s₁, s₂, begun, during, left⟩ := ih rest
      exact ⟨s₁, s₂, .visit hosts begun, during, left⟩

/-- What visits leave alone: every resource that none of them is over, and every key of a secret that none
of them writes in its own namespace. -/
structure Isolated (vs : List Visit) (s s' : Estate) : Prop where
  visits : ∀ before v after, vs = before ++ v :: after → ∃ s₁ s₂, Tour s before s₁ ∧
    s₁.Hosts v.run.trace s₂ ∧ Tour s₂ after s' ∧ v.Confined s₁ s₂
  resources : ∀ k, (∀ v ∈ vs, k ≠ v.key) → s'.resources k = s.resources k
  secrets : ∀ namespaceName name key, s'.secrets namespaceName name key ≠ s.secrets namespaceName name key →
    ∃ v ∈ vs, v.namespaceName = namespaceName ∧
      ∃ x ∈ Pass.written v.run.trace, x.LiesAt namespaceName name key

/-- Whatever is stored, whichever resources are visited and whatever fails, the visits keep apart. -/
theorem isolates (h : Tour s vs s') : Isolated vs s s' where
  visits := by
    rintro before v after rfl
    obtain ⟨s₁, s₂, begun, during, left⟩ := h.of_append
    exact ⟨s₁, s₂, begun, during, left, Visit.confined during⟩
  resources k unvisited := by
    induction h with
    | start => rfl
    | visit hosts _ ih =>
      obtain ⟨first, later⟩ := List.forall_mem_cons.mp unvisited
      exact (ih later).trans ((Visit.confined hosts).resources k first)
  secrets namespaceName name key changed := by
    induction h with
    | start => exact absurd rfl changed
    | @visit s s₁ s₂ v vs hosts _ ih =>
      have confined := Visit.confined hosts
      by_cases here : ∃ x ∈ Pass.written v.run.trace, x.LiesAt namespaceName name key
      · obtain ⟨x, written, lies⟩ := here
        have located : v.namespaceName = namespaceName :=
          (confined.namespaceName_eq written).symm.trans lies.1
        exact ⟨v, List.mem_cons_self, located, x, written, lies⟩
      · have same := confined.secrets namespaceName name key fun x mem lies => here ⟨x, mem, lies⟩
        obtain ⟨u, mem, rest⟩ := ih (same ▸ changed)
        exact ⟨u, List.mem_cons_of_mem v mem, rest⟩

end Tour

namespace Estate

/-- The sample in another namespace. -/
def neighbour : Resource :=
  { pending with metadata.namespaceName := some "staging" }

/-- The sample and its neighbour, each with a token. -/
def shared : Estate where
  resources k :=
    if k = ("prod", "db") then some pending else if k = ("staging", "db") then some neighbour else none
  secrets := (Vault.empty.put ⟨"staging", "scalingo", "token", "beta"⟩).put
    ⟨"prod", "scalingo", "token", "alpha"⟩
  placed k r found := by
    split at found
    next first =>
      cases found
      exact first.symm
    next =>
      split at found
      next second =>
        cases found
        exact second.symm
      next => cases found

theorem placed_pendingAvailable (x : Resource) (same : some pendingAvailable = some x) :
    SimulatedStores.key x = ("prod", "db") := by
  cases same
  rfl

/-- The estate when the conditions of the sample are up to date and its secret is written. -/
def served : Estate :=
  (shared.store ("prod", "db") (some pendingAvailable) placed_pendingAvailable).save pendingSecret

theorem secrets_served :
    served.secrets "prod" "db-url" DatabaseType.postgresql.urlVariable = some "postgres://db" :=
  Vault.put_same shared.secrets pendingSecret

/-- The wait of the sample is served although its last write fails. -/
theorem hosts_served : shared.Hosts
    [⟨.resource (.get "prod" "db"), .ok (some pending)⟩,
      ⟨.secret (.get "prod" "scalingo" "token"), .ok "alpha"⟩, ⟨.connect "alpha" "osc-fr1", .ok ()⟩,
      ⟨.provider (.getDatabase pending.databaseId), .ok pendingDatabase⟩,
      ⟨.provider (.listFirewallRules "db-1" "addon-1"), .ok []⟩, ⟨.now, .epoch⟩, ⟨.now, .epoch⟩,
      ⟨.resource (.updateStatus (pending.setProvisioned .epoch).1), .ok pendingAvailable⟩,
      ⟨.provider (.findVariable "app-1" DatabaseType.postgresql.urlVariable), .ok "postgres://db"⟩,
      ⟨.secret (.set pendingSecret pendingAvailable.owner?), .ok ()⟩,
      ⟨.resource (.update (pendingAvailable.setRunningFlag true)), .error (.conflict "prod/db")⟩]
    served := by
  have loaded : shared.Answers ⟨.resource (.get "prod" "db"), .ok (some pending)⟩ shared := .got "prod" "db"
  have told (value : String) (same : Except.ok "alpha" = (Except.ok value : Except StoreError String)) :
      shared.secrets "prod" "scalingo" "token" = some value := by
    cases same
    exact Vault.put_same (Vault.empty.put ⟨"staging", "scalingo", "token", "beta"⟩)
      ⟨"prod", "scalingo", "token", "alpha"⟩
  have renoted : shared.Answers
      ⟨.resource (.updateStatus (pending.setProvisioned .epoch).1), .ok pendingAvailable⟩
      (shared.store ("prod", "db") (some pendingAvailable) placed_pendingAvailable) :=
    Answers.statusUpdated (w := (pending.setProvisioned .epoch).1) (some pendingAvailable)
      placed_pendingAvailable fun x same => placed_pendingAvailable x (congrArg some (Except.ok.inj same))
  refine .next loaded (.next (.looked _ told) (.next (.connected _ _ _) (.next (.asked _ _)
    (.next (.asked _ _) (.next (.timed _) (.next (.timed _) (.next renoted (.next (.asked _ _) ?_))))))))
  exact .next (.saved _ _ _) (.next (.refused _ _) (.rest _))

end Estate

/-- The sample is handed over although its last write fails, and its neighbour has only been read. -/
theorem Tour.isolates_shared : ∃ (v w : Visit) (s : Estate), v.key = ("prod", "db") ∧
    w.key = ("staging", "db") ∧ Tour .shared [v, w] s ∧ Isolated [v, w] .shared s ∧
    s.secrets "prod" "db-url" DatabaseType.postgresql.urlVariable = some "postgres://db" := by
  obtain ⟨wanted, waiting⟩ := pending_pending
  have awaiting := awaiting_pending (.error (.conflict "prod/db"))
  let v : Visit := ⟨30000, "prod", "db", .found
    (.await waiting.prepared (.inl waiting.recorded) (.inl waiting.unavailable) awaiting)⟩
  let w : Visit := ⟨30000, "staging", "db",
    ⟨_, _, Pass.runs_run_iff.mpr (.unread (.cluster (some 500)))⟩⟩
  have tour : Tour .shared [v, w] .served :=
    .visit Estate.hosts_served (.visit (.next (.refused _ _) (.rest _)) (.start _))
  exact ⟨v, w, _, rfl, rfl, tour, tour.isolates, Estate.secrets_served⟩

end DatabaseOperator
