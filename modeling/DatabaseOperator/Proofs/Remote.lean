import DatabaseOperator.Proofs.Launch
import DatabaseOperator.Proofs.Provider.Deletion

namespace DatabaseOperator

/-- A client, and its bearer token once it has one. -/
structure Connection where
  client : Client
  bearer : Option String

/-- The calls of a pass to the provider are carried out over HTTP by the client that was connected last,
with these requests. A new client has no bearer token, and without a client a call fails. -/
inductive Carried (overrides : EndpointOverrides) :
    Option Connection → List (Exchange pass) → List (Exchange http) → Prop
  | done (k : Option Connection) : Carried overrides k [] []
  | apart {k : Option Connection} {c : PassCall} {t : List (Exchange pass)}
      {h : List (Exchange http)} (a : pass.Answer c) : (∀ token region, c ≠ .connect token region) →
      (∀ d, c ≠ .provider d) → Carried overrides k t h → Carried overrides k (⟨c, a⟩ :: t) h
  | refused {k : Option Connection} {token region : String} {e : ProviderError}
      {t : List (Exchange pass)} {h : List (Exchange http)} :
      Client.connect overrides token region = .error e → Carried overrides k t h →
      Carried overrides k (⟨.connect token region, .error e⟩ :: t) h
  | connected {k : Option Connection} {token region : String} {c : Client}
      {t : List (Exchange pass)} {h : List (Exchange http)} :
      Client.connect overrides token region = .ok c → Carried overrides (some ⟨c, none⟩) t h →
      Carried overrides k (⟨.connect token region, .ok ()⟩ :: t) h
  | unconnected {c : ProviderCall} {t : List (Exchange pass)} {h : List (Exchange http)} :
      Carried overrides none t h →
      Carried overrides none (⟨.provider c, .error .transport⟩ :: t) h
  | performed {client : Client} {b b' : Option String} {c : ProviderCall}
      {a : Except ProviderError c.Result} {t : List (Exchange pass)} {h h' : List (Exchange http)} :
      (client.perform c).Runs b h a b' → Carried overrides (some ⟨client, b'⟩) t h' →
      Carried overrides (some ⟨client, b⟩) (⟨.provider c, a⟩ :: t) (h ++ h')

namespace Carried

variable {overrides : EndpointOverrides} {k : Option Connection} {t u : List (Exchange pass)}
  {h : List (Exchange http)} {r : Resource}

theorem of_apart {c : PassCall} {a : pass.Answer c} (carried : Carried overrides k (⟨c, a⟩ :: t) h)
    (unconnected : ∀ token region, c ≠ .connect token region) (home : ∀ d, c ≠ .provider d) :
    Carried overrides k t h := by
  cases carried with
  | apart _ _ _ rest => exact rest
  | refused | connected => exact absurd rfl (unconnected _ _)
  | unconnected | performed => exact absurd rfl (home _)

theorem of_secrets {s : List (Exchange secrets)}
    (carried : Carried overrides k (s.map .ofSecret ++ t) h) : Carried overrides k t h := by
  induction s with
  | nil => exact carried
  | cons e s ih =>
    exact ih (carried.of_apart (fun _ _ => PassCall.noConfusion) fun _ => PassCall.noConfusion)

theorem eq_nil (carried : Carried overrides k t h) (none : ∀ e ∈ t, ∀ c, e.call ≠ .provider c) :
    h = [] := by
  induction carried with
  | done => rfl
  | apart _ _ _ _ ih | refused _ _ ih | connected _ _ ih =>
    exact ih fun e he => none e (List.mem_cons_of_mem _ he)
  | unconnected | performed => exact absurd rfl (none _ List.mem_cons_self _)

theorem of_opening (opening : Pass.Opening r t (.ok ()))
    (carried : Carried overrides k (t ++ u) h) :
    ∃ c : Client, c.endpoints = (Endpoints.ofRegion r.spec.region).override overrides ∧
      Carried overrides (some ⟨c, none⟩) u h := by
  generalize opened : Except.ok () = res at opening
  cases opening with
  | tokenless => cases opened
  | connected a read =>
    rw [List.append_assoc] at carried
    cases carried.of_secrets with
    | apart _ unconnected => exact absurd rfl (unconnected _ _)
    | refused => cases opened
    | connected client rest => exact ⟨_, Client.endpoints_of_connect client, rest⟩

end Carried

namespace PassRun

variable {delay : Nat} {namespaceName name : String} {p : PassRun delay namespaceName name}
  {overrides : EndpointOverrides} {k : Option Connection} {r : Resource}
  {t : List (Exchange pass)} {h : List (Exchange http)}

theorem isGone_iff_of_carried {id : String} {c : Client} {a : Except ProviderError Unit}
    {u : List (Exchange pass)}
    (carried : Carried overrides (some ⟨c, none⟩) (⟨.provider (.deleteDatabase id), a⟩ :: u) h)
    (last : ∀ e ∈ u, ∀ d, e.call ≠ .provider d) :
    Pass.isGone a = true ↔ DeletionAnswered c.endpoints id h ∨
      (ExchangeMissing c.endpoints h ∧ ∀ e ∈ h, e.call.method ≠ .delete) := by
  cases carried with
  | apart _ _ home => exact absurd rfl (home _)
  | performed run rest =>
    obtain rfl := rest.eq_nil last
    rw [List.append_nil]
    have run : (c.deleteDatabase id).Runs none _ a _ := run
    rw [Client.isGone_iff run]
    constructor
    · rintro (missing | answered)
      · exact .inr ⟨missing, Client.not_delete_of_missing run missing⟩
      · exact .inl answered
    · rintro (answered | ⟨missing, _⟩)
      · exact .inr answered
      · exact .inl missing

theorem releases_iff_of_finalizing {res : Except Error Requeue} (course : Pass.Finalizing r t res)
    (guarded : r.hasFinalizer = true) (recorded : r.databaseId ≠ "")
    (carried : Carried overrides k t h) :
    (∃ w a, (⟨.resource (.update w), a⟩ : Exchange pass) ∈ t ∧ w.hasFinalizer = false) ↔
      DeletionAnswered ((Endpoints.ofRegion r.spec.region).override overrides) r.databaseId h ∨
        (ExchangeMissing ((Endpoints.ofRegion r.spec.region).override overrides) h ∧
          ∀ e ∈ h, e.call.method ≠ .delete) := by
  cases course with
  | unguarded unguarded => exact absurd (guarded.symm.trans unguarded) (by decide)
  | unrecorded _ _ unrecorded => exact absurd unrecorded recorded
  | closed _ _ opening =>
    obtain rfl := carried.eq_nil opening.unasked
    constructor
    · rintro ⟨w, a, mem, _⟩
      exact absurd mem opening.quiet.not_mem
    · rintro (answered | ⟨missing, _⟩)
      · exact absurd answered not_answered_nil
      · exact absurd missing not_answered_nil
  | refused _ _ opening kept =>
    obtain ⟨c, endpoints, rest⟩ := carried.of_opening opening
    rw [← endpoints, ← isGone_iff_of_carried rest fun _ he => nomatch he]
    constructor
    · rintro ⟨w, a, mem, _⟩
      cases List.mem_singleton.mp (opening.quiet.mem_of_append mem)
    · intro gone
      exact absurd (kept.symm.trans gone) (by decide)
  | deleted a b _ _ opening gone =>
    obtain ⟨c, endpoints, rest⟩ := carried.of_opening opening
    rw [← endpoints, ← isGone_iff_of_carried rest fun e he d => by
      cases List.mem_singleton.mp he
      exact PassCall.noConfusion]
    exact ⟨fun _ => gone, fun _ => ⟨_, b, List.mem_append_right _ (.tail _ (.head _)),
      Resource.hasFinalizer_removeFinalizer⟩⟩

/-- Whatever database is recorded, an exchange that is answered with 404 is all that a pass asks before it
gives up the finalizer. -/
theorem exists_released_undeleted {c : Client} {token : String} {q : Request} (delay : Nat)
    (namespaceName name : String) (k : Option Connection) (deleting : r.isDeletionRequested = true)
    (guarded : r.hasFinalizer = true) (recorded : r.databaseId ≠ "") (located : r.namespaceName ≠ "")
    (secretNamed : r.spec.authSecret.name ≠ "") (keyNamed : r.spec.authSecret.key ≠ "")
    (connected : Client.connect overrides token r.spec.region = .ok c)
    (sendable : c.exchangeDraft.request? = some q) :
    ∃ (p : PassRun delay namespaceName name) (t : List (Exchange pass)) (stored : Resource),
      p.trace = ⟨.resource (.get namespaceName name), .ok (some r)⟩ :: t ∧
      Carried overrides k p.trace [⟨q, some ⟨404, ""⟩⟩] ∧
      (⟨.resource (.update r.removeFinalizer), .ok stored⟩ : Exchange pass) ∈ p.trace := by
  let stored := r.removeFinalizer
  let missing : Except ProviderError Unit := .error (.notFound "token exchange")
  let t : List (Exchange pass) := [⟨.connect token r.spec.region, .ok ()⟩,
    ⟨.provider (.deleteDatabase r.databaseId), missing⟩, ⟨.resource (.update stored), .ok stored⟩]
  let read : Exchange pass :=
    ⟨.secret (.get r.namespaceName r.spec.authSecret.name r.spec.authSecret.key), .ok token⟩
  have opening : Pass.Opening r [read, ⟨.connect token r.spec.region, .ok ()⟩] (.ok ()) :=
    .connected (.ok ()) ((runs_readSecret_iff located secretNamed keyNamed).mpr
      ⟨.ok token, rfl, rfl⟩)
  have course : Pass.Course delay r (read :: t) (.ok .done) :=
    .finalize deleting (.deleted missing (.ok stored) guarded recorded opening rfl)
  have run : (c.perform (.deleteDatabase r.databaseId)).Runs none [⟨q, some ⟨404, ""⟩⟩] missing none :=
    Client.runs_deleteDatabase_iff.mpr
      (.inl ⟨_, rfl, rfl, .inr ⟨q, some ⟨404, ""⟩, sendable, rfl, rfl⟩⟩)
  have write : Carried overrides (some ⟨c, none⟩) [⟨.resource (.update stored), .ok stored⟩] [] :=
    .apart _ (fun _ _ => PassCall.noConfusion) (fun _ => PassCall.noConfusion) (.done _)
  have ask := Carried.performed run write
  have carried : Carried overrides k t [⟨q, some ⟨404, ""⟩⟩] := .connected connected ask
  let p : PassRun delay namespaceName name := .found course
  have trace : p.trace = ⟨.resource (.get namespaceName name), .ok (some r)⟩ :: read :: t := rfl
  refine ⟨p, read :: t, stored, trace, ?_, ?_⟩
  · rw [trace]
    exact .apart _ (fun _ _ => PassCall.noConfusion) (fun _ => PassCall.noConfusion)
      (.apart _ (fun _ _ => PassCall.noConfusion) (fun _ => PassCall.noConfusion) carried)
  · rw [trace]
    exact .tail _ (.tail _ (.tail _ (.tail _ (.head _))))

/-- The sample with its database, once its deletion is asked for. -/
def leaving : Resource where
  metadata := { sample.metadata with
    finalizers := some [Names.finalizer], deletionTimestamp := some .epoch }
  spec := sample.spec
  status := some ⟨[], "db-1"⟩

theorem exists_leaving_released :
    ∃ (q : Request) (p : PassRun 30000 "prod" "db") (t : List (Exchange pass)) (stored : Resource),
      q.method = .post ∧ p.trace = ⟨.resource (.get "prod" "db"), .ok (some leaving)⟩ :: t ∧
      Carried ⟨none, none, none⟩ none p.trace [⟨q, some ⟨404, ""⟩⟩] ∧
      (⟨.resource (.update leaving.removeFinalizer), .ok stored⟩ : Exchange pass) ∈ p.trace := by
  let c : Client := ⟨"token", (Endpoints.ofRegion "osc-fr1").override ⟨none, none, none⟩⟩
  obtain ⟨q, sendable⟩ : ∃ q, c.exchangeDraft.request? = some q :=
    Option.isSome_iff_exists.mp (by decide +kernel)
  have connected : Client.connect ⟨none, none, none⟩ "token" leaving.spec.region = .ok c := rfl
  obtain ⟨p, t, stored, released⟩ := exists_released_undeleted (r := leaving) 30000 "prod" "db" none
    rfl (by decide) (by decide) (by decide) (by decide) (by decide) connected sendable
  exact ⟨q, p, t, stored, (Client.request?_eq_some rfl sendable).1, released⟩

/-- So the finalizer can go without the deletion of the database having been asked for. -/
theorem not_always_deletion_answered :
    ¬ ∀ (overrides : EndpointOverrides) (delay : Nat) (namespaceName name : String)
      (k : Option Connection) (p : PassRun delay namespaceName name) (r : Resource)
      (t : List (Exchange pass)) (h : List (Exchange http)),
      p.trace = ⟨.resource (.get namespaceName name), .ok (some r)⟩ :: t →
      r.isDeletionRequested = true → r.hasFinalizer = true → r.databaseId ≠ "" →
      Carried overrides k p.trace h →
      (∃ w stored, (⟨.resource (.update w), .ok stored⟩ : Exchange pass) ∈ p.trace ∧
        w.hasFinalizer = false) →
      DeletionAnswered ((Endpoints.ofRegion r.spec.region).override overrides) r.databaseId h := by
  intro always
  obtain ⟨q, p, t, stored, method, found, carried, mem⟩ := exists_leaving_released
  have answered := always ⟨none, none, none⟩ 30000 "prod" "db" none p leaving t _ found rfl
    (by decide) (by decide) carried ⟨_, stored, mem, Resource.hasFinalizer_removeFinalizer⟩
  cases method.symm.trans (answered_single_iff.mp answered).1

/-- A pass over HTTP gives up the finalizer of a resource with a recorded id when the deletion of its
database was answered with a success or with 404, and in one case more: when the exchange of the token was
answered with 404, after which the deletion is not even asked for. -/
theorem releases_iff_answered (found : p.trace = ⟨.resource (.get namespaceName name), .ok (some r)⟩ :: t)
    (deleting : r.isDeletionRequested = true) (guarded : r.hasFinalizer = true)
    (recorded : r.databaseId ≠ "") (carried : Carried overrides k p.trace h) :
    p.Releases ↔
      DeletionAnswered ((Endpoints.ofRegion r.spec.region).override overrides) r.databaseId h ∨
        (ExchangeMissing ((Endpoints.ofRegion r.spec.region).override overrides) h ∧
          ∀ e ∈ h, e.call.method ≠ .delete) := by
  have passing := Pass.runs_run_iff.mp p.runs
  rw [found] at passing carried
  have carried : Carried overrides k t h :=
    carried.of_apart (fun _ _ => PassCall.noConfusion) fun _ => PassCall.noConfusion
  obtain ⟨res, finalizing⟩ := passing.finalizing deleting
  rw [← releases_iff_of_finalizing finalizing guarded recorded carried]
  unfold Releases
  rw [found]
  constructor
  · rintro ⟨w, a, mem, bare⟩
    exact ⟨w, a, (List.mem_cons.mp mem).resolve_left nofun, bare⟩
  · rintro ⟨w, a, mem, bare⟩
    exact ⟨w, a, .tail _ mem, bare⟩

theorem releases_iff_answered_leaving :
    ∃ (q : Request) (p : PassRun 30000 "prod" "db") (t : List (Exchange pass)),
      p.trace = ⟨.resource (.get "prod" "db"), .ok (some leaving)⟩ :: t ∧
      leaving.isDeletionRequested = true ∧ leaving.hasFinalizer = true ∧ leaving.databaseId ≠ "" ∧
      Carried ⟨none, none, none⟩ none p.trace [⟨q, some ⟨404, ""⟩⟩] ∧
      (p.Releases ↔
        DeletionAnswered ((Endpoints.ofRegion leaving.spec.region).override ⟨none, none, none⟩)
            leaving.databaseId [⟨q, some ⟨404, ""⟩⟩] ∨
          (ExchangeMissing ((Endpoints.ofRegion leaving.spec.region).override ⟨none, none, none⟩)
              [⟨q, some ⟨404, ""⟩⟩] ∧
            ∀ e ∈ ([⟨q, some ⟨404, ""⟩⟩] : List (Exchange http)), e.call.method ≠ .delete)) := by
  obtain ⟨q, p, t, stored, _, found, carried, _⟩ := exists_leaving_released
  exact ⟨q, p, t, found, rfl, by decide, by decide, carried,
    releases_iff_answered found rfl (by decide) (by decide) carried⟩

end PassRun

end DatabaseOperator
