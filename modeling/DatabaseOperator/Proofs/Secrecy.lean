import DatabaseOperator.Proofs.Overtaking
import DatabaseOperator.Proofs.Pass.Blind
import DatabaseOperator.Proofs.Pass.Secrets
import DatabaseOperator.Simulation.Provider
import DatabaseOperator.Simulation.Stores
import Mathlib.Data.List.Forall2

namespace DatabaseOperator

/-- Two secrets at one place, each with a value. -/
structure Secret.Alike (s s' : Secret) : Prop where
  concealed : s.concealed = s'.concealed
  valued : s.value ≠ ""
  valued' : s'.value ≠ ""

/-- A call without the token and without the value of a written secret. -/
def PassCall.concealed : PassCall → PassCall
  | .connect _ region => .connect "" region
  | .secret (.set s owner) => .secret (.set s.concealed owner)
  | c => c

def PassCall.token? : PassCall → Option String
  | .connect token _ => some token
  | _ => none

/-- The connection string that an answer gives. -/
def Exchange.url? : Exchange pass → Option ConnectionUrl
  | ⟨.provider (.findVariable _ key), .ok value⟩ => some ⟨key, value⟩
  | _ => none

/-- All that a pass talks to, apart from what is secret. It has some state, in which the resources are
stored and the databases are, and which says what fails and what others do. -/
structure Outside (ν : Type) where
  resource : (c : ResourceCall) → ν → Except StoreError c.Result × ν
  /-- With what the store of secrets refuses a call, if it does. -/
  secret : SecretCall → ν → Option StoreError × ν
  /-- What it answers where no secret is. -/
  absent : String → String → String → StoreError
  /-- An attempt to connect to a region, with an empty token or with one that is not. -/
  connect : Bool → String → ν → Except ProviderError Unit × ν
  /-- The answer to a question for a variable only says whether there is one. -/
  provider : (c : ProviderCall) → ν → Except ProviderError c.Result × ν
  now : ν → Time × ν

/-- What is secret at the provider: the value of each variable of each application. -/
abbrev Variables (ν : Type) : Type :=
  ν → String → String → String

/-- How things are in a run: the state outside, the stored secrets, and all that was asked so far. -/
structure Scene (ν : Type) where
  visible : ν
  held : List Secret
  trace : List (Exchange pass)

namespace Scene

variable {ν : Type}

def calls (a : Scene ν) : List PassCall :=
  a.trace.map fun e => e.call

/-- The secrets that occur: those that were written, and those that are stored. -/
def secrets (a : Scene ν) : List Secret :=
  a.calls.filterMap PassCall.written? ++ a.held

/-- The connection strings that occur. -/
def urls (a : Scene ν) : List ConnectionUrl :=
  a.trace.filterMap Exchange.url?

/-- Two runs that nobody can tell apart who does not see the tokens and the values of the secrets. -/
structure Indistinct (a b : Scene ν) : Prop where
  visible : a.visible = b.visible
  calls : a.calls.map PassCall.concealed = b.calls.map PassCall.concealed
  secretTexts : a.secrets.map Secret.text = b.secrets.map Secret.text
  secretFields : a.secrets.map Secret.shownFields = b.secrets.map Secret.shownFields
  urlTexts : a.urls.map ConnectionUrl.text = b.urls.map ConnectionUrl.text
  urlFields : a.urls.map ConnectionUrl.shownFields = b.urls.map ConnectionUrl.shownFields

end Scene

namespace Outside

variable {ν : Type} (O : Outside ν) (values : Variables ν)

/-- What is read of a stored secret. -/
def readFrom (held : List Secret) (namespaceName name key : String) : Except StoreError String :=
  match held.find? fun x => x.namespaceName = namespaceName ∧ x.name = name ∧ x.key = key with
  | none => .error (O.absent namespaceName name key)
  | some x => .ok x.value

/-- The answer to a call, and what becomes of the state outside and of the stored secrets. -/
def reply (v : ν) (held : List Secret) : (c : PassCall) → pass.Answer c × ν × List Secret
  | .resource c => ((O.resource c v).1, (O.resource c v).2, held)
  | .secret (.get namespaceName name key) =>
    match O.secret (.get namespaceName name key) v with
    | (some e, v) => (.error e, v, held)
    | (none, v) => (O.readFrom held namespaceName name key, v, held)
  | .secret (.set s owner) =>
    match O.secret (.set s.concealed owner) v with
    | (some e, v) => (.error e, v, held)
    | (none, v) => (.ok (), v, SimulatedStores.putSecret s held)
  | .connect token region =>
    ((O.connect token.isEmpty region v).1, (O.connect token.isEmpty region v).2, held)
  | .provider (.findVariable app key) =>
    ((O.provider (.findVariable app key) v).1.map fun _ => values v app key,
      (O.provider (.findVariable app key) v).2, held)
  | .provider c => ((O.provider c v).1, (O.provider c v).2, held)
  | .now => ((O.now v).1, (O.now v).2, held)

def answer (c : PassCall) : StateM (Scene ν) (pass.Answer c) := fun a =>
  let r := O.reply values a.visible a.held c
  (r.1, ⟨r.2.1, r.2.2, a.trace ++ [⟨c, r.1⟩]⟩)

/-- Passes one after the other, each over the resource with a namespace and a name. -/
def passes (delay : Nat) :
    List (String × String) → StateM (Scene ν) (List (Except Error Requeue))
  | [] => pure []
  | (namespaceName, name) :: rest => do
    let result ← (Pass.run delay namespaceName name).run.serve (O.answer values)
    let results ← passes delay rest
    pure (result :: results)

end Outside

/-- Two exchanges that differ in nothing but what is secret. -/
structure Exchange.Alike (e e' : Exchange pass) : Prop where
  call : e.call.concealed = e'.call.concealed
  url : e.url?.map ConnectionUrl.name = e'.url?.map ConnectionUrl.name

theorem Exchange.Alike.refl (e : Exchange pass) : e.Alike e :=
  ⟨rfl, rfl⟩

theorem Exchange.alike_concat {t u : List (Exchange pass)} {e e' : Exchange pass}
    (h : List.Forall₂ Alike t u) (alike : e.Alike e') : List.Forall₂ Alike (t ++ [e]) (u ++ [e']) :=
  List.rel_append h (.cons alike .nil)

/-- Two scenes that differ in nothing but what is secret. -/
structure Scene.Alike {ν : Type} (a b : Scene ν) : Prop where
  visible : a.visible = b.visible
  held : List.Forall₂ Secret.Alike a.held b.held
  trace : List.Forall₂ Exchange.Alike a.trace b.trace

namespace Secret

variable {s s' : Secret} {held held' : List Secret}

/-- Secrets that are alike are found at the same places. -/
theorem cases_of_find (h : List.Forall₂ Alike held held') (namespaceName name key : String) :
    let sought (x : Secret) : Bool := x.namespaceName = namespaceName ∧ x.name = name ∧ x.key = key
    (held.find? sought = none ∧ held'.find? sought = none) ∨
      ∃ x x', held.find? sought = some x ∧ held'.find? sought = some x' ∧ x.Alike x' := by
  intro sought
  induction h with
  | nil => exact .inl ⟨rfl, rfl⟩
  | @cons x x' rest rest' alike _ ih =>
    obtain ⟨space, named, keyed⟩ := place_of_concealed alike.concealed
    have same : sought x = sought x' := by simp only [sought, space, named, keyed]
    by_cases found : sought x = true
    · exact .inr ⟨x, x', List.find?_cons_of_pos found, List.find?_cons_of_pos (same ▸ found), alike⟩
    · rw [List.find?_cons_of_neg found, List.find?_cons_of_neg (same ▸ found)]
      exact ih

theorem alike_of_places (places : held.map concealed = held'.map concealed)
    (kept : ∀ s ∈ held, s.value ≠ "") (kept' : ∀ s ∈ held', s.value ≠ "") :
    List.Forall₂ Alike held held' := by
  induction held generalizing held' with
  | nil =>
    rw [List.map_eq_nil_iff.mp places.symm]
    exact .nil
  | cons s rest ih =>
    obtain ⟨s', rest', rfl, same, places'⟩ := List.map_eq_cons_iff.mp places.symm
    obtain ⟨valued, kept⟩ := List.forall_mem_cons.mp kept
    obtain ⟨valued', kept'⟩ := List.forall_mem_cons.mp kept'
    exact .cons ⟨same.symm, valued, valued'⟩ (ih places'.symm kept kept')

theorem alike_put (alike : s.Alike s') (h : List.Forall₂ Alike held held') :
    List.Forall₂ Alike (SimulatedStores.putSecret s held) (SimulatedStores.putSecret s' held') := by
  obtain ⟨space, named, keyed⟩ := place_of_concealed alike.concealed
  induction h with
  | nil => exact .cons alike .nil
  | @cons x x' rest rest' alike' kept ih =>
    obtain ⟨space', named', keyed'⟩ := place_of_concealed alike'.concealed
    simp only [SimulatedStores.putSecret, space, named, keyed, space', named', keyed']
    split
    next => exact .cons alike kept
    next => exact .cons alike' ih

end Secret

theorem map_eq_of_forall₂ {α β γ : Type} {R : α → β → Prop} {f : α → γ} {g : β → γ} {xs : List α}
    {ys : List β} (h : List.Forall₂ R xs ys) (hf : ∀ x y, R x y → f x = g y) :
    xs.map f = ys.map g :=
  List.forall₂_eq_eq_eq ▸ List.forall₂_map_left_iff.mpr (List.forall₂_map_right_iff.mpr (h.imp hf))

theorem map_eq_of_factor {α β γ : Type} {f : α → β} {g : α → γ} {k : β → γ} {xs ys : List α}
    (h : xs.map f = ys.map f) (factor : ∀ x, g x = k (f x)) : xs.map g = ys.map g := by
  obtain rfl : g = k ∘ f := funext factor
  rw [← List.map_map, h, List.map_map]

namespace Scene

variable {ν : Type} {a b : Scene ν}

theorem Alike.calls (h : a.Alike b) :
    a.calls.map PassCall.concealed = b.calls.map PassCall.concealed := by
  have split (a : Scene ν) :
      a.calls.map PassCall.concealed = a.trace.map fun e => PassCall.concealed e.call :=
    List.map_map
  rw [split, split]
  exact map_eq_of_forall₂ h.trace fun _ _ alike => alike.call

theorem written_concealed (calls : List PassCall) :
    (calls.filterMap PassCall.written?).map Secret.concealed =
      (calls.map PassCall.concealed).filterMap PassCall.written? := by
  rw [List.map_filterMap, List.filterMap_map]
  congr 1
  funext c
  cases c with
  | secret c => cases c <;> rfl
  | _ => rfl

theorem Alike.secrets (h : a.Alike b) :
    a.secrets.map Secret.concealed = b.secrets.map Secret.concealed := by
  have kept : a.held.map Secret.concealed = b.held.map Secret.concealed :=
    map_eq_of_forall₂ h.held fun _ _ alike => alike.concealed
  unfold Scene.secrets
  rw [List.map_append, List.map_append, written_concealed, written_concealed, h.calls, kept]

theorem Alike.urls (h : a.Alike b) :
    a.urls.map ConnectionUrl.name = b.urls.map ConnectionUrl.name := by
  have named : a.trace.map (fun e => e.url?.map ConnectionUrl.name) =
      b.trace.map fun e => e.url?.map ConnectionUrl.name :=
    map_eq_of_forall₂ h.trace fun _ _ alike => alike.url
  have found := congrArg (List.filterMap id) named
  rw [List.filterMap_map, List.filterMap_map] at found
  unfold Scene.urls
  rw [List.map_filterMap, List.map_filterMap]
  exact found

/-- No text of a secret or of a connection string depends on the value. -/
theorem Alike.indistinct (h : a.Alike b) : a.Indistinct b where
  visible := h.visible
  calls := h.calls
  secretTexts := map_eq_of_factor (k := Secret.text) h.secrets fun _ => rfl
  secretFields := map_eq_of_factor (k := Secret.shownFields) h.secrets fun _ => rfl
  urlTexts := map_eq_of_factor (k := fun name => ConnectionUrl.text ⟨name, ""⟩) h.urls fun _ => rfl
  urlFields :=
    map_eq_of_factor (k := fun name => ConnectionUrl.shownFields ⟨name, ""⟩) h.urls fun _ => rfl

end Scene

namespace Outside

variable {ν : Type} {O : Outside ν} {values values' : Variables ν} {α β : Type} {a b : Scene ν}

theorem serve_ask (c : PassCall) (next : pass.Answer c → Dialogue pass α) (a : Scene ν) :
    ((Dialogue.ask (I := pass) c next).serve (O.answer values)).run a =
      let r := O.reply values a.visible a.held c
      ((next r.1).serve (O.answer values)).run ⟨r.2.1, r.2.2, a.trace ++ [Exchange.mk (I := pass) c r.1]⟩ :=
  rfl

theorem reply_of_plain {c : PassCall} (h : c.Plain) (v : ν) :
    ∃ r w, ∀ values held, O.reply values v held c = (r, w, held) := by
  cases c with
  | resource | now => exact ⟨_, _, fun _ _ => rfl⟩
  | secret | connect => exact absurd h id
  | provider c =>
    cases c with
    | findVariable => exact absurd h id
    | _ => exact ⟨_, _, fun _ _ => rfl⟩

/-- The runs of parallel programs keep alike what is alike. -/
theorem alike_of_parallel {R : α → β → Prop} {x : Dialogue pass α} {y : Dialogue pass β}
    (valued : ∀ v app key, values v app key ≠ "") (valued' : ∀ v app key, values' v app key ≠ "")
    (h : Dialogue.Parallel R x y) (alike : a.Alike b) :
    let p := (x.serve (O.answer values)).run a
    let q := (y.serve (O.answer values')).run b
    R p.1 q.1 ∧ p.2.Alike q.2 := by
  induction h generalizing a b with
  | done related => exact ⟨related, alike⟩
  | @plain c next next' sort _ ih =>
    obtain ⟨r, w, same⟩ := reply_of_plain (O := O) sort a.visible
    simp only [serve_ask]
    rw [← alike.visible, same, same]
    exact ih r ⟨rfl, alike.held, Exchange.alike_concat alike.trace (.refl _)⟩
  | @connect token token' region _ _ named named' _ ih =>
    have unset : token.isEmpty = token'.isEmpty :=
      Bool.eq_iff_iff.mpr (by simp [named, named'])
    simp only [serve_ask, reply]
    rw [← alike.visible, ← unset]
    exact ih _ ⟨rfl, alike.held, Exchange.alike_concat alike.trace ⟨rfl, rfl⟩⟩
  | @write s s' owner _ _ same named named' _ ih =>
    have call : (PassCall.secret (.set s owner)).concealed = (PassCall.secret (.set s' owner)).concealed :=
      congrArg (fun x => PassCall.secret (.set x owner)) same
    simp only [serve_ask, reply]
    rw [← alike.visible, ← same]
    split
    next e w refused =>
      exact ih (.error e) ⟨rfl, alike.held, Exchange.alike_concat alike.trace ⟨call, rfl⟩⟩
    next w granted =>
      exact ih (.ok ()) ⟨rfl, Secret.alike_put ⟨same, named, named'⟩ alike.held,
        Exchange.alike_concat alike.trace ⟨call, rfl⟩⟩
  | @read namespaceName name key _ _ _ _ failed ih =>
    simp only [serve_ask, reply, readFrom]
    rw [← alike.visible]
    split
    next e w refused =>
      exact failed e ⟨rfl, alike.held, Exchange.alike_concat alike.trace (.refl _)⟩
    next w granted =>
      rcases Secret.cases_of_find alike.held namespaceName name key with
        ⟨missing, missing'⟩ | ⟨x, x', found, found', same⟩
      · rw [missing, missing']
        exact failed _ ⟨rfl, alike.held, Exchange.alike_concat alike.trace (.refl _)⟩
      · rw [found, found']
        exact ih x.value x'.value same.valued same.valued'
          ⟨rfl, alike.held, Exchange.alike_concat alike.trace ⟨rfl, rfl⟩⟩
  | @find app key _ _ _ _ failed ih =>
    simp only [serve_ask, reply]
    rw [← alike.visible]
    cases (O.provider (.findVariable app key) a.visible).1 with
    | error e => exact failed e ⟨rfl, alike.held, Exchange.alike_concat alike.trace (.refl _)⟩
    | ok _ =>
      exact ih _ _ (valued _ _ _) (valued' _ _ _)
        ⟨rfl, alike.held, Exchange.alike_concat alike.trace ⟨rfl, rfl⟩⟩

theorem alike_passes (delay : Nat) (resources : List (String × String))
    (valued : ∀ v app key, values v app key ≠ "") (valued' : ∀ v app key, values' v app key ≠ "")
    (alike : a.Alike b) :
    let p := (O.passes values delay resources).run a
    let q := (O.passes values' delay resources).run b
    p.1 = q.1 ∧ p.2.Alike q.2 := by
  induction resources generalizing a b with
  | nil => exact ⟨rfl, alike⟩
  | cons place rest ih =>
    obtain ⟨same, alike₁⟩ := alike_of_parallel valued valued'
      (Pass.blind_run delay place.1 place.2) alike
    obtain ⟨results, alike₂⟩ := ih alike₁
    exact ⟨congrArg₂ List.cons same.eq results, alike₂⟩

/-- Passes over the same resources, in the same surroundings, with other secrets at the same places and
with other connection strings, end with the same results and cannot be told apart. -/
theorem indistinct_passes (O : Outside ν) (delay : Nat) (resources : List (String × String)) (v : ν)
    {held held' : List Secret} (places : held.map Secret.concealed = held'.map Secret.concealed)
    (kept : ∀ s ∈ held, s.value ≠ "") (kept' : ∀ s ∈ held', s.value ≠ "")
    (valued : ∀ v app key, values v app key ≠ "") (valued' : ∀ v app key, values' v app key ≠ "") :
    let p := (O.passes values delay resources).run ⟨v, held, []⟩
    let q := (O.passes values' delay resources).run ⟨v, held', []⟩
    p.1 = q.1 ∧ p.2.Indistinct q.2 := by
  have alike : List.Forall₂ Secret.Alike held held' := Secret.alike_of_places places kept kept'
  have start : Scene.Alike (⟨v, held, []⟩ : Scene ν) ⟨v, held', []⟩ := ⟨rfl, alike, .nil⟩
  obtain ⟨results, ended⟩ := alike_passes delay resources valued valued' start
  exact ⟨results, ended.indistinct⟩

/-- The stores and the provider in memory. -/
def inMemory : Outside (SimulatedStores × SimulatedProvider) where
  resource c v := ((v.1.answerResource c).1, (v.1.answerResource c).2, v.2)
  secret c v :=
    let method := match c with
      | .get _ _ _ => "secret_get"
      | .set _ _ => "secret_set"
    let planned := v.1.failures.next method
    (planned.1, { v.1 with failures := planned.2 }, v.2)
  absent namespaceName name _ := .notFound ("secret " ++ namespaceName ++ "/" ++ name)
  connect unset _ v := if unset then (.error .emptyToken, v) else (v.2.connect.1, v.1, v.2.connect.2)
  provider c v := ((v.2.answer c).1, v.1, (v.2.answer c).2)
  now v := (.epoch, v)

/-- A resource that waits for its database, and whose connection string is put where its token is. -/
def looped : Resource :=
  { pending with spec.authSecret := ⟨"db-url", DatabaseType.postgresql.urlVariable⟩ }

/-- Two passes over it: the first hands over the database, the second connects with what the first
has written. -/
def loopedRun (token url : String) :
    List (Except Error Requeue) × Scene (SimulatedStores × SimulatedProvider) :=
  let stores := { SimulatedStores.blank with resources := [looped] }
  let settings : Dictionary String := Dictionary.empty.insert DatabaseType.postgresql.urlVariable ""
  let provider := { SimulatedProvider.blank with
    databases := Dictionary.empty.insert "db-1" pendingDatabase
    applicationVariables := Dictionary.empty.insert "app-1" settings }
  let held : List Secret := [⟨"prod", "db-url", DatabaseType.postgresql.urlVariable, token⟩]
  (inMemory.passes (fun _ _ _ => url) 30000 [("prod", "db"), ("prod", "db")]).run
    ⟨(stores, provider), held, []⟩

theorem indistinct_passes_looped :
    let p := loopedRun "alpha" "postgres://one"
    let q := loopedRun "beta" "postgres://two"
    (p.2.calls.filterMap PassCall.token? = ["alpha", "postgres://one"] ∧
      q.2.calls.filterMap PassCall.token? = ["beta", "postgres://two"] ∧
      p.1 = [.ok .done, .ok (.after 30000)]) ∧
    p.1 = q.1 ∧ p.2.Indistinct q.2 := by
  refine ⟨by decide +kernel, ?_⟩
  exact indistinct_passes inMemory 30000 [("prod", "db"), ("prod", "db")] _ rfl (by decide) (by decide)
    (fun _ _ _ => show "postgres://one" ≠ "" by decide)
    (fun _ _ _ => show "postgres://two" ≠ "" by decide)

end Outside

end DatabaseOperator
