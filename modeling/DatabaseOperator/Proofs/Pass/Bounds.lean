import DatabaseOperator.Proofs.Pass.Secrets
import DatabaseOperator.Simulation.Stores

namespace DatabaseOperator

/-- No part of the secret is empty. -/
structure Secret.Complete (s : Secret) : Prop where
  located : s.namespaceName ≠ ""
  named : s.name ≠ ""
  keyed : s.key ≠ ""
  valued : s.value ≠ ""

/-- The call stays within what the resource declares: the token is read and the target is written, both in
the namespace of the resource, and no other resource is stored, nor this one with another declaration. -/
def PassCall.Within (x : Resource) : PassCall → Prop
  | .resource (.get _ _) => False
  | .resource (.update w) => SimulatedStores.key w = SimulatedStores.key x ∧ w.spec = x.spec
  | .resource (.updateStatus w) => SimulatedStores.key w = SimulatedStores.key x ∧ w.spec = x.spec
  | .secret (.get namespaceName name key) =>
    namespaceName = x.namespaceName ∧ name = x.spec.authSecret.name ∧ key = x.spec.authSecret.key ∧
      namespaceName ≠ "" ∧ name ≠ "" ∧ key ≠ ""
  | .secret (.set s _) =>
    s.namespaceName = x.namespaceName ∧ s.name = x.spec.connectionTarget.name ∧ s.Complete
  | _ => True

theorem PassCall.eq_of_written {c : PassCall} {s : Secret} (writes : c.written? = some s) :
    ∃ owner, c = .secret (.set s owner) := by
  cases c with
  | secret d =>
    cases d with
    | get => cases writes
    | set s owner =>
      cases writes
      exact ⟨owner, rfl⟩
  | resource | connect | provider | now => cases writes

/-- What is asked behind a check of a text is asked only when the text is not empty. -/
theorem Task.asked_of_requireText {I : Interface} {α : Type} {field value : String}
    {task : ExceptT Error (Dialogue I) α} {t : List (Exchange I)} {r : Except Error α}
    {e : Exchange I} (h : (do requireText field value; task : ExceptT Error (Dialogue I) α).run.Runs t r)
    (asked : e ∈ t) : value ≠ "" ∧ task.run.Runs t r := by
  rcases runs_bind_iff.mp h with ⟨_, rfl, refused⟩ | ⟨t₁, t₂, _, rfl, passed, rest⟩
  · rw [(runs_requireText_iff.mp refused).1] at asked
    cases asked
  · obtain ⟨rfl, ok⟩ := runs_requireText_iff.mp passed
    by_cases empty : value = ""
    · rw [empty] at ok
      cases ok
    · exact ⟨empty, rest⟩

namespace Pass

variable {t u : List (Exchange pass)} {r x : Resource} {db : Database} {delay : Nat}
  {res : Except Error Requeue}

/-- The secrets that a trace asks the store to keep, in order. -/
def written (t : List (Exchange pass)) : List Secret :=
  t.filterMap fun e => e.call.written?

@[simp]
theorem written_append (t u : List (Exchange pass)) : written (t ++ u) = written t ++ written u :=
  List.filterMap_append

/-- All calls stay within what one resource declares, and at most one of them writes a secret. -/
structure Modest (x : Resource) (t : List (Exchange pass)) : Prop where
  within : ∀ e ∈ t, e.call.Within x
  once : (written t).length ≤ 1

/-- The calls are modest and none of them writes a secret. -/
structure Reticent (x : Resource) (t : List (Exchange pass)) : Prop where
  within : ∀ e ∈ t, e.call.Within x
  unwritten : written t = []

theorem Reticent.modest (h : Reticent x t) : Modest x t :=
  ⟨h.within, by rw [h.unwritten]; exact Nat.zero_le 1⟩

theorem within_append (h : ∀ e ∈ t, e.call.Within x) (g : ∀ e ∈ u, e.call.Within x) :
    ∀ e ∈ t ++ u, e.call.Within x :=
  fun e mem => (List.mem_append.mp mem).elim (h e) (g e)

theorem Reticent.append (h : Reticent x t) (g : Reticent x u) : Reticent x (t ++ u) :=
  ⟨within_append h.within g.within, by rw [written_append, h.unwritten, g.unwritten]; rfl⟩

theorem Reticent.modest_append (h : Reticent x t) (g : Modest x u) : Modest x (t ++ u) :=
  ⟨within_append h.within g.within, by rw [written_append, h.unwritten]; exact g.once⟩

theorem Modest.append_reticent (h : Modest x t) (g : Reticent x u) : Modest x (t ++ u) :=
  ⟨within_append h.within g.within, by
    rw [written_append, g.unwritten, List.append_nil]; exact h.once⟩

theorem reticent_nil : Reticent x [] :=
  ⟨fun _ => nofun, rfl⟩

theorem reticent_single {c : PassCall} (a : pass.Answer c) (within : c.Within x)
    (unwritten : c.written? = none) : Reticent x [⟨c, a⟩] :=
  ⟨List.forall_mem_singleton.mpr within,
    List.filterMap_eq_nil_iff.mpr (List.forall_mem_singleton.mpr unwritten)⟩

theorem reticent_ofProvider (p : List (Exchange provider)) : Reticent x (p.map .ofProvider) := by
  induction p with
  | nil => exact reticent_nil
  | cons e p ih => exact (reticent_single (c := .provider e.call) e.answer trivial rfl).append ih

theorem reticent_ofSecret {s : List (Exchange secrets)} {res : Except Error String}
    (h : (readSecret x.namespaceName x.spec.authSecret.name x.spec.authSecret.key).run.Runs s res) :
    Reticent x (s.map .ofSecret) := by
  cases s with
  | nil => exact reticent_nil
  | cons e s =>
    obtain ⟨located, h⟩ := Task.asked_of_requireText h List.mem_cons_self
    obtain ⟨named, h⟩ := Task.asked_of_requireText h List.mem_cons_self
    obtain ⟨keyed, h⟩ := Task.asked_of_requireText h List.mem_cons_self
    obtain ⟨a, single, _⟩ := SecretTask.runs_call_iff.mp h
    rw [single]
    exact reticent_single _ ⟨rfl, rfl, rfl, located, named, keyed⟩ rfl

theorem modest_of_writeSecret {s : List (Exchange secrets)} {url : ConnectionUrl}
    {owner : Option Owner} {res : Except Error Unit}
    (h : (writeSecret (x.connectionSecret url) owner).run.Runs s res) : Modest x (s.map .ofSecret) := by
  cases s with
  | nil => exact reticent_nil.modest
  | cons e s =>
    obtain ⟨located, h⟩ := Task.asked_of_requireText h List.mem_cons_self
    obtain ⟨named, h⟩ := Task.asked_of_requireText h List.mem_cons_self
    obtain ⟨keyed, h⟩ := Task.asked_of_requireText h List.mem_cons_self
    obtain ⟨valued, h⟩ := Task.asked_of_requireText h List.mem_cons_self
    obtain ⟨a, single, _⟩ := SecretTask.runs_call_iff.mp h
    rw [single]
    refine ⟨List.forall_mem_singleton.mpr ⟨rfl, rfl, located, named, keyed, valued⟩, ?_⟩
    exact Nat.le_refl 1

theorem Opening.reticent {res : Except Error Unit} (h : Opening r t res) : Reticent r t := by
  cases h with
  | tokenless read => exact reticent_ofSecret read
  | connected a read =>
    exact (reticent_ofSecret read).append (reticent_single (c := .connect _ _) a trivial rfl)

theorem reticent_update {w : Resource} (a : Except StoreError Resource)
    (placed : SimulatedStores.key w = SimulatedStores.key x) (declared : w.spec = x.spec) :
    Reticent x [⟨.resource (.update w), a⟩] :=
  reticent_single _ ⟨placed, declared⟩ rfl

theorem reticent_ticks (times : List Time) : Reticent x (ticks times) := by
  induction times with
  | nil => exact reticent_nil
  | cons time times ih => exact (reticent_single (c := .now) time trivial rfl).append ih

theorem reticent_timed {w : Resource} (times : List Time) (a : Except StoreError Resource)
    (placed : SimulatedStores.key w = SimulatedStores.key x) (declared : w.spec = x.spec) :
    Reticent x (ticks times ++ [⟨.resource (.updateStatus w), a⟩]) :=
  (reticent_ticks times).append (reticent_single _ ⟨placed, declared⟩ rfl)

theorem Finalizing.reticent (h : Finalizing r t res) : Reticent r t := by
  cases h with
  | unguarded => exact reticent_nil
  | unrecorded a => exact reticent_update a rfl rfl
  | closed _ _ opening => exact opening.reticent
  | refused _ _ opening => exact opening.reticent.append (reticent_single _ trivial rfl)
  | deleted a b _ _ opening =>
    have asked : Reticent r [⟨.provider (.deleteDatabase r.databaseId), a⟩] :=
      reticent_single _ trivial rfl
    exact opening.reticent.append (asked.append (reticent_update b rfl rfl))

theorem Creating.reticent (h : Creating delay r t res) : Reticent r t := by
  cases h with
  | invalid => exact reticent_nil
  | closed _ opening => exact opening.reticent
  | refused _ opening | nameless _ opening =>
    exact opening.reticent.append (reticent_single _ trivial rfl)
  | @created wanted db _ time a _ opening =>
    have asked : Reticent r [⟨.provider (.createDatabase wanted), .ok db⟩] :=
      reticent_single _ trivial rfl
    exact opening.reticent.append (asked.append (reticent_timed [time] a rfl rfl))

theorem Updating.reticent (h : Updating delay r t res) : Reticent r t := by
  cases h with
  | invalid => exact reticent_nil
  | closed _ opening => exact opening.reticent
  | unread _ opening | busy _ opening | failed _ opening =>
    exact opening.reticent.append (reticent_ofProvider _)
  | arrived _ a _ opening | planned _ a _ opening | renoted _ a _ opening =>
    exact opening.reticent.append ((reticent_ofProvider _).append (reticent_timed _ a rfl rfl))
  | noted now _ opening =>
    exact opening.reticent.append ((reticent_ofProvider _).append (reticent_ticks _))

theorem HandingOver.modest (h : HandingOver r db t res) : Modest r t := by
  cases h with
  | unnamed => exact (reticent_ofProvider _).modest
  | unsaved _ written => exact (reticent_ofProvider _).modest_append (modest_of_writeSecret written)
  | saved a _ written =>
    exact (reticent_ofProvider _).modest_append
      ((modest_of_writeSecret written).append_reticent (reticent_update a rfl rfl))

/-- What the calls of a step stay within: the resource that was loaded, or first that one and then what
the store gave back for its conditions. -/
inductive Bounded (r : Resource) : List (Exchange pass) → Prop
  | loaded {t : List (Exchange pass)} : Modest r t → Bounded r t
  | renewed {t u : List (Exchange pass)} {w stored : Resource} : Reticent r t →
      SimulatedStores.key w = SimulatedStores.key r → w.spec = r.spec → Modest stored u →
      Bounded r (t ++ ⟨.resource (.updateStatus w), .ok stored⟩ :: u)

theorem Awaiting.bounded (h : Awaiting delay r t res) : Bounded r t := by
  cases h with
  | closed opening => exact .loaded opening.reticent.modest
  | unread opening | early opening =>
    exact .loaded (opening.reticent.append (reticent_ofProvider _)).modest
  | noted now opening _ _ _ handing =>
    exact .loaded (opening.reticent.modest_append ((reticent_ofProvider _).modest_append
      ((reticent_ticks _).modest_append handing.modest)))
  | unnoted now e opening =>
    exact .loaded (Reticent.modest (opening.reticent.append
      ((reticent_ofProvider _).append (reticent_timed _ _ rfl rfl))))
  | renoted now stored opening _ _ _ handing =>
    rw [append_timed]
    exact .renewed (opening.reticent.append ((reticent_ofProvider _).append (reticent_ticks _))) rfl
      rfl handing.modest

theorem Course.bounded (h : Course delay r t res) : Bounded r t := by
  cases h with
  | finalize _ h => exact .loaded h.reticent.modest
  | mark a | flag a => exact .loaded (Reticent.modest (reticent_update a rfl rfl))
  | init now a => exact .loaded (Reticent.modest (reticent_timed _ a rfl rfl))
  | create _ _ _ h => exact .loaded h.reticent.modest
  | await _ _ _ h => exact h.bounded
  | update _ _ _ h => exact .loaded h.reticent.modest

end Pass

end DatabaseOperator
