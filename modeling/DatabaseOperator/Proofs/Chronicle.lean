import DatabaseOperator.Proofs.Resource.Coherence
import DatabaseOperator.Proofs.Pass.Calls

namespace DatabaseOperator

/-- All versions of a resource, newest first, and the one that is stored now, if it is not removed. No
two versions have the same number. -/
structure Chronicle where
  versions : List Resource
  current : Option Resource
  newest : ∀ r, current = some r → versions.head? = some r
  numbered : versions.Pairwise fun a b => a.metadata.resourceVersion ≠ b.metadata.resourceVersion

namespace Chronicle

variable {s s' s'' : Chronicle} {r old new : Resource}

def start (r : Resource) : Chronicle where
  versions := [r]
  current := some r
  newest _ h := h
  numbered := List.pairwise_singleton _ r

/-- No version has this number. -/
def Unused (s : Chronicle) (v : Option String) : Prop :=
  ∀ r ∈ s.versions, r.metadata.resourceVersion ≠ v

/-- Stores a resource in a new version. One that is to be deleted and has no finalizers is removed. -/
def put (s : Chronicle) (r : Resource) (v : Option String) (unused : s.Unused v) : Chronicle where
  versions := r.renumbered v :: s.versions
  current :=
    if r.isDeletionRequested && r.finalizers.isEmpty then none else some (r.renumbered v)
  newest x h := by
    split at h
    · cases h
    · exact h
  numbered := List.pairwise_cons.mpr ⟨fun x hx eq => unused x hx eq.symm, s.numbered⟩

theorem mem_of_current (h : s.current = some r) : r ∈ s.versions :=
  List.mem_of_mem_head? (s.newest r h)

theorem exists_longer (rs : List Resource) :
    ∃ n, ∀ r ∈ rs, ∀ text, r.metadata.resourceVersion = some text → text.length < n := by
  induction rs with
  | nil => exact ⟨0, fun _ hr => nomatch hr⟩
  | cons x rs ih =>
    obtain ⟨n, bound⟩ := ih
    refine ⟨n + (x.metadata.resourceVersion.getD "").length + 1, ?_⟩
    intro r hr text number
    rcases List.mem_cons.mp hr with rfl | hr
    · rw [number, Option.getD_some]
      omega
    · have shorter := bound r hr text number
      omega

/-- There is always another number. -/
theorem exists_unused (s : Chronicle) : ∃ v, s.Unused v := by
  obtain ⟨n, bound⟩ := exists_longer s.versions
  refine ⟨some (String.ofList (List.replicate n 'v')), fun r hr number => ?_⟩
  have shorter := bound r hr _ number
  simp at shorter

theorem current_put {v : Option String} {unused : s.Unused v}
    (wanted : r.isDeletionRequested = false) :
    (s.put r v unused).current = some (r.renumbered v) := by
  simp [put, wanted]

theorem eq_of_current_put {v : Option String} {unused : s.Unused v}
    (h : (s.put new v unused).current = some r) : r = new.renumbered v := by
  have head := (s.put new v unused).newest r h
  exact (Option.some.inj head).symm

theorem current_put_of_guarded {v : Option String} {unused : s.Unused v}
    (guarded : r.hasFinalizer = true) : (s.put r v unused).current = some (r.renumbered v) := by
  have listed : r.finalizers.isEmpty = false := by
    obtain ⟨f, mem, _⟩ := List.any_eq_true.mp guarded
    exact List.isEmpty_eq_false_iff.mpr (List.ne_nil_of_mem mem)
  simp [put, listed]

/-- Two versions with one number are one version. -/
theorem eq_of_number (ho : old ∈ s.versions) (hn : new ∈ s.versions)
    (h : old.metadata.resourceVersion = new.metadata.resourceVersion) : old = new := by
  have rest := s.numbered
  generalize s.versions = rs at ho hn rest
  induction rest with
  | nil => cases ho
  | cons distinct _ ih =>
    rcases List.mem_cons.mp ho with rfl | earlier
    · rcases List.mem_cons.mp hn with rfl | later
      · rfl
      · exact absurd h (distinct _ later)
    · rcases List.mem_cons.mp hn with rfl | later
      · exact absurd h.symm (distinct _ earlier)
      · exact ih earlier later

/-- An answer that does not say what is stored is a failure. -/
def Tells (a : Except StoreError Resource) (r : Resource) : Prop :=
  ∀ stored, a = .ok stored → stored = r

/-- What the outside does when it is asked. Every call can fail, also after it has taken effect. A write
takes effect only when the stored version is the one that it carries. Of what is no call to the store
of resources the answer can be anything. -/
inductive Serves (s : Chronicle) : Exchange pass → Chronicle → Prop
  | got (namespaceName name : String) :
      Serves s ⟨.resource (.get namespaceName name), .ok s.current⟩ s
  | failed (c : ResourceCall) (e : StoreError) : Serves s ⟨.resource c, .error e⟩ s
  | updated {old w : Resource} {a : Except StoreError Resource} (v : Option String)
      (unused : s.Unused v) : s.current = some old →
      old.metadata.resourceVersion = w.metadata.resourceVersion →
      Tells a ({ old with metadata := w.metadata, spec := w.spec }.renumbered v) →
      Serves s ⟨.resource (.update w), a⟩
        (s.put { old with metadata := w.metadata, spec := w.spec } v unused)
  | statusUpdated {old w : Resource} {a : Except StoreError Resource} (v : Option String)
      (unused : s.Unused v) : s.current = some old →
      old.metadata.resourceVersion = w.metadata.resourceVersion →
      Tells a ({ old with status := w.status }.renumbered v) →
      Serves s ⟨.resource (.updateStatus w), a⟩ (s.put { old with status := w.status } v unused)
  | other {c : PassCall} (a : pass.Answer c) : (∀ d, c ≠ .resource d) → Serves s ⟨c, a⟩ s

/-- The outside answers these calls in this order. Before, between and after them other people change
the resource, and leave what the operator notes on it alone. -/
inductive Evolves : Chronicle → List (Exchange pass) → Chronicle → Prop
  | rest (s : Chronicle) : Evolves s [] s
  | edit {s s' : Chronicle} {old new : Resource} {t : List (Exchange pass)} (v : Option String)
      (unused : s.Unused v) : s.current = some old → old.Edit new →
      Evolves (s.put new v unused) t s' → Evolves s t s'
  | exchange {s s' s'' : Chronicle} {e : Exchange pass} {t : List (Exchange pass)} :
      Serves s e s' → Evolves s' t s'' → Evolves s (e :: t) s''

namespace Evolves

variable {t u : List (Exchange pass)} {e : Exchange pass}

theorem append (h : Evolves s t s') (g : Evolves s' u s'') : Evolves s (t ++ u) s'' := by
  induction h with
  | rest => exact g
  | edit v unused stored edit _ ih => exact .edit v unused stored edit (ih g)
  | exchange serves _ ih => exact .exchange serves (ih g)

theorem of_cons (h : Evolves s (e :: t) s'') :
    ∃ s₁ s₂, Evolves s [] s₁ ∧ Serves s₁ e s₂ ∧ Evolves s₂ t s'' := by
  generalize ht : e :: t = u at h
  induction h with
  | rest => cases ht
  | edit v unused stored edit _ ih =>
    obtain ⟨s₁, s₂, before, serves, after⟩ := ih ht
    exact ⟨s₁, s₂, .edit v unused stored edit before, serves, after⟩
  | exchange serves after =>
    cases ht
    exact ⟨_, _, .rest _, serves, after⟩

end Evolves

theorem Serves.subset {e : Exchange pass} (h : Serves s e s') : s.versions ⊆ s'.versions := by
  cases h with
  | got | failed | other => exact fun _ => id
  | updated | statusUpdated => exact fun _ => List.mem_cons_of_mem _

theorem Serves.eq_of_quiet {e : Exchange pass} (h : Serves s e s')
    (quiet : ∀ c, e.call ≠ .resource c) : s' = s := by
  cases h with
  | got | failed | updated | statusUpdated => exact absurd rfl (quiet _)
  | other => rfl

theorem Serves.of_get {namespaceName name : String} {a : Except StoreError (Option Resource)}
    (h : Serves s ⟨.resource (.get namespaceName name), a⟩ s') :
    s' = s ∧ ∀ found, a = .ok found → found = s.current := by
  cases h with
  | got =>
    refine ⟨rfl, fun found eq => ?_⟩
    cases eq
    rfl
  | failed => exact ⟨rfl, fun found eq => nomatch eq⟩
  | other _ other => exact absurd rfl (other _)

theorem Evolves.subset {t : List (Exchange pass)} (h : Evolves s t s') :
    s.versions ⊆ s'.versions := by
  induction h with
  | rest => exact fun _ => id
  | edit v unused stored edit _ ih => exact fun _ hx => ih (List.mem_cons_of_mem _ hx)
  | exchange serves _ ih => exact fun _ hx => ih (serves.subset hx)

/-- A write of the status that was answered is stored, on the version that it carries. -/
theorem Evolves.mem_of_updateStatus {t : List (Exchange pass)} (h : Evolves s t s')
    {w stored : Resource}
    (mem : (⟨.resource (.updateStatus w), .ok stored⟩ : Exchange pass) ∈ t) :
    stored ∈ s'.versions ∧ ∃ old ∈ s'.versions, ∃ v,
      old.metadata.resourceVersion = w.metadata.resourceVersion ∧
      stored = { old with status := w.status }.renumbered v := by
  induction h with
  | rest => cases mem
  | edit v unused stored edit _ ih => exact ih mem
  | exchange serves after ih =>
    rcases List.mem_cons.mp mem with rfl | mem
    · cases serves with
      | statusUpdated v unused current same tells =>
        obtain rfl := tells stored rfl
        exact ⟨after.subset List.mem_cons_self, _,
          after.subset (List.mem_cons_of_mem _ (mem_of_current current)), v, same, rfl⟩
      | other _ other => exact absurd rfl (other _)
    · exact ih mem

/-- Between calls the status stays as it is. -/
theorem Evolves.status_of_edits (h : Evolves s [] s') :
    ∀ r ∈ s'.versions, ∃ x ∈ s.versions, x.status = r.status := by
  generalize ht : [] = t at h
  induction h with
  | rest => exact fun r hr => ⟨r, hr, rfl⟩
  | @edit s s' old new t v unused stored edit _ ih =>
    intro r hr
    obtain ⟨x, hx, same⟩ := ih ht r hr
    rcases List.mem_cons.mp hx with rfl | hx
    · exact ⟨old, mem_of_current stored, edit.status.symm.trans same⟩
    · exact ⟨x, hx, same⟩
  | exchange => cases ht

end Chronicle

end DatabaseOperator
