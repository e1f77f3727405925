import DatabaseOperator.Proofs.Chronicle
import DatabaseOperator.Proofs.Pass.Ends

namespace DatabaseOperator

/-- What happens next: a call of the pass with its answer, or someone else stores a version of the
resource, or removes it. -/
inductive Moment
  | call (e : Exchange pass)
  | edit (new : Resource) (number : Option String)
  | removal

namespace Moment

def call? : Moment → Option (Exchange pass)
  | call e => some e
  | _ => none

/-- Someone else acts. -/
def isForeign : Moment → Bool
  | call _ => false
  | _ => true

/-- The calls of the pass, in order. -/
def calls (ms : List Moment) : List (Exchange pass) :=
  ms.filterMap call?

/-- What the others do, in order. -/
def foreign (ms : List Moment) : List Moment :=
  ms.filter isForeign

@[simp]
theorem calls_nil : calls [] = [] := rfl

@[simp]
theorem calls_call (e : Exchange pass) (ms : List Moment) : calls (call e :: ms) = e :: calls ms := rfl

@[simp]
theorem calls_append (ms ns : List Moment) : calls (ms ++ ns) = calls ms ++ calls ns :=
  List.filterMap_append

/-- A call of the pass stands at its place between the calls before and after it. -/
theorem split_of_calls {ms : List Moment} {t u : List (Exchange pass)} {e : Exchange pass}
    (h : calls ms = t ++ e :: u) :
    ∃ before after, ms = before ++ call e :: after ∧ calls before = t ∧ calls after = u := by
  induction ms generalizing t with
  | nil => simp at h
  | cons m ms ih =>
    cases m with
    | call x =>
      rw [calls_call] at h
      cases t with
      | nil =>
        obtain ⟨rfl, rfl⟩ := List.cons.inj h
        exact ⟨[], ms, rfl, rfl, rfl⟩
      | cons y t =>
        obtain ⟨rfl, later⟩ := List.cons.inj h
        obtain ⟨before, after, rfl, earlier, rest⟩ := ih later
        exact ⟨call x :: before, after, rfl, congrArg (List.cons x) earlier, rest⟩
    | edit new v =>
      obtain ⟨before, after, rfl, earlier, rest⟩ := ih h
      exact ⟨edit new v :: before, after, rfl, earlier, rest⟩
    | removal =>
      obtain ⟨before, after, rfl, earlier, rest⟩ := ih h
      exact ⟨removal :: before, after, rfl, earlier, rest⟩

theorem calls_cons_of_foreign {m : Moment} (h : m.isForeign = true) (ms : List Moment) :
    calls (m :: ms) = calls ms := by
  cases m with
  | call => cases h
  | edit | removal => rfl

end Moment

namespace Chronicle

open Moment

variable {s s' s₁ s₂ : Chronicle} {r w old new : Resource} {e : Exchange pass} {ms ns : List Moment}

/-- Nothing is stored any more. -/
def removed (s : Chronicle) : Chronicle where
  versions := s.versions
  current := none
  newest _ h := nomatch h
  numbered := s.numbered

/-- What the outside does when it is asked. What fails has no effect, and what succeeds is answered with
what is stored. -/
inductive Keeps (s : Chronicle) : Exchange pass → Chronicle → Prop
  | got (namespaceName name : String) :
      Keeps s ⟨.resource (.get namespaceName name), .ok s.current⟩ s
  | failed (c : ResourceCall) (e : StoreError) : Keeps s ⟨.resource c, .error e⟩ s
  | updated {old w : Resource} (v : Option String) (unused : s.Unused v) : s.current = some old →
      old.metadata.resourceVersion = w.metadata.resourceVersion →
      Keeps s ⟨.resource (.update w),
          .ok ({ old with metadata := w.metadata, spec := w.spec }.renumbered v)⟩
        (s.put { old with metadata := w.metadata, spec := w.spec } v unused)
  | statusUpdated {old w : Resource} (v : Option String) (unused : s.Unused v) :
      s.current = some old → old.metadata.resourceVersion = w.metadata.resourceVersion →
      Keeps s ⟨.resource (.updateStatus w), .ok ({ old with status := w.status }.renumbered v)⟩
        (s.put { old with status := w.status } v unused)
  | other {c : PassCall} (a : pass.Answer c) : (∀ d, c ≠ .resource d) → Keeps s ⟨c, a⟩ s

/-- The moments follow one another in this order. -/
inductive Unfolds : Chronicle → List Moment → Chronicle → Prop
  | rest (s : Chronicle) : Unfolds s [] s
  | call {s s₁ s' : Chronicle} {e : Exchange pass} {ms : List Moment} : Keeps s e s₁ →
      Unfolds s₁ ms s' → Unfolds s (.call e :: ms) s'
  | edit {s s' : Chronicle} {new : Resource} {ms : List Moment} (v : Option String)
      (unused : s.Unused v) : Unfolds (s.put new v unused) ms s' → Unfolds s (.edit new v :: ms) s'
  | removal {s s' : Chronicle} {ms : List Moment} : Unfolds s.removed ms s' →
      Unfolds s (.removal :: ms) s'

theorem Keeps.serves (h : s.Keeps e s') : s.Serves e s' := by
  cases h with
  | got namespaceName name => exact .got namespaceName name
  | failed c e => exact .failed c e
  | updated v unused current same =>
    exact .updated v unused current same fun _ eq => (Except.ok.inj eq).symm
  | statusUpdated v unused current same =>
    exact .statusUpdated v unused current same fun _ eq => (Except.ok.inj eq).symm
  | other a other => exact .other a other

theorem Keeps.eq_of_not_stored (h : s.Keeps e s') (unstored : ¬ e.Stored) : s' = s := by
  cases h with
  | got | failed | other => rfl
  | updated | statusUpdated => exact absurd trivial unstored

namespace Unfolds

theorem of_append (h : s.Unfolds (ms ++ ns) s') : ∃ s₁, s.Unfolds ms s₁ ∧ s₁.Unfolds ns s' := by
  induction ms generalizing s with
  | nil => exact ⟨s, .rest s, h⟩
  | cons m ms ih =>
    cases h with
    | call keeps after =>
      obtain ⟨s₁, first, second⟩ := ih after
      exact ⟨s₁, .call keeps first, second⟩
    | edit v unused after =>
      obtain ⟨s₁, first, second⟩ := ih after
      exact ⟨s₁, .edit v unused first, second⟩
    | removal after =>
      obtain ⟨s₁, first, second⟩ := ih after
      exact ⟨s₁, .removal first, second⟩

theorem append (h : s.Unfolds ms s₁) (g : s₁.Unfolds ns s') : s.Unfolds (ms ++ ns) s' := by
  induction h with
  | rest => exact g
  | call keeps _ ih => exact .call keeps (ih g)
  | edit v unused _ ih => exact .edit v unused (ih g)
  | removal _ ih => exact .removal (ih g)

theorem subset (h : s.Unfolds ms s') : s.versions ⊆ s'.versions := by
  induction h with
  | rest => exact fun _ => id
  | call keeps _ ih => exact fun _ mem => ih (keeps.serves.subset mem)
  | edit v unused _ ih => exact fun _ mem => ih (List.mem_cons_of_mem _ mem)
  | removal _ ih => exact ih

theorem of_call (h : s.Unfolds (ms ++ .call e :: ns) s') :
    ∃ s₁ s₂, s.Unfolds ms s₁ ∧ s₁.Keeps e s₂ ∧ s₂.Unfolds ns s' := by
  obtain ⟨s₁, before, rest⟩ := h.of_append
  cases rest with
  | call keeps after => exact ⟨s₁, _, before, keeps, after⟩

/-- What the pass has loaded was stored then. -/
theorem of_load {namespaceName name : String} {t : List (Exchange pass)} (h : s.Unfolds ms s')
    (traced : calls ms = ⟨.resource (.get namespaceName name), .ok (some r)⟩ :: t) :
    ∃ (s₁ : Chronicle) (after : List Moment), s₁.current = some r ∧ s₁.Unfolds after s' ∧
      calls after = t := by
  obtain ⟨before, after, rfl, _, later⟩ := split_of_calls (t := []) traced
  obtain ⟨s₁, s₂, _, keeps, rest⟩ := h.of_call
  obtain ⟨rfl, told⟩ := keeps.serves.of_get
  exact ⟨s₂, after, (told _ rfl).symm, rest, later⟩

/-- When the pass has stored nothing, only what the others did has happened. -/
theorem foreign_of_unstored (h : s.Unfolds ms s') (unstored : ∀ e ∈ calls ms, ¬ e.Stored) :
    s.Unfolds (foreign ms) s' := by
  induction h with
  | rest => exact .rest _
  | call keeps _ ih =>
    obtain rfl := keeps.eq_of_not_stored (unstored _ List.mem_cons_self)
    exact ih fun e mem => unstored e (List.mem_cons_of_mem _ mem)
  | edit v unused _ ih => exact .edit v unused (ih unstored)
  | removal _ ih => exact .removal (ih unstored)

end Unfolds

/-- The stored version is not this one. -/
def Stale (s : Chronicle) (r : Resource) : Prop :=
  ∀ x, s.current = some x → x.metadata.resourceVersion ≠ r.metadata.resourceVersion

theorem stale_put {v : Option String} (known : r ∈ s.versions) (unused : s.Unused v) :
    (s.put new v unused).Stale r := by
  intro x current same
  obtain rfl := eq_of_current_put current
  exact unused r known same.symm

theorem stale_of_foreign {m : Moment} (foreign : m.isForeign = true) (known : r ∈ s.versions)
    (h : s.Unfolds [m] s') : s'.Stale r := by
  cases h with
  | call => cases foreign
  | edit v unused after =>
    cases after
    exact stale_put known unused
  | removal after =>
    cases after
    exact fun x current => nomatch current

/-- What is not stored any more is not stored again by others. -/
theorem Unfolds.stale (h : s.Unfolds ms s') (known : r ∈ s.versions) (stale : s.Stale r)
    (quiet : Pass.Quiet (calls ms)) : s'.Stale r := by
  induction h with
  | rest => exact stale
  | @call s s₁ s' e ms keeps _ ih =>
    obtain rfl := keeps.eq_of_not_stored (Exchange.not_stored_of_quiet (quiet e List.mem_cons_self))
    exact ih known stale fun e mem => quiet e (List.mem_cons_of_mem _ mem)
  | edit v unused _ ih => exact ih (List.mem_cons_of_mem _ known) (stale_put known unused) quiet
  | removal _ ih => exact ih known (fun x current => nomatch current) quiet

/-- A write that takes effect is the change that the pass has in mind, and the stored version is the one
that it saw last. -/
theorem Keeps.of_allowed {t : List (Exchange pass)} (h : s.Keeps e s') (known : r ∈ s.versions)
    (allowed : Pass.Allowed r (e :: t)) :
    (s' = s ∧ Pass.Allowed r t) ∨ ∃ w v unused, s.current = some r ∧ r.Change w ∧
      s' = s.put w v unused ∧ Pass.Allowed (w.renumbered v) t := by
  cases allowed with
  | other a silent rest =>
    cases h with
    | got | failed | updated | statusUpdated => exact absurd rfl (silent _)
    | other => exact .inl ⟨rfl, rest⟩
  | @update _ w _ a change status further stop =>
    cases h with
    | failed c f =>
      obtain rfl := stop f rfl
      exact .inl ⟨rfl, .done r⟩
    | @updated old _ v unused current same =>
      obtain rfl : old = r :=
        eq_of_number (mem_of_current current) known (same.trans change.number.symm)
      have merged : { old with metadata := w.metadata, spec := w.spec } = w := by
        rw [← status]
      simp only [merged] at further ⊢
      exact .inr ⟨w, v, unused, current, change, rfl, further v rfl⟩
    | other _ other => exact absurd rfl (other _)
  | @updateStatus _ w _ a change metadata spec further stop =>
    cases h with
    | failed c f =>
      obtain rfl := stop f rfl
      exact .inl ⟨rfl, .done r⟩
    | @statusUpdated old _ v unused current same =>
      obtain rfl : old = r :=
        eq_of_number (mem_of_current current) known (same.trans change.number.symm)
      have merged : { old with status := w.status } = w := by
        rw [← metadata, ← spec]
      simp only [merged] at further ⊢
      exact .inr ⟨w, v, unused, current, change, rfl, further v rfl⟩
    | other _ other => exact absurd rfl (other _)

/-- Whatever others do, what the pass has in mind next starts from a version that was stored. -/
theorem Unfolds.carried {t : List (Exchange pass)} (h : s.Unfolds ms s') (known : r ∈ s.versions)
    (allowed : Pass.Allowed r (calls ms ++ t)) : ∃ r' ∈ s'.versions, Pass.Allowed r' t := by
  induction h generalizing r with
  | rest => exact ⟨r, known, allowed⟩
  | call keeps _ ih =>
    rcases keeps.of_allowed known allowed with ⟨rfl, rest⟩ | ⟨w, v, unused, _, _, rfl, rest⟩
    · exact ih known rest
    · exact ih List.mem_cons_self rest
  | edit v unused _ ih => exact ih (List.mem_cons_of_mem _ known) allowed
  | removal _ ih => exact ih known allowed

end Chronicle

end DatabaseOperator
