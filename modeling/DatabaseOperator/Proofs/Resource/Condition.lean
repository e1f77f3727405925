import DatabaseOperator.Resource.Condition

namespace DatabaseOperator

namespace Condition

variable {c : Condition} {cs : List Condition}

@[simp]
theorem type_revise (old new : Condition) : (old.revise new).type = old.type := rfl

@[simp]
theorem status_revise (old new : Condition) : (old.revise new).status = new.status := rfl

/-- What an entry says, but for the time. -/
structure Says (x : Condition) (status reason message : String) (generation : Option Int) : Prop where
  status : x.status = status
  reason : x.reason = reason
  message : x.message = message
  generation : x.observedGeneration = generation

theorem says_revise (x c : Condition) :
    (x.revise c).Says c.status c.reason c.message c.observedGeneration :=
  ⟨rfl, rfl, rfl, rfl⟩

theorem revise_eq_iff {x : Condition} :
    x.revise c = x ↔ x.Says c.status c.reason c.message c.observedGeneration := by
  constructor
  · intro same
    rw [← same]
    exact says_revise x c
  · rintro ⟨status, reason, message, generation⟩
    simp [revise, ← status, ← reason, ← message, ← generation]

theorem differs_eq_false_iff {x : Condition} :
    x.differs c = false ↔ x.Says c.status c.reason c.message c.observedGeneration := by
  constructor
  · intro same
    simp only [differs, Bool.or_eq_false_iff, decide_eq_false_iff_not, Decidable.not_not] at same
    obtain ⟨⟨⟨status, reason⟩, message⟩, generation⟩ := same
    exact ⟨status, reason, message, generation⟩
  · rintro ⟨status, reason, message, generation⟩
    simp [differs, status, reason, message, generation]

theorem find?_put_self (c : Condition) (cs : List Condition) :
    ∃ x, find? c.type (c.put cs).1 = some x ∧
      x.Says c.status c.reason c.message c.observedGeneration := by
  induction cs with
  | nil => exact ⟨c, by simp [put, find?], rfl, rfl, rfl, rfl⟩
  | cons x rest ih =>
    unfold put
    split
    next same => exact ⟨x.revise c, by simp [find?, same], says_revise x c⟩
    next other =>
      obtain ⟨y, hy, same⟩ := ih
      exact ⟨y, by simpa [find?, other] using hy, same⟩

theorem find?_put_same (c : Condition) (cs : List Condition) :
    ∃ x, find? c.type (c.put cs).1 = some x ∧ x.status = c.status := by
  obtain ⟨x, found, same⟩ := find?_put_self c cs
  exact ⟨x, found, same.status⟩

theorem find?_put_other {type : String} (h : type ≠ c.type) (cs : List Condition) :
    find? type (c.put cs).1 = find? type cs := by
  induction cs with
  | nil => simp [put, find?, Ne.symm h]
  | cons x rest ih =>
    unfold put
    split
    next same => simp [find?, same, Ne.symm h]
    next other =>
      unfold find? at ih
      simp [find?, List.find?_cons, ih]

theorem map_type_put (c : Condition) (cs : List Condition) :
    (c.put cs).1.map type =
      if c.type ∈ cs.map type then cs.map type else cs.map type ++ [c.type] := by
  induction cs with
  | nil => simp [put]
  | cons x rest ih =>
    unfold put
    split
    next same => simp [same]
    next other =>
      simp only [List.map_cons, ih, List.mem_cons, Ne.symm other, false_or]
      split <;> simp

/-- Conditions of other types stay as they are, where they are. -/
theorem filter_put {types : List String} (known : c.type ∈ types) (cs : List Condition) :
    ((c.put cs).1.filter fun x => x.type ∉ types) = cs.filter fun x => x.type ∉ types := by
  induction cs with
  | nil => simp [put, known]
  | cons x rest ih =>
    unfold put
    split
    next same => simp [same, known]
    next other => simp only [List.filter_cons, ih]

theorem put_unchanged (h : (c.put cs).2 = false) : (c.put cs).1 = cs := by
  induction cs with
  | nil => simp [put] at h
  | cons x rest ih =>
    unfold put at h ⊢
    split at h
    next same =>
      rw [if_pos same]
      have eq : x.revise c = x := revise_eq_iff.mpr (differs_eq_false_iff.mp h)
      simp only [eq]
    next other =>
      rw [if_neg other]
      simp only [ih h]

/-- Nothing changes exactly when the entry of the type says the same already. -/
theorem put_unchanged_iff :
    (c.put cs).2 = false ↔ ∃ x, find? c.type cs = some x ∧
      x.Says c.status c.reason c.message c.observedGeneration := by
  induction cs with
  | nil => simp [put, find?]
  | cons x rest ih =>
    unfold put
    split
    next same => simp [find?, same, differs_eq_false_iff]
    next other =>
      unfold find? at ih
      simp [find?, other, ih]

end Condition

end DatabaseOperator
