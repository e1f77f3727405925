namespace DatabaseOperator

/-- Entries in strictly ascending order of their keys. -/
structure Dictionary (α : Type) where
  entries : List (String × α)
  ascending : entries.Pairwise fun a b => a.1 < b.1

namespace Dictionary

variable {α β : Type}

/-- Puts an entry at its place, or in the place of the entry with the same key. -/
def put (k : String) (v : α) : List (String × α) → List (String × α)
  | [] => [(k, v)]
  | e :: rest =>
    if k < e.1 then (k, v) :: e :: rest
    else if k = e.1 then (k, v) :: rest
    else e :: put k v rest

theorem mem_put {k : String} {v : α} {x : String × α} {l : List (String × α)}
    (h : x ∈ put k v l) : x = (k, v) ∨ x ∈ l := by
  induction l with
  | nil => simpa [put] using h
  | cons e rest ih =>
    unfold put at h
    split at h
    next => simpa using h
    next =>
      split at h
      next =>
        rcases List.mem_cons.mp h with h | h
        · exact Or.inl h
        · exact Or.inr (List.mem_cons_of_mem _ h)
      next =>
        rcases List.mem_cons.mp h with h | h
        · exact Or.inr (by simp [h])
        · rcases ih h with h | h
          · exact Or.inl h
          · exact Or.inr (List.mem_cons_of_mem _ h)

theorem ascending_put {k : String} {v : α} {l : List (String × α)}
    (h : l.Pairwise fun a b => a.1 < b.1) : (put k v l).Pairwise fun a b => a.1 < b.1 := by
  induction l with
  | nil => simp [put]
  | cons e rest ih =>
    have he := List.pairwise_cons.mp h
    unfold put
    split
    next lt =>
      refine List.pairwise_cons.mpr ⟨fun x hx => ?_, h⟩
      rcases List.mem_cons.mp hx with rfl | hx
      · exact lt
      · exact String.lt_trans lt (he.1 x hx)
    next nlt =>
      split
      next eq => exact List.pairwise_cons.mpr ⟨fun x hx => eq ▸ he.1 x hx, he.2⟩
      next ne =>
        refine List.pairwise_cons.mpr ⟨fun x hx => ?_, ih he.2⟩
        rcases mem_put hx with rfl | hx
        · rcases String.le_total k e.1 with le | le
          · exact absurd (String.le_antisymm le (String.not_lt.mp nlt)) ne
          · exact Decidable.byContradiction fun nlt' =>
              ne (String.le_antisymm (String.not_lt.mp nlt') le)
        · exact he.1 x hx

def empty : Dictionary α :=
  ⟨[], .nil⟩

instance : Inhabited (Dictionary α) := ⟨empty⟩

def insert (d : Dictionary α) (k : String) (v : α) : Dictionary α :=
  ⟨put k v d.entries, ascending_put d.ascending⟩

/-- Of entries with the same key the last one stays. -/
def ofList (l : List (String × α)) : Dictionary α :=
  l.foldl (fun d e => d.insert e.1 e.2) empty

def get? (d : Dictionary α) (k : String) : Option α :=
  d.entries.lookup k

def isEmpty (d : Dictionary α) : Bool :=
  d.entries.isEmpty

def erase (d : Dictionary α) (k : String) : Dictionary α :=
  ⟨d.entries.filter fun e => e.1 ≠ k, d.ascending.filter _⟩

def map (f : α → β) (d : Dictionary α) : Dictionary β :=
  ⟨d.entries.map fun e => (e.1, f e.2), by
    simpa [List.pairwise_map] using d.ascending⟩

theorem ext {d e : Dictionary α} (h : d.entries = e.entries) : d = e := by
  cases d; cases e; cases h; rfl

instance [DecidableEq α] : DecidableEq (Dictionary α) := fun d e =>
  if h : d.entries = e.entries then isTrue (ext h) else isFalse fun eq => h (eq ▸ rfl)

end Dictionary

end DatabaseOperator
