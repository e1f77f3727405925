import DatabaseOperator.Dictionary

namespace DatabaseOperator

namespace Dictionary

variable {α : Type} {k : String} {v : α}

theorem lookup_put_same (l : List (String × α)) : (put k v l).lookup k = some v := by
  induction l with
  | nil => simp [put]
  | cons e rest ih =>
    obtain ⟨i, u⟩ := e
    unfold put
    split
    next => simp
    next =>
      split
      next => simp
      next ne =>
        have skip : (k == i) = false := by simpa using ne
        rw [List.lookup_cons, skip]
        exact ih

@[simp]
theorem get?_insert_same (d : Dictionary α) : (d.insert k v).get? k = some v :=
  lookup_put_same d.entries

theorem lookup_put_of_ne {i : String} (ne : i ≠ k) (l : List (String × α)) :
    (put k v l).lookup i = l.lookup i := by
  have skip : (i == k) = false := by simpa using ne
  induction l with
  | nil => simp [put, List.lookup_cons, skip]
  | cons e rest ih =>
    obtain ⟨j, u⟩ := e
    unfold put
    split
    next => rw [List.lookup_cons, skip]
    next =>
      split
      next same =>
        obtain rfl : k = j := same
        rw [List.lookup_cons, skip, List.lookup_cons, skip]
      next => rw [List.lookup_cons, List.lookup_cons, ih]

theorem get?_insert_of_ne {i : String} (ne : i ≠ k) (d : Dictionary α) :
    (d.insert k v).get? i = d.get? i :=
  lookup_put_of_ne ne d.entries

theorem lookup_erased (l : List (String × α)) :
    (l.filter fun e => e.1 ≠ k).lookup k = none := by
  rw [List.lookup_eq_none_iff]
  intro e mem
  have other : e.1 ≠ k := by simpa using (List.mem_filter.mp mem).2
  simpa using Ne.symm other

/-- An entry whose key is above all others goes to the end. -/
theorem put_of_above {l : List (String × α)} (h : ∀ e ∈ l, e.1 < k) : put k v l = l ++ [(k, v)] := by
  induction l with
  | nil => rfl
  | cons e rest ih =>
    obtain ⟨first, later⟩ := List.forall_mem_cons.mp h
    have below : ¬ k < e.1 := fun lt => String.lt_irrefl _ (String.lt_trans first lt)
    have other : k ≠ e.1 := fun same => absurd (same ▸ first) (String.lt_irrefl _)
    rw [put, if_neg below, if_neg other, ih later]
    rfl

theorem entries_foldl_insert {l : List (String × α)} (d : Dictionary α)
    (h : (d.entries ++ l).Pairwise fun a b => a.1 < b.1) :
    (l.foldl (fun d e => d.insert e.1 e.2) d).entries = d.entries ++ l := by
  induction l generalizing d with
  | nil => exact (List.append_nil _).symm
  | cons e l ih =>
    have above : ∀ x ∈ d.entries, x.1 < e.1 := fun x mem =>
      (List.pairwise_append.mp h).2.2 x mem e List.mem_cons_self
    have entries : (d.insert e.1 e.2).entries = d.entries ++ [e] := put_of_above above
    have split : d.entries ++ e :: l = d.entries ++ [e] ++ l := List.append_cons ..
    rw [List.foldl_cons, ih _ (by rwa [entries, ← split]), entries, ← split]

theorem ofList_entries (d : Dictionary α) : ofList d.entries = d :=
  ext (entries_foldl_insert empty d.ascending)

theorem mem_of_lookup {l : List (String × α)} (h : l.lookup k = some v) : (k, v) ∈ l := by
  obtain ⟨before, after, rfl, _⟩ := List.lookup_eq_some_iff.mp h
  exact List.mem_append_right before List.mem_cons_self

/-- An entry that is there already is put where it is. -/
theorem put_of_lookup {l : List (String × α)} (ascending : l.Pairwise fun a b => a.1 < b.1)
    (h : l.lookup k = some v) : put k v l = l := by
  induction l with
  | nil => cases h
  | cons e rest ih =>
    obtain ⟨above, ascending⟩ := List.pairwise_cons.mp ascending
    rcases List.mem_cons.mp (mem_of_lookup h) with rfl | later
    · rw [put, if_neg (String.lt_irrefl k), if_pos rfl]
    · have lt : e.1 < k := above (k, v) later
      have other : k ≠ e.1 := fun same => absurd (same ▸ lt) (String.lt_irrefl _)
      have skip : (k == e.1) = false := by simpa using other
      rw [List.lookup_cons, skip] at h
      rw [put, if_neg (String.lt_asymm lt), if_neg other, ih ascending h]

theorem insert_of_get? {d : Dictionary α} (h : d.get? k = some v) : d.insert k v = d :=
  ext (put_of_lookup d.ascending h)

@[simp]
theorem get?_erase_same (d : Dictionary α) : (d.erase k).get? k = none :=
  lookup_erased d.entries

end Dictionary

end DatabaseOperator
