import DatabaseOperator.Proofs.Firewall.Order
import DatabaseOperator.Proofs.Text.Utf8

namespace DatabaseOperator

namespace FirewallRange

theorem eq_iff {a b : FirewallRange} :
    a = b ↔ a.ruleType = b.ruleType ∧ a.cidr? = b.cidr? ∧ a.rangeId? = b.rangeId? := by
  cases a <;> cases b <;> simp [ruleType, cidr?, rangeId?]

theorem compare_eq_iff {a b : FirewallRange} : a.compare b = .eq ↔ a = b := by
  constructor
  · exact eq_of_compare
  · rintro rfl
    exact Std.ReflCmp.compare_self

theorem compare_of_type_ne {a b : FirewallRange} (differ : a.ruleType ≠ b.ruleType) :
    a.compare b = a.ruleType.compare b.ruleType := by
  cases a <;> cases b <;> first | exact absurd rfl differ | rfl

theorem compare_of_type_eq {a b : FirewallRange} (same : a.ruleType = b.ruleType) :
    a.compare b = compareOfLessAndEq a.detail b.detail := by
  have equal : a.ruleType.compare b.ruleType = .eq := by
    rw [same]
    exact Std.ReflCmp.compare_self
  rw [compare, equal, Ordering.eq_then]

end FirewallRange

namespace FirewallRule

variable {a b c r : FirewallRule} {rules sorted sorted' : List FirewallRule}

theorem compare_eq_iff_same : a.compare b = .eq ↔ a.same b = true := by
  rw [same_iff, compare, FirewallRange.compare_eq_iff]

theorem compare_swap (a b : FirewallRule) : b.compare a = (a.compare b).swap :=
  Std.OrientedCmp.eq_swap

theorem greater_iff : b < a ↔ a.compare b = .gt := by
  have swapped := compare_swap a b
  change b.compare a = .lt ↔ _
  rw [swapped, Ordering.swap_eq_lt]

theorem relation?_eq (a b : FirewallRule) : a.relation? b = some (a.compare b) := by
  have less : a < b ↔ a.compare b = .lt := Iff.rfl
  unfold relation?
  simp only [less, greater_iff, ← compare_eq_iff_same]
  cases a.compare b <;> rfl

theorem compare_trans {o : Ordering} (first : a.compare b = o) (second : b.compare c = o) :
    a.compare c = o := by
  cases o with
  | lt => exact Std.TransCmp.lt_trans first second
  | eq => exact Std.TransCmp.eq_trans first second
  | gt => exact Std.TransCmp.gt_trans first second

/-- How two rules stand to each other. -/
structure Compares (a b : FirewallRule) : Prop where
  /-- Just one of less, the same and greater. -/
  exclusive : (a < b ∧ ¬ a.same b ∧ ¬ b < a) ∨ (¬ a < b ∧ a.same b ∧ ¬ b < a) ∨
    (¬ a < b ∧ ¬ a.same b ∧ b < a)
  relation : a.relation? b = some (a.compare b)
  swapped : b.compare a = (a.compare b).swap
  trans : ∀ c, (a.compare b).isLE → (b.compare c).isLE → (a.compare c).isLE
  trans_same : ∀ c o, a.compare b = o → b.compare c = o → a.compare c = o
  equal : a.compare b = .eq ↔ a.same b = true
  same : a.same b = true ↔
    a.ruleType = b.ruleType ∧ a.range.cidr? = b.range.cidr? ∧ a.range.rangeId? = b.range.rangeId?
  hash : a.same b = true → hash a = hash b
  custom_first : a.ruleType = .customRange → b.ruleType = .managedRange → a < b
  refines : a.ruleType ≠ b.ruleType → a.compare b = a.ruleType.compare b.ruleType
  byCodePoints : a.ruleType = b.ruleType →
    a.compare b = compareOfLessAndEq (codePoints a.range.detail) (codePoints b.range.detail)
  byBytes : a.ruleType = b.ruleType →
    a.compare b = compareOfLessAndEq (utf8Bytes a.range.detail) (utf8Bytes b.range.detail)
  /-- Other ids and other labels make no difference. -/
  unlabelled : ∀ a' b' : FirewallRule, a'.range = a.range → b'.range = b.range →
    a'.compare b' = a.compare b ∧ a'.same b' = a.same b ∧ (a' < b' ↔ a < b) ∧
      a'.relation? b' = a.relation? b ∧ Hashable.hash a' = Hashable.hash a

theorem compares (a b : FirewallRule) : Compares a b where
  exclusive := by
    have less : a < b ↔ a.compare b = .lt := Iff.rfl
    rw [less, greater_iff, ← compare_eq_iff_same]
    cases a.compare b <;> simp
  relation := relation?_eq a b
  swapped := compare_swap a b
  trans c := Std.TransCmp.isLE_trans
  trans_same c o := compare_trans
  equal := compare_eq_iff_same
  same := same_iff.trans FirewallRange.eq_iff
  hash := by
    intro same
    have ranges : a.range = b.range := same_iff.mp same
    change Hashable.hash a.range = Hashable.hash b.range
    rw [ranges]
  custom_first := by
    intro custom managed
    have differ : a.range.ruleType ≠ b.range.ruleType := by
      intro same
      have impossible := custom.symm.trans (same.trans managed)
      cases impossible
    have compared := FirewallRange.compare_of_type_ne differ
    rw [show a.range.ruleType = .customRange from custom,
      show b.range.ruleType = .managedRange from managed] at compared
    exact compared
  refines := FirewallRange.compare_of_type_ne
  byCodePoints := by
    intro same
    rw [compare_of_increasing codePoints_lt]
    exact FirewallRange.compare_of_type_eq same
  byBytes := by
    intro same
    rw [compare_of_increasing utf8Bytes_lt]
    exact FirewallRange.compare_of_type_eq same
  unlabelled := by
    intro a' b' first second
    have compared : a'.compare b' = a.compare b := by rw [compare, compare, first, second]
    have matched : a'.same b' = a.same b := by rw [FirewallRule.same, FirewallRule.same, first, second]
    refine ⟨compared, matched, ?_, ?_, ?_⟩
    · change a'.compare b' = .lt ↔ a.compare b = .lt
      rw [compared]
    · rw [relation?_eq, relation?_eq, compared]
    · change Hashable.hash a'.range = Hashable.hash a.range
      rw [first]

/-- Rules brought into ascending order, of which the same rules stay in theirs. -/
structure Sorts (rules sorted : List FirewallRule) : Prop where
  perm : sorted.Perm rules
  ascending : sorted.Pairwise fun a b => (a.compare b).isLE
  stable : ∀ x, (sorted.filter fun r => r.range = x) = rules.filter fun r => r.range = x

theorem sorts_sort (rules : List FirewallRule) : Sorts rules (sort rules) where
  perm := sort_perm rules
  ascending := ascending_sort rules
  stable := filter_sort rules

/-- What stands between two rules that are the same is the same rule. -/
theorem Sorts.adjacent (h : Sorts rules sorted) {before between after : List FirewallRule}
    (split : sorted = before ++ a :: between ++ b :: after) (same : a.same b = true) (mem : r ∈ between) :
    r.same a = true := by
  have ascending := h.ascending
  rw [split, List.append_assoc, List.cons_append] at ascending
  have later := (List.pairwise_append.mp ascending).2.1
  obtain ⟨first, later⟩ := List.pairwise_cons.mp later
  have above : (a.compare r).isLE := first r (List.mem_append_left _ mem)
  have below : (r.compare b).isLE := (List.pairwise_append.mp later).2.2 r mem b List.mem_cons_self
  have equal : b.compare a = .eq := by
    rw [compare_swap, compare_eq_iff_same.mpr same]
    rfl
  have below : (r.compare a).isLE := Std.TransCmp.isLE_trans below (by rw [equal]; rfl)
  exact compare_eq_iff_same.mp (Std.OrientedCmp.isLE_antisymm below above)

/-- The first of the rules in ascending order is the least, and the first one of its range. -/
theorem eq_of_filter (first : (a :: sorted).Pairwise fun a b => (a.compare b).isLE)
    (second : (b :: sorted').Pairwise fun a b => (a.compare b).isLE)
    (stable : ∀ x, ((a :: sorted).filter fun r => r.range = x) = (b :: sorted').filter fun r => r.range = x) :
    a = b := by
  have least {r s : FirewallRule} {l m : List FirewallRule}
      (ascending : (r :: l).Pairwise fun a b => (a.compare b).isLE)
      (same : ((s :: m).filter fun t => t.range = s.range) = (r :: l).filter fun t => t.range = s.range) :
      (r.compare s).isLE := by
    have mem : s ∈ (s :: m).filter fun t => t.range = s.range := by simp
    rw [same] at mem
    rcases List.mem_cons.mp (List.mem_filter.mp mem).1 with eq | later
    · have equal : r.compare s = .eq := by
        rw [eq]
        exact Std.ReflCmp.compare_self
      rw [equal]
      rfl
    · exact (List.pairwise_cons.mp ascending).1 s later
  have above : (a.compare b).isLE := least first (stable b.range).symm
  have below : (b.compare a).isLE := least second (stable a.range)
  have ranges : b.range = a.range :=
    FirewallRange.eq_of_compare (Std.OrientedCmp.isLE_antisymm below above)
  have heads := stable a.range
  rw [List.filter_cons_of_pos (by simp), List.filter_cons_of_pos (by simpa using ranges)] at heads
  exact (List.cons.inj heads).1

theorem eq_of_ascending (first : sorted.Pairwise fun a b => (a.compare b).isLE)
    (second : sorted'.Pairwise fun a b => (a.compare b).isLE)
    (stable : ∀ x, (sorted.filter fun r => r.range = x) = sorted'.filter fun r => r.range = x) :
    sorted = sorted' := by
  induction sorted generalizing sorted' with
  | nil =>
    cases sorted' with
    | nil => rfl
    | cons b rest =>
      have none := stable b.range
      simp at none
  | cons a sorted ih =>
    cases sorted' with
    | nil =>
      have none := stable a.range
      simp at none
    | cons b sorted' =>
      obtain rfl := eq_of_filter first second stable
      have later : ∀ x, (sorted.filter fun r => r.range = x) = sorted'.filter fun r => r.range = x := by
        intro x
        have both := stable x
        rw [List.filter_cons, List.filter_cons] at both
        split at both
        next => exact (List.cons.inj both).2
        next => exact both
      rw [ih (List.pairwise_cons.mp first).2 (List.pairwise_cons.mp second).2 later]

theorem sorts_iff : Sorts rules sorted ↔ sorted = sort rules := by
  constructor
  · intro h
    refine eq_of_ascending h.ascending (ascending_sort rules) fun x => ?_
    rw [h.stable x, filter_sort]
  · rintro rfl
    exact sorts_sort rules

/-- The comparison is a total order of the ranges, whatever the labels and the ids, and `sort` is the stable sort
by it: there is no other, and it brings the rules that are the same side by side. -/
theorem comparison_lawful (a b : FirewallRule) (rules : List FirewallRule) :
    Compares a b ∧ (∀ sorted, Sorts rules sorted ↔ sorted = sort rules) ∧
      ∀ before x between y after, sort rules = before ++ x :: between ++ y :: after → x.same y = true →
        ∀ r ∈ between, r.same x = true := by
  refine ⟨compares a b, fun sorted => sorts_iff, ?_⟩
  intro before x between y after split same r mem
  exact (sorts_sort rules).adjacent split same mem

end FirewallRule

end DatabaseOperator
