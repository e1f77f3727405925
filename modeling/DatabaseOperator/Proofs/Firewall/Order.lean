import DatabaseOperator.Firewall.Diff

namespace DatabaseOperator

instance : Std.TransCmp RuleType.compare where
  eq_swap {a b} := by cases a <;> cases b <;> rfl
  isLE_trans {a b c} h g := by cases a <;> cases b <;> cases c <;> trivial

namespace FirewallRange

theorem compare_eq : compare = compareLex (fun a b : FirewallRange => a.ruleType.compare b.ruleType)
    fun a b => Ord.compare a.detail b.detail := rfl

instance : Std.TransCmp FirewallRange.compare := by
  have byType : Std.TransCmp fun a b : FirewallRange => a.ruleType.compare b.ruleType :=
    { eq_swap := Std.OrientedCmp.eq_swap
      isLE_trans := Std.TransCmp.isLE_trans }
  have byDetail : Std.TransCmp fun a b : FirewallRange => Ord.compare a.detail b.detail :=
    { eq_swap := Std.OrientedCmp.eq_swap
      isLE_trans := Std.TransCmp.isLE_trans }
  rw [compare_eq]
  infer_instance

theorem eq_of_compare {a b : FirewallRange} (h : a.compare b = .eq) : a = b := by
  obtain ⟨types, details⟩ := Ordering.then_eq_eq.mp h
  have details : a.detail = b.detail := Std.LawfulEqOrd.compare_eq_iff_eq.mp details
  cases a <;> cases b <;> first | exact congrArg _ details | cases types

end FirewallRange

namespace FirewallRule

variable {r x y : FirewallRule} {rules : List FirewallRule}

instance : Std.TransCmp FirewallRule.compare where
  eq_swap {a b} := by
    unfold FirewallRule.compare
    exact Std.OrientedCmp.eq_swap
  isLE_trans {a b c} h g := by
    unfold FirewallRule.compare at *
    exact Std.TransCmp.isLE_trans h g

theorem same_iff : r.same x = true ↔ r.range = x.range := by
  simp [same]

theorem range_ne_of_lt (less : r < x) : r.range ≠ x.range := by
  intro same
  have eq : r.compare x = .eq := by
    rw [compare, same]
    exact Std.ReflCmp.compare_self
  cases less.symm.trans eq

/-- The ranges that rules allow. -/
def ranges (rules : List FirewallRule) : List FirewallRange :=
  rules.map range

@[simp]
theorem ranges_nil : ranges [] = [] := rfl

@[simp]
theorem ranges_cons : ranges (r :: rules) = r.range :: ranges rules := rfl

@[simp]
theorem ranges_append (a b : List FirewallRule) : ranges (a ++ b) = ranges a ++ ranges b :=
  List.map_append

theorem allowedBy_iff : r.allowedBy rules = true ↔ r.range ∈ ranges rules := by
  simp only [allowedBy, List.any_eq_true, same_iff, ranges, List.mem_map]
  constructor
  · rintro ⟨x, mem, eq⟩
    exact ⟨x, mem, eq.symm⟩
  · rintro ⟨x, mem, eq⟩
    exact ⟨x, mem, eq.symm⟩

theorem place_perm (r : FirewallRule) (rules : List FirewallRule) :
    (place r rules).Perm (r :: rules) := by
  induction rules with
  | nil => exact .refl _
  | cons x rest ih =>
    unfold place
    split
    next => exact (ih.cons x).trans (.swap r x rest)
    next => exact .refl _

theorem sort_perm (rules : List FirewallRule) : (sort rules).Perm rules := by
  induction rules with
  | nil => exact .refl _
  | cons r rest ih => exact (place_perm r (sort rest)).trans (ih.cons r)

theorem ascending_place (h : rules.Pairwise fun a b => (a.compare b).isLE) :
    (place r rules).Pairwise fun a b => (a.compare b).isLE := by
  induction rules with
  | nil => exact List.pairwise_singleton _ r
  | cons x rest ih =>
    obtain ⟨first, later⟩ := List.pairwise_cons.mp h
    unfold place
    split
    next greater =>
      have less : (x.compare r).isLE := by
        have lt : x.compare r = .lt := Std.OrientedCmp.gt_iff_lt.mp greater
        rw [lt]
        rfl
      refine List.pairwise_cons.mpr ⟨fun y hy => ?_, ih later⟩
      rcases List.mem_cons.mp ((place_perm r rest).mem_iff.mp hy) with rfl | hy
      · exact less
      · exact first y hy
    next notGreater =>
      have le : (r.compare x).isLE := Ordering.isLE_iff_ne_gt.mpr notGreater
      refine List.pairwise_cons.mpr ⟨fun y hy => ?_, h⟩
      rcases List.mem_cons.mp hy with rfl | hy
      · exact le
      · exact Std.TransCmp.isLE_trans le (first y hy)

theorem ascending_sort (rules : List FirewallRule) :
    (sort rules).Pairwise fun a b => (a.compare b).isLE := by
  induction rules with
  | nil => exact .nil
  | cons r rest ih => exact ascending_place ih

/-- Of the rules with a range the ones that come first stay first. -/
theorem filter_place (r : FirewallRule) (rules : List FirewallRule) (a : FirewallRange) :
    (place r rules).filter (fun s => s.range = a) = (r :: rules).filter fun s => s.range = a := by
  induction rules with
  | nil => rfl
  | cons x rest ih =>
    unfold place
    split
    next greater =>
      have less : x < r := Std.OrientedCmp.gt_iff_lt.mp greater
      have differs : x.range ≠ r.range := range_ne_of_lt less
      simp only [List.filter_cons] at ih ⊢
      rw [ih]
      -- only one of the two can have the range, so their order does not matter
      by_cases first : r.range = a
      · have second : x.range ≠ a := fun same => differs (same.trans first.symm)
        simp [first, second]
      · simp [first]
    next => rfl

theorem filter_sort (rules : List FirewallRule) (a : FirewallRange) :
    (sort rules).filter (fun s => s.range = a) = rules.filter fun s => s.range = a := by
  induction rules with
  | nil => rfl
  | cons r rest ih =>
    rw [sort, filter_place, List.filter_cons, List.filter_cons, ih]

theorem dropRepeats_sublist (rules : List FirewallRule) : (dropRepeats rules).Sublist rules := by
  induction rules with
  | nil => exact .slnil
  | cons r rest ih =>
    unfold dropRepeats
    split
    next none => exact (List.nil_sublist rest).cons_cons r
    next x xs kept =>
      rw [kept] at ih
      split
      next => exact ((List.sublist_cons_self x xs).trans ih).cons_cons r
      next => exact ih.cons_cons r

theorem mem_ranges_dropRepeats {a : FirewallRange} :
    a ∈ ranges (dropRepeats rules) ↔ a ∈ ranges rules := by
  induction rules with
  | nil => exact Iff.rfl
  | cons r rest ih =>
    rw [dropRepeats]
    split
    next none =>
      rw [none] at ih
      simp [← ih]
    next x xs kept =>
      rw [kept] at ih
      split
      next same => simp [← ih, same_iff.mp same]
      next => simp [← ih]

/-- Neighbours that are left differ, so in an ascending list all differ. -/
theorem ascending_dropRepeats (h : rules.Pairwise fun a b => (a.compare b).isLE) :
    (dropRepeats rules).Pairwise fun a b => a.compare b = .lt := by
  induction rules with
  | nil => exact .nil
  | cons r rest ih =>
    obtain ⟨first, later⟩ := List.pairwise_cons.mp h
    have strict := ih later
    have known := (dropRepeats_sublist rest).subset
    unfold dropRepeats
    split
    next none => exact List.pairwise_singleton _ r
    next x xs kept =>
      rw [kept] at strict known
      obtain ⟨head, tail⟩ := List.pairwise_cons.mp strict
      split
      next same =>
        refine List.pairwise_cons.mpr ⟨fun y hy => ?_, tail⟩
        have less := head y hy
        rw [compare] at less ⊢
        rw [same_iff.mp same]
        exact less
      next differs =>
        have le : (r.compare x).isLE := first x (known List.mem_cons_self)
        have ne : r.compare x ≠ .eq :=
          fun eq => differs (same_iff.mpr (FirewallRange.eq_of_compare eq))
        have less : r.compare x = .lt := by
          cases order : r.compare x with
          | lt => rfl
          | eq => exact absurd order ne
          | gt => rw [order] at le; cases le
        refine List.pairwise_cons.mpr ⟨fun y hy => ?_, strict⟩
        rcases List.mem_cons.mp hy with rfl | hy
        · exact less
        · exact Std.TransCmp.lt_trans less (head y hy)

theorem mem_of_mem_distinct (mem : x ∈ distinct rules) : x ∈ rules :=
  (sort_perm rules).subset ((dropRepeats_sublist _).subset mem)

theorem mem_ranges_distinct (rules : List FirewallRule) {a : FirewallRange} :
    a ∈ ranges (distinct rules) ↔ a ∈ ranges rules :=
  mem_ranges_dropRepeats.trans ((sort_perm rules).map range).mem_iff

theorem ascending_distinct (rules : List FirewallRule) :
    (distinct rules).Pairwise fun a b => a.compare b = .lt :=
  ascending_dropRepeats (ascending_sort rules)

theorem nodup_ranges_distinct (rules : List FirewallRule) : (ranges (distinct rules)).Nodup := by
  refine List.pairwise_map.mpr ((ascending_distinct rules).imp fun {a b} less same => ?_)
  have eq : a.compare b = .eq := by
    rw [compare, same]
    exact Std.ReflCmp.compare_self
  rw [eq] at less
  cases less

end FirewallRule

end DatabaseOperator
