import DatabaseOperator.Proofs.Firewall.Diff
import Mathlib.Data.List.Sort

namespace DatabaseOperator

open RuleAction

namespace FirewallRule

variable {r s : FirewallRule} {x : FirewallRange} {rules a b : List FirewallRule}

theorem lt_trans {t : FirewallRule} (first : r < s) (second : s < t) : r < t :=
  Std.TransCmp.lt_trans first second

/-- Looks for a rule by halving a list in ascending order. -/
def search (r : FirewallRule) (rules : List FirewallRule) : Bool :=
  match _split : rules.drop (rules.length / 2) with
  | [] => false
  | x :: later =>
    match x.compare r with
    | .lt => search r later
    | .eq => true
    | .gt => search r (rules.take (rules.length / 2))
termination_by rules.length
decreasing_by
  all_goals
    have length := congrArg List.length _split
    simp only [List.length_drop, List.length_cons, List.length_take] at length ⊢
    omega

/-- What stands before the middle is less than it, and what stands behind it is greater. -/
theorem halves_of_ascending {x : FirewallRule} {later : List FirewallRule} {n : Nat}
    (ascending : rules.Pairwise (· < ·)) (split : rules.drop n = x :: later) :
    rules = rules.take n ++ x :: later ∧ (rules.take n).Pairwise (· < ·) ∧ later.Pairwise (· < ·) ∧
      (∀ y ∈ rules.take n, y < x) ∧ ∀ y ∈ later, x < y := by
  have whole : rules = rules.take n ++ x :: later := by
    rw [← split]
    exact (List.take_append_drop n rules).symm
  have parts := ascending
  rw [whole] at parts
  obtain ⟨before, behind, across⟩ := List.pairwise_append.mp parts
  obtain ⟨greater, after⟩ := List.pairwise_cons.mp behind
  exact ⟨whole, before, after, fun y mem => across y mem x List.mem_cons_self, greater⟩

/-- In a list in ascending order halving finds what there is. -/
theorem search_iff (ascending : rules.Pairwise (· < ·)) :
    search r rules = true ↔ r.range ∈ ranges rules := by
  fun_induction search r rules with
  | case1 rules empty =>
    have none : rules = [] := by
      have length := congrArg List.length empty
      simp only [List.length_drop, List.length_nil] at length
      exact List.length_eq_zero_iff.mp (by omega)
    simp [none]
  | case2 rules x later split less ih =>
    obtain ⟨whole, _, after, before, _⟩ := halves_of_ascending ascending split
    rw [ih after, whole]
    simp only [ranges_append, ranges_cons, List.mem_append, List.mem_cons]
    have other : r.range ≠ x.range := (range_ne_of_lt less).symm
    have absent : r.range ∉ ranges (rules.take (rules.length / 2)) := by
      intro mem
      obtain ⟨y, there, same⟩ := List.mem_map.mp mem
      exact range_ne_of_lt (lt_trans (before y there) less) same
    simp [other, absent]
  | case3 rules x later split equal =>
    obtain ⟨whole, _⟩ := halves_of_ascending ascending split
    rw [whole, ranges_append, ranges_cons, ← FirewallRange.eq_of_compare equal]
    simp
  | case4 rules x later split greater ih =>
    have less : r < x := Std.OrientedCmp.gt_iff_lt.mp greater
    obtain ⟨whole, earlier, _, _, behind⟩ := halves_of_ascending ascending split
    rw [ih earlier]
    have other : r.range ≠ x.range := range_ne_of_lt less
    have absent : r.range ∉ ranges later := by
      intro mem
      obtain ⟨y, there, same⟩ := List.mem_map.mp mem
      exact range_ne_of_lt (lt_trans less (behind y there)) same.symm
    conv_rhs => rw [whole]
    simp [other, absent]

section First

theorem find?_cons_congr {p : FirewallRule → Bool} (r : FirewallRule) (same : a.find? p = b.find? p) :
    (r :: a).find? p = (r :: b).find? p := by
  rw [List.find?_cons, List.find?_cons, same]

theorem find?_sort (rules : List FirewallRule) :
    (sort rules).find? (fun s => s.range = x) = rules.find? fun s => s.range = x := by
  rw [← List.head?_filter, ← List.head?_filter, filter_sort]

theorem find?_dropRepeats (rules : List FirewallRule) :
    (dropRepeats rules).find? (fun s => s.range = x) = rules.find? fun s => s.range = x := by
  induction rules with
  | nil => rfl
  | cons r rest ih =>
    refine Eq.trans ?_ (find?_cons_congr r ih)
    rw [dropRepeats]
    split
    next none => rw [none]
    next y ys kept =>
      rw [kept]
      split
      next same =>
        rw [List.find?_cons, List.find?_cons, List.find?_cons, same_iff.mp same]
        split <;> rfl
      next => rfl

/-- Of the rules with a range the one that comes first is kept. -/
theorem find?_distinct (rules : List FirewallRule) :
    (distinct rules).find? (fun s => s.range = x) = rules.find? fun s => s.range = x :=
  (find?_dropRepeats (sort rules)).trans (find?_sort rules)

theorem find?_of_ascending (ascending : rules.Pairwise (· < ·)) (mem : r ∈ rules) :
    rules.find? (fun s => s.range = r.range) = some r := by
  induction rules with
  | nil => cases mem
  | cons y rest ih =>
    obtain ⟨greater, ascending⟩ := List.pairwise_cons.mp ascending
    rcases List.mem_cons.mp mem with rfl | later
    · simp
    · have differs : y.range ≠ r.range := range_ne_of_lt (greater r later)
      rw [List.find?_cons_of_neg (by simpa using differs)]
      exact ih ascending later

/-- A distinct rule is the first one of the list with its range. -/
theorem first_of_mem_distinct (mem : r ∈ distinct rules) :
    rules.find? (fun s => s.range = r.range) = some r := by
  rw [← find?_distinct]
  exact find?_of_ascending (ascending_distinct rules) mem

end First

/-- The rules of `a` with ranges that `b` does not have, strictly ascending, and for each range the first rule
of `a` that has it. -/
structure Lacks (b a rules : List FirewallRule) : Prop where
  ascending : rules.Pairwise (· < ·)
  ranges : ∀ x, x ∈ ranges rules ↔ x ∈ ranges a ∧ x ∉ ranges b
  first : ∀ r ∈ rules, a.find? (fun s => s.range = r.range) = some r

theorem lacks_missing (a b : List FirewallRule) :
    Lacks b a ((distinct a).filter fun r => !r.allowedBy (distinct b)) where
  ascending := (ascending_distinct a).filter _
  ranges _ := mem_ranges_missing a b
  first _ mem := first_of_mem_distinct (List.mem_filter.mp mem).1

theorem Lacks.ascending_ranges (h : Lacks b a rules) :
    (FirewallRule.ranges rules).Pairwise fun x y => x.compare y = .lt :=
  List.pairwise_map.mpr h.ascending

/-- The ranges that are lacking are given by the sets of ranges alone. -/
theorem Lacks.ranges_eq {a' b' rules' : List FirewallRule} (h : Lacks b a rules) (h' : Lacks b' a' rules')
    (sameA : ∀ x, x ∈ FirewallRule.ranges a' ↔ x ∈ FirewallRule.ranges a)
    (sameB : ∀ x, x ∈ FirewallRule.ranges b' ↔ x ∈ FirewallRule.ranges b) :
    FirewallRule.ranges rules' = FirewallRule.ranges rules := by
  have distinct {l : List FirewallRange} (ascending : l.Pairwise fun x y => x.compare y = .lt) : l.Nodup := by
    refine ascending.imp fun {x y} less same => ?_
    subst same
    cases less.symm.trans Std.ReflCmp.compare_self
  have perm : (FirewallRule.ranges rules').Perm (FirewallRule.ranges rules) := by
    rw [List.perm_ext_iff_of_nodup (distinct h'.ascending_ranges) (distinct h.ascending_ranges)]
    intro x
    rw [h'.ranges, h.ranges, sameA, sameB]
  have asymmetric : ∀ x y : FirewallRange, x.compare y = .lt → y.compare x = .lt → x = y := by
    intro x y less greater
    cases (Std.OrientedCmp.gt_of_lt less).symm.trans greater
  exact perm.eq_of_pairwise (fun x y _ _ => asymmetric x y) h'.ascending_ranges h.ascending_ranges

end FirewallRule

namespace RuleAction

/-- What is done to which range. -/
def outline : RuleAction → FirewallRange ⊕ FirewallRange
  | add r => .inl r.range
  | delete r => .inr r.range

end RuleAction

open FirewallRule

variable {current expected : List FirewallRule}

theorem additions_lack (current expected : List FirewallRule) :
    Lacks current expected (additions (diffRules current expected)) := by
  rw [additions_diffRules]
  exact lacks_missing expected current

theorem removals_lack (current expected : List FirewallRule) :
    Lacks expected current (removals (diffRules current expected)) := by
  rw [removals_diffRules]
  exact lacks_missing current expected

theorem diffRules_eq (current expected : List FirewallRule) :
    diffRules current expected = (additions (diffRules current expected)).map .add ++
      (removals (diffRules current expected)).map .delete := by
  rw [additions_diffRules, removals_diffRules]
  rfl

theorem outline_diffRules (current expected : List FirewallRule) :
    (diffRules current expected).map outline =
      (ranges (additions (diffRules current expected))).map .inl ++
        (ranges (removals (diffRules current expected))).map .inr := by
  conv_lhs => rw [diffRules_eq]
  simp only [List.map_append, ranges, List.map_map]
  rfl

/-- The rules of `a` that halving does not find in `b`. -/
def unfound (b a : List FirewallRule) : List FirewallRule :=
  (distinct a).filter fun r => !search r (distinct b)

theorem unfound_eq (a b : List FirewallRule) :
    unfound b a = (distinct a).filter fun r => !r.allowedBy (distinct b) := by
  refine List.filter_congr fun r _ => congrArg not ?_
  rw [Bool.eq_iff_iff, search_iff (ascending_distinct b), allowedBy_iff]

/-- What leads from the current to the expected rules. -/
structure Difference (current expected : List FirewallRule) (actions : List RuleAction) : Prop where
  additions_first : actions = (additions actions).map .add ++ (removals actions).map .delete
  added : Lacks current expected (additions actions)
  deleted : Lacks expected current (removals actions)
  searched : actions = (unfound current expected).map .add ++ (unfound expected current).map .delete
  empty : actions = [] ↔ ∀ x, x ∈ ranges current ↔ x ∈ ranges expected
  unordered : ∀ current' expected', (∀ x, x ∈ ranges current' ↔ x ∈ ranges current) →
    (∀ x, x ∈ ranges expected' ↔ x ∈ ranges expected) →
    (diffRules current' expected').map outline = actions.map outline
  mirrored : ranges (additions actions) = ranges (removals (diffRules expected current))

/-- Whatever rules there are and are expected, their difference is that of their sets of ranges. -/
theorem difference_diffRules (current expected : List FirewallRule) :
    Difference current expected (diffRules current expected) where
  additions_first := diffRules_eq current expected
  added := additions_lack current expected
  deleted := removals_lack current expected
  searched := by
    rw [unfound_eq, unfound_eq]
    rfl
  empty := diffRules_eq_nil_iff
  unordered current' expected' sameCurrent sameExpected := by
    have added := (additions_lack current expected).ranges_eq (additions_lack current' expected')
      sameExpected sameCurrent
    have deleted := (removals_lack current expected).ranges_eq (removals_lack current' expected')
      sameCurrent sameExpected
    rw [outline_diffRules, outline_diffRules, added, deleted]
  mirrored := (removals_lack expected current).ranges_eq (additions_lack current expected)
    (fun _ => Iff.rfl) fun _ => Iff.rfl

end DatabaseOperator
