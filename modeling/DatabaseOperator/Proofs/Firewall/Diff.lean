import DatabaseOperator.Proofs.Firewall.Order
import Mathlib.Data.List.Nodup

namespace DatabaseOperator

namespace RuleAction

def added? : RuleAction → Option FirewallRule
  | add r => some r
  | delete _ => none

def removed? : RuleAction → Option FirewallRule
  | add _ => none
  | delete r => some r

/-- The rules that actions add. -/
def additions (actions : List RuleAction) : List FirewallRule :=
  actions.filterMap added?

/-- The rules that actions delete. -/
def removals (actions : List RuleAction) : List FirewallRule :=
  actions.filterMap removed?

variable {r : FirewallRule} {actions : List RuleAction}

@[simp]
theorem additions_add : additions (add r :: actions) = r :: additions actions := rfl

@[simp]
theorem additions_delete : additions (delete r :: actions) = additions actions := rfl

@[simp]
theorem removals_add : removals (add r :: actions) = removals actions := rfl

@[simp]
theorem removals_delete : removals (delete r :: actions) = r :: removals actions := rfl

end RuleAction

open FirewallRule RuleAction

variable {r : FirewallRule} {x : FirewallRange} {rules old new declared : List FirewallRule}
  {n : Nat}

theorem additions_diffRules (old declared : List FirewallRule) :
    additions (diffRules old declared) =
      (distinct declared).filter fun r => !r.allowedBy (distinct old) := by
  simp [additions, diffRules, List.filterMap_append, Function.comp_def, added?]

theorem removals_diffRules (old declared : List FirewallRule) :
    removals (diffRules old declared) =
      (distinct old).filter fun r => !r.allowedBy (distinct declared) := by
  simp [removals, diffRules, List.filterMap_append, Function.comp_def, removed?]

/-- Of the distinct rules of one list, those that another one does not allow. -/
theorem mem_ranges_missing (a b : List FirewallRule) :
    x ∈ ranges ((distinct a).filter fun r => !r.allowedBy (distinct b)) ↔
      x ∈ ranges a ∧ x ∉ ranges b := by
  rw [← mem_ranges_distinct a, ← mem_ranges_distinct b]
  simp only [ranges, List.mem_map, List.mem_filter, Bool.not_eq_true', Bool.eq_false_iff, ne_eq]
  constructor
  · rintro ⟨r, ⟨mem, missing⟩, rfl⟩
    exact ⟨⟨r, mem, rfl⟩, fun found => missing (allowedBy_iff.mpr (List.mem_map.mpr found))⟩
  · rintro ⟨⟨r, mem, rfl⟩, missing⟩
    exact ⟨r, ⟨mem, fun allowed => missing (List.mem_map.mp (allowedBy_iff.mp allowed))⟩, rfl⟩

theorem nodup_ranges_missing (a b : List FirewallRule) :
    (ranges ((distinct a).filter fun r => !r.allowedBy (distinct b))).Nodup :=
  (nodup_ranges_distinct a).sublist (List.filter_sublist.map range)

theorem count_missing (a b : List FirewallRule) :
    (ranges ((distinct a).filter fun r => !r.allowedBy (distinct b))).count x =
      if x ∈ ranges a ∧ x ∉ ranges b then 1 else 0 := by
  split
  next missing =>
    exact List.count_eq_one_of_mem (nodup_ranges_missing a b) ((mem_ranges_missing a b).mpr missing)
  next other =>
    exact List.count_eq_zero.mpr fun mem => other ((mem_ranges_missing a b).mp mem)

theorem mem_of_mem_removals (mem : r ∈ removals (diffRules old declared)) : r ∈ old := by
  rw [removals_diffRules] at mem
  exact mem_of_mem_distinct (List.mem_filter.mp mem).1

theorem nodup_removals (old declared : List FirewallRule) :
    (removals (diffRules old declared)).Nodup := by
  rw [removals_diffRules]
  exact List.Nodup.of_map range (nodup_ranges_missing old declared)

/-- Nothing is done to rules that allow what is declared. -/
theorem diffRules_eq_nil (same : ∀ x, x ∈ ranges old ↔ x ∈ ranges declared) :
    diffRules old declared = [] := by
  have none (a b : List FirewallRule) (within : ∀ x, x ∈ ranges a → x ∈ ranges b) :
      ((distinct a).filter fun r => !r.allowedBy (distinct b)) = [] := by
    refine List.eq_nil_iff_forall_not_mem.mpr fun r mem => ?_
    obtain ⟨here, missing⟩ := (mem_ranges_missing a b).mp (List.mem_map.mpr ⟨r, mem, rfl⟩)
    exact missing (within r.range here)
  rw [diffRules]
  simp only [none declared old fun x => (same x).mpr, none old declared fun x => (same x).mp]
  rfl

theorem ranges_agree_of_diffRules {old declared : List FirewallRule}
    (none : diffRules old declared = []) (x : FirewallRange) :
    x ∈ ranges old ↔ x ∈ ranges declared := by
  have added := additions_diffRules old declared
  have removed := removals_diffRules old declared
  rw [none] at added removed
  constructor
  · intro mem
    by_contra undeclared
    have missing := (mem_ranges_missing old declared).mpr ⟨mem, undeclared⟩
    rw [← removed] at missing
    cases missing
  · intro mem
    by_contra unlisted
    have missing := (mem_ranges_missing declared old).mpr ⟨mem, unlisted⟩
    rw [← added] at missing
    cases missing

theorem diffRules_eq_nil_iff {old declared : List FirewallRule} :
    diffRules old declared = [] ↔ ∀ x, x ∈ ranges old ↔ x ∈ ranges declared :=
  ⟨ranges_agree_of_diffRules, diffRules_eq_nil⟩

namespace FirewallRule

/-- Every rule has an id, which is not empty, and no two rules have the same. -/
structure Identified (rules : List FirewallRule) : Prop where
  present : ∀ r ∈ rules, ∃ id, r.id = some id ∧ id ≠ ""
  distinct : rules.Pairwise fun a b => a.id ≠ b.id

def without (id : String) (rules : List FirewallRule) : List FirewallRule :=
  rules.filter fun r => r.id ≠ some id

variable {id : String}

theorem Identified.append (h : Identified rules) (named : id ≠ "")
    (unused : ∀ x ∈ rules, x.id ≠ some id) (r : FirewallRule) :
    Identified (rules ++ [{ r with id := some id }]) where
  present x mem := by
    rcases List.mem_append.mp mem with mem | mem
    · exact h.present x mem
    · obtain rfl := List.mem_singleton.mp mem
      exact ⟨id, rfl, named⟩
  distinct := by
    refine List.pairwise_append.mpr ⟨h.distinct, List.pairwise_singleton _ _, fun x hx y hy => ?_⟩
    obtain rfl := List.mem_singleton.mp hy
    exact unused x hx

theorem Identified.without (h : Identified rules) (id : String) :
    Identified (without id rules) where
  present x mem := h.present x (List.mem_filter.mp mem).1
  distinct := h.distinct.sublist List.filter_sublist

/-- The rule with an id goes, and no other one. -/
theorem Identified.cons_without_perm (h : Identified rules) (mem : r ∈ rules)
    (number : r.id = some id) : (r :: FirewallRule.without id rules).Perm rules := by
  have distinct := h.distinct
  clear h
  induction rules with
  | nil => cases mem
  | cons a rest ih =>
    obtain ⟨first, later⟩ := List.pairwise_cons.mp distinct
    by_cases same : a.id = some id
    · have others : FirewallRule.without id (a :: rest) = rest := by
        have dropped : FirewallRule.without id (a :: rest) = FirewallRule.without id rest :=
          List.filter_cons_of_neg (by simpa using same)
        rw [dropped]
        refine List.filter_eq_self.mpr fun x hx => ?_
        have differs := first x hx
        rw [same] at differs
        simpa using Ne.symm differs
      have eq : r = a :=
        (List.mem_cons.mp mem).resolve_right fun hr => first r hr (same.trans number.symm)
      rw [others, eq]
    · have hr : r ∈ rest := by
        refine (List.mem_cons.mp mem).resolve_left ?_
        rintro rfl
        exact same number
      have kept : FirewallRule.without id (a :: rest) = a :: FirewallRule.without id rest :=
        List.filter_cons_of_pos (by simpa using same)
      rw [kept]
      exact (List.Perm.swap a r _).trans ((ih hr later).cons a)

theorem Identified.mem_without (h : Identified rules) (mem : r ∈ rules) (number : r.id = some id)
    {x : FirewallRule} (other : x ∈ rules) (ne : x ≠ r) : x ∈ FirewallRule.without id rules :=
  (List.mem_cons.mp ((h.cons_without_perm mem number).mem_iff.mpr other)).resolve_left ne

/-- The most rules that share a range which is not declared. -/
def surplus (declared rules : List FirewallRule) : Nat :=
  (((ranges rules).filter fun x => x ∉ ranges declared).map (ranges rules).count).foldr max 0

theorem foldr_max_le_iff {l : List Nat} : l.foldr max 0 ≤ n ↔ ∀ a ∈ l, a ≤ n := by
  induction l with
  | nil => simp
  | cons a l ih => rw [List.foldr_cons, Nat.max_le, ih, List.forall_mem_cons]

theorem surplus_le_iff :
    surplus declared rules ≤ n ↔ ∀ x, x ∉ ranges declared → (ranges rules).count x ≤ n := by
  rw [surplus, foldr_max_le_iff]
  simp only [List.mem_map, List.mem_filter, decide_eq_true_eq]
  constructor
  · intro bound x undeclared
    by_cases mem : x ∈ ranges rules
    · exact bound _ ⟨x, ⟨mem, undeclared⟩, rfl⟩
    · rw [List.count_eq_zero.mpr mem]
      exact Nat.zero_le n
  · rintro bound _ ⟨x, ⟨_, undeclared⟩, rfl⟩
    exact bound x undeclared

/-- Without a surplus every range is declared. -/
theorem mem_ranges_of_surplus (none : surplus declared rules = 0) (mem : x ∈ ranges rules) :
    x ∈ ranges declared := by
  by_contra undeclared
  have bound := surplus_le_iff.mp (Nat.le_of_eq none) x undeclared
  have present := List.count_pos_iff.mpr mem
  omega

/-- What one round does to rules. -/
structure Round (declared old new : List FirewallRule) : Prop where
  identified : Identified new
  wanted : ∀ x ∈ ranges declared, (ranges new).count x = max ((ranges old).count x) 1
  unwanted : ∀ x, x ∉ ranges declared → (ranges new).count x = (ranges old).count x - 1

theorem round_of_perm (identified : Identified new)
    (perm : (ranges new ++ ranges (removals (diffRules old declared))).Perm
      (ranges old ++ ranges (additions (diffRules old declared)))) : Round declared old new := by
  -- the diff is of distinct rules, so it adds and deletes at most one rule of a range
  have balance (x : FirewallRange) :
      (ranges new).count x + (if x ∈ ranges old ∧ x ∉ ranges declared then 1 else 0) =
        (ranges old).count x + if x ∈ ranges declared ∧ x ∉ ranges old then 1 else 0 := by
    have counts := perm.count_eq x
    rw [List.count_append, List.count_append, removals_diffRules, additions_diffRules,
      count_missing, count_missing] at counts
    exact counts
  have present (x : FirewallRange) : x ∈ ranges old ↔ 0 < (ranges old).count x :=
    List.count_pos_iff.symm
  refine ⟨identified, fun x wanted => ?_, fun x undeclared => ?_⟩
  · have counts := balance x
    simp only [wanted, not_true_eq_false, and_false, if_false, true_and, present] at counts
    split at counts <;> omega
  · have counts := balance x
    simp only [undeclared, not_false_eq_true, and_true, false_and, if_false, present] at counts
    split at counts <;> omega

/-- After a round what is declared is allowed, and what was allowed more than once. -/
theorem Round.mem_ranges_iff (h : Round declared old new) :
    x ∈ ranges new ↔ x ∈ ranges declared ∨ 2 ≤ (ranges old).count x := by
  rw [← List.count_pos_iff]
  by_cases wanted : x ∈ ranges declared
  · have counts := h.wanted x wanted
    simp only [wanted, true_or, iff_true]
    omega
  · have counts := h.unwanted x wanted
    simp only [wanted, false_or]
    omega

theorem Round.surplus_le (h : Round declared old new) :
    surplus declared new ≤ surplus declared old - 1 := by
  refine surplus_le_iff.mpr fun x undeclared => ?_
  have before := surplus_le_iff.mp (Nat.le_refl (surplus declared old)) x undeclared
  have counts := h.unwanted x undeclared
  omega

end FirewallRule

end DatabaseOperator
