import DatabaseOperator.Proofs.Firewall.Order
import DatabaseOperator.Resource.Spec

namespace DatabaseOperator

variable {d : DeclaredRule} {declared : List DeclaredRule} {rule : FirewallRule}
  {rules : List FirewallRule} {s : Spec} {e : ValidationError}

namespace DeclaredRule

theorem custom_or_managed_of_check (h : d.check = .ok rule) :
    (d.cidr ≠ "" ∧ rule = ⟨none, .custom d.cidr, d.label⟩) ∨
      (d.rangeId ≠ "" ∧ rule = ⟨none, .managed d.rangeId, d.label⟩) := by
  unfold check FirewallRule.parse at h
  cases typed : RuleType.parse d.type with
  | error e =>
    rw [typed] at h
    cases h
  | ok t =>
    rw [typed] at h
    cases t with
    | customRange =>
      by_cases blank : d.cidr.isEmpty = true
      · simp [blank, bind, Except.bind, throw, throwThe, MonadExceptOf.throw] at h
      · simp only [bind, Except.bind, blank] at h
        cases h
        exact .inl ⟨by simpa using blank, rfl⟩
    | managedRange =>
      by_cases blank : d.rangeId.isEmpty = true
      · simp [blank, bind, Except.bind, throw, throwThe, MonadExceptOf.throw] at h
      · simp only [bind, Except.bind, blank] at h
        cases h
        exact .inr ⟨by simpa using blank, rfl⟩

/-- What is declared has no id yet, and allows something that has a name. -/
theorem id_and_detail_of_check (h : d.check = .ok rule) : rule.id = none ∧ rule.range.detail ≠ "" := by
  rcases custom_or_managed_of_check h with ⟨present, rfl⟩ | ⟨present, rfl⟩
  · exact ⟨rfl, present⟩
  · exact ⟨rfl, present⟩

theorem split_of_mapM_cons (h : (d :: declared).mapM check = .ok rules) :
    ∃ r rs, d.check = .ok r ∧ declared.mapM check = .ok rs ∧ rules = r :: rs := by
  rw [List.mapM_cons] at h
  cases first : d.check with
  | error e =>
    rw [first] at h
    cases h
  | ok r =>
    cases others : declared.mapM check with
    | error e =>
      rw [first, others] at h
      cases h
    | ok rs =>
      rw [first, others] at h
      cases h
      exact ⟨r, rs, rfl, rfl, rfl⟩

/-- When all declared rules pass, the rules are what they come to. -/
theorem mem_iff_of_mapM (h : declared.mapM check = .ok rules) :
    rule ∈ rules ↔ ∃ d ∈ declared, d.check = .ok rule := by
  induction declared generalizing rules with
  | nil =>
    cases h
    simp
  | cons d rest ih =>
    obtain ⟨r, rs, first, others, rfl⟩ := split_of_mapM_cons h
    simp [ih others, first, eq_comm]

theorem passes_of_mapM (h : declared.mapM check = .ok rules) :
    ∀ d ∈ declared, ∃ rule, d.check = .ok rule := by
  induction declared generalizing rules with
  | nil => exact fun _ mem => nomatch mem
  | cons d rest ih =>
    obtain ⟨r, rs, first, others, rfl⟩ := split_of_mapM_cons h
    exact List.forall_mem_cons.mpr ⟨⟨r, first⟩, ih others⟩

/-- The rules before the one that is at fault all pass. -/
theorem fault_of_mapM (h : declared.mapM check = .error e) :
    ∃ before d after, declared = before ++ d :: after ∧
      (∀ x ∈ before, ∃ rule, x.check = .ok rule) ∧ d.check = .error e := by
  induction declared with
  | nil => cases h
  | cons d rest ih =>
    rw [List.mapM_cons] at h
    cases first : d.check with
    | error f =>
      rw [first] at h
      cases h
      exact ⟨[], d, rest, rfl, (fun _ mem => nomatch mem), first⟩
    | ok r =>
      cases others : rest.mapM check with
      | error f =>
        rw [first, others] at h
        cases h
        obtain ⟨before, x, after, rfl, pass, fault⟩ := ih others
        exact ⟨d :: before, x, after, rfl, List.forall_mem_cons.mpr ⟨⟨r, first⟩, pass⟩, fault⟩
      | ok rs =>
        rw [first, others] at h
        cases h

end DeclaredRule

namespace Spec

/-- The first declared rule that is not a rule has this fault. -/
def FirstFault (s : Spec) (e : ValidationError) : Prop :=
  ∃ before d after, s.declaredRules = before ++ d :: after ∧
    (∀ x ∈ before, ∃ rule, x.check = .ok rule) ∧ d.check = .error e

/-- The range is the one of a declared rule. -/
def Declares (s : Spec) (x : FirewallRange) : Prop :=
  ∃ d ∈ s.declaredRules, ∃ rule, d.check = .ok rule ∧ rule.range = x

theorem mem_firewallRules_iff (h : s.firewallRules = .ok rules) :
    rule ∈ rules ↔ ∃ d ∈ s.declaredRules, d.check = .ok rule :=
  DeclaredRule.mem_iff_of_mapM h

theorem declares_iff (h : s.firewallRules = .ok rules) {x : FirewallRange} :
    s.Declares x ↔ x ∈ FirewallRule.ranges rules := by
  constructor
  · rintro ⟨d, mem, rule, checked, rfl⟩
    exact List.mem_map_of_mem ((mem_firewallRules_iff h).mpr ⟨d, mem, checked⟩)
  · intro mem
    obtain ⟨rule, listed, rfl⟩ := List.mem_map.mp mem
    obtain ⟨d, declared, checked⟩ := (mem_firewallRules_iff h).mp listed
    exact ⟨d, declared, rule, checked, rfl⟩

/-- A declaration with a rule that is none is refused with the first fault. -/
theorem database_of_fault (mem : d ∈ s.declaredRules) (invalid : d.check = .error e) :
    ∃ first, s.FirstFault first ∧ s.database = .error first := by
  cases checked : s.firewallRules with
  | ok rules =>
    obtain ⟨rule, passed⟩ := DeclaredRule.passes_of_mapM checked d mem
    cases passed.symm.trans invalid
  | error first =>
    refine ⟨first, DeclaredRule.fault_of_mapM checked, ?_⟩
    rw [database, checked]
    rfl

end Spec

end DatabaseOperator
