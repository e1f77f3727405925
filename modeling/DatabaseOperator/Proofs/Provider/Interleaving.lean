import DatabaseOperator.Proofs.Provider.Faithful
import Mathlib.Data.List.Induction

namespace DatabaseOperator

open FirewallRule RuleAction

open scoped List

variable {r x : FirewallRule} {rules rules' current expected : List FirewallRule} {id : String}
  {done order order' : List RuleAction} {succeeds : RuleAction → Bool}

namespace FirewallRule

/-- Every rule has an id, and no two rules have the same. -/
structure Numbered (rules : List FirewallRule) : Prop where
  present : ∀ r ∈ rules, ∃ id, r.id = some id
  distinct : rules.Pairwise fun a b => a.id ≠ b.id

/-- A rule without its id. -/
def entry (r : FirewallRule) : FirewallRange × String :=
  (r.range, r.label)

def entries (rules : List FirewallRule) : List (FirewallRange × String) :=
  rules.map entry

@[simp]
theorem entries_append (a b : List FirewallRule) : entries (a ++ b) = entries a ++ entries b :=
  List.map_append

/-- The rule is there, and no other one has its id. -/
def Alone (rules : List FirewallRule) (r : FirewallRule) : Prop :=
  (rules.filter fun x => x.id = r.id) = [r]

theorem alone_of_distinct (distinct : rules.Pairwise fun a b => a.id ≠ b.id) (mem : r ∈ rules) :
    Alone rules r := by
  induction rules with
  | nil => cases mem
  | cons a rest ih =>
    obtain ⟨first, later⟩ := List.pairwise_cons.mp distinct
    by_cases same : a.id = r.id
    · have eq : r = a := (List.mem_cons.mp mem).resolve_right fun later => first r later same
      have others : (rest.filter fun x => x.id = r.id) = [] := by
        refine List.filter_eq_nil_iff.mpr fun x hx => ?_
        have differs := first x hx
        rw [same] at differs
        simpa using Ne.symm differs
      rw [Alone, List.filter_cons_of_pos (by simpa using same), others, eq]
    · have known : r ∈ rest := by
        refine (List.mem_cons.mp mem).resolve_left ?_
        rintro rfl
        exact same rfl
      rw [Alone, List.filter_cons_of_neg (by simpa using same)]
      exact ih later known

theorem eq_of_id (distinct : rules.Pairwise fun a b => a.id ≠ b.id) (hr : r ∈ rules) (hx : x ∈ rules)
    (same : x.id = r.id) : x = r := by
  have found : x ∈ rules.filter fun y => y.id = r.id := List.mem_filter.mpr ⟨hx, by simpa using same⟩
  rw [alone_of_distinct distinct hr] at found
  exact List.mem_singleton.mp found

namespace Alone

theorem mem (h : Alone rules r) : r ∈ rules := by
  have found : r ∈ rules.filter fun x => x.id = r.id := by
    rw [h]
    exact List.mem_singleton_self r
  exact (List.mem_filter.mp found).1

/-- The rule goes with its id. -/
theorem cons_without_perm (h : Alone rules r) (number : r.id = some id) :
    r :: without id rules ~ rules := by
  have parts := List.filter_append_perm (fun x : FirewallRule => decide (x.id = r.id)) rules
  rw [h] at parts
  have others : (rules.filter fun x => !decide (x.id = r.id)) = without id rules := by
    simp [without, number]
  rwa [others] at parts

theorem append (h : Alone rules r) (other : r.id ≠ some id) (x : FirewallRule) :
    Alone (rules ++ [{ x with id := some id }]) r := by
  have apart : ([{ x with id := some id }].filter fun y : FirewallRule => y.id = r.id) = [] :=
    List.filter_cons_of_neg (by simpa using Ne.symm other)
  rw [Alone, List.filter_append, apart, List.append_nil]
  exact h

theorem without (h : Alone rules r) (other : r.id ≠ some id) :
    Alone (FirewallRule.without id rules) r := by
  have same : (rules.filter fun x => decide (x.id = r.id) && decide (x.id ≠ some id)) =
      rules.filter fun x => x.id = r.id := by
    refine List.filter_congr fun x _ => ?_
    by_cases eq : x.id = r.id
    · simp [eq, other]
    · simp [eq]
  rw [Alone, FirewallRule.without, List.filter_filter, same]
  exact h

end Alone

end FirewallRule

/-- From the current rules, the provider processes these actions in this order. An action that does not
succeed changes nothing. A new rule gets an id that no current rule has that is still there. -/
inductive Processed (current : List FirewallRule) (succeeds : RuleAction → Bool) :
    List RuleAction → List FirewallRule → Prop
  | start : Processed current succeeds [] current
  | failed {done : List RuleAction} {rules : List FirewallRule} {a : RuleAction} :
      Processed current succeeds done rules → succeeds a = false →
      Processed current succeeds (done ++ [a]) rules
  | added {done : List RuleAction} {rules : List FirewallRule} {r : FirewallRule} (id : String) :
      Processed current succeeds done rules → succeeds (.add r) = true →
      (∀ x ∈ current, x ∈ rules → x.id ≠ some id) →
      Processed current succeeds (done ++ [.add r]) (rules ++ [{ r with id := some id }])
  | deleted {done : List RuleAction} {rules : List FirewallRule} {r : FirewallRule} {id : String} :
      Processed current succeeds done rules → succeeds (.delete r) = true → r.id = some id →
      Processed current succeeds (done ++ [.delete r]) (without id rules)

namespace RuleAction

theorem additions_append (a b : List RuleAction) : additions (a ++ b) = additions a ++ additions b :=
  List.filterMap_append

theorem removals_append (a b : List RuleAction) : removals (a ++ b) = removals a ++ removals b :=
  List.filterMap_append

theorem additions_concat_add (done : List RuleAction) (r : FirewallRule) :
    additions (done ++ [add r]) = additions done ++ [r] :=
  additions_append done [add r]

theorem additions_concat_delete (done : List RuleAction) (r : FirewallRule) :
    additions (done ++ [delete r]) = additions done :=
  (additions_append done [delete r]).trans (List.append_nil _)

theorem removals_concat_add (done : List RuleAction) (r : FirewallRule) :
    removals (done ++ [add r]) = removals done :=
  (removals_append done [add r]).trans (List.append_nil _)

theorem removals_concat_delete (done : List RuleAction) (r : FirewallRule) :
    removals (done ++ [delete r]) = removals done ++ [r] :=
  removals_append done [delete r]

theorem effective_concat {a : RuleAction} (takes : succeeds a = true) :
    (done ++ [a]).filter succeeds = done.filter succeeds ++ [a] := by
  simp [takes]

theorem effective_concat_of_fails {a : RuleAction} (fails : succeeds a = false) :
    (done ++ [a]).filter succeeds = done.filter succeeds := by
  simp [fails]

/-- The rules to be deleted are current ones, and each is deleted once. -/
structure Due (current : List FirewallRule) (actions : List RuleAction) : Prop where
  known : ∀ r ∈ removals actions, r ∈ current
  once : (removals actions).Nodup

theorem due_of_perm (perm : order ~ diffRules current expected) : Due current order where
  known _ mem := mem_of_mem_removals ((perm.filterMap removed?).subset mem)
  once := (perm.filterMap removed?).nodup_iff.mpr (nodup_removals current expected)

theorem Due.of_append {a b : List RuleAction} (h : Due current (a ++ b)) : Due current a := by
  obtain ⟨known, once⟩ := h
  rw [removals_append] at known once
  exact ⟨fun r mem => known r (List.mem_append_left _ mem), (List.nodup_append.mp once).1⟩

end RuleAction

namespace Processed

/-- The current rules of which the deletion has not succeeded are all there. -/
theorem alone (h : Processed current succeeds done rules) (numbered : Numbered current)
    (due : Due current done) :
    ∀ r ∈ current, r ∉ removals (done.filter succeeds) → Alone rules r := by
  induction h with
  | start => exact fun r mem _ => alone_of_distinct numbered.distinct mem
  | failed _ fails ih =>
    rw [effective_concat_of_fails fails]
    exact ih due.of_append
  | @added done rules x id _ takes fresh ih =>
    rw [effective_concat takes, removals_concat_add]
    intro r mem kept
    have before := ih due.of_append r mem kept
    exact before.append (fresh r mem before.mem) x
  | @deleted done rules x id _ takes number ih =>
    intro r mem kept
    rw [effective_concat takes, removals_concat_delete] at kept
    have before := ih due.of_append r mem fun gone => kept (List.mem_append_left _ gone)
    have present : x ∈ current := due.known x (by simp [removals_concat_delete])
    refine before.without fun same => kept (List.mem_append_right _ ?_)
    have eq : r = x := eq_of_id numbered.distinct present mem (same.trans number.symm)
    exact List.mem_singleton.mpr eq

/-- What is there is what was there and what was added, less what was deleted. -/
theorem entries_perm (h : Processed current succeeds done rules) (numbered : Numbered current)
    (due : Due current done) :
    entries rules ++ entries (removals (done.filter succeeds)) ~
      entries current ++ entries (additions (done.filter succeeds)) := by
  induction h with
  | start => exact .refl _
  | failed _ fails ih =>
    rw [effective_concat_of_fails fails]
    exact ih due.of_append
  | @added done rules x id _ takes fresh ih =>
    rw [effective_concat takes, removals_concat_add, additions_concat_add]
    have new : entries (rules ++ [{ x with id := some id }]) = entries rules ++ [x.entry] :=
      entries_append _ _
    calc
      entries (rules ++ [{ x with id := some id }]) ++ entries (removals (done.filter succeeds))
      _ ~ entries rules ++ entries (removals (done.filter succeeds)) ++ [x.entry] := by
        rw [new, List.append_assoc, List.append_assoc]
        exact List.perm_append_comm.append_left _
      _ ~ entries current ++ entries (additions (done.filter succeeds)) ++ [x.entry] :=
        (ih due.of_append).append_right _
      _ ~ entries current ++ entries (additions (done.filter succeeds) ++ [x]) := by
        rw [entries_append, List.append_assoc]
        exact .refl _
  | @deleted done rules x id earlier takes number ih =>
    rw [effective_concat takes, removals_concat_delete, additions_concat_delete]
    have present : x ∈ current := due.known x (by simp [removals_concat_delete])
    -- no rule is deleted twice, so this one is still there
    have kept : x ∉ removals (done.filter succeeds) := by
      have once := due.once
      rw [removals_concat_delete] at once
      intro gone
      have before : x ∈ removals done := (List.filter_sublist.filterMap removed?).subset gone
      exact (List.nodup_append.mp once).2.2 x before x (List.mem_singleton_self x) rfl
    have dropped : x :: without id rules ~ rules :=
      (earlier.alone numbered due.of_append x present kept).cons_without_perm number
    calc
      entries (without id rules) ++ entries (removals (done.filter succeeds) ++ [x])
      _ ~ x.entry :: entries (without id rules) ++ entries (removals (done.filter succeeds)) := by
        rw [entries_append, ← List.append_assoc]
        exact List.perm_append_comm
      _ ~ entries rules ++ entries (removals (done.filter succeeds)) :=
        (dropped.map entry).append_right _
      _ ~ entries current ++ entries (additions (done.filter succeeds)) := ih due.of_append

section Order

variable {rest : List RuleAction}

/-- What is current and declared stays. -/
theorem mem_ranges_of_kept {x : FirewallRange} (h : Processed current succeeds done rules)
    (numbered : Numbered current) (perm : done ++ rest ~ diffRules current expected)
    (here : x ∈ ranges current) (declared : x ∈ ranges expected) : x ∈ ranges rules := by
  obtain ⟨r, mem, rfl⟩ := List.mem_map.mp here
  have kept : r ∉ removals (done.filter succeeds) := by
    intro gone
    have listed : r ∈ removals (done ++ rest) := by
      rw [removals_append]
      exact List.mem_append_left _ ((List.filter_sublist.filterMap removed?).subset gone)
    have undeclared : r ∈ removals (diffRules current expected) :=
      (perm.filterMap removed?).subset listed
    rw [removals_diffRules] at undeclared
    exact ((mem_ranges_missing current expected).mp (List.mem_map_of_mem undeclared)).2 declared
  have alone := h.alone numbered (due_of_perm perm).of_append r mem kept
  exact List.mem_map_of_mem alone.mem

/-- Nothing is allowed that is neither current nor declared. -/
theorem cases_of_mem_ranges {x : FirewallRange} (h : Processed current succeeds done rules)
    (numbered : Numbered current) (perm : done ++ rest ~ diffRules current expected)
    (there : x ∈ ranges rules) : x ∈ ranges current ∨ x ∈ ranges expected := by
  obtain ⟨r, mem, rfl⟩ := List.mem_map.mp there
  have balance := h.entries_perm numbered (due_of_perm perm).of_append
  have found : r.entry ∈ entries current ++ entries (additions (done.filter succeeds)) :=
    balance.subset (List.mem_append_left _ (List.mem_map_of_mem mem))
  rcases List.mem_append.mp found with old | new
  · obtain ⟨y, hy, same⟩ := List.mem_map.mp old
    have range : y.range = r.range := congrArg Prod.fst same
    exact .inl (range ▸ List.mem_map_of_mem hy)
  · obtain ⟨y, hy, same⟩ := List.mem_map.mp new
    have range : y.range = r.range := congrArg Prod.fst same
    have listed : y ∈ additions (done ++ rest) := by
      rw [additions_append]
      exact List.mem_append_left _ ((List.filter_sublist.filterMap added?).subset hy)
    have added : y ∈ additions (diffRules current expected) :=
      (perm.filterMap added?).subset listed
    rw [additions_diffRules] at added
    have declared := ((mem_ranges_missing expected current).mp (List.mem_map_of_mem added)).1
    exact .inr (range ▸ declared)

end Order

/-- The order of the same actions makes no difference. -/
theorem entries_perm_of_perm (h : Processed current succeeds order rules)
    (h' : Processed current succeeds order' rules') (numbered : Numbered current)
    (due : Due current order) (due' : Due current order') (perm : order ~ order') :
    entries rules ~ entries rules' := by
  have same : order.filter succeeds ~ order'.filter succeeds := perm.filter _
  have removed : entries (removals (order.filter succeeds)) ~
      entries (removals (order'.filter succeeds)) := (same.filterMap removed?).map entry
  have added : entries (additions (order.filter succeeds)) ~
      entries (additions (order'.filter succeeds)) := (same.filterMap added?).map entry
  apply (List.perm_append_right_iff (entries (removals (order.filter succeeds)))).mp
  calc
    entries rules ++ entries (removals (order.filter succeeds))
    _ ~ entries current ++ entries (additions (order.filter succeeds)) := h.entries_perm numbered due
    _ ~ entries current ++ entries (additions (order'.filter succeeds)) := added.append_left _
    _ ~ entries rules' ++ entries (removals (order'.filter succeeds)) :=
      (h'.entries_perm numbered due').symm
    _ ~ entries rules' ++ entries (removals (order.filter succeeds)) := removed.symm.append_left _

/-- Every order can be processed. -/
theorem exists_of_numbered (succeeds : RuleAction → Bool) (numbered : Numbered current)
    (due : Due current order) : ∃ rules, Processed current succeeds order rules := by
  induction order using List.reverseRecOn with
  | nil => exact ⟨current, .start⟩
  | append_singleton done a ih =>
    obtain ⟨rules, before⟩ := ih due.of_append
    cases outcome : succeeds a with
    | false => exact ⟨rules, .failed before outcome⟩
    | true =>
      cases a with
      | add r =>
        obtain ⟨id, _, unused⟩ := Database.exists_unused_id current
        exact ⟨_, .added id before outcome fun x mem _ => unused x mem⟩
      | delete r =>
        have known : r ∈ current := due.known r (by simp [removals_concat_delete])
        obtain ⟨id, number⟩ := numbered.present r known
        exact ⟨_, .deleted before outcome number⟩

end Processed

/-- The actions of a diff can be processed in every order, whichever of them fail. What is current and
declared is never missing, nothing is ever allowed that is neither, and ranges and labels in the end do
not depend on the order. -/
theorem interleavings_agree (expected : List FirewallRule) (succeeds : RuleAction → Bool)
    (numbered : Numbered current) :
    (∀ order, order ~ diffRules current expected →
      ∃ rules, Processed current succeeds order rules) ∧
    (∀ done rest rules, done ++ rest ~ diffRules current expected →
      Processed current succeeds done rules →
        (∀ x ∈ ranges current, x ∈ ranges expected → x ∈ ranges rules) ∧
        ∀ x ∈ ranges rules, x ∈ ranges current ∨ x ∈ ranges expected) ∧
    ∀ order order' rules rules', order ~ diffRules current expected →
      order' ~ diffRules current expected → Processed current succeeds order rules →
      Processed current succeeds order' rules' → entries rules ~ entries rules' := by
  refine ⟨fun order perm => ?_, fun done rest rules perm processed => ⟨?_, ?_⟩, ?_⟩
  · exact Processed.exists_of_numbered succeeds numbered (due_of_perm perm)
  · exact fun x here declared => processed.mem_ranges_of_kept numbered perm here declared
  · exact fun x there => processed.cases_of_mem_ranges numbered perm there
  · intro order order' rules rules' perm perm' processed processed'
    exact processed.entries_perm_of_perm processed' numbered (due_of_perm perm) (due_of_perm perm')
      (perm.trans perm'.symm)

/-- Two of the rules allow everyone, which is not declared below. -/
def crowdedRules : List FirewallRule :=
  [⟨some "fw-1", .custom "10.0.0.0/8", "office"⟩, ⟨some "fw-2", .custom "0.0.0.0/0", "a"⟩,
    ⟨some "fw-3", .custom "0.0.0.0/0", "b"⟩]

def plannedRules : List FirewallRule :=
  [⟨none, .managed "apps", "apps"⟩, ⟨none, .custom "10.0.0.0/8", ""⟩]

theorem diffRules_crowded : diffRules crowdedRules plannedRules =
    [.add ⟨none, .managed "apps", "apps"⟩, .delete ⟨some "fw-2", .custom "0.0.0.0/0", "a"⟩] := by
  decide

theorem numbered_crowded : Numbered crowdedRules := by
  refine ⟨?_, by decide⟩
  simp [crowdedRules]

theorem interleavings_agree_crowded :
    ∃ half rules rules', Numbered crowdedRules ∧
      Processed crowdedRules (fun _ => true) [.delete ⟨some "fw-2", .custom "0.0.0.0/0", "a"⟩] half ∧
      Processed crowdedRules (fun _ => true) (diffRules crowdedRules plannedRules) rules ∧
      Processed crowdedRules (fun _ => true) (diffRules crowdedRules plannedRules).reverse rules' ∧
      .custom "10.0.0.0/8" ∈ ranges half ∧
      (∀ x ∈ ranges half, x ∈ ranges crowdedRules ∨ x ∈ ranges plannedRules) ∧
      entries rules ~ entries rules' := by
  obtain ⟨possible, moments, same⟩ :=
    interleavings_agree plannedRules (fun _ => true) numbered_crowded
  have turned : (diffRules crowdedRules plannedRules).reverse ~ diffRules crowdedRules plannedRules :=
    List.reverse_perm _
  obtain ⟨rules, processed⟩ := possible _ (.refl _)
  obtain ⟨rules', processed'⟩ := possible _ turned
  have half : Processed crowdedRules (fun _ => true)
      [.delete ⟨some "fw-2", .custom "0.0.0.0/0", "a"⟩] (without "fw-2" crowdedRules) :=
    .deleted .start rfl rfl
  have split : [.delete ⟨some "fw-2", .custom "0.0.0.0/0", "a"⟩] ++
      [.add ⟨none, .managed "apps", "apps"⟩] ~ diffRules crowdedRules plannedRules := by
    rw [diffRules_crowded]
    exact .swap _ _ _
  obtain ⟨kept, known⟩ := moments _ _ _ split half
  exact ⟨_, rules, rules', numbered_crowded, half, processed, processed',
    kept _ (by decide) (by decide), known, same _ _ _ _ (.refl _) turned processed processed'⟩

end DatabaseOperator
