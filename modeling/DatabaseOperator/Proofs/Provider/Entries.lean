import DatabaseOperator.Proofs.Firewall.Diff
import DatabaseOperator.Proofs.Json.Text
import DatabaseOperator.Proofs.Lists
import DatabaseOperator.Proofs.Provider.Letters

namespace DatabaseOperator

namespace Json

variable {name : String} {ms ms' : List (String × Json)}

/-- A field is looked up among the members with its name. -/
theorem lookup_eq_find? (name : String) (ms : List (String × Json)) :
    ms.lookup name = ((ms.filter fun m => m.1 = name).head?).map Prod.snd := by
  induction ms with
  | nil => rfl
  | cons m ms ih =>
    obtain ⟨key, v⟩ := m
    by_cases same : key = name
    · simp [same]
    · have other : (name == key) = false := beq_eq_false_iff_ne.mpr (Ne.symm same)
      rw [List.lookup_cons, other, ih, List.filter_cons_of_neg (by simpa using same)]

theorem repeated_eq_of_filter {names : List String}
    (same : ∀ name ∈ names, ms.filter (fun m => m.1 = name) = ms'.filter fun m => m.1 = name) :
    repeated names ms = repeated names ms' := by
  unfold repeated
  induction names with
  | nil => rfl
  | cons name names ih =>
    rw [List.any_cons, List.any_cons, ih fun other mem => same other (List.mem_cons_of_mem name mem),
      List.countP_eq_length_filter, List.countP_eq_length_filter, same name List.mem_cons_self]

end Json

theorem RuleType.parse_eq_ok_iff {s : String} {t : RuleType} : RuleType.parse s = .ok t ↔ s = t.name := by
  by_cases custom : s = "custom_range"
  · subst custom
    cases t <;> decide
  by_cases managed : s = "managed_range"
  · subst managed
    cases t <;> decide
  have unknown : RuleType.parse? s = none := by
    refine List.find?_eq_none.mpr fun t _ named => ?_
    cases t
    · exact custom (by simpa [RuleType.name, eq_comm] using named)
    · exact managed (by simpa [RuleType.name, eq_comm] using named)
  rw [RuleType.parse, unknown]
  cases t
  · exact ⟨nofun, fun same => absurd same custom⟩
  · exact ⟨nofun, fun same => absurd same managed⟩

theorem FirewallRule.parse_eq_ok_iff {type cidr rangeId label : String} {r : FirewallRule} :
    FirewallRule.parse type cidr rangeId label = .ok r ↔
      (type = "custom_range" ∧ cidr ≠ "" ∧ r = ⟨none, .custom cidr, label⟩) ∨
        (type = "managed_range" ∧ rangeId ≠ "" ∧ r = ⟨none, .managed rangeId, label⟩) := by
  unfold FirewallRule.parse
  cases typed : RuleType.parse type with
  | error e =>
    have unknown (t : RuleType) : type ≠ t.name := fun same => by
      cases typed.symm.trans (RuleType.parse_eq_ok_iff.mpr same)
    constructor
    · nofun
    · rintro (⟨same, _⟩ | ⟨same, _⟩)
      · exact absurd same (unknown .customRange)
      · exact absurd same (unknown .managedRange)
  | ok t =>
    obtain rfl := RuleType.parse_eq_ok_iff.mp typed
    cases t with
    | customRange =>
      by_cases blank : cidr = ""
      · simp [blank, RuleType.name, bind, Except.bind, throw, throwThe, MonadExceptOf.throw]
      · simp [blank, RuleType.name, bind, Except.bind, pure, Except.pure]
        exact eq_comm
    | managedRange =>
      by_cases blank : rangeId = ""
      · simp [blank, RuleType.name, bind, Except.bind, throw, throwThe, MonadExceptOf.throw]
      · simp [blank, RuleType.name, bind, Except.bind, pure, Except.pure]
        exact eq_comm

namespace Wire

/-- The entries of a listing of firewall rules, as they stand. -/
def entries : Decoder (List Json) :=
  single "rules" (Json.list? some)

theorem list?_some (items : List Json) : Json.list? some (.array items) = some items :=
  mapM_eq_some_iff.mpr (List.forall₂_same.mpr fun _ _ => rfl)

theorem rules_eq (v : Json) : rules v = (entries v).bind fun es => es.mapM Rule.decode := by
  unfold rules entries single
  cases Json.fields? ["rules"] v with
  | none => rfl
  | some r =>
    change r.required "rules" (Json.list? Rule.decode) = (r.required "rules" (Json.list? some)).bind _
    unfold Json.Fields.required
    cases r.get? "rules" with
    | none => rfl
    | some listed =>
      change Json.list? Rule.decode listed = (Json.list? some listed).bind _
      cases listed with
      | array items =>
        rw [list?_some]
        rfl
      | _ => rfl

namespace Rule

/-- The names of the members of a rule. -/
def names : List String :=
  ["id", "type", "cidr", "label", "range_id"]

/-- The firewall rule is what the type and the value of that type say. The other value does not count. -/
def Means (w : Rule) (r : FirewallRule) : Prop :=
  ((w.type = "custom_range" ∧ w.cidr ≠ "" ∧ r.range = .custom w.cidr) ∨
    (w.type = "managed_range" ∧ w.rangeId ≠ "" ∧ r.range = .managed w.rangeId)) ∧
  r.label = w.label ∧ r.id = if w.id = "" then none else some w.id

theorem rule_eq_ok_iff {w : Rule} {r : FirewallRule} : w.rule = .ok r ↔ w.Means r := by
  have parsed : w.rule = .ok r ↔ ∃ p, FirewallRule.parse w.type w.cidr w.rangeId w.label = .ok p ∧
      r = { p with id := if w.id = "" then none else some w.id } := by
    unfold rule
    cases FirewallRule.parse w.type w.cidr w.rangeId w.label with
    | error e => simp [bind, Except.bind, Except.mapError]
    | ok p =>
      simp [bind, Except.bind, pure, Except.pure, Except.mapError]
      exact eq_comm
  simp only [parsed, FirewallRule.parse_eq_ok_iff]
  unfold Means
  obtain ⟨id, range, label⟩ := r
  constructor
  · rintro ⟨p, ⟨type, present, rfl⟩ | ⟨type, present, rfl⟩, same⟩
    · cases same
      exact ⟨.inl ⟨type, present, rfl⟩, rfl, rfl⟩
    · cases same
      exact ⟨.inr ⟨type, present, rfl⟩, rfl, rfl⟩
  · rintro ⟨⟨type, present, same⟩ | ⟨type, present, same⟩, rfl, rfl⟩
    · cases same
      exact ⟨_, .inl ⟨type, present, rfl⟩, rfl⟩
    · cases same
      exact ⟨_, .inr ⟨type, present, rfl⟩, rfl⟩

/-- There is a rule with a known type and a value of that type. -/
theorem exists_means_iff {w : Rule} : (∃ r, w.Means r) ↔
    (w.type = "custom_range" ∧ w.cidr ≠ "") ∨ (w.type = "managed_range" ∧ w.rangeId ≠ "") := by
  constructor
  · rintro ⟨r, ⟨type, present, _⟩ | ⟨type, present, _⟩, _⟩
    · exact .inl ⟨type, present⟩
    · exact .inr ⟨type, present⟩
  · rintro (⟨type, present⟩ | ⟨type, present⟩)
    · exact ⟨⟨_, _, _⟩, .inl ⟨type, present, rfl⟩, rfl, rfl⟩
    · exact ⟨⟨_, _, _⟩, .inr ⟨type, present, rfl⟩, rfl, rfl⟩

theorem decode_eq_of_filter {ms ms' : List (String × Json)}
    (same : ∀ name ∈ names, ms.filter (fun m => m.1 = name) = ms'.filter fun m => m.1 = name) :
    decode (.object ms) = decode (.object ms') := by
  have found : ∀ name ∈ names, ms.lookup name = ms'.lookup name := fun name mem => by
    rw [Json.lookup_eq_find?, Json.lookup_eq_find?, same name mem]
  have fields {ms : List (String × Json)} : Json.fields? names (.object ms) =
      if Json.repeated names ms then none else some ⟨ms, false⟩ := rfl
  simp only [names, List.forall_mem_cons] at found
  obtain ⟨id, type, cidr, label, rangeId, _⟩ := found
  unfold decode
  change (Json.fields? names _).bind _ = (Json.fields? names _).bind _
  rw [fields, fields, Json.repeated_eq_of_filter same]
  split
  · rfl
  · simp only [Option.bind_some, Json.Fields.withDefault, Json.Fields.required, Json.Fields.get?, id, type,
      cidr, label, rangeId]

end Rule

/-- The members of a rule as it is sent: the value of the other type is left out, and so is the id. -/
def written (r : FirewallRule) : List (String × Json) :=
  match r.range with
  | .custom cidr => [("type", .string "custom_range"), ("cidr", .string cidr), ("label", .string r.label)]
  | .managed rangeId =>
    [("type", .string "managed_range"), ("label", .string r.label), ("range_id", .string rangeId)]

theorem ruleCreation_eq {r : FirewallRule} (named : r.range.detail ≠ "") :
    ruleCreation r = .object [("firewall_rule", .object (written r))] := by
  obtain ⟨id, range, label⟩ := r
  cases range with
  | custom cidr | managed rangeId =>
    simp only [FirewallRange.detail] at named
    simp [ruleCreation, object, written, Rule.ofRule, Rule.encode, Json.nonEmpty, named,
      FirewallRange.cidr?, FirewallRange.rangeId?, FirewallRule.ruleType, FirewallRange.ruleType,
      RuleType.name]

theorem textual_written (r : FirewallRule) : ∀ m ∈ written r, Json.Textual 0 m.2 := by
  unfold written
  cases r.range <;> simp [Json.Textual.string]

theorem decode_written (r : FirewallRule) (id : String) :
    Rule.decode (.object (("id", .string id) :: written r)) =
      some ⟨id, r.ruleType.name, r.range.cidr?.getD "", r.label, r.range.rangeId?.getD ""⟩ := by
  obtain ⟨number, range, label⟩ := r
  cases range <;> rfl

/-- The server lists a rule that was written so, with an id: each member of the rule as it was written, in
any order and among any others. -/
def Echoes (text id : String) (v : Json) : Prop :=
  ∃ sent echoed, Json.read text = some (.object [("firewall_rule", .object sent)]) ∧
    v = .object echoed ∧ ∀ name ∈ Rule.names, echoed.filter (fun m => m.1 = name) =
      (("id", .string id) :: sent).filter fun m => m.1 = name

theorem read_ruleCreation {r : FirewallRule} (named : r.range.detail ≠ "") :
    Json.read (ruleCreation r).render = some (.object [("firewall_rule", .object (written r))]) := by
  rw [ruleCreation_eq named]
  exact Json.read_render (n := 2)
    (.object (List.forall_mem_singleton.mpr (.object (textual_written r)))) (by decide)

/-- A rule that is listed as it was written is the rule, with its id. -/
theorem Echoes.means {r : FirewallRule} {id : String} {v : Json} (h : Echoes (ruleCreation r).render id v)
    (named : r.range.detail ≠ "") (identified : id ≠ "") :
    ∃ w, Rule.decode v = some w ∧ w.Means { r with id := some id } := by
  obtain ⟨sent, echoed, text, rfl, same⟩ := h
  rw [read_ruleCreation named] at text
  cases text
  refine ⟨_, (Rule.decode_eq_of_filter same).trans (decode_written r id), ?_, rfl, (if_neg identified).symm⟩
  obtain ⟨number, range, label⟩ := r
  cases range with
  | custom cidr => exact .inl ⟨rfl, named, rfl⟩
  | managed rangeId => exact .inr ⟨rfl, named, rfl⟩

/-- What the server can answer when it lists these rules with these ids. -/
def Lists (text : String) (sent : List (FirewallRule × String)) : Prop :=
  ∃ es, (Json.read text).bind entries = some es ∧
    List.Forall₂ (fun s v => Echoes (ruleCreation s.1).render s.2 v) sent es

/-- The listing of these rules with these ids and nothing else. -/
def listing (sent : List (FirewallRule × String)) : Json :=
  .object [("rules", .array (sent.map fun s => .object (("id", .string s.2) :: written s.1)))]

theorem lists_listing {sent : List (FirewallRule × String)} (named : ∀ s ∈ sent, s.1.range.detail ≠ "") :
    Lists (listing sent).render sent := by
  have textual : ∀ v ∈ sent.map fun s => Json.object (("id", .string s.2) :: written s.1),
      Json.Textual 1 v := List.forall_mem_map.mpr fun s _ =>
    .object (List.forall_mem_cons.mpr ⟨.string s.2, textual_written s.1⟩)
  have read : Json.read (listing sent).render = some (listing sent) :=
    Json.read_render (n := 3) (.object (List.forall_mem_singleton.mpr (.array textual))) (by decide)
  refine ⟨_, (congrArg (Option.bind · entries) read).trans (list?_some _), ?_⟩
  refine List.forall₂_map_right_iff.mpr (List.forall₂_same.mpr fun s mem => ?_)
  exact ⟨_, _, read_ruleCreation (named s mem), rfl, fun _ _ => rfl⟩

/-- What a listing says. -/
def listed (text : String) : Except ProviderError (List FirewallRule) :=
  (Client.reading "firewall rules" rules text).bind fun ws => ws.mapM Rule.rule

/-- A listing says rules when each of its entries says one. -/
theorem listed_eq_ok_iff {text : String} {rs : List FirewallRule} :
    listed text = .ok rs ↔ ∃ es, (Json.read text).bind entries = some es ∧
      List.Forall₂ (fun v r => ∃ w, Rule.decode v = some w ∧ w.Means r) es rs := by
  have decoded : (Json.read text).bind rules =
      ((Json.read text).bind entries).bind fun es => es.mapM Rule.decode := by
    rw [Option.bind_assoc]
    exact congrArg _ (funext rules_eq)
  have pieces : listed text = .ok rs ↔ ∃ ws, (Json.read text).bind rules = some ws ∧
      ws.mapM Rule.rule = .ok rs := by
    unfold listed Client.reading
    cases (Json.read text).bind rules <;> simp [Except.bind]
  simp only [pieces, decoded, Option.bind_eq_some_iff, mapM_eq_some_iff, mapM_eq_ok_iff,
    Rule.rule_eq_ok_iff, ← exists_forall₂_iff]
  constructor
  · rintro ⟨ws, ⟨es, read, entries⟩, meant⟩
    exact ⟨es, read, ws, entries, meant⟩
  · rintro ⟨es, read, ws, entries, meant⟩
    exact ⟨ws, ⟨es, read, entries⟩, meant⟩

/-- There are rules when each entry has a known type and a value of that type. -/
theorem exists_listed_iff {text : String} : (∃ rs, listed text = .ok rs) ↔
    ∃ es, (Json.read text).bind entries = some es ∧ ∀ v ∈ es, ∃ w, Rule.decode v = some w ∧
      ((w.type = "custom_range" ∧ w.cidr ≠ "") ∨ (w.type = "managed_range" ∧ w.rangeId ≠ "")) := by
  constructor
  · rintro ⟨rs, told⟩
    obtain ⟨es, read, stand⟩ := listed_eq_ok_iff.mp told
    refine ⟨es, read, fun v mem => ?_⟩
    obtain ⟨r, w, decoded, means⟩ := exists_forall₂_left_iff.mp ⟨rs, stand⟩ v mem
    exact ⟨w, decoded, Rule.exists_means_iff.mp ⟨r, means⟩⟩
  · rintro ⟨es, read, valid⟩
    have stand : ∀ v ∈ es, ∃ r w, Rule.decode v = some w ∧ w.Means r := fun v mem => by
      obtain ⟨w, decoded, known⟩ := valid v mem
      obtain ⟨r, means⟩ := Rule.exists_means_iff.mpr known
      exact ⟨r, w, decoded, means⟩
    obtain ⟨rs, stand⟩ := exists_forall₂_left_iff.mpr stand
    exact ⟨rs, listed_eq_ok_iff.mpr ⟨es, read, stand⟩⟩

/-- An empty id is none. -/
theorem id_ne_empty_of_listed {text : String} {rs : List FirewallRule} (told : listed text = .ok rs)
    {r : FirewallRule} (mem : r ∈ rs) : r.id ≠ some "" := by
  obtain ⟨es, _, stand⟩ := listed_eq_ok_iff.mp told
  obtain ⟨v, w, _, _, _, id⟩ := exists_forall₂_left_iff.mp ⟨es, stand.flip⟩ r mem
  rw [id]
  split
  next => nofun
  next named => exact fun same => named (Option.some.inj same)

/-- Rules that were sent are listed as they are, with their ids. -/
theorem listed_of_lists {text : String} {sent : List (FirewallRule × String)} (lists : Lists text sent)
    (valid : ∀ s ∈ sent, s.1.range.detail ≠ "" ∧ s.2 ≠ "") :
    listed text = .ok (sent.map fun s => { s.1 with id := some s.2 }) := by
  obtain ⟨es, read, echoed⟩ := lists
  refine listed_eq_ok_iff.mpr ⟨es, read, List.forall₂_map_right_iff.mpr (List.Forall₂.flip ?_)⟩
  refine ((List.forall₂_and_left sent es).mpr ⟨valid, echoed⟩).imp fun s v h => ?_
  exact h.2.means h.1.1 h.1.2

/-- Nothing is left to do about rules that are listed as they were sent. -/
theorem diffRules_sent (sent : List (FirewallRule × String)) :
    diffRules (sent.map fun s => { s.1 with id := some s.2 }) (sent.map Prod.fst) = [] := by
  refine diffRules_eq_nil fun x => ?_
  simp [FirewallRule.ranges]

end Wire

end DatabaseOperator
