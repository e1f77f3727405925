import DatabaseOperator.Proofs.Json.Fields
import DatabaseOperator.Resource.Basic

namespace DatabaseOperator

open Json

/-- Null stands for the absent value. -/
theorem Json.option?_getD_null {α : Type} {decode : Decoder α} {encode : α → Json}
    (back : ∀ a, option? decode (encode a) = some (some a)) (x : Option α) :
    option? decode ((x.map encode).getD null) = some x := by
  cases x with
  | none => rfl
  | some a => exact back a

theorem Json.list?_map {α : Type} {decode : Decoder α} {encode : α → Json}
    (back : ∀ a, decode (encode a) = some a) (l : List α) : list? decode (array (l.map encode)) = some l :=
  mapM_map_eq_some back

theorem DatabaseStatus.decode_encode (t : DatabaseStatus) : decode t.encode = some t := by
  cases t <;> rfl

theorem FeatureStatus.decode_encode (t : FeatureStatus) : decode t.encode = some t := by
  cases t <;> rfl

theorem Features.decode_encode (fs : Features) : decode fs.encode = some fs :=
  dictionary?_map FeatureStatus.decode_encode fs

namespace FirewallRule

/-- The members of the range stand between those of the rule, and each part finds its own. -/
theorem decode_encode (r : FirewallRule) : decode r.encode = some r := by
  obtain ⟨id, range, label⟩ := r
  cases id with
  | none => cases range <;> rfl
  | some id => cases range <;> rfl

theorem plain_encode (r : FirewallRule) : Plain 1 r.encode := by
  obtain ⟨id, range, label⟩ := r
  refine .object ?_
  cases id <;> cases range <;> simp [present, FirewallRange.members, RuleType.encode, Plain.string]

end FirewallRule

namespace Database

def parts (db : Database) : List (String × Option Json) :=
  [("id", some (.string db.id)), ("app_id", some (.string db.appId)), ("addon_id", some (.string db.addonId)),
    ("name", some (.string db.name)), ("db_type", some ((db.type.map DatabaseType.encode).getD .null)),
    ("status", some db.status.encode), ("plan", some (.string db.plan)),
    ("project_id", some (.string db.projectId)), ("features", some db.features.encode),
    ("firewall_rules", some (.array (db.firewallRules.map FirewallRule.encode)))]

theorem encode_eq (db : Database) : db.encode = .object (presents db.parts) := rfl

theorem decode_encode (db : Database) : decode db.encode = some db := by
  have distinct : (db.parts.map Prod.fst).Nodup := show fieldNames.Nodup by decide
  have text {name s : String} (found : db.parts.lookup name = some (some (.string s))) :
      Fields.required ⟨presents db.parts, false⟩ name text? = some s := required_presents distinct found rfl
  have type : Fields.nullable ⟨presents db.parts, false⟩ "db_type" DatabaseType.decode = some db.type := by
    have typed (t : DatabaseType) : option? DatabaseType.decode t.encode = some (some t) := by
      cases t
      rfl
    have written : db.parts.lookup "db_type" = some (some ((db.type.map DatabaseType.encode).getD .null)) := rfl
    exact optional_presents distinct written (option?_getD_null typed db.type)
  have status : Fields.required ⟨presents db.parts, false⟩ "status" DatabaseStatus.decode = some db.status :=
    required_presents distinct rfl (DatabaseStatus.decode_encode db.status)
  have features : Fields.required ⟨presents db.parts, false⟩ "features" Features.decode = some db.features :=
    required_presents distinct rfl (Features.decode_encode db.features)
  have rules : Fields.required ⟨presents db.parts, false⟩ "firewall_rules" (list? FirewallRule.decode) =
      some db.firewallRules :=
    required_presents distinct rfl (list?_map FirewallRule.decode_encode db.firewallRules)
  simp only [encode_eq, decode, bind_eq_some_iff, fields?_presents distinct, Option.some.injEq, exists_eq_left']
  exact ⟨_, text rfl, _, text rfl, _, text rfl, _, text rfl, _, type, _, status, _, text rfl, _, text rfl,
    _, features, _, rules, rfl⟩

theorem plain_encode (db : Database) : Plain 3 db.encode := by
  have type : Plain 2 ((db.type.map DatabaseType.encode).getD .null) := by
    cases db.type with
    | none => exact .null
    | some t => exact .string t.name
  have features : Plain 2 db.features.encode :=
    .object (List.forall_mem_map.mpr fun e _ => .string e.2.name)
  have rules : Plain 2 (.array (db.firewallRules.map FirewallRule.encode)) :=
    plain_array FirewallRule.plain_encode db.firewallRules
  rw [encode_eq]
  refine plain_presents ?_
  simp [parts, Plain.string, type, features, rules, DatabaseStatus.encode]

end Database

theorem TokenSource.decode_encode (s : TokenSource) : decode s.encode = some s := rfl

theorem TokenSource.plain_encode (s : TokenSource) : Plain 1 s.encode :=
  .object (by simp [Plain.string])

theorem ConnectionTarget.decode_encode (t : ConnectionTarget) : decode t.encode = some t := by
  obtain ⟨name, keyStart⟩ := t
  cases keyStart <;> rfl

theorem ConnectionTarget.plain_encode (t : ConnectionTarget) : Plain 1 t.encode := by
  obtain ⟨name, keyStart⟩ := t
  refine .object ?_
  cases keyStart <;> simp [present, Plain.string]

namespace DeclaredRule

def parts (r : DeclaredRule) : List (String × Option Json) :=
  [("type", some (.string r.type)), ("cidr", unlessEmpty r.cidr), ("label", unlessEmpty r.label),
    ("range_id", unlessEmpty r.rangeId)]

theorem encode_eq (r : DeclaredRule) : r.encode = .object (presents r.parts) := by
  simp [encode, nonEmpty_eq, presents, parts, present]

theorem decode_encode (r : DeclaredRule) : decode r.encode = some r := by
  have distinct : (r.parts.map Prod.fst).Nodup := show ["type", "cidr", "label", "range_id"].Nodup by decide
  have type : Fields.required ⟨presents r.parts, false⟩ "type" text? = some r.type :=
    required_presents distinct rfl rfl
  have text {name s : String} (found : r.parts.lookup name = some (unlessEmpty s)) :
      Fields.withDefault ⟨presents r.parts, false⟩ name "" text? = some s :=
    withDefault_presents distinct found (elim_unlessEmpty s)
  simp only [encode_eq, decode, bind_eq_some_iff, fields?_presents distinct, Option.some.injEq, exists_eq_left']
  exact ⟨_, type, _, text rfl, _, text rfl, _, text rfl, rfl⟩

theorem plain_encode (r : DeclaredRule) : Plain 1 r.encode := by
  rw [encode_eq]
  refine plain_presents ?_
  simp only [parts, List.forall_mem_cons, Option.mem_def, Option.some.injEq, forall_eq']
  exact ⟨.string r.type, plain_unlessEmpty r.cidr, plain_unlessEmpty r.label, plain_unlessEmpty r.rangeId, by simp⟩

end DeclaredRule

namespace Networking

def encodeFirewall (rules : List DeclaredRule) : Json :=
  .object [("rules", .array (rules.map DeclaredRule.encode))]

def parts (n : Networking) : List (String × Option Json) :=
  [("internet_access", some (.object [("enabled", .bool n.internetAccess)])),
    ("firewall", n.firewall.map encodeFirewall)]

theorem encode_eq (n : Networking) : n.encode = .object (presents n.parts) := by
  simp [encode, presents, parts, present]
  rfl

theorem option?_firewall (rules : List DeclaredRule) :
    option? decodeFirewall (encodeFirewall rules) = some (some rules) := by
  have each : (rules.map DeclaredRule.encode).mapM DeclaredRule.decode = some rules :=
    mapM_map_eq_some DeclaredRule.decode_encode
  refine option?_of_object ?_
  exact each

theorem decode_encode (n : Networking) : decode n.encode = some n := by
  have distinct : (n.parts.map Prod.fst).Nodup := show ["internet_access", "firewall"].Nodup by decide
  have access : Fields.withDefault ⟨presents n.parts, false⟩ "internet_access" false decodeAccess =
      some n.internetAccess := withDefault_presents distinct rfl rfl
  have firewall : Fields.optional ⟨presents n.parts, false⟩ "firewall" decodeFirewall = some n.firewall :=
    optional_presents distinct rfl (elim_option? option?_firewall)
  simp only [encode_eq, decode, bind_eq_some_iff, fields?_presents distinct, Option.some.injEq, exists_eq_left']
  exact ⟨_, access, _, firewall, rfl⟩

theorem plain_encode (n : Networking) : Plain 4 n.encode := by
  have access : Plain 3 (.object [("enabled", .bool n.internetAccess)]) :=
    .object (by simp [Plain.bool])
  have firewall (rules : List DeclaredRule) : Plain 3 (encodeFirewall rules) :=
    .object (List.forall_mem_singleton.mpr (plain_array DeclaredRule.plain_encode rules))
  rw [encode_eq]
  refine plain_presents ?_
  simp only [parts, List.forall_mem_cons, Option.mem_def, Option.some.injEq, forall_eq']
  exact ⟨access, plain_map firewall n.firewall, by simp⟩

end Networking

namespace Spec

def parts (s : Spec) : List (String × Option Json) :=
  [("authSecret", some s.authSecret.encode), ("connInfoSecretTarget", some s.connectionTarget.encode),
    ("name", some (.string s.name)), ("plan", some (.string s.plan)), ("region", some (.string s.region)),
    ("projectID", s.projectId.map .string), ("networking", s.networking.map Networking.encode)]

theorem encode_eq (s : Spec) : s.encode = .object (presents s.parts) := by
  simp [encode, presents, parts, present]

theorem decode_encode (s : Spec) : decode s.encode = some s := by
  have distinct : (s.parts.map Prod.fst).Nodup := show fieldNames.Nodup by decide
  have text {name t : String} (found : s.parts.lookup name = some (some (.string t))) :
      Fields.required ⟨presents s.parts, false⟩ name text? = some t := required_presents distinct found rfl
  have authSecret : Fields.required ⟨presents s.parts, false⟩ "authSecret" TokenSource.decode =
      some s.authSecret := required_presents distinct rfl s.authSecret.decode_encode
  have target : Fields.required ⟨presents s.parts, false⟩ "connInfoSecretTarget" ConnectionTarget.decode =
      some s.connectionTarget := required_presents distinct rfl s.connectionTarget.decode_encode
  have region : Fields.withDefault ⟨presents s.parts, false⟩ "region" defaultRegion text? = some s.region :=
    withDefault_presents distinct rfl rfl
  have projectId : Fields.optional ⟨presents s.parts, false⟩ "projectID" text? = some s.projectId :=
    optional_presents distinct rfl (elim_option? fun _ => rfl)
  have networking : Fields.optional ⟨presents s.parts, false⟩ "networking" Networking.decode =
      some s.networking := by
    have declared (n : Networking) : option? Networking.decode n.encode = some (some n) :=
      option?_of_object n.decode_encode
    exact optional_presents distinct rfl (elim_option? declared)
  simp only [encode_eq, decode, bind_eq_some_iff, fields?_presents distinct, Option.some.injEq, exists_eq_left']
  exact ⟨_, authSecret, _, target, _, text rfl, _, text rfl, _, region, _, projectId, _, networking, rfl⟩

theorem plain_encode (s : Spec) : Plain 5 s.encode := by
  have secret : Plain 4 s.authSecret.encode := s.authSecret.plain_encode.mono (by decide)
  have target : Plain 4 s.connectionTarget.encode := s.connectionTarget.plain_encode.mono (by decide)
  rw [encode_eq]
  refine plain_presents ?_
  simp only [parts, List.forall_mem_cons, Option.mem_def, Option.some.injEq, forall_eq']
  exact ⟨secret, target, .string s.name, .string s.plan, .string s.region, plain_map .string s.projectId,
    plain_map Networking.plain_encode s.networking, by simp⟩

end Spec

namespace Condition

/-- A condition as it is written: at a whole second, and with a number that fits in 64 bits. -/
structure Writable (c : Condition) : Prop where
  whole : c.lastTransitionTime.whole = c.lastTransitionTime
  fits : ∀ n ∈ c.observedGeneration, -0x8000000000000000 ≤ n ∧ n ≤ 0x7fffffffffffffff

def parts (c : Condition) : List (String × Option Json) :=
  [("lastTransitionTime", some c.lastTransitionTime.encode), ("message", some (.string c.message)),
    ("observedGeneration", c.observedGeneration.map ofInt), ("reason", some (.string c.reason)),
    ("status", some (.string c.status)), ("type", some (.string c.type))]

theorem encode_eq (c : Condition) : c.encode = .object (presents c.parts) := by
  simp [encode, presents, parts, present]

theorem member?_parts {α : Type} {c : Condition} {name : String} {decode : Decoder α} :
    member? (presents c.parts) name decode =
      ((c.parts.lookup name).getD none).elim (some none) (option? decode) :=
  member?_presents (show ["lastTransitionTime", "message", "observedGeneration", "reason", "status",
    "type"].Nodup by decide)

theorem decode_encode {c : Condition} (h : c.Writable) : decode c.encode = some c := by
  have text {name s : String} (found : c.parts.lookup name = some (some (.string s))) :
      memberOr (presents c.parts) name "" text? = some s := by
    rw [memberOr, member?_parts, found]
    rfl
  have time : member? (presents c.parts) "lastTransitionTime" Time.decode = some (some c.lastTransitionTime) := by
    have back : Time.decode c.lastTransitionTime.encode = some c.lastTransitionTime := by
      rw [Time.decode, Time.encode, text?, Option.bind_some, Time.read_render, h.whole]
    have found : c.parts.lookup "lastTransitionTime" = some (some c.lastTransitionTime.encode) := rfl
    have given : c.lastTransitionTime.encode ≠ null := fun same => by cases same
    rw [member?_parts, found, Option.getD_some, Option.elim_some, option?_of_ne_null given, back, Option.map_some]
  have number : member? (presents c.parts) "observedGeneration" int64? = some c.observedGeneration := by
    have found : c.parts.lookup "observedGeneration" = some (c.observedGeneration.map ofInt) := rfl
    rw [member?_parts, found, Option.getD_some]
    cases shape : c.observedGeneration with
    | none => rfl
    | some n => exact congrArg (Option.map some) (if_pos (h.fits n shape))
  simp only [encode_eq, decode, members?, bind_eq_some_iff, Option.some.injEq, exists_eq_left']
  exact ⟨_, text rfl, _, text rfl, _, text rfl, _, text rfl, _, time, _, number, _, rfl, rfl⟩

theorem plain_encode {c : Condition} (h : c.Writable) : Plain 1 c.encode := by
  have number : ∀ v ∈ c.observedGeneration.map ofInt, Plain 0 v := by
    intro v mem
    obtain ⟨n, given, rfl⟩ := Option.map_eq_some_iff.mp mem
    obtain ⟨low, high⟩ := h.fits n given
    exact .whole low (by omega)
  rw [encode_eq]
  refine plain_presents ?_
  simp only [parts, List.forall_mem_cons, Option.mem_def, Option.some.injEq, forall_eq']
  exact ⟨.string _, .string c.message, number, .string c.reason, .string c.status, .string c.type, by simp⟩

theorem fits_of_decode {v : Json} {c : Condition} (h : decode v = some c) :
    ∀ n ∈ c.observedGeneration, -0x8000000000000000 ≤ n ∧ n ≤ 0x7fffffffffffffff := by
  obtain ⟨ms, -, h⟩ := bind_eq_some_iff.mp h
  obtain ⟨type, -, h⟩ := bind_eq_some_iff.mp h
  obtain ⟨status, -, h⟩ := bind_eq_some_iff.mp h
  obtain ⟨reason, -, h⟩ := bind_eq_some_iff.mp h
  obtain ⟨message, -, h⟩ := bind_eq_some_iff.mp h
  obtain ⟨time?, -, h⟩ := bind_eq_some_iff.mp h
  obtain ⟨number, read, h⟩ := bind_eq_some_iff.mp h
  obtain ⟨time, -, h⟩ := bind_eq_some_iff.mp h
  obtain rfl := Option.some.inj h
  rintro n rfl
  obtain ⟨w, read⟩ := exists_of_member? read
  exact bounds_of_int64? read

end Condition

namespace Status

/-- The conditions are left out when there are none. -/
def encodeConditions (cs : List Condition) : Option Json :=
  if cs.isEmpty then none else some (.array (cs.map Condition.encode))

def parts (s : Status) : List (String × Option Json) :=
  [("conditions", encodeConditions s.conditions), ("scalingoDatabaseID", unlessEmpty s.databaseId)]

theorem encode_eq (s : Status) : s.encode = .object (presents s.parts) := by
  simp [encode, nonEmpty_eq, presents, parts, encodeConditions]

theorem elim_conditions {cs : List Condition} (h : ∀ c ∈ cs, c.Writable) :
    (encodeConditions cs).elim (some []) (list? Condition.decode) = some cs := by
  unfold encodeConditions
  split
  next empty => rw [List.isEmpty_iff.mp empty, Option.elim_none]
  next =>
    change (cs.map Condition.encode).mapM Condition.decode = some cs
    refine mapM_eq_some_iff.mpr (List.forall₂_map_left_iff.mpr ?_)
    exact List.forall₂_same.mpr fun c mem => Condition.decode_encode (h c mem)

theorem decode_encode {s : Status} (h : ∀ c ∈ s.conditions, c.Writable) : decode s.encode = some s := by
  have distinct : (s.parts.map Prod.fst).Nodup := show ["conditions", "scalingoDatabaseID"].Nodup by decide
  have conditions : Fields.withDefault ⟨presents s.parts, false⟩ "conditions" [] (list? Condition.decode) =
      some s.conditions := withDefault_presents distinct rfl (elim_conditions h)
  have id : Fields.withDefault ⟨presents s.parts, false⟩ "scalingoDatabaseID" "" text? = some s.databaseId :=
    withDefault_presents distinct rfl (elim_unlessEmpty s.databaseId)
  simp only [encode_eq, decode, bind_eq_some_iff, fields?_presents distinct, Option.some.injEq, exists_eq_left']
  exact ⟨_, conditions, _, id, rfl⟩

theorem plain_encode {s : Status} (h : ∀ c ∈ s.conditions, c.Writable) : Plain 3 s.encode := by
  have conditions : ∀ v ∈ encodeConditions s.conditions, Plain 2 v := by
    unfold encodeConditions
    split
    next => simp
    next =>
      rintro v ⟨⟩
      exact .array (List.forall_mem_map.mpr fun c mem => Condition.plain_encode (h c mem))
  rw [encode_eq]
  refine plain_presents ?_
  simp only [parts, List.forall_mem_cons]
  exact ⟨conditions, plain_unlessEmpty s.databaseId, by simp⟩

theorem fits_of_decode {v : Json} {s : Status} (h : decode v = some s) :
    ∀ c ∈ s.conditions, ∀ n ∈ c.observedGeneration, -0x8000000000000000 ≤ n ∧ n ≤ 0x7fffffffffffffff := by
  obtain ⟨r, -, h⟩ := bind_eq_some_iff.mp h
  obtain ⟨conditions, read, h⟩ := bind_eq_some_iff.mp h
  obtain ⟨id, -, h⟩ := bind_eq_some_iff.mp h
  obtain rfl := Option.some.inj h
  unfold Fields.withDefault at read
  split at read
  next =>
    obtain rfl := Option.some.inj read
    simp
  next v _ => exact forall_of_list? (fun _ _ => Condition.fits_of_decode) read

theorem kept {s : Status} (h : ∀ c ∈ s.conditions, c.Writable) : Kept decode encode s :=
  kept_of_plain (decode_encode h) (plain_encode h) (by decide)

/-- What a text says of a resource is written as it was read, unless a time is finer than a second. -/
theorem kept_of_readAs {text : String} {s : Status} (h : readAs decode text = some s)
    (whole : ∀ c ∈ s.conditions, c.lastTransitionTime.whole = c.lastTransitionTime) : Kept decode encode s := by
  obtain ⟨v, -, read⟩ := Option.bind_eq_some_iff.mp h
  exact kept fun c mem => ⟨whole c mem, fits_of_decode read c mem⟩

end Status

theorem FirewallRule.kept (r : FirewallRule) : Kept decode encode r :=
  kept_of_plain r.decode_encode r.plain_encode (by decide)

theorem Database.kept (db : Database) : Kept decode encode db :=
  kept_of_plain db.decode_encode db.plain_encode (by decide)

theorem Spec.kept (s : Spec) : Kept decode encode s :=
  kept_of_plain s.decode_encode s.plain_encode (by decide)

/-- Reading undoes writing, for values and for their texts. So a text that was read is written as one that is read
as the same, and a declaration asks for the same database before and after. -/
theorem reading_undoes_writing :
    (∀ r : FirewallRule, Kept FirewallRule.decode FirewallRule.encode r) ∧
      (∀ db : Database, Kept Database.decode Database.encode db) ∧
      (∀ s : Spec, Kept Spec.decode Spec.encode s) ∧
      (∀ s : Status, (∀ c ∈ s.conditions, c.Writable) → Kept Status.decode Status.encode s) ∧
      (∀ text r, readAs FirewallRule.decode text = some r →
        readAs FirewallRule.decode r.encode.render = some r) ∧
      (∀ text db, readAs Database.decode text = some db → readAs Database.decode db.encode.render = some db) ∧
      (∀ text s, readAs Spec.decode text = some s →
        ∃ s', readAs Spec.decode s.encode.render = some s' ∧ s' = s ∧ s'.database = s.database) ∧
      ∀ text s, readAs Status.decode text = some s →
        (∀ c ∈ s.conditions, c.lastTransitionTime.whole = c.lastTransitionTime) →
        readAs Status.decode s.encode.render = some s := by
  refine ⟨FirewallRule.kept, Database.kept, Spec.kept, fun s => Status.kept, ?_, ?_, ?_, ?_⟩
  · intro text r _
    exact r.kept.text
  · intro text db _
    exact db.kept.text
  · intro text s _
    exact ⟨s, s.kept.text, rfl, rfl⟩
  · intro text s read whole
    exact (Status.kept_of_readAs read whole).text

/-- What is known of a database that is ready. -/
def reported : Status :=
  ⟨[⟨"Available", "True", "Ready", "", Time.epoch, some 3⟩], "db-1"⟩

/-- A declaration that leaves out what has a default. -/
def declared : String :=
  "\x7b\"authSecret\":\x7b\"name\":\"api\"\x7d,\"connInfoSecretTarget\":\x7b\"name\":\"db\"\x7d," ++
    "\"name\":\"main\",\"plan\":\"starter\"\x7d"

theorem kept_reported : (∀ c ∈ reported.conditions, c.Writable) ∧
    readAs Status.decode reported.encode.render = some reported ∧
    ∃ s s', readAs Spec.decode declared = some s ∧ s.region = "osc-fr1" ∧
      readAs Spec.decode s.encode.render = some s' ∧ s'.database = s.database := by
  have writable : ∀ c ∈ reported.conditions, c.Writable := by
    refine List.forall_mem_singleton.mpr ⟨Time.whole_of_sharp rfl, ?_⟩
    rintro n ⟨⟩
    decide
  obtain ⟨-, -, -, statuses, -, -, spec, status⟩ := reading_undoes_writing
  have read := (statuses reported writable).text
  obtain ⟨s, given, region⟩ : ∃ s, readAs Spec.decode declared = some s ∧ s.region = "osc-fr1" := by
    refine ⟨⟨⟨"api", "token"⟩, ⟨"db", none⟩, "main", "starter", "osc-fr1", none, none⟩, ?_, rfl⟩
    decide +kernel
  obtain ⟨s', again, -, same⟩ := spec declared s given
  exact ⟨writable, status _ reported read fun c mem => (writable c mem).whole, s, s', given, region, again, same⟩

end DatabaseOperator
