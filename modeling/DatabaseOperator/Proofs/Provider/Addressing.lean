import DatabaseOperator.Proofs.Provider.Listing

namespace DatabaseOperator

open Url (IsDirectory EndsIn Spells Clean Plain slashed)

/-- What a client can be asked to delete. -/
inductive Deletion
  | database (id : String)
  | rule (appId addonId ruleId : String)

namespace Deletion

def call : Deletion → ProviderCall
  | database id => .deleteDatabase id
  | rule appId addonId ruleId => .deleteFirewallRule appId addonId ruleId

def errand : Deletion → Errand
  | database id => .deletion id
  | rule appId addonId ruleId => .ruleDeletion appId addonId ruleId

/-- The base address of the service that is asked. -/
def base (c : Client) : Deletion → String
  | database _ => c.endpoints.api
  | rule _ _ _ => c.endpoints.databaseApi

/-- The ids that are written into the address. -/
def ids : Deletion → List String
  | database id => [id]
  | rule _ addonId ruleId => [addonId, ruleId]

/-- What is written behind the base, with a slash before each. -/
def names : Deletion → List String
  | database id => ["v1", "databases", id]
  | rule _ addonId ruleId => ["api", "databases", addonId, "firewall_rules", ruleId]

/-- The segments say what is to be deleted: each id is one segment, which is the id when its escapes are undone. -/
def SpelledBy : Deletion → List String → Prop
  | database id, segments =>
    ∃ s, segments = ["v1", "databases", s] ∧ Percent.decode s.toList = utf8Bytes id
  | rule _ addonId ruleId, segments =>
    ∃ s t, segments = ["api", "databases", s, "firewall_rules", t] ∧
      Percent.decode s.toList = utf8Bytes addonId ∧ Percent.decode t.toList = utf8Bytes ruleId

variable {c : Client} {d : Deletion} {b b' : Option String} {h : List (Exchange http)} {x : Exchange http}

/-- The errand is all that is left when there is a token. -/
theorem address_of_runs {res : Except ProviderError d.call.Result} (runs : (c.perform d.call).Runs b h res b')
    (mem : x ∈ h) (delete : x.call.method = .delete) :
    Url.parse (c.base d.errand.form.service ++ d.errand.form.path) = some x.call.url := by
  have other : x.call.method ≠ .post := by simp [delete]
  cases d with
  | database id => exact Client.address_of_errand runs mem other ⟨_, rfl, fun _ => trivial⟩ rfl
  | rule appId addonId ruleId => exact Client.address_of_errand runs mem other ⟨_, rfl, fun _ => trivial⟩ rfl

theorem exists_written (c : Client) (d : Deletion) : ∃ w,
    c.base d.errand.form.service ++ d.errand.form.path = d.base c ++ "/" ++ w ∧
      w.toList = slashed (d.names.map String.toList) := by
  cases d with
  | database id =>
    refine ⟨"v1/databases/" ++ id, ?_, by simp [names, slashed]⟩
    have first : "/v1" = "/" ++ "v1" := by decide
    have joined : "v1/databases/" = "v1" ++ "/databases/" := by decide
    simp only [base, Client.base, errand, Errand.form, first, joined, String.append_assoc]
  | rule appId addonId ruleId =>
    refine ⟨"api/databases/" ++ addonId ++ "/firewall_rules/" ++ ruleId, ?_, by simp [names, slashed]⟩
    have joined : "/api/databases/" = "/" ++ "api/databases/" := by decide
    simp only [base, Client.base, errand, Errand.form, joined, String.append_assoc]

/-- The words that the services have in their paths. -/
def words : List String :=
  ["v1", "api", "databases", "firewall_rules"]

theorem plain_of_mem_words {word : String} (mem : word ∈ words) : Plain word.toList := by
  have known : ∀ word ∈ words, word.toList.all Url.isWordChar = true := by decide
  exact Url.plain_of_word (known word mem)

theorem SpelledBy.spells {segments : List String} (h : d.SpelledBy segments) :
    List.Forall₂ Spells segments (d.names.map String.toList) := by
  have word {w : String} (mem : w ∈ words) : Spells w w.toList :=
    Percent.decode_of_unescaped (plain_of_mem_words mem).unescaped
  have spells {s name : String} (same : Percent.decode s.toList = utf8Bytes name) : Spells s name.toList := by
    rw [utf8Bytes_eq_flatMap] at same
    exact same
  cases d with
  | database id =>
    obtain ⟨s, rfl, same⟩ := h
    exact .cons (word (by decide)) (.cons (word (by decide)) (.cons (spells same) .nil))
  | rule appId addonId ruleId =>
    obtain ⟨s, t, rfl, same, same'⟩ := h
    exact .cons (word (by decide)) (.cons (word (by decide)) (.cons (spells same)
      (.cons (word (by decide)) (.cons (spells same') .nil))))

theorem ids_subset_names (d : Deletion) : d.ids ⊆ d.names := by
  cases d <;> simp [ids, names]

/-- The words are clean, so it is on the ids. -/
theorem clean_names_iff : Clean (d.names.map String.toList) ↔ Clean (d.ids.map String.toList) := by
  constructor
  · rintro ⟨plain, closed⟩
    refine ⟨fun n mem => plain n (List.map_subset _ d.ids_subset_names mem), ?_⟩
    cases d <;> exact closed
  · rintro ⟨plain, closed⟩
    constructor
    · intro n mem
      obtain ⟨name, within, rfl⟩ := List.mem_map.mp mem
      have other : name ∈ words ∨ name ∈ d.ids := by
        cases d <;> simp [ids, names, words] at within ⊢ <;> tauto
      rcases other with word | id
      · exact plain_of_mem_words word
      · exact plain _ (List.mem_map_of_mem id)
    · cases d <;> exact closed

theorem spelledBy_of_clean (clean : Clean (d.ids.map String.toList)) :
    d.SpelledBy ((d.names.map String.toList).map fun n =>
      String.ofList (Percent.encode Percent.keptInPath n)) := by
  have spells {id : String} (mem : id ∈ d.ids) :
      Percent.decode (String.ofList (Percent.encode Percent.keptInPath id.toList)).toList = utf8Bytes id := by
    rw [String.toList_ofList, Percent.decode_encode,
      Percent.decode_of_unescaped (clean.plain _ (List.mem_map_of_mem mem)).unescaped, utf8Bytes_eq_flatMap]
    rfl
  cases d with
  | database id => exact ⟨_, rfl, spells (by simp [ids])⟩
  | rule appId addonId ruleId => exact ⟨_, _, rfl, spells (by simp [ids]), spells (by simp [ids])⟩

/-- The deletion of a database is all that is sent when there is a bearer token. -/
theorem runs_database {c : Client} {id token : String} {q : Request}
    (sendable : (c.draft (.deletion id) token).request? = some q) :
    (c.perform (database id).call).Runs (some token) [⟨q, some ⟨204, ""⟩⟩] (.ok ()) (some token) := by
  let e : Errand := .deletion id
  have sent : Client.Sent c e (some token) ([] ++ [⟨.errand e, q, some ⟨204, ""⟩⟩]) (.ok "") (some token) :=
    .went (.kept token) ⟨rfl, Client.delivers_ok sendable rfl⟩
  have travels : Client.Travels c (Itinerary.of (database id).call) (some token) _ (.ok ()) (some token) :=
    .went sent ⟨rfl, rfl, rfl⟩
  exact (Client.posts_perform _ _ _ _ _).mpr ⟨_, rfl, travels⟩

/-- A database with an id that leads from one database to another. -/
def stray : Deletion :=
  .database "db-1/../db-2"

/-- Where a deletion is sent. Below the base's path there are the segments that say what is to be deleted and
nothing else, just when the base has no fragment and the ids are clean: no slash, backslash, question mark, number
sign, tab or line break, no percent sign before two hexadecimal digits, no dot segment, and no blank or control
character at the end of the last one. The server is always the base's. -/
theorem addressed_iff {u : Url} {res : Except ProviderError d.call.Result} (based : Url.parse (d.base c) = some u)
    (plain : u.query = none) (runs : (c.perform d.call).Runs b h res b') (mem : x ∈ h)
    (delete : x.call.method = .delete) :
    x.call.url.origin = u.origin ∧ ∃ dir, IsDirectory (d.base c) u dir ∧
      ((∃ segments, d.SpelledBy segments ∧ EndsIn dir x.call.url segments) ↔
        '#' ∉ (d.base c).toList ∧ Clean (d.ids.map String.toList)) := by
  obtain ⟨w, joined, written⟩ := exists_written c d
  have parsed := address_of_runs runs mem delete
  rw [joined] at parsed
  have many : 2 ≤ (d.names.map String.toList).length := by
    cases d <;> simp [names]
  obtain ⟨dir, directory, origin, only, exact⟩ := Url.exists_directory_spelled based plain parsed written many
  refine ⟨origin, dir, directory, ?_, ?_⟩
  · rintro ⟨segments, spelled, ends⟩
    obtain ⟨whole, clean⟩ := only segments spelled.spells ends
    exact ⟨whole, clean_names_iff.mp clean⟩
  · rintro ⟨whole, clean⟩
    exact ⟨_, spelledBy_of_clean clean, exact whole (clean_names_iff.mpr clean)⟩

theorem addressed_iff_rule : ∃ u h x, Url.parse ((rule "db-1" "addon-1" "fw-1").base Client.novice) = some u ∧
    u.query = none ∧ x ∈ h ∧ x.call.method = .delete ∧
    (Client.novice.perform (rule "db-1" "addon-1" "fw-1").call).Runs (some "bearer-1") h (.ok ()) (some "bearer-1") ∧
    x.call.url.origin = u.origin ∧ ∃ dir, IsDirectory ((rule "db-1" "addon-1" "fw-1").base Client.novice) u dir ∧
      ∃ segments, (rule "db-1" "addon-1" "fw-1").SpelledBy segments ∧ EndsIn dir x.call.url segments := by
  let d : Deletion := rule "db-1" "addon-1" "fw-1"
  have based : Url.parse (d.base Client.novice) = some ⟨"https://db-api.osc-fr1.scalingo.com", [""], none⟩ := by
    decide +kernel
  have whole : '#' ∉ (d.base Client.novice).toList := by decide +kernel
  have clean : Clean (d.ids.map String.toList) := Url.clean_of_words (by decide)
  have deletable : (Client.novice.draft d.errand "key-1").request?.isSome = true := by decide +kernel
  obtain ⟨h, x, mem, delete, runs⟩ := Client.exists_runs_deletion deletable
  obtain ⟨origin, dir, directory, exact⟩ := addressed_iff based rfl runs mem delete
  exact ⟨_, h, x, based, rfl, mem, delete, runs, origin, dir, directory, exact.mpr ⟨whole, clean⟩⟩

/-- What is sent for the stray id, when there is a bearer token, deletes the other database. -/
theorem not_addressed_stray : ∃ u q dir, Url.parse (stray.base Client.novice) = some u ∧ u.query = none ∧
    (Client.novice.perform stray.call).Runs (some "bearer-1") [⟨q, some ⟨204, ""⟩⟩] (.ok ()) (some "bearer-1") ∧
    q.method = .delete ∧ IsDirectory (stray.base Client.novice) u dir ∧
    EndsIn dir q.url ["v1", "databases", "db-2"] ∧
    ¬ ∃ segments, stray.SpelledBy segments ∧ EndsIn dir q.url segments := by
  let e : Errand := stray.errand
  let u : Url := ⟨"https://api.osc-fr1.scalingo.com", [""], none⟩
  let other : Url := ⟨"https://api.osc-fr1.scalingo.com", ["v1", "databases", "db-2"], none⟩
  have based : Url.parse (stray.base Client.novice) = some u := by decide +kernel
  have below : Url.parse (stray.base Client.novice ++ "/") = some u := by decide +kernel
  have sendable : (Client.novice.draft e "bearer-1").request?.isSome = true := by decide +kernel
  obtain ⟨q, sending⟩ := Option.isSome_iff_exists.mp sendable
  obtain ⟨method, parsed⟩ := Client.request?_eq_some rfl sending
  have read : Url.parse (Client.novice.draft e "bearer-1").address = some other := by decide +kernel
  have url : q.url = other := Option.some.inj (parsed.symm.trans read)
  refine ⟨u, q, u, based, rfl, runs_database sending, method, ⟨below, rfl, fun _ => .inl rfl⟩, ?_, ?_⟩
  · rw [url]
    exact ⟨rfl, rfl⟩
  · rw [url]
    rintro ⟨_, ⟨s, rfl, same⟩, ends, -⟩
    obtain rfl : "db-2" = s := by simpa [other, u] using ends
    have differ : Percent.decode "db-2".toList ≠ utf8Bytes "db-1/../db-2" := by decide +kernel
    exact differ same

end Deletion

end DatabaseOperator
