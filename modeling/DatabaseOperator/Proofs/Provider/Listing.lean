import DatabaseOperator.Proofs.Http.Below
import DatabaseOperator.Proofs.Provider.Entries
import DatabaseOperator.Proofs.Provider.LastWord
import DatabaseOperator.Proofs.Provider.Rules

namespace DatabaseOperator

namespace Client

open Letter
open Url (IsDirectory EndsIn Clean slashed)

variable {c : Client} {b b' : Option String} {ls : List Letter}

theorem method_of_drawn {l : Letter} {e : Errand} (h : l.Drawn c) (purpose : l.purpose = .errand e) :
    l.request.method = e.form.method := by
  rw [Letter.Drawn, purpose] at h
  obtain ⟨token, drawn⟩ := h
  exact (same_of_request? drawn).1

/-- What is sent for a token is a POST. -/
theorem Credentialed.post {s : Service} {res : Except ProviderError String}
    (h : Credentialed c s b ls res b') : ∀ l ∈ ls, l.request.method = .post := by
  have exchange {b us res b'} (authorized : Authorized c b us res b') :
      ∀ l ∈ us, l.request.method = .post := by
    intro l mem
    obtain ⟨purpose, drawn⟩ := authorized.forall_mem l mem
    rw [Letter.Drawn, purpose] at drawn
    exact (same_of_request? drawn).1
  cases s with
  | main => exact exchange h
  | database appId addonId =>
    exact h.forall_mem exchange fun posted l mem => method_of_drawn (drawn_of_delivers posted.2 l mem)
      (posted.2.forall_mem l mem).1

/-- A letter that is not a POST is the errand's own, and its answer is the result. -/
theorem Sent.own_of_mem {e : Errand} {res : Except ProviderError String} {l : Letter}
    (h : Sent c e b ls res b') (mem : l ∈ ls) (other : l.request.method ≠ .post) :
    l.purpose = .errand e ∧ res = outcome e.form.what l.answer := by
  cases h with
  | failed credentialed => exact absurd (Credentialed.post credentialed l mem) other
  | went credentialed posted =>
    rcases List.mem_append.mp mem with early | own
    · exact absurd (Credentialed.post credentialed l early) other
    · obtain ⟨_, delivers⟩ := posted
      cases delivers with
      | unsent => cases own
      | sent answer =>
        obtain rfl := List.mem_singleton.mp own
        exact ⟨rfl, rfl⟩

/-- A listing that is answered with success gives what the answer says. -/
theorem listed_of_runs {id addonId : String} {h : List (Exchange http)} {q : Request} {r : Response}
    {res : Except ProviderError (List FirewallRule)}
    (runs : (c.perform (.listFirewallRules id addonId)).Runs b h res b')
    (mem : (⟨q, some r⟩ : Exchange http) ∈ h) (get : q.method = .get) (success : r.isSuccess = true) :
    res = Wire.listed r.text := by
  let e : Errand := .ruleListing id addonId
  obtain ⟨ls, rfl, travels⟩ := (posts_perform (.listFirewallRules id addonId) _ _ _ _).mp runs
  obtain ⟨l, within, same⟩ := List.mem_map.mp mem
  have other : l.request.method ≠ .post := by
    rw [show l.request = q from congrArg Exchange.call same, get]
    nofun
  have answered : outcome e.form.what l.answer = .ok r.text := by
    obtain ⟨_, _, answer⟩ := l
    cases same
    exact if_pos success
  change Mail.Chain (Sent c e) _ b ls res b' at travels
  cases travels with
  | failed sent => cases (Sent.own_of_mem sent within other).2.trans answered
  | @went _ _ _ _ _ text _ sent later =>
    change Travels c ((Itinerary.stop (reading e.form.what Wire.rules text)).bind fun ws =>
      .stop (ws.mapM Wire.Rule.rule)) _ _ res b' at later
    rw [Itinerary.stop_bind_stop] at later
    obtain ⟨rfl, rfl, rfl⟩ := later
    rw [List.append_nil] at within
    obtain rfl := Except.ok.inj ((Sent.own_of_mem sent within other).2.trans answered)
    rfl

/-- Where the firewall rules of an addon are. -/
def rulesAddress (c : Client) (addonId : String) : String :=
  c.endpoints.databaseApi ++ "/api/databases/" ++ addonId ++ "/firewall_rules"

/-- Where a rule is, behind all rules and a slash. -/
def ruleAddress (c : Client) (addonId ruleId : String) : String :=
  c.rulesAddress addonId ++ "/" ++ ruleId

/-- Where the deletion of a rule goes, seen from where all rules are. It goes to a segment of its own behind them
just when the id is clean: no slash, backslash, question mark, number sign, tab or line break, no percent sign before
two hexadecimal digits, no dot segment, and no blank or control character at the end. Then it does not go to all
rules, with or without a slash behind them. -/
def AddressesRule (c : Client) (addonId ruleId : String) (url : Url) : Prop :=
  ∀ all, Url.parse (c.rulesAddress addonId) = some all → all.query = none →
    '#' ∉ (c.rulesAddress addonId).toList →
    url.origin = all.origin ∧ ∃ dir, IsDirectory (c.rulesAddress addonId) all dir ∧
      ((∃ s, Percent.decode s.toList = utf8Bytes ruleId ∧ EndsIn dir url [s]) ↔ Clean [ruleId.toList]) ∧
      (Clean [ruleId.toList] → url ∉ [all, dir])

theorem closed_rulesAddress (addonId : String) : Url.Closed (c.rulesAddress addonId).toList := by
  intro last mem
  have ends : "/firewall_rules".toList.getLast? = some 's' := by decide
  rw [rulesAddress, String.toList_append, List.getLast?_append, ends] at mem
  obtain rfl : 's' = last := Option.some.inj mem
  decide

theorem addressesRule_of_parse {addonId ruleId : String} {url : Url} (named : ruleId ≠ "")
    (parsed : Url.parse (c.ruleAddress addonId ruleId) = some url) : c.AddressesRule addonId ruleId url := by
  intro all based plain whole
  have written : ruleId.toList = slashed [ruleId.toList] := rfl
  obtain ⟨dir, directory, origin, empty, only, exact⟩ :=
    Url.exists_directory_of_whole based plain parsed written (by simp) whole
  have spelled (clean : Clean [ruleId.toList]) :
      ∃ s, Percent.decode s.toList = utf8Bytes ruleId ∧ EndsIn dir url [s] := by
    refine ⟨_, ?_, exact clean⟩
    rw [String.toList_ofList, Percent.decode_encode,
      Percent.decode_of_unescaped (clean.plain _ List.mem_cons_self).unescaped, utf8Bytes_eq_flatMap]
    rfl
  refine ⟨origin, dir, directory, ⟨?_, spelled⟩, fun clean mem => ?_⟩
  · rintro ⟨s, same, ends⟩
    rw [utf8Bytes_eq_flatMap] at same
    exact only [s] (.cons same .nil) ends
  · obtain ⟨s, same, ends, -⟩ := spelled clean
    have filled : s ≠ "" := by
      rintro rfl
      have empty : Percent.decode "".toList = utf8Bytes "" := (utf8Bytes_eq_flatMap "").symm
      exact named (utf8Bytes_injective (same.symm.trans empty))
    have other : url.segments ≠ dir.segments := by
      intro segments
      have last := congrArg List.getLast? (segments.symm.trans ends)
      rw [empty, List.getLast?_concat] at last
      exact filled (Option.some.inj last).symm
    rcases List.mem_cons.mp mem with rfl | mem
    · rcases directory.path (closed_rulesAddress addonId) with kept | longer
      · exact other kept.symm
      · rw [longer, List.dropLast_concat] at ends
        simp at ends
    · exact other (congrArg Url.segments (List.mem_singleton.mp mem))

/-- What is sent for the only errand of a task is addressed as the errand says. -/
theorem address_of_errand {call : ProviderCall} {e : Errand}
    {h : List (Exchange http)} {res : Except ProviderError call.Result} {x : Exchange http}
    (runs : (c.perform call).Runs b h res b') (mem : x ∈ h) (other : x.call.method ≠ .post)
    (only : ∃ next, Itinerary.of call = .go e next ∧ ∀ text, (next text).Ended) (plain : e.form.parameter = none) :
    Url.parse (c.base e.form.service ++ e.form.path) = some x.call.url := by
  obtain ⟨ls, rfl, travels⟩ := (posts_perform call _ _ _ _).mp runs
  obtain ⟨next, only, last⟩ := only
  rw [only] at travels
  obtain ⟨l, within, rfl⟩ := List.mem_map.mp mem
  have known := Travels.drawn travels l within
  obtain ⟨_, _, sent⟩ := Travels.sent_of_ended travels last
  rw [Letter.Drawn, (Sent.own_of_mem sent within other).1] at known
  obtain ⟨token, drawn⟩ := known
  exact (request?_eq_some plain drawn).2

/-- The deletion of a rule is addressed to the rule. -/
theorem address_of_deletion {id addonId ruleId : String} {h : List (Exchange http)}
    {res : Except ProviderError Unit} {x : Exchange http}
    (runs : (c.perform (.deleteFirewallRule id addonId ruleId)).Runs b h res b') (mem : x ∈ h)
    (delete : x.call.method = .delete) :
    Url.parse (c.ruleAddress addonId ruleId) = some x.call.url := by
  let e : Errand := .ruleDeletion id addonId ruleId
  have address : c.base e.form.service ++ e.form.path = c.ruleAddress addonId ruleId := by
    have joined : "/firewall_rules/" = "/firewall_rules" ++ "/" := by decide
    simp only [e, base, ruleAddress, rulesAddress, Errand.form, joined, String.append_assoc]
  rw [← address]
  exact address_of_errand runs mem (by simp [delete]) ⟨_, rfl, fun _ => trivial⟩ rfl

end Client

theorem Manager.exists_of_deleted {current : Database} {expected : List FirewallRule}
    {p : List (Exchange provider)} {res : Except Error Bool} {id addonId ruleId : String}
    (runs : (updateFirewallRules current expected).run.Runs p res)
    (mem : .deleteFirewallRule id addonId ruleId ∈ calls p) :
    ∃ rule ∈ current.firewallRules, rule.id = some ruleId := by
  have deleted : ruleId ∈ deletedIds p := List.mem_filterMap.mpr ⟨_, mem, rfl⟩
  rw [deletedIds_of_calls (calls_updateFirewallRules runs)] at deleted
  obtain ⟨rule, removed, same⟩ := List.mem_filterMap.mp deleted
  exact ⟨rule, mem_of_mem_removals removed, same⟩

/-- What a listing with this text gives. Rules that were sent come back as they are, and nothing is left to
do about them. It gives rules exactly when each of its entries says one, and what is deleted afterwards are
rules with ids, each behind all rules if its id is clean. -/
structure Wire.Faithful (c : Client) (text : String) (res : Except ProviderError (List FirewallRule)) :
    Prop where
  returns : ∀ sent, Lists text sent → (∀ s ∈ sent, s.1.range.detail ≠ "" ∧ s.2 ≠ "") →
    ∃ rules, res = .ok rules ∧ (rules = sent.map fun s => { s.1 with id := some s.2 }) ∧
      diffRules rules (sent.map Prod.fst) = []
  succeeds : (∃ rules, res = .ok rules) ↔ ∃ es, (Json.read text).bind entries = some es ∧
    ∀ v ∈ es, ∃ w, Rule.decode v = some w ∧
      ((w.type = "custom_range" ∧ w.cidr ≠ "") ∨ (w.type = "managed_range" ∧ w.rangeId ≠ ""))
  means : ∀ rules, res = .ok rules → ∃ es, (Json.read text).bind entries = some es ∧
    List.Forall₂ (fun v r => ∃ w, Rule.decode v = some w ∧ w.Means r) es rules
  identified : ∀ rules, res = .ok rules → ∀ rule ∈ rules, rule.id ≠ some ""
  deletes : ∀ (db : Database) expected p outcome id addonId ruleId, res = .ok db.firewallRules →
    (Manager.updateFirewallRules db expected).run.Runs p outcome →
    .deleteFirewallRule id addonId ruleId ∈ Manager.calls p → ruleId ≠ "" ∧
      ∀ b h res' b', (c.perform (.deleteFirewallRule id addonId ruleId)).Runs b h res' b' →
        ∀ x ∈ h, x.call.method = .delete → Url.parse (c.ruleAddress addonId ruleId) = some x.call.url ∧
          c.AddressesRule addonId ruleId x.call.url

namespace Client

/-- The rules are asked for with the token of the addon, which is fetched first. -/
theorem exists_runs_listing {r : Response} (success : r.isSuccess = true) : ∃ h q res,
    (novice.perform (.listFirewallRules "db-1" "addon-1")).Runs (some "bearer-1") h res (some "bearer-1") ∧
    (⟨q, some r⟩ : Exchange http) ∈ h ∧ q.method = .get := by
  let e : Errand := .ruleListing "db-1" "addon-1"
  have askable : (novice.draft e "key-1").request?.isSome = true := by decide +kernel
  obtain ⟨q, asking⟩ := Option.isSome_iff_exists.mp askable
  obtain ⟨fetch, keyed⟩ := exists_keyed (.kept "bearer-1")
  have asks : Sent novice e (some "bearer-1") ([] ++ [fetch] ++ [⟨.errand e, q, some r⟩]) (.ok r.text)
      (some "bearer-1") := .went keyed ⟨rfl, delivers_ok asking (if_pos success)⟩
  have later : Travels novice ((Itinerary.stop (reading e.form.what Wire.rules r.text)).bind fun ws =>
      .stop (ws.mapM Wire.Rule.rule)) (some "bearer-1") [] (Wire.listed r.text) (some "bearer-1") := by
    rw [Itinerary.stop_bind_stop]
    exact ⟨rfl, rfl, rfl⟩
  refine ⟨_, q, _, (posts_perform _ _ _ _ _).mpr ⟨_, rfl, .went asks later⟩, ?_, (same_of_request? asking).1⟩
  simp [Letter.plain]

/-- A listing of these rules can be answered with them. -/
theorem exists_runs_listed {sent : List (FirewallRule × String)}
    (named : ∀ s ∈ sent, s.1.range.detail ≠ "") : ∃ h q r res,
    (novice.perform (.listFirewallRules "db-1" "addon-1")).Runs (some "bearer-1") h res (some "bearer-1") ∧
    (⟨q, some r⟩ : Exchange http) ∈ h ∧ q.method = .get ∧ r.isSuccess = true ∧ Wire.Lists r.text sent := by
  let r : Response := ⟨200, (Wire.listing sent).render⟩
  have begins : (Wire.listing sent).render.toList = '\x7b' :: _ := Json.toList_render_object _
  have text : r.text = (Wire.listing sent).render := by
    unfold Response.text
    split
    next mark => cases begins.symm.trans mark
    next => rfl
  obtain ⟨h, q, res, runs, mem, get⟩ := exists_runs_listing (r := r) rfl
  refine ⟨h, q, r, res, runs, mem, get, rfl, ?_⟩
  rw [text]
  exact Wire.lists_listing named

/-- A rule is deleted once there is the token of its addon. -/
theorem exists_runs_deletion {ruleId : String}
    (deletable : (novice.draft (.ruleDeletion "db-1" "addon-1" ruleId) "key-1").request?.isSome = true) :
    ∃ h x, x ∈ h ∧ x.call.method = .delete ∧
      (novice.perform (.deleteFirewallRule "db-1" "addon-1" ruleId)).Runs (some "bearer-1") h (.ok ())
        (some "bearer-1") := by
  let e : Errand := .ruleDeletion "db-1" "addon-1" ruleId
  obtain ⟨q, deleting⟩ := Option.isSome_iff_exists.mp deletable
  obtain ⟨fetch, keyed⟩ := exists_keyed (.kept "bearer-1")
  have sent : Sent novice e (some "bearer-1") ([] ++ [fetch] ++ [⟨.errand e, q, some ⟨204, ""⟩⟩]) (.ok "")
      (some "bearer-1") := .went keyed ⟨rfl, delivers_ok deleting rfl⟩
  have travels : Travels novice (Itinerary.of (.deleteFirewallRule "db-1" "addon-1" ruleId)) (some "bearer-1") _
      (.ok ()) (some "bearer-1") := .went sent ⟨rfl, rfl, rfl⟩
  refine ⟨_, ⟨q, some ⟨204, ""⟩⟩, ?_, (same_of_request? deleting).1, (posts_perform _ _ _ _ _).mpr ⟨_, rfl, travels⟩⟩
  simp [Letter.plain]

/-- Two rules with the ids that they are listed with. -/
def listedPair : List (FirewallRule × String) :=
  [(⟨none, .custom "10.0.0.0/8", "the \"old\" office"⟩, "fw-1"),
    (⟨some "fw-9", .managed "apps", ""⟩, "fw-2")]

end Client

/-- Whatever a listing of firewall rules is answered with success, it is read faithfully. -/
theorem Client.faithful_of_runs {c : Client} {b b' : Option String} {id addonId : String}
    {h : List (Exchange http)} {q : Request} {r : Response} {res : Except ProviderError (List FirewallRule)}
    (runs : (c.perform (.listFirewallRules id addonId)).Runs b h res b')
    (mem : (⟨q, some r⟩ : Exchange http) ∈ h) (get : q.method = .get) (success : r.isSuccess = true) :
    Wire.Faithful c r.text res := by
  obtain rfl := listed_of_runs runs mem get success
  refine ⟨fun sent lists valid => ?_, Wire.exists_listed_iff, fun rules => Wire.listed_eq_ok_iff.mp,
    fun rules told rule => Wire.id_ne_empty_of_listed told, ?_⟩
  · exact ⟨_, Wire.listed_of_lists lists valid, rfl, Wire.diffRules_sent sent⟩
  · intro db expected p outcome id addonId ruleId told updates mem
    obtain ⟨rule, within, same⟩ := Manager.exists_of_deleted updates mem
    have named : ruleId ≠ "" := fun blank => Wire.id_ne_empty_of_listed told within (blank ▸ same)
    refine ⟨named, fun b h res' b' deletion x within' delete => ?_⟩
    have address := address_of_deletion deletion within' delete
    exact ⟨address, addressesRule_of_parse named address⟩

theorem Client.faithful_of_runs_listedPair : ∃ h q r res,
    (novice.perform (.listFirewallRules "db-1" "addon-1")).Runs (some "bearer-1") h res (some "bearer-1") ∧
    (⟨q, some r⟩ : Exchange http) ∈ h ∧ q.method = .get ∧ r.isSuccess = true ∧
    Wire.Faithful novice r.text res ∧ Wire.Lists r.text listedPair ∧
    (∀ s ∈ listedPair, s.1.range.detail ≠ "" ∧ s.2 ≠ "" ∧ Url.Clean [s.2.toList]) ∧
    ∃ all, Url.parse (novice.rulesAddress "addon-1") = some all ∧ all.query = none ∧
      '#' ∉ (novice.rulesAddress "addon-1").toList := by
  have valid : ∀ s ∈ listedPair, s.1.range.detail ≠ "" ∧ s.2 ≠ "" := by decide
  have clean : ∀ s ∈ listedPair, Url.Clean [s.2.toList] := by
    have words : ∀ s ∈ listedPair, s.2.toList.all Url.isWordChar = true := by decide
    exact fun s mem => Url.clean_of_words (List.forall_mem_singleton.mpr (words s mem))
  obtain ⟨h, q, r, res, runs, mem, get, success, lists⟩ := exists_runs_listed fun s mem => (valid s mem).1
  refine ⟨h, q, r, res, runs, mem, get, success, faithful_of_runs runs mem get success, lists,
    fun s mem => ⟨(valid s mem).1, (valid s mem).2, clean s mem⟩,
    ⟨"https://db-api.osc-fr1.scalingo.com", ["api", "databases", "addon-1", "firewall_rules"], none⟩, ?_, rfl, ?_⟩
  · decide +kernel
  · decide +kernel

/-- A rule with an id that leads back to all rules. -/
def strayRule : FirewallRule :=
  ⟨some "../firewall_rules", .custom "10.0.0.0/8", "office"⟩

/-- The stray rule is listed with its id, and an update that does not want it deletes by this id. What is then sent is
addressed to all rules. -/
theorem Client.addresses_rules_stray : ∃ h q r res h' x,
    (novice.perform (.listFirewallRules "db-1" "addon-1")).Runs (some "bearer-1") h res (some "bearer-1") ∧
    (⟨q, some r⟩ : Exchange http) ∈ h ∧ q.method = .get ∧ r.isSuccess = true ∧ res = .ok [strayRule] ∧
    diffRules [strayRule] [] = [.delete strayRule] ∧
    (novice.perform (.deleteFirewallRule "db-1" "addon-1" "../firewall_rules")).Runs (some "bearer-1") h' (.ok ())
      (some "bearer-1") ∧
    x ∈ h' ∧ x.call.method = .delete ∧ Url.parse (novice.rulesAddress "addon-1") = some x.call.url := by
  let sent : List (FirewallRule × String) := [(strayRule, "../firewall_rules")]
  have valid : ∀ s ∈ sent, s.1.range.detail ≠ "" ∧ s.2 ≠ "" := by decide
  obtain ⟨h, q, r, res, runs, mem, get, success, lists⟩ := exists_runs_listed fun s mem => (valid s mem).1
  have deletable : (novice.draft (.ruleDeletion "db-1" "addon-1" "../firewall_rules") "key-1").request?.isSome =
      true := by decide +kernel
  obtain ⟨h', x, mem', delete, deletion⟩ := exists_runs_deletion deletable
  have listed := (listed_of_runs runs mem get success).trans (Wire.listed_of_lists lists valid)
  have strays : Url.parse (novice.rulesAddress "addon-1") =
      Url.parse (novice.ruleAddress "addon-1" "../firewall_rules") := by decide +kernel
  exact ⟨h, q, r, res, h', x, runs, mem, get, success, listed, by decide, deletion, mem', delete,
    strays.trans (address_of_deletion deletion mem' delete)⟩

end DatabaseOperator
