import DatabaseOperator.Proofs.Provider.Bearing

namespace DatabaseOperator

/-- An operation of a client, with its requests. -/
structure Operation where
  call : ProviderCall
  requests : List (Exchange http)
  result : Except ProviderError call.Result

/-- An operation of a client, letter by letter. -/
structure Report where
  call : ProviderCall
  letters : List Letter
  result : Except ProviderError call.Result

/-- The operation of a client with another API token. -/
def Report.resigned (token : String) (r : Report) : Report :=
  { r with letters := r.letters.map (Letter.resigned token) }

/-- The operation without what its requests are for. -/
def Report.operation (r : Report) : Operation :=
  ⟨r.call, r.letters.map Letter.plain, r.result⟩

namespace Client

variable {c : Client} {α : Type} {b b' : Option String} {ls : List Letter}

/-- A client carries out operations one after the other and keeps its bearer token between them. -/
inductive Operates (c : Client) : Option String → List Operation → Option String → Prop
  | rest (b : Option String) : Operates c b [] b
  | next {b b₁ b' : Option String} {o : Operation} {os : List Operation} :
      (c.perform o.call).Runs b o.requests o.result b₁ → Operates c b₁ os b' → Operates c b (o :: os) b'

/-- What a client sends for operations one after the other. -/
inductive Logs (c : Client) : Option String → List Report → Option String → Prop
  | rest (b : Option String) : Logs c b [] b
  | next {b b₁ b' : Option String} {r : Report} {rs : List Report} :
      Travels c (Itinerary.of r.call) b r.letters r.result b₁ → Logs c b₁ rs b' → Logs c b (r :: rs) b'

/-- The operations of a client are known letter by letter. -/
theorem operates_iff {os : List Operation} :
    c.Operates b os b' ↔ ∃ rs, os = rs.map Report.operation ∧ c.Logs b rs b' := by
  constructor
  · intro h
    induction h with
    | rest b => exact ⟨[], rfl, .rest b⟩
    | @next _ _ _ o os runs _ ih =>
      obtain ⟨rs, rfl, logs⟩ := ih
      obtain ⟨ls, requests, travels⟩ := (posts_perform o.call _ _ _ _).mp runs
      refine ⟨⟨o.call, ls, o.result⟩ :: rs, ?_, .next travels logs⟩
      rw [List.map_cons, Report.operation, ← requests]
  · rintro ⟨rs, rfl, h⟩
    induction h with
    | rest b => exact .rest b
    | @next _ _ _ r rs travels _ ih =>
      exact .next ((posts_perform r.call _ _ _ _).mpr ⟨r.letters, rfl, travels⟩) ih

end Client

namespace Report

/-- The operation has failed and has sent nothing, or an exchange that was not granted a token. -/
def Fruitless (r : Report) : Prop :=
  (r.letters = [] ∨ ∃ l, r.letters = [l] ∧ l.Denied) ∧ ∃ e, r.result = .error e

/-- The operation has begun with an exchange that was granted a token, and has gone on with that. -/
def Earns (c : Client) (token : String) (r : Report) : Prop :=
  ∃ l ls, r.letters = l :: ls ∧ l.purpose = .exchange ∧ l.Grants token ∧ ∀ k ∈ ls, k.Carries c token

end Report

namespace Client

variable {c : Client} {α : Type} {b b' : Option String} {ls : List Letter}

theorem exists_error_of_stop {call : ProviderCall} {res : Except ProviderError call.Result}
    (stop : Itinerary.of call = .stop res) : ∃ e, res = .error e := by
  have typed (db : Database) {β : Type} (f : DatabaseType → Itinerary β) {r : Except ProviderError β}
      (goes : ∀ type r, f type ≠ .stop r) (stop : (Itinerary.requireType db).bind f = .stop r) :
      ∃ e, r = .error e := by
    unfold Itinerary.requireType at stop
    cases valid : db.validateType with
    | error e =>
      rw [valid] at stop
      cases stop
      exact ⟨_, rfl⟩
    | ok type =>
      rw [valid] at stop
      exact absurd stop (goes type r)
  cases call with
  | createDatabase db => exact typed db _ (fun _ _ eq => by cases eq) stop
  | updateDatabasePlan db => exact typed db _ (fun _ _ eq => by cases eq) stop
  | enableFeature db feature | disableFeature db feature =>
    simp only [Itinerary.of, Itinerary.addonOf] at stop
    split at stop <;> cases stop
  | _ => cases stop

/-- Without a bearer token an operation that sends nothing fails. -/
theorem Travels.exists_error {call : ProviderCall} {res : Except ProviderError call.Result}
    (h : Travels c (Itinerary.of call) none [] res b') : ∃ e, res = .error e := by
  generalize begun : Itinerary.of call = it at h
  cases it with
  | stop res' =>
    obtain ⟨_, rfl, _⟩ := h
    exact exists_error_of_stop begun
  | go e next =>
    generalize none : [] = ls at h
    cases h with
    | failed => exact ⟨_, rfl⟩
    | went sent =>
      obtain ⟨rfl, _⟩ := List.append_eq_nil_iff.mp none.symm
      obtain ⟨us, _, _, _, answered, _⟩ := Sent.answered sent
      cases us <;> cases answered

/-- An operation without a bearer token is of no avail, or it earns one. -/
theorem Travels.cases_of_none {r : Report}
    (h : Travels c (Itinerary.of r.call) none r.letters r.result b') :
    (b' = none ∧ r.Fruitless) ∨ ∃ token, b' = some token ∧ r.Earns c token := by
  have bearing := Travels.bearing h
  generalize sent : r.letters = ls at bearing
  generalize told : r.result = res at bearing
  cases bearing with
  | silent =>
    rw [sent] at h
    exact .inl ⟨rfl, .inl sent, h.exists_error⟩
  | @refused l e exchange refused => exact .inl ⟨rfl, .inr ⟨l, sent, exchange, refused⟩, e, told⟩
  | @granted l token ls _ exchange grants carried =>
    exact .inr ⟨token, rfl, l, ls, sent, exchange, grants, carried⟩

/-- With a bearer token every request to the main service carries it, and there is no other one. -/
theorem Bearing.carried {token : String} {res : Except ProviderError α}
    (h : Bearing c (some token) ls res b') : b' = some token ∧ ∀ l ∈ ls, l.Carries c token := by
  cases h with
  | silent => exact ⟨rfl, fun _ => nofun⟩
  | kept carried => exact ⟨rfl, carried⟩

theorem Logs.carried {rs : List Report} {token : String} (h : c.Logs (some token) rs b') :
    ∀ r ∈ rs, ∀ l ∈ r.letters, l.Carries c token := by
  generalize held : some token = b at h
  induction h with
  | rest => exact fun _ => nofun
  | next travels _ ih =>
    subst held
    obtain ⟨rfl, carried⟩ := (Travels.bearing travels).carried
    exact List.forall_mem_cons.mpr ⟨carried, ih rfl⟩

/-- Operations are of no avail until one earns a bearer token, which all later ones carry. -/
theorem Logs.cases_of_none {rs : List Report} (h : c.Logs none rs b') :
    (∀ r ∈ rs, r.Fruitless) ∨ ∃ early r late token, rs = early ++ r :: late ∧
      (∀ q ∈ early, q.Fruitless) ∧ r.Earns c token ∧
      ∀ q ∈ late, ∀ l ∈ q.letters, l.Carries c token := by
  generalize begun : none = b₀ at h
  induction h with
  | rest => exact .inl fun _ => nofun
  | @next _ _ _ r rs travels logs ih =>
    subst begun
    rcases Travels.cases_of_none travels with ⟨rfl, fruitless⟩ | ⟨token, rfl, earns⟩
    · rcases ih rfl with all | ⟨early, q, late, token, rfl, before, earns, after⟩
      · exact .inl (List.forall_mem_cons.mpr ⟨fruitless, all⟩)
      · exact .inr ⟨r :: early, q, late, token, rfl, List.forall_mem_cons.mpr ⟨fruitless, before⟩, earns,
          after⟩
    · exact .inr ⟨[], r, rs, token, rfl, fun _ => nofun, earns, logs.carried⟩

theorem Logs.resigned {rs : List Report} (h : c.Logs b rs b') (token : String) :
    Logs { c with token := token } b (rs.map (Report.resigned token)) b' := by
  induction h with
  | rest b => exact .rest b
  | next travels _ ih => exact .next (Travels.resigned travels token) ih

theorem Logs.exists_travels {rs : List Report} {r : Report} (h : c.Logs b rs b') (mem : r ∈ rs) :
    ∃ b₁ b₂, Travels c (Itinerary.of r.call) b₁ r.letters r.result b₂ := by
  induction h with
  | rest => cases mem
  | next travels _ ih =>
    rcases List.mem_cons.mp mem with rfl | later
    · exact ⟨_, _, travels⟩
    · exact ih later

theorem denied_of_fruitless {rs : List Report} (fruitless : ∀ r ∈ rs, r.Fruitless) :
    ∀ l ∈ rs.flatMap Report.letters, l.Denied := by
  intro l mem
  obtain ⟨r, within, mem⟩ := List.mem_flatMap.mp mem
  rcases (fruitless r within).1 with none | ⟨k, single, denied⟩
  · rw [none] at mem
    cases mem
  · rw [single] at mem
    obtain rfl := List.mem_singleton.mp mem
    exact denied

/-- Letters are denied a token until one is granted it, and all later ones are for errands. -/
theorem Logs.cases_of_letters {rs : List Report} (h : c.Logs none rs b') :
    (∀ l ∈ rs.flatMap Report.letters, l.Denied) ∨ ∃ us k vs token,
      rs.flatMap Report.letters = us ++ k :: vs ∧ (∀ l ∈ us, l.Denied) ∧ k.purpose = .exchange ∧
      k.Grants token ∧ ∀ l ∈ vs, l.Carries c token := by
  rcases h.cases_of_none with fruitless | ⟨early, r, late, token, rfl, fruitless, earns, carried⟩
  · exact .inl (denied_of_fruitless fruitless)
  · obtain ⟨k, ls, letters, exchange, grants, carried'⟩ := earns
    refine .inr ⟨early.flatMap Report.letters, k, ls ++ late.flatMap Report.letters, token, ?_,
      denied_of_fruitless fruitless, exchange, grants, fun l mem => ?_⟩
    · rw [List.flatMap_append, List.flatMap_cons, letters]
      rfl
    · rcases List.mem_append.mp mem with within | later
      · exact carried' l within
      · obtain ⟨q, within, mem⟩ := List.mem_flatMap.mp later
        exact carried q within l mem

/-- Which credentials the letters of operations carry, one operation after the other, from no bearer token
to this one. -/
structure Disciplined (c : Client) (rs : List Report) (b' : Option String) : Prop where
  drawn : ∀ r ∈ rs, ∀ l ∈ r.letters, l.Drawn c
  signed : ∀ r ∈ rs, ∀ l ∈ r.letters, l.purpose = .exchange →
    l.request.authorization = basicAuthorization c.token
  resigned : ∀ token,
    Operates { c with token := token } none ((rs.map (Report.resigned token)).map Report.operation) b'
  earned : ∀ before l after e, rs.flatMap Report.letters = before ++ l :: after →
    l.purpose = .errand e → e.form.service = .main → ∃ k ∈ before, ∃ token, k.purpose = .exchange ∧
      k.Grants token ∧ l.request.authorization = bearerAuthorization token
  once : ∀ before k after token, rs.flatMap Report.letters = before ++ k :: after →
    k.purpose = .exchange → k.Grants token → ∀ l ∈ after, l.purpose ≠ .exchange
  failed : ∀ r ∈ rs, ∀ l ∈ r.letters, l.purpose = .exchange → (∀ token, ¬ l.Grants token) →
    r.letters = [l] ∧ ∃ e, r.result = .error e
  anew : ∀ before r after, rs = before ++ r :: after →
    (∀ q ∈ before, ∀ k ∈ q.letters, k.purpose = .exchange → ∀ token, ¬ k.Grants token) →
    (r.letters = [] ∧ ∃ e, r.result = .error e) ∨ ∃ l ls, r.letters = l :: ls ∧ l.purpose = .exchange
  keyed : ∀ r ∈ rs, Letter.Keyed r.letters

theorem Logs.earned {rs : List Report} {before after : List Letter} {l : Letter} {e : Errand}
    (h : c.Logs none rs b') (split : rs.flatMap Report.letters = before ++ l :: after)
    (purpose : l.purpose = .errand e) (main : e.form.service = .main) :
    ∃ k ∈ before, ∃ token, k.purpose = .exchange ∧ k.Grants token ∧
      l.request.authorization = bearerAuthorization token := by
  have undenied : ¬ l.Denied := fun denied => by cases purpose.symm.trans denied.1
  rcases h.cases_of_letters with denied | ⟨us, k, vs, token, letters, denied, exchange, grants, carried⟩
  · exact absurd (denied l (split ▸ List.mem_append_right before List.mem_cons_self)) undenied
  rcases cases_of_splits (letters.symm.trans split) with ⟨m, rfl⟩ | ⟨rfl, rfl, rfl⟩ | ⟨m, rfl, rfl⟩
  · exact absurd (denied l (List.mem_append_right before List.mem_cons_self)) undenied
  · cases purpose.symm.trans exchange
  · obtain ⟨d, key, errand, drawn, same⟩ := carried l (List.mem_append_right m List.mem_cons_self)
    cases purpose.symm.trans errand
    rw [same main] at drawn
    exact ⟨k, List.mem_append_right us List.mem_cons_self, token, exchange, grants,
      (same_of_request? drawn).2.1⟩

theorem Logs.once {rs : List Report} {before after : List Letter} {k : Letter} {token : String}
    (h : c.Logs none rs b') (split : rs.flatMap Report.letters = before ++ k :: after)
    (exchange : k.purpose = .exchange) (grants : k.Grants token) :
    ∀ l ∈ after, l.purpose ≠ .exchange := by
  have undenied : ¬ k.Denied := fun denied => denied.2 token grants
  rcases h.cases_of_letters with denied | ⟨us, x, vs, held, letters, denied, _, _, carried⟩
  · exact absurd (denied k (split ▸ List.mem_append_right before List.mem_cons_self)) undenied
  rcases cases_of_splits (letters.symm.trans split) with ⟨m, rfl⟩ | ⟨rfl, rfl, rfl⟩ | ⟨m, rfl, rfl⟩
  · exact absurd (denied k (List.mem_append_right before List.mem_cons_self)) undenied
  · intro l mem exchange'
    obtain ⟨_, _, errand, _⟩ := carried l mem
    cases exchange'.symm.trans errand
  · obtain ⟨_, _, errand, _⟩ := carried k (List.mem_append_right m List.mem_cons_self)
    cases exchange.symm.trans errand

theorem Logs.failed {rs : List Report} {r : Report} {l : Letter} (h : c.Logs none rs b')
    (mem : r ∈ rs) (within : l ∈ r.letters) (denied : l.Denied) :
    r.letters = [l] ∧ ∃ e, r.result = .error e := by
  have uncarried {token : String} : ¬ l.Carries c token := by
    rintro ⟨_, _, errand, _⟩
    cases denied.1.symm.trans errand
  have alone (fruitless : r.Fruitless) : r.letters = [l] ∧ ∃ e, r.result = .error e := by
    obtain ⟨none | ⟨k, single, _⟩, error⟩ := fruitless
    · rw [none] at within
      cases within
    · rw [single] at within
      obtain rfl := List.mem_singleton.mp within
      exact ⟨single, error⟩
  rcases h.cases_of_none with fruitless | ⟨early, q, late, token, rfl, fruitless, earns, carried⟩
  · exact alone (fruitless r mem)
  rcases List.mem_append.mp mem with before | mem
  · exact alone (fruitless r before)
  rcases List.mem_cons.mp mem with rfl | after
  · obtain ⟨k, ls, letters, _, grants, carried'⟩ := earns
    rw [letters] at within
    rcases List.mem_cons.mp within with rfl | within
    · exact absurd grants (denied.2 token)
    · exact absurd (carried' l within) uncarried
  · exact absurd (carried r after l within) uncarried

theorem Logs.anew {before after : List Report} {r : Report} (h : c.Logs none (before ++ r :: after) b')
    (denied : ∀ q ∈ before, ∀ k ∈ q.letters, k.purpose = .exchange → ∀ token, ¬ k.Grants token) :
    (r.letters = [] ∧ ∃ e, r.result = .error e) ∨
      ∃ l ls, r.letters = l :: ls ∧ l.purpose = .exchange := by
  have begun (fruitless : r.Fruitless) : (r.letters = [] ∧ ∃ e, r.result = .error e) ∨
      ∃ l ls, r.letters = l :: ls ∧ l.purpose = .exchange := by
    obtain ⟨none | ⟨l, single, exchange, _⟩, error⟩ := fruitless
    · exact .inl ⟨none, error⟩
    · exact .inr ⟨l, [], single, exchange⟩
  rcases h.cases_of_none with fruitless | ⟨early, q, late, token, split, fruitless, earns, _⟩
  · exact begun (fruitless r (List.mem_append_right before List.mem_cons_self))
  obtain ⟨k, ls, letters, exchange, grants, _⟩ := earns
  rcases cases_of_splits split.symm with ⟨m, rfl⟩ | ⟨rfl, rfl, rfl⟩ | ⟨m, rfl, rfl⟩
  · exact begun (fruitless r (List.mem_append_right before List.mem_cons_self))
  · exact .inr ⟨k, ls, letters, exchange⟩
  · have mem : k ∈ q.letters := letters ▸ List.mem_cons_self
    exact absurd grants (denied q (List.mem_append_right early List.mem_cons_self) k mem exchange token)

/-- The client is refused a bearer token at first, and then gets one and deletes a firewall rule. -/
theorem exists_operates_novice : ∃ os, novice.Operates none os (some "bearer-1") ∧
    os.map Operation.call = [.deleteDatabase "db-1", .deleteFirewallRule "db-1" "addon-1" "rule-1"] ∧
    os.map (fun o => o.requests.length) = [1, 3] := by
  let deletion : Errand := .ruleDeletion "db-1" "addon-1" "rule-1"
  have exchangeable : novice.exchangeDraft.request?.isSome = true := by decide +kernel
  have deletable : (novice.draft deletion "key-1").request?.isSome = true := by decide +kernel
  obtain ⟨q₁, exchange⟩ := Option.isSome_iff_exists.mp exchangeable
  obtain ⟨q₂, deleting⟩ := Option.isSome_iff_exists.mp deletable
  let granted : Response := ⟨200, "\x7b\"token\":\"bearer-1\"\x7d"⟩
  have grants : bearerOf (some granted) = .ok "bearer-1" :=
    bearerOf_eq_ok_iff (l := ⟨.exchange, q₁, some granted⟩).mpr
      ⟨by decide, granted, rfl, rfl, by decide +kernel⟩
  have denied : Authorized novice none [⟨.exchange, q₁, some ⟨503, ""⟩⟩] _ none :=
    .exchanged (.sent (some ⟨503, ""⟩) exchange)
  have authorized : Authorized novice none [⟨.exchange, q₁, some granted⟩] (.ok "bearer-1")
      (some "bearer-1") := .exchanged (delivers_ok exchange grants)
  have first : Travels novice (Itinerary.of (.deleteDatabase "db-1")) none
      [⟨.exchange, q₁, some ⟨503, ""⟩⟩] _ none := .failed (.failed denied)
  obtain ⟨fetch, keyed⟩ := exists_keyed authorized
  have deletes : Sent novice deletion none ([⟨.exchange, q₁, some granted⟩] ++ [fetch] ++
      [⟨.errand deletion, q₂, some ⟨204, ""⟩⟩]) (.ok "") (some "bearer-1") :=
    .went keyed ⟨rfl, .sent (some ⟨204, ""⟩) deleting⟩
  have second : Travels novice (Itinerary.of (.deleteFirewallRule "db-1" "addon-1" "rule-1")) none
      _ (.ok ()) (some "bearer-1") := .went deletes ⟨rfl, rfl, rfl⟩
  exact ⟨_, operates_iff.mpr ⟨[⟨_, _, _⟩, ⟨_, _, _⟩], rfl, .next first (.next second (.rest _))⟩, rfl, rfl⟩

/-- However operations are called one after the other, and whatever is answered, a new client sends its
credentials in good order. -/
theorem Operates.disciplined {os : List Operation} (h : c.Operates none os b') :
    ∃ rs, os = rs.map Report.operation ∧ c.Logs none rs b' ∧ c.Disciplined rs b' := by
  obtain ⟨rs, rfl, logs⟩ := operates_iff.mp h
  have drawn : ∀ r ∈ rs, ∀ l ∈ r.letters, l.Drawn c := fun r mem => by
    obtain ⟨_, _, travels⟩ := logs.exists_travels mem
    exact Travels.drawn travels
  refine ⟨rs, rfl, logs, drawn, fun r mem l within exchange => ?_, fun token => ?_,
    fun _ _ _ _ => logs.earned, fun _ _ _ _ => logs.once,
    fun r mem l within exchange denied => logs.failed mem within ⟨exchange, denied⟩, ?_, fun r mem => ?_⟩
  · have sent := drawn r mem l within
    rw [Letter.Drawn, exchange] at sent
    exact (same_of_request? sent).2.1
  · exact operates_iff.mpr ⟨_, rfl, logs.resigned token⟩
  · rintro before r after rfl
    exact logs.anew
  · obtain ⟨_, _, travels⟩ := logs.exists_travels mem
    exact Travels.keyed travels

theorem Operates.disciplined_novice : ∃ os rs, novice.Operates none os (some "bearer-1") ∧
    os.map Operation.call = [.deleteDatabase "db-1", .deleteFirewallRule "db-1" "addon-1" "rule-1"] ∧
    os.map (fun o => o.requests.length) = [1, 3] ∧ os = rs.map Report.operation ∧
    novice.Logs none rs (some "bearer-1") ∧ novice.Disciplined rs (some "bearer-1") := by
  obtain ⟨os, operates, calls, requests⟩ := exists_operates_novice
  obtain ⟨rs, letters, logs, disciplined⟩ := operates.disciplined
  exact ⟨os, rs, operates, calls, requests, letters, logs, disciplined⟩

end Client

end DatabaseOperator
