import DatabaseOperator.Proofs.Json.Text
import DatabaseOperator.Proofs.Provider.Lookups

namespace DatabaseOperator

/-- What a request is called in reports about it. -/
def Purpose.what : Purpose → String
  | exchange => "token exchange"
  | errand e => e.form.what

namespace Letter

variable {α β : Type} {W : Errand → Findings → Prop} {found : Findings} {us ls : List Letter} {l : Letter}

/-- The letter is for a lookup, and this is what its answer tells. -/
def Finds (v : String) (l : Letter) : Prop :=
  match l.purpose with
  | .exchange => l.Grants v
  | .errand e => ∃ r, l.answer = some r ∧ r.isSuccess = true ∧ e.Tells r.text v

/-- The letter is answered with success. -/
def Succeeds (l : Letter) : Prop :=
  ∃ r, l.answer = some r ∧ r.isSuccess = true

/-- How an operation fails by a letter that does not succeed. -/
def failure (l : Letter) : ProviderError :=
  match l.answer with
  | none => .transport
  | some r => Client.refusal l.purpose.what r

/-- The letter is for a change. -/
def Mutates (l : Letter) : Prop :=
  ∃ e, l.purpose = .errand e ∧ e.Mutates

/-- A letter that does not succeed is the last one and decides the result. -/
def Decide (ls : List Letter) (res : Except ProviderError α) : Prop :=
  ∀ before l after, ls = before ++ l :: after → ¬ l.Succeeds → after = [] ∧ res = .error l.failure

/-- The letters are lookups that have found something. -/
def Search (ls : List Letter) : Prop :=
  ∀ l ∈ ls, ¬ l.Mutates ∧ ∃ v, l.Finds v

/-- The letters have found this. -/
def Tell (ls : List Letter) (found : Findings) : Prop :=
  ∀ p ∈ found, ∃ l ∈ ls, l.purpose = .errand p.1 ∧ l.Finds p.2

/-- A letter for a change is the last one and is warranted by what all letters before it have found. -/
def Order (W : Errand → Findings → Prop) (ls : List Letter) : Prop :=
  ∀ before l after e, ls = before ++ l :: after → l.purpose = .errand e → e.Mutates →
    after = [] ∧ Search before ∧ ∃ found, Tell before found ∧ W e found

theorem Decide.of_error {e : ProviderError} (h : Decide ls (.error e : Except _ α)) :
    Decide ls (.error e : Except _ β) := by
  intro before l after split fails
  obtain ⟨rfl, eq⟩ := h before l after split fails
  exact ⟨rfl, congrArg Except.error (Except.error.inj eq)⟩

theorem Decide.succeeds {a : α} (h : Decide ls (.ok a : Except _ α)) : ∀ l ∈ ls, l.Succeeds := by
  intro l mem
  obtain ⟨before, after, split⟩ := List.append_of_mem mem
  refine Classical.byContradiction fun fails => ?_
  cases (h before l after split fails).2

theorem Decide.refused {before after : List Letter} {r : Response} {res : Except ProviderError α}
    (h : Decide ls res) (split : ls = before ++ l :: after) (answered : l.answer = some r)
    (fails : r.isSuccess = false) : after = [] ∧ res = .error (Client.refusal l.purpose.what r) := by
  have unsuccessful : ¬ l.Succeeds := by
    rintro ⟨r', answered', success⟩
    cases answered.symm.trans answered'
    cases fails.symm.trans success
  obtain ⟨ended, failed⟩ := h before l after split unsuccessful
  rw [Letter.failure, answered] at failed
  exact ⟨ended, failed⟩

theorem decide_nil {res : Except ProviderError α} : Decide [] res :=
  fun before _ _ split => by cases before <;> cases split

theorem decide_singleton {res : Except ProviderError α} (decides : ¬ l.Succeeds → res = .error l.failure) :
    Decide [l] res := by
  intro before k after split fails
  cases before with
  | nil =>
    obtain ⟨rfl, rfl⟩ := List.cons.inj split
    exact ⟨rfl, decides fails⟩
  | cons _ before => cases before <;> cases (List.cons.inj split).2

/-- What the first part of work sends decides only if it is all. -/
theorem Decide.chain {R : Mail α} {S : α → Mail β} {b b' : Option String} {res : Except ProviderError β}
    (h : Mail.Chain R S b ls res b') (first : ∀ {b ls res b'}, R b ls res b' → Decide ls res)
    (second : ∀ {a b ls res b'}, S a b ls res b' → Decide ls res) : Decide ls res := by
  cases h with
  | failed sent => exact Decide.of_error (first sent)
  | went sent sent' =>
    intro before l after split fails
    rcases List.append_eq_append_iff.mp split with ⟨m, rfl, rest⟩ | ⟨m, rfl, rest⟩
    · exact second sent' m l after rest fails
    · cases m with
      | nil => exact second sent' [] l after rest.symm fails
      | cons x m =>
        obtain ⟨rfl, _⟩ := List.cons.inj rest
        have succeeds := Decide.succeeds (first sent)
        exact absurd (succeeds l (List.mem_append_right before List.mem_cons_self)) fails

theorem Search.append (h : Search us) (g : Search ls) : Search (us ++ ls) :=
  fun l mem => (List.mem_append.mp mem).elim (h l) (g l)

theorem Tell.append (h : Tell us found) : Tell (us ++ ls) found := fun p mem => by
  obtain ⟨l, within, finds⟩ := h p mem
  exact ⟨l, List.mem_append_left ls within, finds⟩

/-- Lookups are in order with whatever changes nothing behind them. -/
theorem Search.order_append (h : Search us) (unchanging : ∀ l ∈ ls, ¬ l.Mutates) :
    Order W (us ++ ls) := by
  intro before l after e split purpose mutates
  have mem : l ∈ us ++ ls := split ▸ List.mem_append_right before List.mem_cons_self
  rcases List.mem_append.mp mem with early | late
  · exact absurd ⟨e, purpose, mutates⟩ (h l early).1
  · exact absurd ⟨e, purpose, mutates⟩ (unchanging l late)

/-- A last letter behind lookups that warrant it. -/
theorem Search.order {e : Errand} (h : Search us) (told : Tell us found) (purpose : l.purpose = .errand e)
    (warranted : W e found) : Order W (us ++ [l]) := by
  intro before k after d split purpose' mutates
  rcases cases_of_splits split with ⟨m, rfl⟩ | ⟨rfl, rfl, rfl⟩ | ⟨m, _, none⟩
  · have mem := List.mem_append_right before (List.mem_cons_self (a := k) (l := m))
    exact absurd ⟨d, purpose', mutates⟩ (h k mem).1
  · cases purpose.symm.trans purpose'
    exact ⟨rfl, h, found, told, warranted⟩
  · cases m <;> cases none

end Letter

namespace Client

open Letter

variable {c : Client} {α : Type} {W : Errand → Findings → Prop} {found : Findings}
  {b b' : Option String} {us ls : List Letter}

theorem Delivers.decide {p : Purpose} {d : Draft} {f : Option Response → Except ProviderError α}
    {res : Except ProviderError α} (h : Delivers p d f ls res)
    (refused : ∀ answer e, outcome p.what answer = .error e → f answer = .error e) : Decide ls res := by
  cases h with
  | unsent => exact decide_nil
  | sent answer =>
    refine decide_singleton fun fails => refused answer _ ?_
    cases answer with
    | none => rfl
    | some r => exact if_neg fun success => fails ⟨r, rfl, success⟩

theorem Authorized.decide {res : Except ProviderError String} (h : Authorized c b ls res b') :
    Decide ls res := by
  cases h with
  | kept token => exact decide_nil
  | exchanged delivers =>
    refine Delivers.decide delivers fun answer e refused => ?_
    change outcome "token exchange" answer = .error e at refused
    rw [bearerOf, refused]
    rfl

theorem Credentialed.decide {s : Service} {res : Except ProviderError String}
    (h : Credentialed c s b ls res b') : Decide ls res := by
  cases s with
  | main => exact Authorized.decide h
  | database appId addonId =>
    refine Decide.chain h Authorized.decide fun posted => ?_
    refine Delivers.decide posted.2 fun answer e refused => ?_
    change outcome (Errand.addonToken appId addonId).form.what answer = .error e at refused
    rw [refused]
    rfl

theorem Sent.decide {e : Errand} {res : Except ProviderError String} (h : Sent c e b ls res b') :
    Decide ls res :=
  Decide.chain h Credentialed.decide fun posted => Delivers.decide posted.2 fun _ _ refused => refused

theorem Travels.decide {it : Itinerary α} {res : Except ProviderError α} (h : Travels c it b ls res b') :
    Decide ls res := by
  induction it generalizing b ls res b' with
  | stop res' =>
    obtain ⟨rfl, _⟩ := h
    exact decide_nil
  | go e next ih => exact Decide.chain h Sent.decide fun later => ih _ later

theorem not_mutates_of_purpose {e : Errand} {l : Letter} (h : ¬ e.Mutates)
    (purpose : l.purpose = .errand e) : ¬ l.Mutates := by
  rintro ⟨d, purpose', mutates⟩
  cases purpose.symm.trans purpose'
  exact h mutates

theorem Authorized.unchanging {res : Except ProviderError String} (h : Authorized c b ls res b') :
    ∀ l ∈ ls, ¬ l.Mutates := by
  rintro l mem ⟨e, purpose, _⟩
  cases (h.forall_mem l mem).1.symm.trans purpose

theorem Credentialed.unchanging {s : Service} {res : Except ProviderError String}
    (h : Credentialed c s b ls res b') : ∀ l ∈ ls, ¬ l.Mutates := by
  cases s with
  | main => exact Authorized.unchanging h
  | database appId addonId =>
    exact h.forall_mem Authorized.unchanging fun posted l mem =>
      not_mutates_of_purpose id (posted.2.forall_mem l mem).1

theorem Sent.unchanging {e : Errand} {res : Except ProviderError String} (h : Sent c e b ls res b')
    (lookup : ¬ e.Mutates) : ∀ l ∈ ls, ¬ l.Mutates :=
  h.forall_mem Credentialed.unchanging fun posted l mem =>
    not_mutates_of_purpose lookup (posted.2.forall_mem l mem).1

theorem Travels.unchanging {it : Itinerary α} {res : Except ProviderError α}
    (h : Travels c it b ls res b') (harmless : it.Harmless) : ∀ l ∈ ls, ¬ l.Mutates := by
  induction it generalizing b ls res b' with
  | stop res' =>
    obtain ⟨rfl, _⟩ := h
    exact fun _ => nofun
  | go e next ih =>
    cases h with
    | failed sent => exact Sent.unchanging sent harmless.1
    | went sent later =>
      exact fun l mem => (List.mem_append.mp mem).elim (Sent.unchanging sent harmless.1 l)
        (ih _ later (harmless.2 _) l)

theorem Authorized.finds {token : String} (h : Authorized c b ls (.ok token) b') :
    ∀ l ∈ ls, ∃ v, l.Finds v := by
  generalize eq : Except.ok token = res at h
  cases h with
  | kept => exact fun _ => nofun
  | exchanged delivers =>
    subst eq
    obtain ⟨q, answer, rfl, told⟩ := delivers.exists_of_ok
    let l : Letter := ⟨.exchange, q, answer⟩
    exact List.forall_mem_singleton.mpr ⟨token, bearerOf_eq_ok_iff (l := l).mp told⟩

/-- All that is sent for a token that is got has found something. -/
theorem Credentialed.search {s : Service} {key : String} (h : Credentialed c s b ls (.ok key) b') :
    Search ls := by
  have finds : ∀ l ∈ ls, ∃ v, l.Finds v := by
    cases s with
    | main => exact Authorized.finds h
    | database appId addonId =>
      cases h with
      | went authorized posted =>
        obtain ⟨q, answer, rfl, told⟩ := posted.2.exists_of_ok
        refine fun l mem => (List.mem_append.mp mem).elim (Authorized.finds authorized l) fun own => ?_
        obtain rfl := List.mem_singleton.mp own
        exact ⟨key, read_eq_ok_iff.mp told⟩
  exact fun l mem => ⟨Credentialed.unchanging h l mem, finds l mem⟩

/-- The letter of an errand comes behind those for its token, if it is sent. -/
theorem Sent.cases {e : Errand} {res : Except ProviderError String} (h : Sent c e b ls res b') :
    (∀ l ∈ ls, ¬ l.Mutates) ∨ ∃ us l, ls = us ++ [l] ∧ Search us ∧ l.purpose = .errand e := by
  cases h with
  | failed credentialed => exact .inl (Credentialed.unchanging credentialed)
  | went credentialed posted =>
    obtain ⟨_, delivers⟩ := posted
    cases delivers with
    | unsent =>
      rw [List.append_nil]
      exact .inl (Credentialed.unchanging credentialed)
    | sent answer => exact .inr ⟨_, _, rfl, Credentialed.search credentialed, rfl⟩

theorem Travels.eq_nil_of_ended {it : Itinerary α} {res : Except ProviderError α}
    (h : Travels c it b ls res b') (ended : it.Ended) : ls = [] := by
  cases it with
  | stop res' => exact h.1
  | go e next => cases ended

/-- Nothing but the letters of the errand is sent when it is the last one. -/
theorem Travels.sent_of_ended {e : Errand} {next : String → Itinerary α} {res : Except ProviderError α}
    (h : Travels c (.go e next) b ls res b') (last : ∀ text, (next text).Ended) :
    ∃ res' b₁, Sent c e b ls res' b₁ := by
  cases h with
  | failed sent => exact ⟨_, _, sent⟩
  | went sent later =>
    obtain rfl := Travels.eq_nil_of_ended later (last _)
    rw [List.append_nil]
    exact ⟨_, _, sent⟩

/-- On a careful itinerary the lookups warrant the change. -/
theorem Travels.order {it : Itinerary α} {res : Except ProviderError α} (h : Travels c it b ls res b')
    (careful : it.Careful W found) (search : Search us) (told : Tell us found) : Order W (us ++ ls) := by
  induction it generalizing us found b ls res b' with
  | stop res' =>
    obtain ⟨rfl, _⟩ := h
    exact search.order_append fun _ => nofun
  | go e next ih =>
    rcases careful with ⟨_, warranted, last⟩ | ⟨lookup, tells⟩
    · obtain ⟨_, _, sent⟩ := Travels.sent_of_ended h last
      rcases Sent.cases sent with unchanging | ⟨vs, l, rfl, search', purpose⟩
      · exact search.order_append unchanging
      · rw [← List.append_assoc]
        exact (search.append search').order told.append purpose warranted
    · cases h with
      | failed sent => exact search.order_append (Sent.unchanging sent lookup)
      | went sent later =>
        rcases tells _ with harmless | ⟨v, tells, careful⟩
        · exact search.order_append fun l mem => (List.mem_append.mp mem).elim
            (Sent.unchanging sent lookup l) (Travels.unchanging later harmless l)
        obtain ⟨vs, key, q, r, rfl, credentialed, success, rfl⟩ := Sent.answered sent
        let own : Letter := ⟨.errand e, q, some r⟩
        have finds : own.Finds v := ⟨r, rfl, success, tells⟩
        have unchanging : ¬ own.Mutates := not_mutates_of_purpose lookup rfl
        have search' : Search (us ++ (vs ++ [own])) := search.append
          ((Credentialed.search credentialed).append (List.forall_mem_singleton.mpr ⟨unchanging, v, finds⟩))
        have mem : own ∈ us ++ (vs ++ [own]) :=
          List.mem_append_right us (List.mem_append_right vs List.mem_cons_self)
        rw [← List.append_assoc]
        exact ih _ later careful search' (List.forall_mem_cons.mpr ⟨⟨own, mem, rfl, finds⟩, told.append⟩)

/-- Whether a request changes anything can be seen from what it is for. -/
theorem mutates_iff_of_drawn {l : Letter} (h : l.Drawn c) : l.request.Mutates ↔ l.Mutates := by
  unfold Letter.Drawn at h
  unfold Letter.Mutates Request.Mutates
  cases purpose : l.purpose with
  | exchange =>
    rw [purpose] at h
    obtain ⟨method, _, body⟩ := same_of_request? h
    rw [method, body]
    exact ⟨nofun, nofun⟩
  | errand e =>
    rw [purpose] at h
    obtain ⟨token, drawn⟩ := h
    obtain ⟨method, _, body⟩ := same_of_request? drawn
    rw [method, body]
    exact ⟨fun mutates => ⟨e, rfl, mutates⟩, fun ⟨_, same, mutates⟩ => by cases same; exact mutates⟩

/-- Only an empty answer has an empty message. -/
theorem eq_empty_of_faultMessage {text : String} (h : Wire.faultMessage text = "") : text = "" := by
  unfold Wire.faultMessage at h
  split at h
  next => exact h
  next =>
    split at h
    next nonempty =>
      rw [h] at nonempty
      cases nonempty
    next =>
      split at h
      next => exact h
      next => exact absurd h (Json.render_ne_empty _)

/-- Before an operation changes anything it has found all that it has looked for, what it changes is what
it is for, and nothing is sent after that. It succeeds only if all its requests do, and one that does not is
the last one and says how it fails. -/
structure Deliberate (c : Client) (call : ProviderCall) (ls : List Letter)
    (res : Except ProviderError call.Result) : Prop where
  drawn : ∀ l ∈ ls, l.Drawn c
  changes : ∀ before l after, ls = before ++ l :: after → l.request.Mutates →
    after = [] ∧ (∀ k ∈ before, ¬ k.request.Mutates ∧ ∃ v, k.Finds v) ∧
      ∃ e found, l.purpose = .errand e ∧ Tell before found ∧ call.Warrants e found
  succeeds : ∀ a, res = .ok a → ∀ l ∈ ls, l.Succeeds
  unanswered : ∀ before l after, ls = before ++ l :: after → l.answer = none →
    after = [] ∧ res = .error .transport
  notFound : ∀ before l after r, ls = before ++ l :: after → l.answer = some r → r.status = 404 →
    after = [] ∧ res = .error (.notFound l.purpose.what)
  refused : ∀ before l after r, ls = before ++ l :: after → l.answer = some r → r.isSuccess = false →
    r.status ≠ 404 → after = [] ∧ ∃ message, res = .error (.api r.status message) ∧
      (message = "" → r.text = "")

/-- With a bearer token the letter of an errand to the main service is the only one. -/
theorem sent_of_main {e : Errand} {token : String} {q : Request} (main : e.form.service = .main)
    (drawn : (c.draft e token).request? = some q) (answer : Option Response) :
    Sent c e (some token) [⟨.errand e, q, answer⟩] (outcome e.form.what answer) (some token) := by
  have credentialed : Credentialed c e.form.service (some token) [] (.ok token) (some token) := by
    rw [main]
    exact .kept token
  exact .went credentialed ⟨rfl, .sent answer drawn⟩

theorem travels_fetch_bind {β : Type} {e : Errand} {decode : Decoder α} {f : α → Itinerary β}
    {text : String} {a : α} {b₁ : Option String} {ls' : List Letter} {res : Except ProviderError β}
    (sent : Sent c e b ls (.ok text) b₁) (read : (Json.read text).bind decode = some a)
    (later : Travels c (f a) b₁ ls' res b') :
    Travels c ((Itinerary.fetch e decode).bind f) b (ls ++ ls') res b' := by
  refine .went sent ?_
  change Travels c ((Itinerary.stop (reading e.form.what decode text)).bind f) b₁ ls' res b'
  rw [reading_eq_ok_iff.mpr read]
  exact later

/-- A database that is asked for with a name that is taken. -/
def duplicate : Database :=
  { Database.blank with name := "mydb", type := some .postgresql, plan := "postgresql-ng-starter-512" }

/-- A plan is looked up and found, and then the creation is refused. -/
theorem exists_runs_duplicate : ∃ h, h.length = 2 ∧
    (novice.perform (.createDatabase duplicate)).Runs (some "bearer-1") h
      (.error (.api 422 "\x7b\"name\":[\"taken\"]\x7d")) (some "bearer-1") := by
  let lookup : Errand := .plans "postgresql-ng" duplicate.plan
  let creation : Errand := .creation "postgresql-ng" "plan-1" duplicate
  have findable : (novice.draft lookup "bearer-1").request?.isSome = true := by decide +kernel
  have creatable : (novice.draft creation "bearer-1").request?.isSome = true := by decide +kernel
  obtain ⟨q₁, looking⟩ := Option.isSome_iff_exists.mp findable
  obtain ⟨q₂, creating⟩ := Option.isSome_iff_exists.mp creatable
  let listed : Response :=
    ⟨200, "\x7b\"plans\":[\x7b\"id\":\"plan-1\",\"name\":\"postgresql-ng-starter-512\"\x7d]\x7d"⟩
  let taken : Response := ⟨422, "\x7b\"errors\":\x7b\"name\":[\"taken\"]\x7d\x7d"⟩
  have named : (Json.read listed.text).bind Wire.plans = some [("plan-1", duplicate.plan)] := by
    decide +kernel
  have message : Wire.faultMessage taken.text = "\x7b\"name\":[\"taken\"]\x7d" := by decide +kernel
  have looks : Sent novice lookup (some "bearer-1") [⟨.errand lookup, q₁, some listed⟩] (.ok listed.text)
      (some "bearer-1") := sent_of_main rfl looking (some listed)
  have creates : Sent novice creation (some "bearer-1") [⟨.errand creation, q₂, some taken⟩]
      (.error (.api 422 (Wire.faultMessage taken.text))) (some "bearer-1") :=
    sent_of_main rfl creating (some taken)
  refine ⟨_, rfl, (posts_perform _ _ _ _ _).mpr
    ⟨[⟨.errand lookup, q₁, some listed⟩] ++ [⟨.errand creation, q₂, some taken⟩], rfl, ?_⟩⟩
  change Travels novice (((Itinerary.fetch lookup Wire.plans).bind _).bind _) _ _ _ _
  rw [Itinerary.bind_assoc, ← message]
  refine travels_fetch_bind looks named ?_
  exact Mail.Chain.failed creates

/-- Whatever is answered to the requests of an operation, it looks up what it needs before it changes
anything, and its last request decides how it ends. -/
theorem deliberate_of_runs {call : ProviderCall} {h : List (Exchange http)}
    {res : Except ProviderError call.Result} (runs : (c.perform call).Runs b h res b') :
    ∃ ls, h = ls.map Letter.plain ∧ Travels c (Itinerary.of call) b ls res b' ∧
      c.Deliberate call ls res := by
  obtain ⟨ls, rfl, travels⟩ := (posts_perform call _ _ _ _).mp runs
  have drawn := Travels.drawn travels
  have decides := Travels.decide travels
  have order : Order _ ([] ++ ls) :=
    Travels.order travels (Itinerary.careful_of call) (fun _ => nofun) fun _ => nofun
  have split_drawn {before after : List Letter} {l : Letter} (split : ls = before ++ l :: after) :
      l.Drawn c := drawn l (split ▸ List.mem_append_right before List.mem_cons_self)
  refine ⟨ls, rfl, travels, drawn, fun before l after split mutates => ?_, ?_, ?_, ?_, ?_⟩
  · obtain ⟨e, purpose, changes⟩ := (mutates_iff_of_drawn (split_drawn split)).mp mutates
    obtain ⟨rfl, search, found, told, warranted⟩ := order before l after e split purpose changes
    refine ⟨rfl, fun k mem => ?_, e, found, purpose, told, warranted⟩
    have known := drawn k (split ▸ List.mem_append_left [l] mem)
    rw [mutates_iff_of_drawn known]
    exact search k mem
  · rintro a rfl
    exact decides.succeeds
  · intro before l after split unanswered
    have fails : ¬ l.Succeeds := by
      rintro ⟨r, answered, _⟩
      cases unanswered.symm.trans answered
    obtain ⟨ended, failed⟩ := decides before l after split fails
    rw [failed, Letter.failure, unanswered]
    exact ⟨ended, rfl⟩
  · intro before l after r split answered status
    obtain ⟨ended, failed⟩ := decides.refused split answered (by simp [Response.isSuccess, status])
    rw [failed, refusal, if_pos status]
    exact ⟨ended, rfl⟩
  · intro before l after r split answered fails status
    obtain ⟨ended, failed⟩ := decides.refused split answered fails
    rw [failed, refusal, if_neg status]
    exact ⟨ended, _, rfl, eq_empty_of_faultMessage⟩

theorem deliberate_of_runs_duplicate : ∃ h ls, h.length = 2 ∧
    (novice.perform (.createDatabase duplicate)).Runs (some "bearer-1") h
      (.error (.api 422 "\x7b\"name\":[\"taken\"]\x7d")) (some "bearer-1") ∧
    h = ls.map Letter.plain ∧ novice.Deliberate (.createDatabase duplicate) ls
      (.error (.api 422 "\x7b\"name\":[\"taken\"]\x7d")) := by
  obtain ⟨h, length, runs⟩ := exists_runs_duplicate
  obtain ⟨ls, plain, _, deliberate⟩ := deliberate_of_runs runs
  exact ⟨h, ls, length, runs, plain, deliberate⟩

end Client

end DatabaseOperator
