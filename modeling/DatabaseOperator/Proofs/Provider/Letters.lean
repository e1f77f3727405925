import DatabaseOperator.Proofs.Provider.Itinerary

namespace DatabaseOperator

inductive Purpose
  | exchange
  | errand (e : Errand)

/-- A request with what it is for and what was answered. -/
structure Letter where
  purpose : Purpose
  request : Request
  answer : Option Response

/-- The request alone with its answer. -/
def Letter.plain (l : Letter) : Exchange http :=
  ⟨l.request, l.answer⟩

/-- What work can send and how it ends, from one bearer token to another. -/
abbrev Mail (α : Type) : Type :=
  Option String → List Letter → Except ProviderError α → Option String → Prop

/-- Work in two parts. The second one begins with what the first one ends with, unless that fails. -/
inductive Mail.Chain {α β : Type} (R : Mail α) (S : α → Mail β) : Mail β
  | failed {b b' : Option String} {ls : List Letter} {e : ProviderError} : R b ls (.error e) b' →
      Chain R S b ls (.error e) b'
  | went {b b₁ b' : Option String} {ls ls' : List Letter} {a : α} {res : Except ProviderError β} :
      R b ls (.ok a) b₁ → S a b₁ ls' res b' → Chain R S b (ls ++ ls') res b'

/-- What holds of each letter of both parts holds of each letter. -/
theorem Mail.Chain.forall_mem {α β : Type} {R : Mail α} {S : α → Mail β} {P : Letter → Prop}
    {b b' : Option String} {ls : List Letter} {res : Except ProviderError β}
    (h : Mail.Chain R S b ls res b') (first : ∀ {b ls res b'}, R b ls res b' → ∀ l ∈ ls, P l)
    (second : ∀ {a b ls res b'}, S a b ls res b' → ∀ l ∈ ls, P l) : ∀ l ∈ ls, P l := by
  cases h with
  | failed sent => exact first sent
  | went sent sent' => exact fun l mem => (List.mem_append.mp mem).elim (first sent l) (second sent' l)

/-- The work makes exactly the requests of these letters. -/
def HttpTask.Posts {α : Type} (x : HttpTask α) (R : Mail α) : Prop :=
  ∀ b h res b', x.Runs b h res b' ↔ ∃ ls, h = ls.map Letter.plain ∧ R b ls res b'

theorem HttpTask.Posts.bind {α β : Type} {x : HttpTask α} {f : α → HttpTask β} {R : Mail α}
    {S : α → Mail β} (first : x.Posts R) (second : ∀ a, (f a).Posts (S a)) :
    (x >>= f).Posts (.Chain R S) := by
  intro b h res b'
  rw [HttpTask.runs_bind_iff]
  constructor
  · rintro (⟨e, rfl, runs⟩ | ⟨h₁, h₂, a, b₁, rfl, runs, rest⟩)
    · obtain ⟨ls, rfl, sent⟩ := (first _ _ _ _).mp runs
      exact ⟨ls, rfl, .failed sent⟩
    · obtain ⟨ls, rfl, sent⟩ := (first _ _ _ _).mp runs
      obtain ⟨ls', rfl, sent'⟩ := (second a _ _ _ _).mp rest
      exact ⟨ls ++ ls', List.map_append.symm, .went sent sent'⟩
  · rintro ⟨ls, rfl, sent⟩
    cases sent with
    | failed sent => exact .inl ⟨_, rfl, (first _ _ _ _).mpr ⟨ls, rfl, sent⟩⟩
    | went sent sent' =>
      exact .inr ⟨_, _, _, _, List.map_append, (first _ _ _ _).mpr ⟨_, rfl, sent⟩,
        (second _ _ _ _ _).mpr ⟨_, rfl, sent'⟩⟩

namespace Client

open HttpTask

variable {c : Client} {α : Type}

/-- A request is as its draft says, but for the address. -/
theorem same_of_request? {d : Draft} {q : Request} (h : d.request? = some q) :
    q.method = d.method ∧ q.authorization = d.authorization ∧ q.body = d.body := by
  unfold Draft.request? at h
  obtain ⟨url, _, h⟩ := Option.bind_eq_some_iff.mp h
  simp only at h
  split at h
  next => cases h; exact ⟨rfl, rfl, rfl⟩
  next => cases h

theorem outcome_eq_ok_iff {what text : String} {answer : Option Response} :
    outcome what answer = .ok text ↔ ∃ r, answer = some r ∧ r.isSuccess = true ∧ r.text = text := by
  cases answer with
  | none => simp [outcome]
  | some r =>
    by_cases success : r.isSuccess = true
    · simp [outcome, success]
    · simp [outcome, success]

theorem reading_eq_ok_iff {what text : String} {decode : Decoder α} {a : α} :
    reading what decode text = .ok a ↔ (Json.read text).bind decode = some a := by
  unfold reading
  cases (Json.read text).bind decode <;> simp

/-- What a successful and readable answer is. -/
theorem read_eq_ok_iff {what : String} {decode : Decoder α} {answer : Option Response} {a : α} :
    (outcome what answer).bind (reading what decode) = .ok a ↔
      ∃ r, answer = some r ∧ r.isSuccess = true ∧ (Json.read r.text).bind decode = some a := by
  constructor
  · intro h
    cases told : outcome what answer with
    | error e => rw [told] at h; cases h
    | ok text =>
      rw [told] at h
      obtain ⟨r, rfl, success, rfl⟩ := outcome_eq_ok_iff.mp told
      exact ⟨r, rfl, success, reading_eq_ok_iff.mp h⟩
  · rintro ⟨r, rfl, success, read⟩
    rw [outcome_eq_ok_iff.mpr ⟨r, rfl, success, rfl⟩]
    exact reading_eq_ok_iff.mpr read

/-- One letter is sent, or none when its draft cannot be, and its answer decides the result. -/
inductive Delivers (p : Purpose) (d : Draft) (f : Option Response → Except ProviderError α) :
    List Letter → Except ProviderError α → Prop
  | unsent : d.request? = none → Delivers p d f [] (.error .transport)
  | sent {q : Request} (answer : Option Response) : d.request? = some q →
      Delivers p d f [⟨p, q, answer⟩] (f answer)

theorem delivers_ok {p : Purpose} {d : Draft} {f : Option Response → Except ProviderError α} {q : Request}
    {answer : Option Response} {a : α} (sendable : d.request? = some q) (told : f answer = .ok a) :
    Delivers p d f [⟨p, q, answer⟩] (.ok a) :=
  told ▸ .sent answer sendable

/-- Only the answer to a letter can be a result. -/
theorem Delivers.exists_of_ok {p : Purpose} {d : Draft} {f : Option Response → Except ProviderError α}
    {a : α} (h : Delivers p d f ls (.ok a)) : ∃ q answer, ls = [⟨p, q, answer⟩] ∧ f answer = .ok a := by
  generalize eq : Except.ok a = res at h
  cases h with
  | unsent => cases eq
  | sent answer =>
    rw [← eq]
    exact ⟨_, answer, rfl, eq.symm⟩

theorem Delivers.forall_mem {p : Purpose} {d : Draft} {f : Option Response → Except ProviderError α}
    {res : Except ProviderError α} (h : Delivers p d f ls res) :
    ∀ l ∈ ls, l.purpose = p ∧ d.request? = some l.request := by
  cases h with
  | unsent => exact fun _ => nofun
  | sent answer drawn => exact List.forall_mem_singleton.mpr ⟨rfl, drawn⟩

theorem sends_iff_delivers (p : Purpose) {d : Draft} {f : Option Response → Except ProviderError α}
    {h : List (Exchange http)} {res : Except ProviderError α} :
    Sends d f h res ↔ ∃ ls, h = ls.map Letter.plain ∧ Delivers p d f ls res := by
  constructor
  · rintro (⟨none, rfl, rfl⟩ | ⟨q, answer, some, rfl, rfl⟩)
    · exact ⟨[], rfl, .unsent none⟩
    · exact ⟨[⟨p, q, answer⟩], rfl, .sent answer some⟩
  · rintro ⟨ls, rfl, delivers⟩
    cases delivers with
    | unsent none => exact .inl ⟨none, rfl, rfl⟩
    | sent answer some => exact .inr ⟨_, answer, some, rfl, rfl⟩

/-- A letter that does not touch the bearer token. -/
def Posted (p : Purpose) (d : Draft) (f : Option Response → Except ProviderError α) : Mail α :=
  fun b ls res b' => b' = b ∧ Delivers p d f ls res

theorem posts_of_sends (p : Purpose) {x : HttpTask α} {d : Draft}
    {f : Option Response → Except ProviderError α}
    (sends : ∀ {b h res b'}, x.Runs b h res b' ↔ b' = b ∧ Sends d f h res) :
    x.Posts (Posted p d f) := by
  intro b h res b'
  rw [sends, sends_iff_delivers p]
  constructor
  · rintro ⟨rfl, ls, rfl, delivers⟩
    exact ⟨ls, rfl, rfl, delivers⟩
  · rintro ⟨ls, rfl, rfl, delivers⟩
    exact ⟨rfl, ls, rfl, delivers⟩

/-- The bearer token is the one that there is, or the API token is exchanged for one. -/
inductive Authorized (c : Client) : Mail String
  | kept (token : String) : Authorized c (some token) [] (.ok token) (some token)
  | exchanged {ls : List Letter} {res : Except ProviderError String} :
      Delivers .exchange c.exchangeDraft bearerOf ls res → Authorized c none ls res res.toOption

theorem posts_bearer : (bearer c).Posts (Authorized c) := by
  intro b h res b'
  cases b with
  | none =>
    rw [runs_bearer_iff, sends_iff_delivers .exchange]
    constructor
    · rintro ⟨rfl, ls, rfl, delivers⟩
      exact ⟨ls, rfl, .exchanged delivers⟩
    · rintro ⟨ls, rfl, authorized⟩
      cases authorized with
      | exchanged delivers => exact ⟨rfl, ls, rfl, delivers⟩
  | some token =>
    have runs : (bearer c).Runs (some token) h res b' ↔ h = [] ∧ res = .ok token ∧ b' = some token :=
      runs_pure_iff
    rw [runs]
    constructor
    · rintro ⟨rfl, rfl, rfl⟩
      exact ⟨[], rfl, .kept token⟩
    · rintro ⟨ls, rfl, authorized⟩
      cases authorized with
      | kept => exact ⟨rfl, rfl, rfl⟩

/-- What is sent for the token of an errand. -/
def Credentialed (c : Client) : Service → Mail String
  | .main => Authorized c
  | .database appId addonId =>
    .Chain (Authorized c) fun token =>
      let e : Errand := .addonToken appId addonId
      Posted (.errand e) (c.draft e token) fun answer =>
        (outcome e.form.what answer).bind (reading e.form.what Wire.addonToken)

theorem posts_credential (s : Service) : (c.credential s).Posts (Credentialed c s) := by
  cases s with
  | main => exact posts_bearer
  | database appId addonId => exact posts_bearer.bind fun token => posts_of_sends _ runs_fetch_iff

/-- What is sent for an errand. -/
def Sent (c : Client) (e : Errand) : Mail String :=
  .Chain (Credentialed c e.form.service) fun token =>
    Posted (.errand e) (c.draft e token) (outcome e.form.what)

theorem posts_run (e : Errand) : (c.run e).Posts (Sent c e) :=
  (posts_credential e.form.service).bind fun _ => posts_of_sends _ runs_send_iff

/-- An errand that is run ends with the text of the answer to its own letter. -/
theorem Sent.answered {e : Errand} {b b' : Option String} {ls : List Letter} {text : String}
    (h : Sent c e b ls (.ok text) b') : ∃ us key q r, ls = us ++ [⟨.errand e, q, some r⟩] ∧
      Credentialed c e.form.service b us (.ok key) b' ∧ r.isSuccess = true ∧ r.text = text := by
  cases h with
  | went credentialed posted =>
    obtain ⟨rfl, delivers⟩ := posted
    obtain ⟨q, answer, rfl, told⟩ := delivers.exists_of_ok
    obtain ⟨r, rfl, success, same⟩ := outcome_eq_ok_iff.mp told
    exact ⟨_, _, q, r, rfl, credentialed, success, same⟩

/-- What is sent on an itinerary. -/
def Travels (c : Client) : Itinerary α → Mail α
  | .stop res' => fun b ls res b' => ls = [] ∧ res = res' ∧ b' = b
  | .go e next => .Chain (Sent c e) fun text => Travels c (next text)

theorem posts_itinerary (it : Itinerary α) : (it.run c).Posts (Travels c it) := by
  induction it with
  | stop res' =>
    intro b h res b'
    have runs : ((Itinerary.stop res').run c).Runs b h res b' ↔ h = [] ∧ res = res' ∧ b' = b := by
      cases res' with
      | ok a => exact runs_pure_iff
      | error e => exact runs_throw_iff
    rw [runs]
    constructor
    · rintro ⟨rfl, rfl, rfl⟩
      exact ⟨[], rfl, rfl, rfl, rfl⟩
    · rintro ⟨ls, rfl, rfl, rfl, rfl⟩
      exact ⟨rfl, rfl, rfl⟩
  | go e next ih => exact (posts_run e).bind ih

/-- What an operation can send, letter by letter. -/
theorem posts_perform (call : ProviderCall) :
    (c.perform call).Posts (Travels c (Itinerary.of call)) := by
  rw [perform_eq_run]
  exact posts_itinerary _

/-- A result of two itineraries in a row comes from a result of the first one. -/
theorem Travels.split_of_ok {β : Type} {x : Itinerary α} {f : α → Itinerary β} {b b' : Option String}
    {ls : List Letter} {s : β} (h : Travels c (x.bind f) b ls (.ok s) b') :
    ∃ us vs a b₁, ls = us ++ vs ∧ Travels c x b us (.ok a) b₁ ∧ Travels c (f a) b₁ vs (.ok s) b' := by
  induction x generalizing b ls with
  | stop res =>
    cases res with
    | error e =>
      obtain ⟨_, other, _⟩ := h
      cases other
    | ok a => exact ⟨[], ls, a, b, rfl, ⟨rfl, rfl, rfl⟩, h⟩
  | go e next ih =>
    cases h with
    | @went _ _ _ ts _ text _ sent later =>
      obtain ⟨us, vs, a, b₂, rfl, first, second⟩ := ih text later
      exact ⟨ts ++ us, vs, a, b₂, (List.append_assoc ..).symm, .went sent first, second⟩

/-- What an errand is read for stands in the answer to its own letter. -/
theorem Travels.fetched {e : Errand} {decode : Decoder α} {b b' : Option String} {ls : List Letter} {a : α}
    (h : Travels c (Itinerary.fetch e decode) b ls (.ok a) b') : ∃ l ∈ ls, l.purpose = .errand e ∧
      ∃ r, l.answer = some r ∧ r.isSuccess = true ∧ (Json.read r.text).bind decode = some a := by
  cases h with
  | went sent later =>
    obtain ⟨rfl, read, _⟩ := later
    obtain ⟨us, key, q, r, rfl, _, success, rfl⟩ := Sent.answered sent
    rw [List.append_nil]
    exact ⟨_, List.mem_append_right us List.mem_cons_self, rfl, r, rfl, success,
      reading_eq_ok_iff.mp read.symm⟩

/-- A client for the region of the sample. -/
def novice : Client :=
  ⟨"tk-us-1", .ofRegion "osc-fr1"⟩

/-- The client is given the token of an addon when it has the bearer token. -/
theorem exists_keyed {b b' : Option String} {us : List Letter}
    (authorized : Authorized novice b us (.ok "bearer-1") b') :
    ∃ l, Credentialed novice (.database "db-1" "addon-1") b (us ++ [l]) (.ok "key-1") b' := by
  let fetch : Errand := .addonToken "db-1" "addon-1"
  have present : (novice.draft fetch "bearer-1").request?.isSome = true := by decide +kernel
  obtain ⟨q, fetching⟩ := Option.isSome_iff_exists.mp present
  let opened : Response := ⟨200, "\x7b\"addon\":\x7b\"token\":\"key-1\"\x7d\x7d"⟩
  have opens : (outcome fetch.form.what (some opened)).bind (reading fetch.form.what Wire.addonToken) =
      .ok "key-1" := read_eq_ok_iff.mpr ⟨opened, rfl, rfl, by decide +kernel⟩
  exact ⟨⟨.errand fetch, q, some opened⟩, .went authorized ⟨rfl, delivers_ok fetching opens⟩⟩

end Client

end DatabaseOperator
