import DatabaseOperator.Proofs.Provider.Letters
import DatabaseOperator.Proofs.Text.Base64

namespace DatabaseOperator

/-- Two ways to take an element out of one list. -/
theorem cases_of_splits {α : Type} {us vs before after : List α} {x y : α}
    (h : us ++ x :: vs = before ++ y :: after) :
    (∃ m, us = before ++ y :: m) ∨ (before = us ∧ y = x ∧ after = vs) ∨
      ∃ m, before = us ++ x :: m ∧ vs = m ++ y :: after := by
  rcases List.append_eq_append_iff.mp h with ⟨m, rfl, rest⟩ | ⟨m, rfl, rest⟩
  · cases m with
    | nil =>
      obtain ⟨rfl, rfl⟩ := List.cons.inj rest
      exact .inr (.inl ⟨List.append_nil us, rfl, rfl⟩)
    | cons z m =>
      obtain ⟨rfl, rfl⟩ := List.cons.inj rest
      exact .inr (.inr ⟨m, rfl, rfl⟩)
  · cases m with
    | nil =>
      obtain ⟨rfl, rfl⟩ := List.cons.inj rest
      exact .inr (.inl ⟨(List.append_nil before).symm, rfl, rfl⟩)
    | cons z m =>
      obtain ⟨rfl, _⟩ := List.cons.inj rest
      exact .inl ⟨m, rfl⟩

namespace Letter

/-- The exchange was answered with this bearer token. -/
def Grants (token : String) (l : Letter) : Prop :=
  token ≠ "" ∧ ∃ r, l.answer = some r ∧ r.isSuccess = true ∧
    (Json.read r.text).bind Wire.token = some token

/-- An exchange that was not granted a bearer token. -/
def Denied (l : Letter) : Prop :=
  l.purpose = .exchange ∧ ∀ token, ¬ l.Grants token

/-- The request for the token of an addon was answered with this one. -/
def Opens (token : String) (l : Letter) : Prop :=
  ∃ r, l.answer = some r ∧ r.isSuccess = true ∧ (Json.read r.text).bind Wire.addonToken = some token

/-- The letter is sent for an errand, and if that is one to the main service, with this bearer token. -/
def Carries (c : Client) (token : String) (l : Letter) : Prop :=
  ∃ e key, l.purpose = .errand e ∧ (c.draft e key).request? = some l.request ∧
    (e.form.service = .main → key = token)

/-- The request is the one that the letter is sent for. -/
def Drawn (c : Client) (l : Letter) : Prop :=
  match l.purpose with
  | .exchange => c.exchangeDraft.request? = some l.request
  | .errand e => ∃ token, (c.draft e token).request? = some l.request

/-- A request to the database service carries the token that the letter right before it has fetched for the
same addon. -/
def Keyed (ls : List Letter) : Prop :=
  ∀ before l after e appId addonId, ls = before ++ l :: after → l.purpose = .errand e →
    e.form.service = .database appId addonId → ∃ early k token, before = early ++ [k] ∧
      k.purpose = .errand (.addonToken appId addonId) ∧ k.Opens token ∧
      l.request.authorization = Client.bearerAuthorization token

/-- The letter of a client with another API token. -/
def resigned (token : String) (l : Letter) : Letter :=
  match l.purpose with
  | .exchange => { l with request.authorization := Client.basicAuthorization token }
  | .errand _ => l

end Letter

namespace Client

variable {c : Client} {α β : Type} {b b' : Option String} {ls ls' : List Letter} {l : Letter}

theorem bearerOf_eq_ok_iff {token : String} :
    bearerOf l.answer = .ok token ↔ l.Grants token := by
  have read {found : String} :
      (outcome "token exchange" l.answer).bind (reading "token exchange" Wire.token) = .ok found ↔ _ :=
    read_eq_ok_iff
  unfold bearerOf
  constructor
  · intro h
    cases told : (outcome "token exchange" l.answer).bind (reading "token exchange" Wire.token) with
    | error e => rw [told] at h; cases h
    | ok found =>
      rw [told] at h
      simp only [Except.bind] at h
      split at h
      next => cases h
      next nonempty =>
        cases h
        exact ⟨by simpa using nonempty, read.mp told⟩
  · rintro ⟨nonempty, answered⟩
    rw [read.mpr answered]
    exact if_neg (by simpa using nonempty)

/-- How the bearer token comes about. -/
inductive Bearing (c : Client) {α : Type} : Mail α
  | silent {b : Option String} {res : Except ProviderError α} : Bearing c b [] res b
  | kept {token : String} {ls : List Letter} {res : Except ProviderError α} :
      (∀ l ∈ ls, l.Carries c token) → Bearing c (some token) ls res (some token)
  | refused {l : Letter} {e : ProviderError} : l.purpose = .exchange → (∀ token, ¬ l.Grants token) →
      Bearing c none [l] (.error e) none
  | granted {l : Letter} {token : String} {ls : List Letter} {res : Except ProviderError α} :
      l.purpose = .exchange → l.Grants token → (∀ k ∈ ls, k.Carries c token) →
      Bearing c none (l :: ls) res (some token)

theorem Bearing.of_error {e : ProviderError} (h : Bearing c b ls (.error e : Except _ α) b') :
    Bearing c b ls (.error e : Except _ β) b' := by
  cases h with
  | silent => exact .silent
  | kept carried => exact .kept carried
  | refused exchange refused => exact .refused exchange refused
  | granted exchange grants carried => exact .granted exchange grants carried

theorem Bearing.chain {R : Mail α} {S : α → Mail β} {res : Except ProviderError β}
    (h : Mail.Chain R S b ls res b')
    (first : ∀ {b ls res b'}, R b ls res b' → Bearing c b ls res b')
    (second : ∀ {b₀ us a b ls res b'}, R b₀ us (.ok a) b → S a b ls res b' → Bearing c b ls res b') :
    Bearing c b ls res b' := by
  cases h with
  | failed sent => exact (first sent).of_error
  | went sent sent' =>
    have append {token : String} {us vs : List Letter} (us_carry : ∀ l ∈ us, l.Carries c token)
        (vs_carry : ∀ l ∈ vs, l.Carries c token) : ∀ l ∈ us ++ vs, l.Carries c token :=
      fun l mem => (List.mem_append.mp mem).elim (us_carry l) (vs_carry l)
    have late := second sent sent'
    cases first sent with
    | silent => exact late
    | kept carried =>
      cases late with
      | silent =>
        rw [List.append_nil]
        exact .kept carried
      | kept carried' => exact .kept (append carried carried')
    | granted exchange grants carried =>
      cases late with
      | silent =>
        rw [List.append_nil]
        exact .granted exchange grants carried
      | kept carried' => exact .granted exchange grants (append carried carried')

theorem Authorized.bearing {res : Except ProviderError String} (h : Authorized c b ls res b') :
    Bearing c b ls res b' := by
  cases h with
  | kept token => exact .silent
  | exchanged delivers =>
    cases delivers with
    | unsent => exact .silent
    | @sent q answer _ =>
      let l : Letter := ⟨.exchange, q, answer⟩
      change Bearing c none [l] (bearerOf l.answer) (bearerOf l.answer).toOption
      cases told : bearerOf l.answer with
      | ok token => exact .granted rfl (bearerOf_eq_ok_iff.mp told) fun _ => nofun
      | error e =>
        refine .refused rfl fun token grants => ?_
        cases told.symm.trans (bearerOf_eq_ok_iff.mpr grants)

theorem Authorized.holds {token : String} (h : Authorized c b ls (.ok token) b') :
    b' = some token := by
  generalize eq : Except.ok token = res at h
  cases h with
  | kept => cases eq; rfl
  | exchanged =>
    rw [← eq]
    rfl

/-- A letter with the credentials that there are. -/
theorem Posted.bearing {e : Errand} {key token : String} {f : Option Response → Except ProviderError α}
    {res : Except ProviderError α} (h : Posted (.errand e) (c.draft e key) f (some token) ls res b')
    (held : e.form.service = .main → key = token) : Bearing c (some token) ls res b' := by
  obtain ⟨rfl, delivers⟩ := h
  cases delivers with
  | unsent => exact .silent
  | sent answer drawn =>
    exact .kept (List.forall_mem_singleton.mpr ⟨e, key, rfl, drawn, held⟩)

theorem Credentialed.bearing {s : Service} {res : Except ProviderError String}
    (h : Credentialed c s b ls res b') : Bearing c b ls res b' := by
  cases s with
  | main => exact Authorized.bearing h
  | database appId addonId =>
    refine Bearing.chain h Authorized.bearing fun authorized posted => ?_
    obtain rfl := authorized.holds
    exact posted.bearing fun _ => rfl

theorem Credentialed.holds {s : Service} {key : String} (h : Credentialed c s b ls (.ok key) b') :
    ∃ token, b' = some token ∧ (s = .main → key = token) := by
  cases s with
  | main => exact ⟨key, Authorized.holds h, fun _ => rfl⟩
  | database appId addonId =>
    cases h with
    | went authorized posted =>
      obtain rfl := authorized.holds
      obtain ⟨rfl, _⟩ := posted
      exact ⟨_, rfl, nofun⟩

theorem Sent.bearing {e : Errand} {res : Except ProviderError String} (h : Sent c e b ls res b') :
    Bearing c b ls res b' := by
  refine Bearing.chain h Credentialed.bearing fun credentialed posted => ?_
  obtain ⟨token, rfl, held⟩ := Credentialed.holds credentialed
  exact posted.bearing held

theorem Travels.bearing {it : Itinerary α} {res : Except ProviderError α}
    (h : Travels c it b ls res b') : Bearing c b ls res b' := by
  induction it generalizing b ls res b' with
  | stop res' =>
    obtain ⟨rfl, rfl, rfl⟩ := h
    exact .silent
  | go e next ih => exact Bearing.chain h Sent.bearing fun _ later => ih _ later

theorem drawn_of_delivers {e : Errand} {token : String} {f : Option Response → Except ProviderError α}
    {res : Except ProviderError α} (h : Delivers (.errand e) (c.draft e token) f ls res) :
    ∀ l ∈ ls, l.Drawn c := by
  intro l mem
  obtain ⟨purpose, drawn⟩ := h.forall_mem l mem
  rw [Letter.Drawn, purpose]
  exact ⟨token, drawn⟩

theorem Authorized.forall_mem {res : Except ProviderError String} (h : Authorized c b ls res b') :
    ∀ l ∈ ls, l.purpose = .exchange ∧ l.Drawn c := by
  cases h with
  | kept => exact fun _ => nofun
  | exchanged delivers =>
    intro l mem
    obtain ⟨purpose, drawn⟩ := delivers.forall_mem l mem
    refine ⟨purpose, ?_⟩
    rw [Letter.Drawn, purpose]
    exact drawn

theorem Credentialed.drawn {s : Service} {res : Except ProviderError String}
    (h : Credentialed c s b ls res b') : ∀ l ∈ ls, l.Drawn c := by
  cases s with
  | main => exact fun l mem => (Authorized.forall_mem h l mem).2
  | database appId addonId =>
    exact h.forall_mem (fun authorized l mem => (authorized.forall_mem l mem).2)
      fun posted => drawn_of_delivers posted.2

theorem Sent.drawn {e : Errand} {res : Except ProviderError String} (h : Sent c e b ls res b') :
    ∀ l ∈ ls, l.Drawn c :=
  h.forall_mem Credentialed.drawn fun posted => drawn_of_delivers posted.2

theorem Travels.drawn {it : Itinerary α} {res : Except ProviderError α}
    (h : Travels c it b ls res b') : ∀ l ∈ ls, l.Drawn c := by
  induction it generalizing b ls res b' with
  | stop res' =>
    obtain ⟨rfl, _⟩ := h
    exact fun _ => nofun
  | go e next ih => exact h.forall_mem Sent.drawn fun later => ih _ later

theorem keyed_of_main (main : ∀ l ∈ ls, ∀ e, l.purpose = .errand e → e.form.service = .main) :
    Letter.Keyed ls := by
  rintro before l after e appId addonId rfl purpose database
  have service := main l (List.mem_append_right before List.mem_cons_self) e purpose
  cases service.symm.trans database

theorem keyed_append (h : Letter.Keyed ls) (g : Letter.Keyed ls') : Letter.Keyed (ls ++ ls') := by
  intro before l after e appId addonId split purpose database
  rcases List.append_eq_append_iff.mp split with ⟨m, rfl, rest⟩ | ⟨m, rfl, rest⟩
  · obtain ⟨early, k, token, rfl, opens⟩ := g m l after e appId addonId rest purpose database
    exact ⟨ls ++ early, k, token, (List.append_assoc ..).symm, opens⟩
  · cases m with
    | nil =>
      obtain ⟨early, k, token, none, _⟩ := g [] l after e appId addonId rest.symm purpose database
      cases early <;> cases none
    | cons z m =>
      obtain ⟨rfl, _⟩ := List.cons.inj rest
      exact h before l m e appId addonId rfl purpose database

/-- What is sent for a token goes to the main service. -/
theorem Credentialed.main {s : Service} {res : Except ProviderError String}
    (h : Credentialed c s b ls res b') :
    ∀ l ∈ ls, ∀ e, l.purpose = .errand e → e.form.service = .main := by
  have exchange {b us res b'} (authorized : Authorized c b us res b') :
      ∀ l ∈ us, ∀ e, l.purpose = .errand e → e.form.service = .main := by
    intro l mem e purpose
    cases (authorized.forall_mem l mem).1.symm.trans purpose
  cases s with
  | main => exact exchange h
  | database appId addonId =>
    refine h.forall_mem exchange fun posted l mem e purpose => ?_
    cases (posted.2.forall_mem l mem).1.symm.trans purpose
    rfl

/-- The token of an addon is the answer to the last letter that is sent for it. -/
theorem Credentialed.exists_opens {appId addonId key : String}
    (h : Credentialed c (.database appId addonId) b ls (.ok key) b') :
    ∃ early k, ls = early ++ [k] ∧ k.purpose = .errand (.addonToken appId addonId) ∧ k.Opens key := by
  cases h with
  | went _ posted =>
    obtain ⟨q, answer, rfl, told⟩ := posted.2.exists_of_ok
    exact ⟨_, _, rfl, rfl, read_eq_ok_iff.mp told⟩

theorem Sent.keyed {e : Errand} {res : Except ProviderError String} (h : Sent c e b ls res b') :
    Letter.Keyed ls := by
  cases h with
  | failed credentialed => exact keyed_of_main (Credentialed.main credentialed)
  | @went _ _ _ us vs key _ credentialed posted =>
    obtain ⟨_, delivers⟩ := posted
    cases delivers with
    | unsent =>
      rw [List.append_nil]
      exact keyed_of_main (Credentialed.main credentialed)
    | @sent q answer drawn =>
      intro before l after d appId addonId split purpose database
      rcases cases_of_splits split with ⟨m, rfl⟩ | ⟨rfl, rfl, rfl⟩ | ⟨m, _, none⟩
      · have service := Credentialed.main credentialed l (List.mem_append_right before List.mem_cons_self)
          d purpose
        cases service.symm.trans database
      · cases purpose
        rw [database] at credentialed
        obtain ⟨early, k, rfl, fetched, opens⟩ := Credentialed.exists_opens credentialed
        exact ⟨early, k, key, rfl, fetched, opens, (same_of_request? drawn).2.1⟩
      · cases m <;> cases none

theorem Travels.keyed {it : Itinerary α} {res : Except ProviderError α}
    (h : Travels c it b ls res b') : Letter.Keyed ls := by
  induction it generalizing b ls res b' with
  | stop res' =>
    obtain ⟨rfl, _⟩ := h
    exact keyed_of_main fun _ => nofun
  | go e next ih =>
    cases h with
    | failed sent => exact Sent.keyed sent
    | went sent later => exact keyed_append (Sent.keyed sent) (ih _ later)

/-- Any API token can be sent. -/
theorem isHeaderValue_basicAuthorization (token : String) :
    isHeaderValue (basicAuthorization token) = true := by
  have named : isHeaderValue "Basic " = true := by decide
  have plain : isHeaderValue (String.ofList ('=' :: Base64.alphabet)) = true := by decide
  rw [isHeaderValue, List.all_eq_true] at named plain ⊢
  intro c mem
  rw [basicAuthorization, String.toList_append] at mem
  rcases List.mem_append.mp mem with start | encoded
  · exact named c start
  · rw [String.toList_ofList] at plain encoded
    exact plain c (Base64.forall_mem_encode _ c encoded)

theorem request?_exchangeDraft : c.exchangeDraft.request? =
    (Url.parse (c.endpoints.auth ++ "/v1/tokens/exchange")).map fun url =>
      ⟨.post, url, basicAuthorization c.token, none⟩ := by
  unfold Draft.request? exchangeDraft
  simp only [isHeaderValue_basicAuthorization]
  cases Url.parse (c.endpoints.auth ++ "/v1/tokens/exchange") <;> rfl

theorem Mail.Chain.map {α β : Type} {R R' : Mail α} {S S' : α → Mail β} {g : Letter → Letter}
    {res : Except ProviderError β} (h : Mail.Chain R S b ls res b')
    (first : ∀ {b ls res b'}, R b ls res b' → R' b (ls.map g) res b')
    (second : ∀ {a b ls res b'}, S a b ls res b' → S' a b (ls.map g) res b') :
    Mail.Chain R' S' b (ls.map g) res b' := by
  cases h with
  | failed sent => exact .failed (first sent)
  | went sent sent' =>
    rw [List.map_append]
    exact .went (first sent) (second sent')

/-- An exchange with another API token is the same but for its credentials. -/
theorem Authorized.resigned {res : Except ProviderError String} (h : Authorized c b ls res b')
    (token : String) :
    Authorized { c with token := token } b (ls.map (Letter.resigned token)) res b' := by
  cases h with
  | kept bearer => exact .kept bearer
  | exchanged delivers =>
    refine .exchanged ?_
    cases delivers with
    | unsent none =>
      refine .unsent ?_
      rw [request?_exchangeDraft, Option.map_eq_none_iff] at none ⊢
      exact none
    | sent answer drawn =>
      rw [request?_exchangeDraft] at drawn
      obtain ⟨url, parsed, rfl⟩ := Option.map_eq_some_iff.mp drawn
      refine .sent answer ?_
      rw [request?_exchangeDraft, parsed]
      rfl

/-- An errand has nothing to do with the API token. -/
theorem Posted.resigned {e : Errand} {key : String} {f : Option Response → Except ProviderError α}
    {res : Except ProviderError α} (h : Posted (.errand e) (c.draft e key) f b ls res b')
    (token : String) :
    Posted (.errand e) (draft { c with token := token } e key) f b (ls.map (Letter.resigned token)) res
      b' := by
  obtain ⟨rfl, delivers⟩ := h
  refine ⟨rfl, ?_⟩
  cases delivers with
  | unsent none => exact .unsent none
  | sent answer drawn => exact .sent answer drawn

theorem Credentialed.resigned {s : Service} {res : Except ProviderError String}
    (h : Credentialed c s b ls res b') (token : String) :
    Credentialed { c with token := token } s b (ls.map (Letter.resigned token)) res b' := by
  cases s with
  | main => exact Authorized.resigned h token
  | database appId addonId =>
    exact Mail.Chain.map h (fun authorized => authorized.resigned token) fun posted => posted.resigned token

theorem Sent.resigned {e : Errand} {res : Except ProviderError String} (h : Sent c e b ls res b')
    (token : String) : Sent { c with token := token } e b (ls.map (Letter.resigned token)) res b' :=
  Mail.Chain.map h (fun credentialed => Credentialed.resigned credentialed token)
    fun posted => posted.resigned token

theorem Travels.resigned {it : Itinerary α} {res : Except ProviderError α} (h : Travels c it b ls res b')
    (token : String) : Travels { c with token := token } it b (ls.map (Letter.resigned token)) res b' := by
  induction it generalizing b ls res b' with
  | stop res' =>
    obtain ⟨rfl, rfl, rfl⟩ := h
    exact ⟨rfl, rfl, rfl⟩
  | go e next ih => exact Mail.Chain.map h (fun sent => Sent.resigned sent token) fun later => ih _ later

end Client

end DatabaseOperator
