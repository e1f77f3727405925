import DatabaseOperator.Proofs.Trace
import DatabaseOperator.Provider.Client

namespace DatabaseOperator

namespace HttpTask

variable {α β : Type} {b b' : Option String} {h : List (Exchange http)}

/-- Work that begins with this bearer token can make these requests, and end so with that one. -/
def Runs (x : HttpTask α) (b : Option String) (h : List (Exchange http))
    (res : Except ProviderError α) (b' : Option String) : Prop :=
  (x.run.run b).Runs h (res, b')

theorem runs_pure_iff {a : α} {res : Except ProviderError α} :
    Runs (pure a) b h res b' ↔ h = [] ∧ res = .ok a ∧ b' = b := by
  refine Dialogue.runs_done_iff.trans ?_
  rw [Prod.mk.injEq]

theorem runs_throw_iff {e : ProviderError} {res : Except ProviderError α} :
    Runs (throw e) b h res b' ↔ h = [] ∧ res = .error e ∧ b' = b := by
  refine Dialogue.runs_done_iff.trans ?_
  rw [Prod.mk.injEq]

theorem runs_bind_iff {x : HttpTask α} {f : α → HttpTask β} {res : Except ProviderError β} :
    Runs (x >>= f) b h res b' ↔ (∃ e, res = .error e ∧ Runs x b h (.error e) b') ∨
      ∃ h₁ h₂ a b₁, h = h₁ ++ h₂ ∧ Runs x b h₁ (.ok a) b₁ ∧ Runs (f a) b₁ h₂ res b' := by
  unfold Runs
  rw [ExceptT.run_bind, StateT.run_bind, Dialogue.bind_eq, Dialogue.runs_bind_iff]
  constructor
  · rintro ⟨h₁, h₂, ⟨a, b₁⟩, rfl, first, second⟩
    cases a with
    | error e =>
      obtain ⟨rfl, eq⟩ := Dialogue.runs_done_iff.mp second
      obtain ⟨rfl, rfl⟩ := Prod.mk.inj eq
      exact .inl ⟨e, rfl, by simpa using first⟩
    | ok a => exact .inr ⟨h₁, h₂, a, b₁, rfl, first, second⟩
  · rintro (⟨e, rfl, first⟩ | ⟨h₁, h₂, a, b₁, rfl, first, second⟩)
    · exact ⟨h, [], (.error e, b'), by simp, first, .done _⟩
    · exact ⟨h₁, h₂, (.ok a, b₁), rfl, first, second⟩

theorem runs_get_iff {res : Except ProviderError (Option String)} :
    Runs get b h res b' ↔ h = [] ∧ res = .ok b ∧ b' = b := by
  refine Dialogue.runs_done_iff.trans ?_
  rw [Prod.mk.injEq]

theorem runs_set_iff {v : Option String} {res : Except ProviderError PUnit} :
    Runs (set v) b h res b' ↔ h = [] ∧ res = .ok ⟨⟩ ∧ b' = v := by
  refine Dialogue.runs_done_iff.trans ?_
  rw [Prod.mk.injEq]

theorem runs_call_iff {q : Request} {res : Except ProviderError (Option Response)} :
    Runs (liftM (m := Dialogue http) (Dialogue.call (I := http) q)) b h res b' ↔
      ∃ answer : Option Response, h = [⟨q, answer⟩] ∧ res = .ok answer ∧ b' = b := by
  constructor
  · intro asked
    obtain ⟨answer, h', rfl, rest⟩ := (Dialogue.runs_ask_iff (I := http)).mp asked
    obtain ⟨rfl, eq⟩ := Dialogue.runs_done_iff.mp rest
    obtain ⟨rfl, rfl⟩ := Prod.mk.inj eq
    exact ⟨answer, rfl, rfl, rfl⟩
  · rintro ⟨answer, rfl, rfl, rfl⟩
    exact (Dialogue.runs_ask_iff (I := http)).mpr ⟨answer, [], rfl, .done _⟩

end HttpTask

namespace Client

open HttpTask

variable {c : Client} {b b' : Option String} {h : List (Exchange http)}

theorem endpoints_of_connect {overrides : EndpointOverrides} {token region : String}
    (connected : connect overrides token region = .ok c) :
    c.endpoints = (Endpoints.ofRegion region).override overrides := by
  unfold connect at connected
  split at connected
  next => cases connected
  next =>
    split at connected
    next => cases connected
    next => cases connected; rfl

/-- What the answer to a request means. -/
def outcome (what : String) : Option Response → Except ProviderError String
  | none => .error .transport
  | some r => if r.isSuccess then .ok r.text else .error (refusal what r)

/-- One request is sent, or none when it cannot be, and its answer decides the result. -/
def Sends {α : Type} (d : Draft) (f : Option Response → Except ProviderError α)
    (h : List (Exchange http)) (res : Except ProviderError α) : Prop :=
  (d.request? = none ∧ h = [] ∧ res = .error .transport) ∨
    ∃ (q : Request) (answer : Option Response),
      d.request? = some q ∧ h = [⟨q, answer⟩] ∧ res = f answer

theorem runs_send_iff {d : Draft} {what : String} {res : Except ProviderError String} :
    (send d what).Runs b h res b' ↔ b' = b ∧ Sends d (outcome what) h res := by
  unfold send Sends
  cases d.request? with
  | none =>
    rw [runs_throw_iff]
    simp [and_comm, and_assoc]
  | some q =>
    rw [runs_bind_iff]
    constructor
    · rintro (⟨e, rfl, first⟩ | ⟨h₁, h₂, answer, b₁, rfl, first, second⟩)
      · obtain ⟨_, _, other, _⟩ := runs_call_iff.mp first
        cases other
      · obtain ⟨_, rfl, same, rfl⟩ := runs_call_iff.mp first
        cases same
        have ended : h₂ = [] ∧ res = outcome what answer ∧ b' = b₁ := by
          unfold outcome
          cases answer with
          | none => exact runs_throw_iff.mp second
          | some r =>
            simp only at second ⊢
            split at second
            next success =>
              rw [if_pos success]
              exact runs_pure_iff.mp second
            next failure =>
              rw [if_neg failure]
              exact runs_throw_iff.mp second
        obtain ⟨rfl, rfl, rfl⟩ := ended
        exact ⟨rfl, .inr ⟨q, answer, rfl, rfl, rfl⟩⟩
    · rintro ⟨rfl, ⟨other, _⟩ | ⟨q', answer, same, rfl, rfl⟩⟩
      · cases other
      · cases same
        refine .inr ⟨[_], [], answer, _, rfl, runs_call_iff.mpr ⟨answer, rfl, rfl, rfl⟩, ?_⟩
        unfold outcome
        cases answer with
        | none => exact runs_throw_iff.mpr ⟨rfl, rfl, rfl⟩
        | some r =>
          simp only
          split
          next => exact runs_pure_iff.mpr ⟨rfl, rfl, rfl⟩
          next => exact runs_throw_iff.mpr ⟨rfl, rfl, rfl⟩

/-- Work that sends a request and goes on without another one. -/
theorem runs_bind_sends_iff {α β : Type} {x : HttpTask α} {k : α → HttpTask β} {d : Draft}
    {f : Option Response → Except ProviderError α} {g : α → Except ProviderError β}
    (first : ∀ {b h res b'}, x.Runs b h res b' ↔ b' = b ∧ Sends d f h res)
    (last : ∀ {a b h res b'}, (k a).Runs b h res b' ↔ h = [] ∧ res = g a ∧ b' = b)
    {res : Except ProviderError β} :
    (x >>= k).Runs b h res b' ↔ b' = b ∧ Sends d (fun answer => (f answer).bind g) h res := by
  rw [runs_bind_iff]
  constructor
  · rintro (⟨e, rfl, sent⟩ | ⟨h₁, h₂, a, b₁, rfl, sent, rest⟩)
    · obtain ⟨rfl, ⟨none, rfl, eq⟩ | ⟨q, answer, some, rfl, eq⟩⟩ := first.mp sent
      · cases eq
        exact ⟨rfl, .inl ⟨none, rfl, rfl⟩⟩
      · have ended : (f answer).bind g = .error e := by rw [← eq]; rfl
        exact ⟨rfl, .inr ⟨q, answer, some, rfl, ended.symm⟩⟩
    · obtain ⟨rfl, ⟨_, _, eq⟩ | ⟨q, answer, some, rfl, eq⟩⟩ := first.mp sent
      · cases eq
      · obtain ⟨rfl, rfl, rfl⟩ := last.mp rest
        have ended : (f answer).bind g = g a := by rw [← eq]; rfl
        exact ⟨rfl, .inr ⟨q, answer, some, rfl, ended.symm⟩⟩
  · rintro ⟨rfl, ⟨none, rfl, rfl⟩ | ⟨q, answer, some, rfl, result⟩⟩
    · exact .inl ⟨_, rfl, first.mpr ⟨rfl, .inl ⟨none, rfl, rfl⟩⟩⟩
    · have result : res = (f answer).bind g := result
      cases eq : f answer with
      | error e =>
        rw [eq] at result
        exact .inl ⟨e, result, first.mpr ⟨rfl, .inr ⟨q, answer, some, rfl, eq.symm⟩⟩⟩
      | ok a =>
        rw [eq] at result
        exact .inr ⟨_, [], a, _, rfl, first.mpr ⟨rfl, .inr ⟨q, answer, some, rfl, eq.symm⟩⟩,
          last.mpr ⟨rfl, result, rfl⟩⟩

/-- What is read from the text of an answer. -/
def reading {α : Type} (what : String) (decode : Decoder α) (text : String) :
    Except ProviderError α :=
  match (Json.read text).bind decode with
  | some a => .ok a
  | none => .error (.undecodable what)

theorem runs_fetch_iff {α : Type} {d : Draft} {what : String} {decode : Decoder α}
    {res : Except ProviderError α} :
    (fetch d what decode).Runs b h res b' ↔
      b' = b ∧ Sends d (fun answer => (outcome what answer).bind (reading what decode)) h res := by
  refine runs_bind_sends_iff runs_send_iff ?_
  intro text b h res b'
  unfold reading
  cases (Json.read text).bind decode with
  | some a => exact runs_pure_iff
  | none => exact runs_throw_iff

def exchangeDraft (c : Client) : Draft :=
  ⟨.post, c.endpoints.auth ++ "/v1/tokens/exchange", none, basicAuthorization c.token, none⟩

/-- The bearer token in the answer to the exchange. -/
def bearerOf (answer : Option Response) : Except ProviderError String :=
  ((outcome "token exchange" answer).bind (reading "token exchange" Wire.token)).bind fun token =>
    if token.isEmpty then .error .emptyToken else .ok token

theorem runs_exchange_iff {res : Except ProviderError String} :
    (exchange c).Runs b h res b' ↔ b' = b ∧ Sends c.exchangeDraft bearerOf h res := by
  refine runs_bind_sends_iff runs_fetch_iff ?_
  intro token b h res b'
  split
  next => exact runs_throw_iff
  next => exact runs_pure_iff

/-- Without a bearer token there is an exchange first, and its token is kept. -/
theorem runs_bearer_iff {res : Except ProviderError String} :
    (bearer c).Runs none h res b' ↔
      b' = res.toOption ∧ Sends c.exchangeDraft bearerOf h res := by
  unfold bearer
  rw [runs_bind_iff]
  constructor
  · rintro (⟨e, _, first⟩ | ⟨h₁, h₂, kept, b₁, rfl, first, rest⟩)
    · obtain ⟨_, other, _⟩ := runs_get_iff.mp first
      cases other
    obtain ⟨rfl, same, rfl⟩ := runs_get_iff.mp first
    cases same
    rcases runs_bind_iff.mp rest with ⟨e, rfl, exchanged⟩ | ⟨h₃, h₄, token, b₂, rfl, exchanged, rest⟩
    · obtain ⟨rfl, sends⟩ := runs_exchange_iff.mp exchanged
      exact ⟨rfl, sends⟩
    obtain ⟨rfl, sends⟩ := runs_exchange_iff.mp exchanged
    rcases runs_bind_iff.mp rest with ⟨e, rfl, keep⟩ | ⟨h₅, h₆, _, b₃, rfl, keep, last⟩
    · obtain ⟨_, other, _⟩ := runs_set_iff.mp keep
      cases other
    obtain ⟨rfl, _, rfl⟩ := runs_set_iff.mp keep
    obtain ⟨rfl, rfl, rfl⟩ := runs_pure_iff.mp last
    exact ⟨rfl, by simpa using sends⟩
  · rintro ⟨rfl, sends⟩
    refine .inr ⟨[], h, none, none, rfl, runs_get_iff.mpr ⟨rfl, rfl, rfl⟩, runs_bind_iff.mpr ?_⟩
    cases res with
    | error e => exact .inl ⟨e, rfl, runs_exchange_iff.mpr ⟨rfl, sends⟩⟩
    | ok token =>
      refine .inr ⟨h, [], token, none, by simp, runs_exchange_iff.mpr ⟨rfl, sends⟩,
        runs_bind_iff.mpr ?_⟩
      exact .inr ⟨[], [], ⟨⟩, some token, rfl, runs_set_iff.mpr ⟨rfl, rfl, rfl⟩,
        runs_pure_iff.mpr ⟨rfl, rfl, rfl⟩⟩

def deletionDraft (c : Client) (id token : String) : Draft :=
  ⟨.delete, c.endpoints.api ++ "/v1" ++ ("/databases/" ++ id), none, bearerAuthorization token, none⟩

/-- What the answer to a deletion means. -/
def deletion (id : String) (answer : Option Response) : Except ProviderError Unit :=
  (outcome ("database " ++ id) answer).bind fun _ => .ok ()

/-- A deletion without a bearer token is an exchange, and when that gives a token a request to delete. -/
theorem runs_deleteDatabase_iff {id : String} {res : Except ProviderError Unit} :
    (deleteDatabase c id).Runs none h res b' ↔
      (∃ e, res = .error e ∧ b' = none ∧ Sends c.exchangeDraft bearerOf h (.error e)) ∨
        ∃ h₁ h₂ token, h = h₁ ++ h₂ ∧ b' = some token ∧
          Sends c.exchangeDraft bearerOf h₁ (.ok token) ∧
          Sends (c.deletionDraft id token) (deletion id) h₂ res := by
  have send_iff {d : Draft} {b h res b'} :
      (do let _ ← send d ("database " ++ id) : HttpTask Unit).Runs b h res b' ↔
        b' = b ∧ Sends d (deletion id) h res :=
    runs_bind_sends_iff runs_send_iff runs_pure_iff
  unfold deleteDatabase mainDraft
  rw [bind_assoc, runs_bind_iff]
  constructor
  · rintro (⟨e, rfl, first⟩ | ⟨h₁, h₂, token, b₁, rfl, first, rest⟩)
    · obtain ⟨rfl, sends⟩ := runs_bearer_iff.mp first
      exact .inl ⟨e, rfl, rfl, sends⟩
    · obtain ⟨rfl, sends⟩ := runs_bearer_iff.mp first
      rw [pure_bind] at rest
      obtain ⟨rfl, deletes⟩ := send_iff.mp rest
      exact .inr ⟨h₁, h₂, token, rfl, rfl, sends, deletes⟩
  · rintro (⟨e, rfl, rfl, sends⟩ | ⟨h₁, h₂, token, rfl, rfl, sends, deletes⟩)
    · exact .inl ⟨e, rfl, runs_bearer_iff.mpr ⟨rfl, sends⟩⟩
    · refine .inr ⟨h₁, h₂, token, some token, rfl, runs_bearer_iff.mpr ⟨rfl, sends⟩, ?_⟩
      rw [pure_bind]
      exact send_iff.mpr ⟨rfl, deletes⟩

theorem request?_eq_some {d : Draft} {q : Request} (plain : d.parameter = none)
    (h : d.request? = some q) : q.method = d.method ∧ Url.parse d.address = some q.url := by
  unfold Draft.request? at h
  rw [plain] at h
  cases parsed : Url.parse d.address with
  | none => rw [parsed] at h; cases h
  | some url =>
    rw [parsed] at h
    simp only [Option.bind_eq_bind, Option.bind_some] at h
    split at h
    next => cases h; exact ⟨rfl, rfl⟩
    next => cases h

/-- Only the status 404 is read as the absence of what was asked for. -/
theorem outcome_notFound_iff (what : String) {answer : Option Response} :
    (∃ w, outcome what answer = .error (.notFound w)) ↔ ∃ r, answer = some r ∧ r.status = 404 := by
  cases answer with
  | none => simp [outcome]
  | some r =>
    simp only [outcome, refusal, Option.some.injEq, exists_eq_left']
    split
    next success =>
      have range : 200 ≤ r.status ∧ r.status < 300 := by simpa [Response.isSuccess] using success
      simp
      omega
    next => split <;> simp [*]

theorem bearerOf_notFound_iff {answer : Option Response} :
    (∃ w, bearerOf answer = .error (.notFound w)) ↔ ∃ r, answer = some r ∧ r.status = 404 := by
  rw [← outcome_notFound_iff "token exchange"]
  unfold bearerOf
  cases outcome "token exchange" answer with
  | error e => rfl
  | ok text =>
    simp only [Except.bind, reading]
    constructor
    · rintro ⟨w, h⟩
      cases read : (Json.read text).bind Wire.token with
      | none => simp [read, ProviderError.undecodable] at h
      | some token =>
        simp only [read] at h
        split at h <;> simp at h
    · rintro ⟨_, h⟩
      cases h

end Client

end DatabaseOperator
