import DatabaseOperator.Proofs.Pass.Finalizing
import DatabaseOperator.Proofs.Provider.Client

namespace DatabaseOperator

/-- A request with this method to this address was answered so. -/
def Answered (h : List (Exchange http)) (method : Method) (address : String)
    (P : Response → Prop) : Prop :=
  ∃ (q : Request) (r : Response), (⟨q, some r⟩ : Exchange http) ∈ h ∧ q.method = method ∧
    Url.parse address = some q.url ∧ P r

/-- The exchange of the token was answered with 404. -/
def ExchangeMissing (e : Endpoints) (h : List (Exchange http)) : Prop :=
  Answered h .post (e.auth ++ "/v1/tokens/exchange") fun r => r.status = 404

/-- The deletion of the database was asked for, and answered with a success or with 404. -/
def DeletionAnswered (e : Endpoints) (id : String) (h : List (Exchange http)) : Prop :=
  Answered h .delete (e.api ++ "/v1/databases/" ++ id) fun r => r.isSuccess = true ∨ r.status = 404

theorem not_answered_nil {m : Method} {address : String} {P : Response → Prop} :
    ¬ Answered [] m address P :=
  fun ⟨_, _, mem, _⟩ => nomatch mem

theorem answered_append_iff {h h' : List (Exchange http)} {m : Method} {address : String}
    {P : Response → Prop} :
    Answered (h ++ h') m address P ↔ Answered h m address P ∨ Answered h' m address P := by
  simp only [Answered, List.mem_append, or_and_right, exists_or]

theorem answered_single_iff {q : Request} {answer : Option Response} {m : Method}
    {address : String} {P : Response → Prop} :
    Answered [⟨q, answer⟩] m address P ↔
      q.method = m ∧ Url.parse address = some q.url ∧ ∃ r, answer = some r ∧ P r := by
  constructor
  · rintro ⟨_, r, mem, method, url, holds⟩
    cases List.mem_singleton.mp mem
    exact ⟨method, url, r, rfl, holds⟩
  · rintro ⟨method, url, r, rfl, holds⟩
    exact ⟨q, r, List.mem_singleton.mpr rfl, method, url, holds⟩

namespace Client

variable {c : Client} {b : Option String} {h : List (Exchange http)} {id token : String}

theorem Sends.method_eq {α : Type} {d : Draft} {f : Option Response → Except ProviderError α}
    {res : Except ProviderError α} {m : Method} {address : String} {P : Response → Prop}
    (plain : d.parameter = none) (sends : Sends d f h res) (answered : Answered h m address P) :
    d.method = m := by
  rcases sends with ⟨_, rfl, _⟩ | ⟨q, answer, sent, rfl, _⟩
  · exact absurd answered not_answered_nil
  · exact (request?_eq_some plain sent).1.symm.trans (answered_single_iff.mp answered).1

/-- An exchange finds nothing exactly when it is answered with 404. -/
theorem exchange_notFound_iff {res : Except ProviderError String}
    (sends : Sends c.exchangeDraft bearerOf h res) :
    (∃ w, res = .error (.notFound w)) ↔ ExchangeMissing c.endpoints h := by
  unfold ExchangeMissing
  rcases sends with ⟨_, rfl, rfl⟩ | ⟨q, answer, sent, rfl, rfl⟩
  · simp [not_answered_nil]
  · obtain ⟨method, url⟩ := request?_eq_some rfl sent
    rw [answered_single_iff, bearerOf_notFound_iff]
    exact ⟨fun missing => ⟨method, url, missing⟩, fun answered => answered.2.2⟩

theorem deletion_isGone_iff {answer : Option Response} :
    Pass.isGone (deletion id answer) = true ↔
      ∃ r, answer = some r ∧ (r.isSuccess = true ∨ r.status = 404) := by
  rw [Pass.isGone_iff]
  unfold deletion outcome
  cases answer with
  | none => simp [Except.bind]
  | some r =>
    simp only [Option.some.injEq, exists_eq_left']
    split
    next success => simp [Except.bind, success]
    next failure =>
      unfold refusal
      split
      next missing => simp [Except.bind, missing]
      next present => simp [Except.bind, failure, present]

theorem delete_isGone_iff {res : Except ProviderError Unit}
    (sends : Sends (c.deletionDraft id token) (deletion id) h res) :
    Pass.isGone res = true ↔ DeletionAnswered c.endpoints id h := by
  unfold DeletionAnswered
  have address : (c.deletionDraft id token).address = c.endpoints.api ++ "/v1/databases/" ++ id := by
    have joined : "/v1/databases/" = "/v1" ++ "/databases/" := by decide
    simp only [deletionDraft, joined, String.append_assoc]
  rcases sends with ⟨_, rfl, rfl⟩ | ⟨q, answer, sent, rfl, rfl⟩
  · simp [not_answered_nil, Pass.isGone]
  · obtain ⟨method, url⟩ := request?_eq_some rfl sent
    rw [address] at url
    rw [answered_single_iff, deletion_isGone_iff]
    exact ⟨fun gone => ⟨method, url, gone⟩, fun answered => answered.2.2⟩

/-- A deletion without a bearer token finds the database gone when it is told so, and also when the
exchange of the token is answered with 404. -/
theorem isGone_iff {res : Except ProviderError Unit} (run : (deleteDatabase c id).Runs none h res b) :
    Pass.isGone res = true ↔
      ExchangeMissing c.endpoints h ∨ DeletionAnswered c.endpoints id h := by
  rcases runs_deleteDatabase_iff.mp run with
    ⟨e, rfl, _, sends⟩ | ⟨h₁, h₂, token, rfl, _, sends, deletes⟩
  · rw [← exchange_notFound_iff sends, Pass.isGone_iff]
    constructor
    · rintro (other | missing)
      · cases other
      · obtain ⟨w, eq⟩ := missing
        cases eq
        exact .inl ⟨w, rfl⟩
    · rintro (⟨w, eq⟩ | answered)
      · cases eq
        exact .inr ⟨w, rfl⟩
      · cases sends.method_eq rfl answered
  · have found : ¬ ∃ w, (Except.ok token : Except ProviderError String) = .error (.notFound w) :=
      fun ⟨_, eq⟩ => nomatch eq
    rw [exchange_notFound_iff sends] at found
    rw [ExchangeMissing, DeletionAnswered, answered_append_iff, answered_append_iff,
      delete_isGone_iff deletes]
    constructor
    · exact fun gone => .inr (.inr gone)
    · rintro ((missing | answered) | (answered | gone))
      · exact absurd missing found
      · cases deletes.method_eq rfl answered
      · cases sends.method_eq rfl answered
      · exact gone

/-- After an exchange that is answered with 404 no deletion is sent. -/
theorem not_delete_of_missing {res : Except ProviderError Unit}
    (run : (deleteDatabase c id).Runs none h res b)
    (missing : ExchangeMissing c.endpoints h) : ∀ e ∈ h, e.call.method ≠ .delete := by
  rcases runs_deleteDatabase_iff.mp run with
    ⟨e, rfl, _, sends⟩ | ⟨h₁, h₂, token, rfl, _, sends, deletes⟩
  · rcases sends with ⟨_, rfl, _⟩ | ⟨q, answer, sent, rfl, _⟩
    · exact fun _ he => nomatch he
    · intro e he
      cases List.mem_singleton.mp he
      rw [(request?_eq_some rfl sent).1]
      exact Method.noConfusion
  · rcases answered_append_iff.mp missing with missing | answered
    · obtain ⟨_, eq⟩ := (exchange_notFound_iff sends).mpr missing
      cases eq
    · cases deletes.method_eq rfl answered

end Client

end DatabaseOperator
