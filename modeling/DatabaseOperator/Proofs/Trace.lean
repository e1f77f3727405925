import DatabaseOperator.Provider.Calls

namespace DatabaseOperator

/-- A call with the answer that it got. -/
structure Exchange (I : Interface) where
  call : I.Call
  answer : I.Answer call

namespace Dialogue

variable {I J : Interface} {α β ε : Type}

/-- The program can make exactly these exchanges, in this order, and end with this value. -/
inductive Runs : Dialogue I α → List (Exchange I) → α → Prop
  | done (a : α) : Runs (done a) [] a
  | ask {c : I.Call} {next : I.Answer c → Dialogue I α} {t : List (Exchange I)} {a : α}
      (r : I.Answer c) : Runs (next r) t a → Runs (ask c next) (⟨c, r⟩ :: t) a

theorem runs_done_iff {a b : α} {t : List (Exchange I)} :
    (done a : Dialogue I α).Runs t b ↔ t = [] ∧ b = a := by
  constructor
  · intro h
    cases h
    exact ⟨rfl, rfl⟩
  · rintro ⟨rfl, rfl⟩
    exact .done b

theorem runs_ask_iff {c : I.Call} {next : I.Answer c → Dialogue I α} {t : List (Exchange I)}
    {a : α} : (ask c next).Runs t a ↔ ∃ r t', t = ⟨c, r⟩ :: t' ∧ (next r).Runs t' a := by
  constructor
  · intro h
    cases h with
    | ask r h => exact ⟨r, _, rfl, h⟩
  · rintro ⟨r, t', rfl, h⟩
    exact .ask r h

theorem runs_call_iff {c : I.Call} {t : List (Exchange I)} {a : I.Answer c} :
    (call c).Runs t a ↔ t = [⟨c, a⟩] := by
  simp only [call, runs_ask_iff, runs_done_iff]
  constructor
  · rintro ⟨r, t', rfl, rfl, rfl⟩
    rfl
  · rintro rfl
    exact ⟨a, [], rfl, rfl, rfl⟩

theorem runs_bind_iff {x : Dialogue I α} {f : α → Dialogue I β} {t : List (Exchange I)} {b : β} :
    (x.bind f).Runs t b ↔ ∃ t₁ t₂ a, t = t₁ ++ t₂ ∧ x.Runs t₁ a ∧ (f a).Runs t₂ b := by
  induction x generalizing t with
  | done a =>
    constructor
    · intro h
      exact ⟨[], t, a, rfl, .done a, h⟩
    · rintro ⟨t₁, t₂, a', rfl, h₁, h₂⟩
      cases h₁
      exact h₂
  | ask c next ih =>
    constructor
    · intro h
      obtain ⟨r, t', rfl, hr⟩ := runs_ask_iff.mp h
      obtain ⟨t₁, t₂, a, rfl, h₁, h₂⟩ := (ih r).mp hr
      exact ⟨_, t₂, a, rfl, .ask r h₁, h₂⟩
    · rintro ⟨t₁, t₂, a, rfl, h₁, h₂⟩
      obtain ⟨r, t', rfl, hr⟩ := runs_ask_iff.mp h₁
      exact .ask r ((ih r).mpr ⟨t', t₂, a, rfl, hr, h₂⟩)

/-- When each call is served by a single call of another interface, the trace is carried over call by
call. -/
theorem runs_serve_iff {answer : (c : I.Call) → Dialogue J (I.Answer c)}
    {carry : Exchange I → Exchange J}
    (single : ∀ c t r, (answer c).Runs t r ↔ t = [carry ⟨c, r⟩])
    {x : Dialogue I α} {t : List (Exchange J)} {a : α} :
    (x.serve answer).Runs t a ↔ ∃ t', t = t'.map carry ∧ x.Runs t' a := by
  induction x generalizing t with
  | done b =>
    constructor
    · intro h
      obtain ⟨rfl, rfl⟩ := runs_done_iff.mp h
      exact ⟨[], rfl, .done a⟩
    · rintro ⟨t', rfl, h⟩
      cases h
      exact .done a
  | ask c next ih =>
    simp only [serve, bind_eq, runs_bind_iff]
    constructor
    · rintro ⟨t₁, t₂, r, rfl, h₁, h₂⟩
      obtain ⟨t', rfl, hr⟩ := (ih r).mp h₂
      rw [(single c t₁ r).mp h₁]
      exact ⟨⟨c, r⟩ :: t', rfl, .ask r hr⟩
    · rintro ⟨t', rfl, h⟩
      obtain ⟨r, t'', rfl, hr⟩ := runs_ask_iff.mp h
      exact ⟨[carry ⟨c, r⟩], t''.map carry, r, rfl, (single c _ r).mpr rfl,
        (ih r).mpr ⟨t'', rfl, hr⟩⟩

/-- Whatever the answers are, all calls are of one sort. -/
def Only (P : I.Call → Prop) (x : Dialogue I α) : Prop :=
  ∀ t a, x.Runs t a → ∀ e ∈ t, P e.call

variable {P : I.Call → Prop}

theorem only_done (a : α) : (done a : Dialogue I α).Only P := by
  intro t b h
  obtain ⟨rfl, _⟩ := runs_done_iff.mp h
  exact fun _ he => nomatch he

theorem only_bind {x : Dialogue I α} {f : α → Dialogue I β} (hx : x.Only P)
    (hf : ∀ a, (f a).Only P) : (x.bind f).Only P := by
  intro t b h e he
  obtain ⟨t₁, t₂, a, rfl, h₁, h₂⟩ := runs_bind_iff.mp h
  exact (List.mem_append.mp he).elim (hx t₁ a h₁ e) (hf a t₂ b h₂ e)

end Dialogue

namespace Task

variable {I : Interface} {α β ε : Type}

theorem runs_pure_iff {a : α} {t : List (Exchange I)} {r : Except ε α} :
    (pure a : ExceptT ε (Dialogue I) α).run.Runs t r ↔ t = [] ∧ r = .ok a :=
  Dialogue.runs_done_iff

theorem runs_throw_iff {e : ε} {t : List (Exchange I)} {r : Except ε α} :
    (throw e : ExceptT ε (Dialogue I) α).run.Runs t r ↔ t = [] ∧ r = .error e :=
  Dialogue.runs_done_iff

/-- Work that is one call. -/
theorem runs_single_iff {c : I.Call} {f : I.Answer c → Except ε α} {t : List (Exchange I)}
    {r : Except ε α} :
    (ExceptT.mk (do let a ← Dialogue.call c; pure (f a)) : ExceptT ε (Dialogue I) α).run.Runs t r ↔
      ∃ a, t = [⟨c, a⟩] ∧ r = f a := by
  change ((Dialogue.call c).bind fun a => .done (f a)).Runs t r ↔ _
  rw [Dialogue.runs_bind_iff]
  constructor
  · rintro ⟨t₁, t₂, a, rfl, h₁, h₂⟩
    obtain ⟨rfl, rfl⟩ := Dialogue.runs_done_iff.mp h₂
    exact ⟨a, by simpa using Dialogue.runs_call_iff.mp h₁, rfl⟩
  · rintro ⟨a, rfl, rfl⟩
    exact ⟨_, [], a, rfl, Dialogue.runs_call_iff.mpr rfl, .done _⟩

/-- Work in two parts ends with the failure of the first part, or goes on with its value. -/
theorem runs_bind_iff {x : ExceptT ε (Dialogue I) α} {f : α → ExceptT ε (Dialogue I) β}
    {t : List (Exchange I)} {r : Except ε β} :
    (x >>= f).run.Runs t r ↔
      (∃ e, r = .error e ∧ x.run.Runs t (.error e)) ∨
        ∃ t₁ t₂ a, t = t₁ ++ t₂ ∧ x.run.Runs t₁ (.ok a) ∧ (f a).run.Runs t₂ r := by
  rw [ExceptT.run_bind, Dialogue.bind_eq, Dialogue.runs_bind_iff]
  constructor
  · rintro ⟨t₁, t₂, a, rfl, h₁, h₂⟩
    cases a with
    | error e =>
      obtain ⟨rfl, rfl⟩ := Dialogue.runs_done_iff.mp h₂
      exact .inl ⟨e, rfl, by simpa using h₁⟩
    | ok a => exact .inr ⟨t₁, t₂, a, rfl, h₁, h₂⟩
  · rintro (⟨e, rfl, h⟩ | ⟨t₁, t₂, a, rfl, h₁, h₂⟩)
    · exact ⟨t, [], .error e, by simp, h, .done _⟩
    · exact ⟨t₁, t₂, .ok a, rfl, h₁, h₂⟩

/-- Work that succeeds has succeeded in its first part. -/
theorem split_of_ok {x : ExceptT ε (Dialogue I) α} {f : α → ExceptT ε (Dialogue I) β}
    {t : List (Exchange I)} {b : β} (h : (x >>= f).run.Runs t (.ok b)) :
    ∃ t₁ t₂ a, t = t₁ ++ t₂ ∧ x.run.Runs t₁ (.ok a) ∧ (f a).run.Runs t₂ (.ok b) := by
  rcases runs_bind_iff.mp h with ⟨e, error, _⟩ | split
  · cases error
  · exact split

theorem runs_bind_of_error {x : ExceptT ε (Dialogue I) α} {f : α → ExceptT ε (Dialogue I) β}
    {t : List (Exchange I)} {e : ε} (h : x.run.Runs t (.error e)) :
    (x >>= f).run.Runs t (.error e) :=
  runs_bind_iff.mpr (.inl ⟨e, rfl, h⟩)

theorem runs_bind_of_ok {x : ExceptT ε (Dialogue I) α} {f : α → ExceptT ε (Dialogue I) β}
    {t u : List (Exchange I)} {a : α} {r : Except ε β} (h₁ : x.run.Runs t (.ok a))
    (h₂ : (f a).run.Runs u r) : (x >>= f).run.Runs (t ++ u) r :=
  runs_bind_iff.mpr (.inr ⟨t, u, a, rfl, h₁, h₂⟩)

/-- Work whose first part is one call. -/
theorem runs_bind_of_single {x : ExceptT ε (Dialogue I) α} {f : α → ExceptT ε (Dialogue I) β}
    {e : Exchange I} {t : List (Exchange I)} {a : α} {r : Except ε β}
    (h₁ : x.run.Runs [e] (.ok a)) (h₂ : (f a).run.Runs t r) : (x >>= f).run.Runs (e :: t) r :=
  runs_bind_of_ok h₁ h₂

theorem runs_inPhase_iff {action : String} {x : ExceptT Error (Dialogue I) α}
    {t : List (Exchange I)} {r : Except Error α} :
    (inPhase action x).run.Runs t r ↔
      ∃ r', x.run.Runs t r' ∧ r = r'.mapError (Error.phase action) := by
  change (x.run.bind fun r' => .done (r'.mapError (Error.phase action))).Runs t r ↔ _
  rw [Dialogue.runs_bind_iff]
  constructor
  · rintro ⟨t₁, t₂, r', rfl, h₁, h₂⟩
    obtain ⟨rfl, rfl⟩ := Dialogue.runs_done_iff.mp h₂
    exact ⟨r', by simpa using h₁, rfl⟩
  · rintro ⟨r', h, rfl⟩
    exact ⟨t, [], r', by simp, h, .done _⟩

theorem ok_of_inPhase {action : String} {x : ExceptT Error (Dialogue I) α} {t : List (Exchange I)}
    {a : α} (h : (inPhase action x).run.Runs t (.ok a)) : x.run.Runs t (.ok a) := by
  obtain ⟨r, runs, ok⟩ := runs_inPhase_iff.mp h
  cases r with
  | error e => cases ok
  | ok b =>
    cases ok
    exact runs

theorem runs_requireText_iff {field value : String} {t : List (Exchange I)}
    {r : Except Error Unit} :
    (requireText (I := I) field value).run.Runs t r ↔
      t = [] ∧ r = if value.isEmpty then .error (.empty field) else .ok () := by
  unfold requireText
  split
  next => exact runs_throw_iff
  next => exact runs_pure_iff

theorem requireText_eq {field value : String} (h : value ≠ "") :
    requireText (I := I) field value = pure () := by
  simp [requireText, h]

/-- Work that begins with a check of a text ends at once when the text is empty. -/
theorem cases_of_requireText {field value : String} {task : ExceptT Error (Dialogue I) α}
    {t : List (Exchange I)} {r : Except Error α}
    (h : (do requireText field value; task : ExceptT Error (Dialogue I) α).run.Runs t r) :
    (t = [] ∧ ∃ e, r = .error e) ∨ task.run.Runs t r := by
  rcases runs_bind_iff.mp h with ⟨e, rfl, refused⟩ | ⟨t₁, t₂, _, rfl, passed, rest⟩
  · exact .inl ⟨(runs_requireText_iff.mp refused).1, e, rfl⟩
  · obtain ⟨rfl, _⟩ := runs_requireText_iff.mp passed
    exact .inr rest

variable {P : I.Call → Prop}

theorem only_pure (a : α) : (pure a : ExceptT ε (Dialogue I) α).run.Only P :=
  Dialogue.only_done _

theorem only_throw (e : ε) : (throw e : ExceptT ε (Dialogue I) α).run.Only P :=
  Dialogue.only_done _

theorem only_single {c : I.Call} {f : I.Answer c → Except ε α} (hc : P c) :
    (ExceptT.mk (do let a ← Dialogue.call c; pure (f a)) :
      ExceptT ε (Dialogue I) α).run.Only P := by
  intro t r h e he
  obtain ⟨a, rfl, _⟩ := runs_single_iff.mp h
  obtain rfl := List.mem_singleton.mp he
  exact hc

theorem only_bind {x : ExceptT ε (Dialogue I) α} {f : α → ExceptT ε (Dialogue I) β}
    (hx : x.run.Only P) (hf : ∀ a, (f a).run.Only P) : (x >>= f).run.Only P := by
  intro t r h e he
  rcases runs_bind_iff.mp h with ⟨_, _, h⟩ | ⟨t₁, t₂, a, rfl, h₁, h₂⟩
  · exact hx t _ h e he
  · exact (List.mem_append.mp he).elim (hx t₁ _ h₁ e) (hf a t₂ r h₂ e)

/-- What the first part of some work cannot ask is asked in the second part. -/
theorem later_of_only {x : ExceptT ε (Dialogue I) α} {f : α → ExceptT ε (Dialogue I) β}
    {t : List (Exchange I)} {r : Except ε β} {e : Exchange I} (h : (x >>= f).run.Runs t r)
    (mem : e ∈ t) (only : x.run.Only fun c => c ≠ e.call) :
    ∃ t' a, e ∈ t' ∧ (f a).run.Runs t' r := by
  rcases runs_bind_iff.mp h with ⟨_, _, h⟩ | ⟨t₁, t₂, a, rfl, h₁, h₂⟩
  · exact absurd rfl (only t _ h e mem)
  · refine ⟨t₂, a, (List.mem_append.mp mem).resolve_left fun early => ?_, h₂⟩
    exact only t₁ _ h₁ e early rfl

theorem only_inPhase {action : String} {x : ExceptT Error (Dialogue I) α} (hx : x.run.Only P) :
    (inPhase action x).run.Only P := by
  intro t r h e he
  obtain ⟨r', h, _⟩ := runs_inPhase_iff.mp h
  exact hx t r' h e he

theorem only_requireText (field value : String) :
    (requireText (I := I) field value).run.Only P := by
  unfold requireText
  split
  next => exact only_throw _
  next => exact only_pure _

end Task

end DatabaseOperator
