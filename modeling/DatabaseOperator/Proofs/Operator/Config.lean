import DatabaseOperator.Operator.Config
import DatabaseOperator.Proofs.Text.Natural

namespace DatabaseOperator

theorem except_bind_eq_ok_iff {ε α β : Type} {x : Except ε α} {f : α → Except ε β} {b : β} :
    (x >>= f) = .ok b ↔ ∃ a, x = .ok a ∧ f a = .ok b := by
  cases x <;> simp [bind, Except.bind]

theorem except_bind_eq_error_iff {ε α β : Type} {x : Except ε α} {f : α → Except ε β} {e : ε} :
    (x >>= f) = .error e ↔ x = .error e ∨ ∃ a, x = .ok a ∧ f a = .error e := by
  cases x <;> simp [bind, Except.bind]

namespace Config

/-- A setting that is a number, up to a limit and with a default, and what is said of a text that is none. -/
structure Setting where
  key : String
  limit : Nat
  default : Nat
  kind : String

namespace Setting

/-- The variable comes first, so the message names it. -/
def message (s : Setting) : String :=
  s.key ++ " must be " ++ s.kind

def port : Setting :=
  ⟨"HEALTH_PORT", limit16, 8080, "a valid port number"⟩

def delay (key : String) (default : Nat) : Setting :=
  ⟨key, limit64, default, "a number of seconds"⟩

def requeueDelay : Setting :=
  delay "REQUEUE_DELAY_SECONDS" 30

def errorDelay : Setting :=
  delay "ERROR_REQUEUE_SECONDS" 15

/-- In the order in which they are looked at. -/
def all : List Setting :=
  [port, requeueDelay, errorDelay]

variable {lookup : String → Option String} {s : Setting} {n : Nat}

/-- The number that the variables give a setting. -/
inductive Gives (s : Setting) (lookup : String → Option String) : Nat → Prop
  | unset (empty : ∀ text, lookup s.key = some text → text = "") : Gives s lookup s.default
  | set {text : String} {n : Nat} (set : lookup s.key = some text) (nonempty : text ≠ "")
    (denotes : Denotes text.toList n) (within : n ≤ s.limit) : Gives s lookup n

/-- The variable is set to nothing but the numeral of a number within the limit. -/
def Readable (s : Setting) (lookup : String → Option String) : Prop :=
  ∀ text, lookup s.key = some text → text ≠ "" → ∃ n, Denotes text.toList n ∧ n ≤ s.limit

def read (s : Setting) (lookup : String → Option String) : Except ConfigError Nat :=
  number lookup s.key s.message s.limit s.default

end Setting

variable {lookup : String → Option String} {key text : String} {s : Setting} {n : Nat}
  {c : Config} {e : ConfigError}

theorem nonEmpty_eq_some_iff : nonEmpty lookup key = some text ↔ lookup key = some text ∧ text ≠ "" := by
  simp [nonEmpty, Option.filter_eq_some_iff]

theorem nonEmpty_eq_none_iff :
    nonEmpty lookup key = none ↔ ∀ text, lookup key = some text → text = "" := by
  simp [nonEmpty, Option.filter_eq_none_iff]

theorem Setting.read_eq_ok_iff : s.read lookup = .ok n ↔ s.Gives lookup n := by
  unfold read number
  constructor
  · intro read
    split at read
    next unset =>
      obtain rfl := Except.ok.inj read
      exact .unset (nonEmpty_eq_none_iff.mp unset)
    next text found =>
      obtain ⟨set, nonempty⟩ := nonEmpty_eq_some_iff.mp found
      cases parsed : readNatural s.limit text.toList with
      | error cause =>
        rw [parsed] at read
        cases read
      | ok m =>
        rw [parsed] at read
        obtain rfl := Except.ok.inj read
        obtain ⟨denotes, within⟩ := readNatural_eq_ok_iff.mp parsed
        exact .set set nonempty denotes within
  · intro gives
    cases gives with
    | unset empty => rw [nonEmpty_eq_none_iff.mpr empty]
    | set set nonempty denotes within =>
      have parsed := readNatural_eq_ok_iff.mpr ⟨denotes, within⟩
      rw [nonEmpty_eq_some_iff.mpr ⟨set, nonempty⟩]
      simp only [parsed]
      rfl

/-- A setting without a number is not readable, and is answered for with its message. -/
theorem Setting.not_readable_of_read (failed : s.read lookup = .error e) :
    ¬ s.Readable lookup ∧ e.message = s.message := by
  unfold read number at failed
  split at failed
  next => cases failed
  next text found =>
    obtain ⟨set, nonempty⟩ := nonEmpty_eq_some_iff.mp found
    cases parsed : readNatural s.limit text.toList with
    | ok n =>
      rw [parsed] at failed
      cases failed
    | error cause =>
      rw [parsed] at failed
      obtain rfl := Except.error.inj failed
      refine ⟨?_, rfl⟩
      intro readable
      obtain ⟨n, numeral⟩ := readable text set nonempty
      cases parsed.symm.trans (readNatural_eq_ok_iff.mpr numeral)

theorem Setting.Gives.readable (gives : s.Gives lookup n) : s.Readable lookup := by
  intro text found nonempty
  cases gives with
  | unset empty => exact absurd (empty text found) nonempty
  | set set _ denotes within =>
    obtain rfl := Option.some.inj (set.symm.trans found)
    exact ⟨n, denotes, within⟩

theorem load_eq (lookup : String → Option String) : load lookup = (do
    let healthPort ← Setting.port.read lookup
    let requeueDelay ← Setting.requeueDelay.read lookup
    let errorDelay ← Setting.errorDelay.read lookup
    pure ⟨healthPort, requeueDelay, errorDelay, nonEmpty lookup "WATCH_NAMESPACE",
      ⟨nonEmpty lookup "SCALINGO_AUTH_URL", nonEmpty lookup "SCALINGO_API_URL",
        nonEmpty lookup "SCALINGO_DB_API_URL"⟩⟩) := rfl

/-- A text is taken just when the variable is set to one that is not empty. -/
def Takes (lookup : String → Option String) (key : String) (taken : Option String) : Prop :=
  ∀ text, taken = some text ↔ lookup key = some text ∧ text ≠ ""

theorem takes_iff {taken : Option String} : Takes lookup key taken ↔ taken = nonEmpty lookup key := by
  constructor
  · intro takes
    refine Option.ext fun text => ?_
    rw [takes text, nonEmpty_eq_some_iff]
  · rintro rfl text
    exact nonEmpty_eq_some_iff

/-- What the variables say of each setting. -/
structure Reads (lookup : String → Option String) (c : Config) : Prop where
  healthPort : Setting.port.Gives lookup c.healthPort
  requeueDelay : Setting.requeueDelay.Gives lookup c.requeueDelay
  errorDelay : Setting.errorDelay.Gives lookup c.errorDelay
  watchNamespace : Takes lookup "WATCH_NAMESPACE" c.watchNamespace
  auth : Takes lookup "SCALINGO_AUTH_URL" c.endpoints.auth
  api : Takes lookup "SCALINGO_API_URL" c.endpoints.api
  databaseApi : Takes lookup "SCALINGO_DB_API_URL" c.endpoints.databaseApi

/-- The first of the settings that is not readable. -/
def FirstUnreadable (lookup : String → Option String) (s : Setting) : Prop :=
  ∃ before after, Setting.all = before ++ s :: after ∧ (∀ t ∈ before, t.Readable lookup) ∧ ¬ s.Readable lookup

/-- The variables less those that are set to the empty text. -/
def withoutEmpty (lookup : String → Option String) (key : String) : Option String :=
  if lookup key = some "" then none else lookup key

theorem nonEmpty_withoutEmpty (lookup : String → Option String) (key : String) :
    nonEmpty (withoutEmpty lookup) key = nonEmpty lookup key := by
  unfold nonEmpty withoutEmpty
  split
  next empty =>
    rw [empty]
    rfl
  next => rfl

theorem number_withoutEmpty (lookup : String → Option String) (key message : String) (limit default : Nat) :
    number (withoutEmpty lookup) key message limit default = number lookup key message limit default := by
  unfold number
  rw [nonEmpty_withoutEmpty]

theorem load_withoutEmpty (lookup : String → Option String) : load (withoutEmpty lookup) = load lookup := by
  simp only [load, seconds, number_withoutEmpty, nonEmpty_withoutEmpty]

theorem load_eq_ok_iff : load lookup = .ok c ↔ Reads lookup c := by
  rw [load_eq]
  constructor
  · intro loaded
    obtain ⟨healthPort, first, loaded⟩ := except_bind_eq_ok_iff.mp loaded
    obtain ⟨requeueDelay, second, loaded⟩ := except_bind_eq_ok_iff.mp loaded
    obtain ⟨errorDelay, third, loaded⟩ := except_bind_eq_ok_iff.mp loaded
    obtain rfl := Except.ok.inj loaded
    exact
      { healthPort := Setting.read_eq_ok_iff.mp first
        requeueDelay := Setting.read_eq_ok_iff.mp second
        errorDelay := Setting.read_eq_ok_iff.mp third
        watchNamespace := takes_iff.mpr rfl
        auth := takes_iff.mpr rfl
        api := takes_iff.mpr rfl
        databaseApi := takes_iff.mpr rfl }
  · intro reads
    rw [Setting.read_eq_ok_iff.mpr reads.healthPort, Setting.read_eq_ok_iff.mpr reads.requeueDelay,
      Setting.read_eq_ok_iff.mpr reads.errorDelay, ← takes_iff.mp reads.watchNamespace,
      ← takes_iff.mp reads.auth, ← takes_iff.mp reads.api, ← takes_iff.mp reads.databaseApi]
    rfl

theorem firstUnreadable_of_load (failed : load lookup = .error e) :
    ∃ s, FirstUnreadable lookup s ∧ e.message = s.message := by
  rw [load_eq] at failed
  rcases except_bind_eq_error_iff.mp failed with failed | ⟨healthPort, read, failed⟩
  · obtain ⟨unreadable, named⟩ := Setting.not_readable_of_read failed
    exact ⟨.port, ⟨[], [.requeueDelay, .errorDelay], rfl, by simp, unreadable⟩, named⟩
  have port := (Setting.read_eq_ok_iff.mp read).readable
  rcases except_bind_eq_error_iff.mp failed with failed | ⟨requeueDelay, read, failed⟩
  · obtain ⟨unreadable, named⟩ := Setting.not_readable_of_read failed
    exact ⟨.requeueDelay, ⟨[.port], [.errorDelay], rfl, by simp [port], unreadable⟩, named⟩
  have requeue := (Setting.read_eq_ok_iff.mp read).readable
  rcases except_bind_eq_error_iff.mp failed with failed | ⟨errorDelay, read, failed⟩
  · obtain ⟨unreadable, named⟩ := Setting.not_readable_of_read failed
    exact ⟨.errorDelay, ⟨[.port, .requeueDelay], [], rfl, by simp [port, requeue], unreadable⟩, named⟩
  cases failed

theorem exists_load_iff : (∃ c, load lookup = .ok c) ↔ ∀ s ∈ Setting.all, s.Readable lookup := by
  constructor
  · rintro ⟨c, loaded⟩
    have reads := load_eq_ok_iff.mp loaded
    simp [Setting.all, reads.healthPort.readable, reads.requeueDelay.readable, reads.errorDelay.readable]
  · intro readable
    cases outcome : load lookup with
    | ok c => exact ⟨c, rfl⟩
    | error e =>
      obtain ⟨s, ⟨before, after, split, -, unreadable⟩, -⟩ := firstUnreadable_of_load outcome
      have mem : s ∈ Setting.all := by simp [split]
      exact absurd (readable s mem) unreadable

/-- The program has settings just when each number is the numeral of one within its limit, or not set to
anything, and then they are the ones that the variables denote; otherwise it answers for the first number that
is not. A variable that is set to the empty text is as good as not set. -/
theorem load_decides (lookup : String → Option String) :
    ((∃ c, load lookup = .ok c) ↔ ∀ s ∈ Setting.all, s.Readable lookup) ∧
      (∀ c, load lookup = .ok c ↔ Reads lookup c) ∧
      (∀ e, load lookup = .error e → ∃ s, FirstUnreadable lookup s ∧ e.message = s.message) ∧
      load (withoutEmpty lookup) = load lookup := by
  refine ⟨exists_load_iff, fun c => load_eq_ok_iff, ?_, load_withoutEmpty lookup⟩
  intro e failed
  exact firstUnreadable_of_load failed

end Config

end DatabaseOperator
