import DatabaseOperator.Error

namespace DatabaseOperator

/-- What a failure is about, below all steps. -/
inductive Origin
  | invalid (cause : ValidationError)
  | empty (field : String)
  | precondition (message : String)
  | provider (cause : ProviderError)
  | store (cause : StoreError)
  deriving DecidableEq

namespace Origin

/-- Something remote or stored is missing. -/
def Missing : Origin → Prop
  | provider (.notFound _) => True
  | store (.notFound _) => True
  | _ => False

/-- A write lost against another one. -/
def Conflicting : Origin → Prop
  | store (.conflict _) => True
  | _ => False

/-- The failure is one of a library, which may give causes of its own. -/
def Outer : Origin → Prop
  | provider .transport => True
  | store (.cluster _) => True
  | store .serialization => True
  | _ => False

theorem Missing.not_conflicting {o : Origin} (h : o.Missing) : ¬ o.Conflicting := by
  intro conflicting
  cases o with
  | store cause =>
    cases cause with
    | conflict => exact h
    | _ => exact conflicting
  | _ => exact conflicting

end Origin

namespace Error

def origin : Error → Origin
  | invalid cause => .invalid cause
  | empty field => .empty field
  | precondition message => .precondition message
  | provider _ cause => .provider cause
  | store _ cause => .store cause
  | phase _ cause => cause.origin

theorem isNotFound_iff (e : Error) : e.isNotFound = true ↔ e.origin.Missing := by
  induction e with
  | invalid | empty | precondition => exact iff_of_false nofun id
  | provider _ cause => cases cause <;> simp [isNotFound, origin, Origin.Missing]
  | store _ cause => cases cause <;> simp [isNotFound, origin, Origin.Missing]
  | phase _ cause ih => exact ih

theorem isConflict_iff (e : Error) : e.isConflict = true ↔ e.origin.Conflicting := by
  induction e with
  | invalid | empty | precondition | provider => exact iff_of_false nofun id
  | store _ cause => cases cause <;> simp [isConflict, origin, Origin.Conflicting]
  | phase _ cause ih => exact ih

end Error

/-- The failures that a step can be named for. -/
inductive Failure
  | invalid (e : ValidationError)
  | provider (e : ProviderError)
  | store (e : StoreError)
  | general (e : Error)

namespace Failure

variable {α : Type} {l : Libraries}

def wrap (action : String) : Failure → Error
  | invalid e => Wrap.wrap action e
  | provider e => Wrap.wrap action e
  | store e => Wrap.wrap action e
  | general e => Wrap.wrap action e

def origin : Failure → Origin
  | invalid e => .invalid e
  | provider e => .provider e
  | store e => .store e
  | general e => e.origin

def text (l : Libraries) : Failure → String
  | invalid e => e.message
  | provider e => e.text l
  | store e => e.text l
  | general e => e.text l

def causes (l : Libraries) : Failure → List String
  | invalid _ => []
  | provider e => e.causes l
  | store e => e.causes l
  | general e => e.causes l

/-- A failure in several steps, the innermost first. -/
def wrapAll (actions : List String) (f : Failure) : Failure :=
  actions.foldl (fun f action => .general (f.wrap action)) f

/-- A result in several steps, the innermost first. -/
def wrapResult (actions : List String) (r : Except Failure α) : Except Failure α :=
  actions.foldl (fun r action => r.mapError fun f => .general (f.wrap action)) r

/-- A text behind the names of steps, the outermost first. -/
def behind : List String → String → String
  | [], text => text
  | action :: rest, text => action ++ ": " ++ behind rest text

/-- The texts that are left when one step after the other is dropped, the outermost first. -/
def suffixes : List String → String → List String
  | [], _ => []
  | _ :: rest, text => behind rest text :: suffixes rest text

theorem origin_wrap (action : String) (f : Failure) : (f.wrap action).origin = f.origin := by
  cases f <;> rfl

theorem text_wrap (action : String) (f : Failure) :
    (f.wrap action).text l = action ++ ": " ++ f.text l := by
  cases f <;> rfl

/-- Directly below a step is the failure itself. -/
theorem causes_wrap (action : String) (f : Failure) :
    (f.wrap action).causes l = f.text l :: f.causes l := by
  cases f <;> rfl

theorem behind_append (outer inner : List String) (text : String) :
    behind (outer ++ inner) text = behind outer (behind inner text) := by
  induction outer with
  | nil => rfl
  | cons action rest ih => exact congrArg (action ++ ": " ++ ·) ih

theorem suffixes_append (outer inner : List String) (text : String) :
    suffixes (outer ++ inner) text = suffixes outer (behind inner text) ++ suffixes inner text := by
  induction outer with
  | nil => rfl
  | cons action rest ih =>
    rw [List.cons_append, suffixes, behind_append, ih]
    rfl

theorem wrapResult_ok (actions : List String) (a : α) : wrapResult actions (.ok a) = .ok a := by
  induction actions with
  | nil => rfl
  | cons action rest ih => exact ih

theorem wrapResult_error (actions : List String) (f : Failure) :
    wrapResult actions (.error f : Except Failure α) = .error (f.wrapAll actions) := by
  induction actions generalizing f with
  | nil => rfl
  | cons action rest ih => exact ih _

/-- A failure `g` that is `f` in several steps. It keeps what `f` is about, its text is that of `f` behind
the steps, and below it is what is left when one step after the other is dropped, and then what is below
`f` itself. -/
structure Wrapped (l : Libraries) (actions : List String) (f g : Failure) : Prop where
  origin : g.origin = f.origin
  text : g.text l = behind actions.reverse (f.text l)
  causes : g.causes l = suffixes actions.reverse (f.text l) ++ f.causes l

theorem wrapped_wrapAll (actions : List String) (f : Failure) :
    Wrapped l actions f (f.wrapAll actions) := by
  induction actions generalizing f with
  | nil => exact ⟨rfl, rfl, rfl⟩
  | cons action rest ih =>
    obtain ⟨origin, text, causes⟩ := ih (.general (f.wrap action))
    have first : (general (f.wrap action)).text l = behind [action] (f.text l) := text_wrap action f
    have below : (general (f.wrap action)).causes l = suffixes [action] (f.text l) ++ f.causes l :=
      causes_wrap action f
    refine ⟨origin.trans (origin_wrap action f), ?_, ?_⟩
    · rw [List.reverse_cons, behind_append, ← first]
      exact text
    · rw [List.reverse_cons, suffixes_append, ← first, List.append_assoc, ← below]
      exact causes

/-- Only failures of libraries have causes of their own. -/
theorem outer_of_causes {f : Failure} (bare : ∀ e, f ≠ .general e) (below : f.causes l ≠ []) :
    f.origin.Outer := by
  cases f with
  | invalid => exact absurd rfl below
  | provider e =>
    cases e with
    | transport => trivial
    | _ => exact absurd rfl below
  | store e =>
    cases e with
    | cluster | serialization => trivial
    | _ => exact absurd rfl below
  | general e => exact absurd rfl (bare e)

/-- What a failure in several steps is taken for: a lack or a lost write exactly where the failure below
all steps is one. -/
structure Judged (f : Failure) (e : Error) : Prop where
  notFound_iff : e.isNotFound = true ↔ f.origin.Missing
  conflict_iff : e.isConflict = true ↔ f.origin.Conflicting
  exclusive : ¬ (e.isNotFound = true ∧ e.isConflict = true)

theorem judged_of_origin {f : Failure} {e : Error} (same : e.origin = f.origin) : Judged f e where
  notFound_iff := same ▸ e.isNotFound_iff
  conflict_iff := same ▸ e.isConflict_iff
  exclusive := fun ⟨missing, conflicting⟩ =>
    (e.isNotFound_iff.mp missing).not_conflicting (e.isConflict_iff.mp conflicting)

/-- Naming the steps of a failure keeps its kind and makes up its text, and leaves a success as it is. -/
theorem wrapping_keeps (l : Libraries) (actions : List String) (f : Failure) :
    Wrapped l actions f (f.wrapAll actions) ∧
      (∀ e, f.wrapAll actions = .general e → Judged f e) ∧
      ((∀ e, f ≠ .general e) → f.causes l ≠ [] → f.origin.Outer) ∧
      (∀ α : Type, wrapResult actions (.error f : Except Failure α) = .error (f.wrapAll actions)) ∧
      ∀ (α : Type) (a : α), wrapResult actions (.ok a) = .ok a := by
  have wrapped : Wrapped l actions f (f.wrapAll actions) := wrapped_wrapAll actions f
  refine ⟨wrapped, fun e general => judged_of_origin ?_, outer_of_causes,
    fun _ => wrapResult_error actions f, fun _ => wrapResult_ok actions⟩
  have same : (f.wrapAll actions).origin = f.origin := wrapped.origin
  rw [general] at same
  exact same

end Failure

end DatabaseOperator
