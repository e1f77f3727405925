namespace DatabaseOperator

/-- The calls a program can make, and the type of what each of them answers. -/
structure Interface where
  Call : Type
  Answer : Call → Type

/-- A program over an interface. -/
inductive Dialogue (I : Interface) (α : Type) : Type
  | done (a : α)
  | ask (c : I.Call) (next : I.Answer c → Dialogue I α)

namespace Dialogue

variable {I : Interface} {α β γ : Type}

def bind : Dialogue I α → (α → Dialogue I β) → Dialogue I β
  | done a, f => f a
  | ask c next, f => ask c fun r => (next r).bind f

instance : Monad (Dialogue I) where
  pure := done
  bind := bind

/-- The program that makes one call and returns its answer. -/
def call (c : I.Call) : Dialogue I (I.Answer c) :=
  ask c done

/-- Runs a program by answering every call in the monad of the answering side. -/
def serve {m : Type → Type} [Monad m] (answer : (c : I.Call) → m (I.Answer c)) :
    Dialogue I α → m α
  | done a => pure a
  | ask c next => do
    let r ← answer c
    (next r).serve answer

@[simp]
theorem pure_eq (a : α) : (pure a : Dialogue I α) = done a := rfl

@[simp]
theorem bind_eq (x : Dialogue I α) (f : α → Dialogue I β) : x >>= f = x.bind f := rfl

@[simp]
theorem done_bind (a : α) (f : α → Dialogue I β) : (done a).bind f = f a := rfl

@[simp]
theorem ask_bind (c : I.Call) (next : I.Answer c → Dialogue I α) (f : α → Dialogue I β) :
    (ask c next).bind f = ask c fun r => (next r).bind f := rfl

@[simp]
theorem bind_done (x : Dialogue I α) : x.bind done = x := by
  induction x with
  | done => rfl
  | ask c next ih => simp [ih]

theorem bind_assoc (x : Dialogue I α) (f : α → Dialogue I β) (g : β → Dialogue I γ) :
    (x.bind f).bind g = x.bind fun a => (f a).bind g := by
  induction x with
  | done => rfl
  | ask c next ih => simp [ih]

instance : LawfulMonad (Dialogue I) :=
  LawfulMonad.mk' (Dialogue I) bind_done (fun _ _ => rfl) bind_assoc

end Dialogue

end DatabaseOperator
