import Mathlib.Data.List.Forall2

namespace DatabaseOperator

variable {α β γ ε : Type}

/-- A list of results is a result when work has one exactly when both of its parts have. -/
theorem mapM_eq_pure_iff {m : Type → Type} [Monad m] [LawfulMonad m] {f : α → m β}
    (split : ∀ {σ τ : Type} {x : m σ} {g : σ → m τ} {t : τ},
      x >>= g = pure t ↔ ∃ s, x = pure s ∧ g s = pure t)
    (pure_inj : ∀ {σ : Type} {s t : σ}, (pure s : m σ) = pure t ↔ s = t) {l : List α} {l' : List β} :
    l.mapM f = pure l' ↔ List.Forall₂ (fun a b => f a = pure b) l l' := by
  induction l generalizing l' with
  | nil => rw [List.mapM_nil, pure_inj, List.forall₂_nil_left_iff, eq_comm]
  | cons a l ih =>
    simp only [List.mapM_cons, split, pure_inj, ih, List.forall₂_cons_left_iff]
    constructor
    · rintro ⟨b, first, rest, later, rfl⟩
      exact ⟨b, rest, first, later, rfl⟩
    · rintro ⟨b, rest, first, later, rfl⟩
      exact ⟨b, first, rest, later, rfl⟩

theorem mapM_eq_some_iff {f : α → Option β} {l : List α} {l' : List β} :
    l.mapM f = some l' ↔ List.Forall₂ (fun a b => f a = some b) l l' :=
  mapM_eq_pure_iff Option.bind_eq_some_iff Option.some_inj

/-- What is written element by element is read element by element. -/
theorem mapM_map_eq_some {f : β → α} {g : α → Option β} {l : List β} (h : ∀ b, g (f b) = some b) :
    (l.map f).mapM g = some l :=
  mapM_eq_some_iff.mpr (List.forall₂_map_left_iff.mpr (List.forall₂_same.mpr fun b _ => h b))

theorem mapM_eq_ok_iff {f : α → Except ε β} {l : List α} {l' : List β} :
    l.mapM f = .ok l' ↔ List.Forall₂ (fun a b => f a = .ok b) l l' :=
  mapM_eq_pure_iff (fun {_ _ x _ _} => by cases x <;> simp [bind, Except.bind, pure, Except.pure])
    (by simp [pure, Except.pure])

theorem exists_forall₂_iff {R : α → β → Prop} {S : β → γ → Prop} {l : List α} {n : List γ} :
    (∃ m, List.Forall₂ R l m ∧ List.Forall₂ S m n) ↔
      List.Forall₂ (fun a c => ∃ b, R a b ∧ S b c) l n := by
  constructor
  · rintro ⟨m, first, second⟩
    induction first generalizing n with
    | nil => cases second; exact .nil
    | cons r _ ih =>
      cases second with
      | cons s second => exact .cons ⟨_, r, s⟩ (ih second)
  · intro h
    induction h with
    | nil => exact ⟨[], .nil, .nil⟩
    | cons both _ ih =>
      obtain ⟨b, r, s⟩ := both
      obtain ⟨m, first, second⟩ := ih
      exact ⟨b :: m, .cons r first, .cons s second⟩

theorem exists_forall₂_left_iff {R : α → β → Prop} {l : List α} :
    (∃ m, List.Forall₂ R l m) ↔ ∀ a ∈ l, ∃ b, R a b := by
  constructor
  · rintro ⟨m, h⟩ a mem
    induction h with
    | nil => cases mem
    | cons r _ ih =>
      rcases List.mem_cons.mp mem with rfl | later
      · exact ⟨_, r⟩
      · exact ih later
  · intro h
    induction l with
    | nil => exact ⟨[], .nil⟩
    | cons a l ih =>
      obtain ⟨b, r⟩ := h a List.mem_cons_self
      obtain ⟨m, rest⟩ := ih fun a mem => h a (List.mem_cons_of_mem _ mem)
      exact ⟨b :: m, .cons r rest⟩

end DatabaseOperator
