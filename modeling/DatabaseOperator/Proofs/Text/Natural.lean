import DatabaseOperator.Proofs.Calendar
import DatabaseOperator.Text.Natural

namespace DatabaseOperator

variable {limit n m : Nat} {text ds : List Char}

/-- The text is an optional plus sign and ASCII digits, at least one, that denote `n`. -/
inductive Denotes : List Char → Nat → Prop
  | digits {ds : List Char} (nonempty : ds ≠ []) (digit : ∀ c ∈ ds, c.isDigit = true) :
    Denotes ds (Nat.ofDigitChars 10 ds 0)
  | signed {ds : List Char} (nonempty : ds ≠ []) (digit : ∀ c ∈ ds, c.isDigit = true) :
    Denotes ('+' :: ds) (Nat.ofDigitChars 10 ds 0)

theorem isDigit_of_digitValue? {c : Char} {d : Nat} (h : digitValue? c = some d) :
    c.isDigit = true ∧ d = c.toNat - '0'.toNat := by
  unfold digitValue? at h
  split at h
  next bounds =>
    have digit : c.isDigit = true := by simpa [Char.isDigit, Char.le_def] using bounds
    exact ⟨digit, (Option.some.inj h).symm⟩
  next => cases h

/-- Digits that follow make no number smaller. -/
theorem le_ofDigitChars (ds : List Char) (start : Nat) : start ≤ Nat.ofDigitChars 10 ds start := by
  induction ds generalizing start with
  | nil => exact Nat.le_refl start
  | cons c ds ih =>
    have later := ih (10 * start + (c.toNat - '0'.toNat))
    rw [Nat.ofDigitChars_cons]
    omega

theorem readDigits_eq_ok_iff {start : Nat} (fits : start ≤ limit) :
    readDigits limit start ds = .ok n ↔
      (∀ c ∈ ds, c.isDigit = true) ∧ Nat.ofDigitChars 10 ds start = n ∧ n ≤ limit := by
  induction ds generalizing start with
  | nil =>
    constructor
    · intro read
      obtain rfl := Except.ok.inj read
      exact ⟨by simp, rfl, fits⟩
    · rintro ⟨-, rfl, -⟩
      rfl
  | cons c ds ih =>
    rw [readDigits, List.forall_mem_cons, Nat.ofDigitChars_cons]
    cases value : digitValue? c with
    | none =>
      have other : ¬ c.isDigit = true := by
        intro digit
        cases value.symm.trans (Time.digitValue?_of_isDigit digit)
      simp [other]
    | some d =>
      obtain ⟨digit, rfl⟩ := isDigit_of_digitValue? value
      simp only
      split
      next exceeded =>
        have above := le_ofDigitChars ds (10 * start + (c.toNat - '0'.toNat))
        constructor
        · intro read
          cases read
        · rintro ⟨-, rfl, within⟩
          omega
      next within =>
        rw [ih (Nat.le_of_not_lt within)]
        simp [digit]

theorem readNatural_eq_ok_iff : readNatural limit text = .ok n ↔ Denotes text n ∧ n ≤ limit := by
  have start : 0 ≤ limit := Nat.zero_le limit
  constructor
  · intro read
    unfold readNatural at read
    split at read
    next => cases read
    next => cases read
    next rest nonempty =>
      obtain ⟨digit, rfl, within⟩ := (readDigits_eq_ok_iff start).mp read
      exact ⟨.signed nonempty digit, within⟩
    next nonempty _ _ =>
      obtain ⟨digit, rfl, within⟩ := (readDigits_eq_ok_iff start).mp read
      exact ⟨.digits nonempty digit, within⟩
  · rintro ⟨denotes, within⟩
    cases denotes with
    | digits nonempty digit =>
      have read := (readDigits_eq_ok_iff start).mpr ⟨digit, rfl, within⟩
      unfold readNatural
      split
      next => exact absurd rfl nonempty
      next => exact absurd (digit '+' List.mem_cons_self) (by decide)
      next => exact absurd (digit '+' List.mem_cons_self) (by decide)
      next => exact read
    | signed nonempty digit =>
      have read := (readDigits_eq_ok_iff start).mpr ⟨digit, rfl, within⟩
      unfold readNatural
      split
      next empty => cases empty
      next single => exact absurd (List.cons.inj single).2 nonempty
      next rest _ same =>
        rw [← (List.cons.inj same).2]
        exact read
      next unsigned => exact absurd rfl (unsigned _)

/-- A text denotes one number at most. -/
theorem Denotes.unique (first : Denotes text n) (second : Denotes text m) : n = m := by
  have one := readNatural_eq_ok_iff.mpr ⟨first, Nat.le_max_left n m⟩
  have other := readNatural_eq_ok_iff.mpr ⟨second, Nat.le_max_right n m⟩
  exact Except.ok.inj (one.symm.trans other)

end DatabaseOperator
