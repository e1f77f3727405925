import DatabaseOperator.Json.Reader
import DatabaseOperator.Proofs.Text.Natural

namespace DatabaseOperator

/-- A numeral other than that of zero does not begin with a zero. -/
theorem head?_toDigits_ne {n : Nat} (pos : 0 < n) : (Nat.toDigits 10 n).head? ≠ some '0' := by
  induction n using Nat.strongRecOn with
  | ind n ih =>
    by_cases small : n < 10
    · have digits : ∀ d < 10, 0 < d → Nat.digitChar d ≠ '0' := by decide
      rw [Nat.toDigits_of_lt_base small]
      simpa using digits n small pos
    · have large : 10 ≤ n := Nat.le_of_not_lt small
      have first := ih (n / 10) (by omega) (by omega)
      rw [Nat.toDigits_of_base_le (by decide) large, List.head?_append]
      cases shape : (Nat.toDigits 10 (n / 10)).head? with
      | none => exact absurd (List.head?_eq_none_iff.mp shape) Nat.toDigits_ne_nil
      | some c =>
        rw [shape] at first
        simpa using first

theorem exists_toDigits (n : Nat) : ∃ c cs, Nat.toDigits 10 n = c :: cs ∧ c.isDigit = true := by
  cases shape : Nat.toDigits 10 n with
  | nil => exact absurd shape Nat.toDigits_ne_nil
  | cons c cs =>
    refine ⟨c, cs, rfl, ?_⟩
    exact Nat.isDigit_of_mem_toDigits (b := 10) (n := n) (by decide) (by decide) (shape ▸ List.mem_cons_self)

namespace Json

variable {n : Nat} {ds rest : List Char}

theorem readRun_eq (cs : List Char) : readRun cs = Time.takeDigits none cs := by
  induction cs with
  | nil => rfl
  | cons c rest ih =>
    unfold readRun Time.takeDigits
    cases digitValue? c with
    | none => rfl
    | some d => simp only [ih, Option.map_none]

/-- Nothing that follows goes on with a numeral. -/
def Ends (rest : List Char) : Prop :=
  ∀ c ∈ rest.head?, digitValue? c = none ∧ c ≠ '.' ∧ c ≠ 'e' ∧ c ≠ 'E'

theorem ends_nil : Ends [] := by
  simp [Ends]

theorem Ends.readDecimals (ends : Ends rest) : readDecimals rest = some (none, rest) := by
  unfold Json.readDecimals
  split
  next => exact absurd rfl (ends '.' rfl).2.1
  next => rfl

theorem Ends.readExponent (ends : Ends rest) : readExponent rest = some (none, rest) := by
  cases rest with
  | nil => rfl
  | cons c rest =>
    obtain ⟨-, -, small, capital⟩ := ends c rfl
    unfold Json.readExponent
    exact if_neg (by simp [small, capital])

/-- The digits of a numeral, as they are read. -/
def places (n : Nat) : List Nat :=
  Time.values (Nat.toDigits 10 n)

theorem readRun_toDigits (n : Nat) (ends : Ends rest) : readRun (Nat.toDigits 10 n ++ rest) = (places n, rest) := by
  rw [readRun_eq]
  refine Time.takeDigits_of_stop ?_ fun c mem => (ends c mem).1
  exact fun _ => Nat.isDigit_of_mem_toDigits (by decide) (by decide)

theorem places_ne_nil (n : Nat) : places n ≠ [] := by
  simp [places, Time.values, Nat.toDigits_ne_nil]

/-- No zero stands before other digits. -/
theorem places_ne_zero_cons (n d : Nat) (later : List Nat) : places n ≠ 0 :: d :: later := by
  intro same
  rcases Nat.eq_zero_or_pos n with rfl | pos
  · simp [places, Time.values] at same
  obtain ⟨c, cs, shape, digit⟩ := exists_toDigits n
  have zero : c.toNat - 48 = 0 := by
    rw [places, shape] at same
    exact (List.cons.inj same).1
  have least : c = '0' := by
    have bounds : 48 ≤ c.toNat ∧ c.toNat ≤ 57 := by
      simpa [Char.isDigit, Char.le_def, UInt32.le_iff_toNat_le] using digit
    have code : c.toNat = 48 := by omega
    exact Char.toNat_inj.mp code
  have first := head?_toDigits_ne pos
  rw [shape, least] at first
  exact first rfl

/-- What is behind the sign is read as digits alone. -/
theorem readNumeral_of_sign {text : List Char} {negative : Bool} (ends : Ends rest)
    (sign : (match text with
      | '-' :: cs => (true, cs)
      | cs => (false, cs)) = (negative, Nat.toDigits 10 n ++ rest)) :
    readNumeral text = some (⟨negative, places n, none, none⟩, rest) := by
  unfold readNumeral
  split
  next minus body signed =>
  obtain ⟨rfl, rfl⟩ := Prod.mk.inj (signed.symm.trans sign)
  simp only [readRun_toDigits n ends]
  split
  next none => exact absurd (Prod.mk.inj none).1 (places_ne_nil n)
  next zero => exact absurd (Prod.mk.inj zero).1 (places_ne_zero_cons n _ _)
  next same =>
    obtain ⟨rfl, rfl⟩ := Prod.mk.inj same
    simp only [Option.bind_eq_bind, Option.bind_some, ends.readDecimals, ends.readExponent]

theorem readNumeral_toDigits (n : Nat) (ends : Ends rest) :
    readNumeral (Nat.toDigits 10 n ++ rest) = some (⟨false, places n, none, none⟩, rest) := by
  refine readNumeral_of_sign ends ?_
  obtain ⟨c, cs, shape, digit⟩ := exists_toDigits n
  rw [shape, List.cons_append]
  split
  next negative =>
    rw [(List.cons.inj negative).1] at digit
    cases digit
  next => rfl

theorem readNumeral_minus (n : Nat) (ends : Ends rest) :
    readNumeral ('-' :: (Nat.toDigits 10 n ++ rest)) = some (⟨true, places n, none, none⟩, rest) :=
  readNumeral_of_sign ends rfl

theorem appendDigits_values {start : Nat} (fits : Nat.ofDigitChars 10 ds start ≤ Number.largest) :
    Number.appendDigits start (Time.values ds) = (Nat.ofDigitChars 10 ds start, []) := by
  induction ds generalizing start with
  | nil => rfl
  | cons c ds ih =>
    have above := le_ofDigitChars ds (10 * start + (c.toNat - '0'.toNat))
    rw [Nat.ofDigitChars_cons] at fits ⊢
    rw [Time.values, List.map_cons, Number.appendDigits, if_neg (by omega)]
    exact ih fits

theorem appendDigits_places (fits : n ≤ Number.largest) : Number.appendDigits 0 (places n) = (n, []) := by
  have same : Nat.ofDigitChars 10 (Nat.toDigits 10 n) 0 = n := Nat.ofDigitChars_ten_toDigits
  have fits : Nat.ofDigitChars 10 (Nat.toDigits 10 n) 0 ≤ Number.largest := by rwa [same]
  have read := appendDigits_values fits
  rwa [same] at read

theorem ofNumeral_places (fits : n ≤ Number.largest) :
    Number.ofNumeral ⟨false, places n, none, none⟩ = some (.whole n) := by
  simp [Number.ofNumeral, appendDigits_places fits]

theorem ofNumeral_minus (pos : 0 < n) (fits : n ≤ 0x8000000000000000) :
    Number.ofNumeral ⟨true, places n, none, none⟩ = some (.whole (-n)) := by
  have fewer : n ≤ Number.largest := Nat.le_trans fits (by decide)
  have within : 0 < n ∧ n ≤ 0x8000000000000000 := ⟨pos, fits⟩
  simp [Number.ofNumeral, appendDigits_places fewer, within]

/-- The text of a whole number that fits in 64 bits, signed when negative, is read as the number. -/
theorem readNumeral_whole {k : Int} (low : -0x8000000000000000 ≤ k) (high : k ≤ 0xffffffffffffffff) (ends : Ends rest) :
    ∃ x, readNumeral ((toString k).toList ++ rest) = some (x, rest) ∧ Number.ofNumeral x = some (.whole k) := by
  cases k with
  | ofNat n =>
    have fits : n ≤ Number.largest := by
      have small : (n : Int) ≤ 0xffffffffffffffff := high
      unfold Number.largest
      omega
    have text : (toString (Int.ofNat n)).toList = Nat.toDigits 10 n := Nat.toList_repr
    rw [text]
    exact ⟨_, readNumeral_toDigits n ends, ofNumeral_places fits⟩
  | negSucc n =>
    have fits : n + 1 ≤ 0x8000000000000000 := by omega
    have text : (toString (Int.negSucc n)).toList = '-' :: Nat.toDigits 10 (n + 1) := by
      change ("-" ++ (n + 1).repr).toList = _
      rw [String.toList_append, Nat.toList_repr]
      rfl
    rw [text]
    exact ⟨_, readNumeral_minus (n + 1) ends, ofNumeral_minus (Nat.succ_pos n) fits⟩

end Json

end DatabaseOperator
