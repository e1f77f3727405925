import DatabaseOperator.Proofs.Text.Base64

namespace DatabaseOperator

open String (utf8EncodeChar)

theorem utf8Bytes_ofList (cs : List Char) : utf8Bytes (String.ofList cs) = cs.flatMap utf8EncodeChar := by
  rw [utf8Bytes_eq, String.toByteArray_ofList, List.utf8Encode]
  simp

theorem utf8Bytes_eq_flatMap (s : String) : utf8Bytes s = s.toList.flatMap utf8EncodeChar := by
  rw [← utf8Bytes_ofList, String.ofList_toList]

/-- The bytes of two characters differ before one of them ends, and there the smaller character has the smaller
byte. -/
theorem utf8EncodeChar_lt {c d : Char} (less : c < d) (u v : List UInt8) :
    utf8EncodeChar c ++ u < utf8EncodeChar d ++ v := by
  have smaller : c.val.toNat < d.val.toNat := less
  have top : d.val.toNat < 1114112 := by
    have valid := d.valid
    rw [UInt32.isValidChar, Nat.isValidChar] at valid
    omega
  have byte (m n : Nat) : UInt8.ofNat m < UInt8.ofNat n ↔ m % 256 < n % 256 := by
    simp [UInt8.lt_iff_toNat_lt]
  have same (m n : Nat) : UInt8.ofNat m = UInt8.ofNat n ↔ m % 256 = n % 256 := by
    simp [← UInt8.toNat_inj]
  -- six bits a byte, so that each byte is a part of what the next ones leave over
  have twelve (k : Nat) : k / 4096 = k / 64 / 64 := by omega
  have eighteen (k : Nat) : k / 262144 = k / 64 / 64 / 64 := by omega
  unfold utf8EncodeChar
  generalize c.val.toNat = m at *
  generalize d.val.toNat = n at *
  dsimp only
  repeat' split
  all_goals
    simp only [List.cons_append, List.nil_append, List.cons_lt_cons_iff, byte, same, twelve, eighteen]
    omega

/-- The code points of a text. -/
def codePoints (s : String) : List Nat :=
  s.toList.map Char.toNat

theorem codePoints_lt {s t : String} (less : s < t) : codePoints s < codePoints t := by
  have less : s.toList < t.toList := less
  unfold codePoints
  generalize s.toList = cs at *
  generalize t.toList = ds at *
  induction less with
  | nil => exact List.nil_lt_cons _ _
  | cons _ ih =>
    rw [List.map_cons, List.map_cons, List.cons_lt_cons_iff]
    exact .inr ⟨rfl, ih⟩
  | rel less =>
    rw [List.map_cons, List.map_cons, List.cons_lt_cons_iff]
    exact .inl less

theorem utf8Bytes_lt {s t : String} (less : s < t) : utf8Bytes s < utf8Bytes t := by
  have less : s.toList < t.toList := less
  rw [utf8Bytes_eq_flatMap, utf8Bytes_eq_flatMap]
  generalize s.toList = cs at *
  generalize t.toList = ds at *
  induction less with
  | @nil d ds =>
    rw [List.flatMap_nil, List.flatMap_cons]
    cases first : utf8EncodeChar d with
    | nil => exact absurd first String.utf8EncodeChar_ne_nil
    | cons x rest => exact List.nil_lt_cons _ _
  | cons _ ih =>
    rw [List.flatMap_cons, List.flatMap_cons]
    exact List.append_left_lt ih
  | rel less =>
    rw [List.flatMap_cons, List.flatMap_cons]
    exact utf8EncodeChar_lt less _ _

/-- What keeps the order of texts keeps how they compare. -/
theorem compare_of_increasing {α : Type} [LT α] [DecidableLT α] [DecidableEq α]
    [Std.Asymm (α := α) (· < ·)] {f : String → List α} (increasing : ∀ {s t}, s < t → f s < f t)
    (s t : String) : compareOfLessAndEq (f s) (f t) = compareOfLessAndEq s t := by
  have total : s < t ∨ s = t ∨ t < s := by
    by_cases less : s < t
    · exact .inl less
    by_cases greater : t < s
    · exact .inr (.inr greater)
    · exact .inr (.inl (String.le_antisymm (String.not_lt.mp greater) (String.not_lt.mp less)))
  unfold compareOfLessAndEq
  rcases total with less | rfl | greater
  · rw [if_pos (increasing less), if_pos less]
  · have apart : ¬ f s < f s := fun less => List.lt_asymm less less
    rw [if_neg apart, if_neg (String.lt_irrefl s), if_pos rfl, if_pos rfl]
  · have apart : ¬ f s < f t := List.lt_asymm (increasing greater)
    have differ : f s ≠ f t := by
      intro same
      have less := increasing greater
      rw [same] at less
      exact List.lt_asymm less less
    have other : s ≠ t := by
      rintro rfl
      exact String.lt_irrefl s greater
    rw [if_neg apart, if_neg differ, if_neg (String.lt_asymm greater), if_neg other]

end DatabaseOperator
