import DatabaseOperator.Proofs.Text.Utf8
import DatabaseOperator.Text.Percent

namespace DatabaseOperator

open String (utf8EncodeChar)

/-- The bytes of characters in UTF-8. -/
def utf8 (cs : List Char) : List UInt8 :=
  cs.flatMap utf8EncodeChar

theorem utf8_cons (c : Char) (cs : List Char) : utf8 (c :: cs) = utf8EncodeChar c ++ utf8 cs :=
  List.flatMap_cons

theorem utf8_append (cs ds : List Char) : utf8 (cs ++ ds) = utf8 cs ++ utf8 ds :=
  List.flatMap_append

theorem utf8Bytes_singleton (c : Char) : utf8Bytes (String.singleton c) = utf8EncodeChar c := by
  rw [utf8Bytes_eq_flatMap, String.toList_singleton, List.flatMap_cons, List.flatMap_nil, List.append_nil]

theorem length_utf8EncodeChar_pos (c : Char) : 0 < (utf8EncodeChar c).length :=
  List.length_pos_iff.mpr String.utf8EncodeChar_ne_nil

namespace Percent

/-- The text begins with a percent sign and two hexadecimal digits. -/
def IsEscape : List Char → Prop
  | c :: a :: b :: _ => c = '%' ∧ (hexDigit? a).isSome ∧ (hexDigit? b).isSome
  | _ => False

/-- No percent sign of the text is followed by two hexadecimal digits. -/
def Unescaped : List Char → Prop
  | [] => True
  | c :: rest => ¬ IsEscape (c :: rest) ∧ Unescaped rest

variable {c : Char} {cs rest : List Char}

theorem decode_of_not_isEscape (plain : ¬ IsEscape (c :: rest)) :
    decode (c :: rest) = utf8EncodeChar c ++ decode rest := by
  have single : decode (c :: rest) = utf8Bytes (String.singleton c) ++ decode rest := by
    by_cases sign : c = '%'
    · subst sign
      match rest with
      | [] => rfl
      | [a] => rfl
      | a :: b :: tail =>
        rw [decode]
        split
        next x y first second => exact absurd ⟨rfl, by simp [first], by simp [second]⟩ plain
        next => rfl
    · rw [decode]
      exact fun _ _ _ same => absurd same sign
  rw [single, utf8Bytes_singleton]

/-- An escape stands for one byte. -/
theorem exists_of_isEscape (escape : IsEscape cs) : ∃ a b tail x, cs = '%' :: a :: b :: tail ∧
    (hexDigit? a).isSome ∧ (hexDigit? b).isSome ∧ ∀ tail, decode ('%' :: a :: b :: tail) = x :: decode tail := by
  match cs, escape with
  | _ :: a :: b :: tail, ⟨rfl, first, second⟩ =>
    obtain ⟨x, high⟩ := Option.isSome_iff_exists.mp first
    obtain ⟨y, low⟩ := Option.isSome_iff_exists.mp second
    refine ⟨a, b, tail, UInt8.ofNat (16 * x + y), rfl, first, second, fun tail => ?_⟩
    rw [decode, high, low]

theorem unescaped_of_not_mem (absent : '%' ∉ cs) : Unescaped cs := by
  induction cs with
  | nil => trivial
  | cons c rest ih =>
    refine ⟨fun escape => ?_, ih fun mem => absent (List.mem_cons_of_mem c mem)⟩
    obtain ⟨_, _, _, _, shape, -⟩ := exists_of_isEscape escape
    obtain rfl : c = '%' := (List.cons.inj shape).1
    exact absent List.mem_cons_self

theorem hexDigit?_digit (n : Nat) (small : n < 16) : hexDigit? (digit n) = some n := by
  have found : ∀ n < 16, hexDigit? (digit n) = some n := by decide
  exact found n small

theorem decode_escape (b : UInt8) (rest : List Char) : decode (escape b ++ rest) = b :: decode rest := by
  have bound : b.toNat < 256 := b.toNat_lt
  have same : 16 * (b.toNat / 16) + b.toNat % 16 = b.toNat := by omega
  change decode ('%' :: digit (b.toNat / 16) :: digit (b.toNat % 16) :: rest) = _
  rw [decode, hexDigit?_digit _ (by omega), hexDigit?_digit _ (by omega)]
  simp only [same, UInt8.ofNat_toNat]

theorem decode_escapes (bytes : List UInt8) (rest : List Char) :
    decode (bytes.flatMap escape ++ rest) = bytes ++ decode rest := by
  induction bytes with
  | nil => rfl
  | cons b bytes ih => rw [List.flatMap_cons, List.append_assoc, decode_escape, ih, List.cons_append]

theorem keptInPath_of_hexDigit? (hex : (hexDigit? c).isSome) : keptInPath c = true := by
  have found : ∀ n < 128, (hexDigit? (Char.ofNat n)).isSome → keptInPath (Char.ofNat n) = true := by decide
  have small : c.toNat < 128 := by
    unfold hexDigit? at hex
    simp only [Char.le_def, UInt32.le_iff_toNat_le] at hex
    split at hex
    next bounds => exact Nat.lt_of_le_of_lt bounds.2 (by decide)
    next =>
      split at hex
      next bounds => exact Nat.lt_of_le_of_lt bounds.2 (by decide)
      next =>
        split at hex
        next bounds => exact Nat.lt_of_le_of_lt bounds.2 (by decide)
        next => cases hex
  have kept := found c.toNat small
  rw [Char.ofNat_toNat] at kept
  exact kept hex

theorem encode_cons_of_kept {keep : Char → Bool} (kept : keep c = true) :
    encode keep (c :: rest) = c :: encode keep rest := by
  rw [encode, List.flatMap_cons, if_pos kept]
  rfl

theorem encode_cons_of_not_kept {keep : Char → Bool} (escaped : ¬ keep c = true) :
    encode keep (c :: rest) = (utf8EncodeChar c).flatMap escape ++ encode keep rest := by
  rw [encode, List.flatMap_cons, if_neg escaped, utf8Bytes_singleton]
  rfl

/-- A hexadecimal digit stands in no escape but one that was there, for those that are added begin with a sign. -/
theorem exists_of_encode_eq_cons {a : Char} {tail : List Char} (shape : encode keptInPath cs = a :: tail)
    (hex : (hexDigit? a).isSome) : ∃ ds, cs = a :: ds ∧ tail = encode keptInPath ds := by
  cases cs with
  | nil => cases shape
  | cons d ds =>
    by_cases kept : keptInPath d = true
    · rw [encode_cons_of_kept kept] at shape
      obtain ⟨rfl, rfl⟩ := List.cons.inj shape
      exact ⟨ds, rfl, rfl⟩
    · rw [encode_cons_of_not_kept kept] at shape
      cases bytes : utf8EncodeChar d with
      | nil => exact absurd bytes String.utf8EncodeChar_ne_nil
      | cons x xs =>
        rw [bytes] at shape
        obtain rfl : '%' = a := (List.cons.inj shape).1
        cases hex

theorem isEscape_of_encode (escape : IsEscape (c :: encode keptInPath rest)) : IsEscape (c :: rest) := by
  obtain ⟨a, b, tail, x, shape, first, second, -⟩ := exists_of_isEscape escape
  obtain ⟨rfl, later⟩ := List.cons.inj shape
  obtain ⟨ds, rfl, following⟩ := exists_of_encode_eq_cons later first
  obtain ⟨es, rfl, -⟩ := exists_of_encode_eq_cons following.symm second
  exact ⟨rfl, first, second⟩

/-- The escapes that are added are undone again. -/
theorem decode_encode (cs : List Char) : decode (encode keptInPath cs) = decode cs := by
  induction size : cs.length using Nat.strongRecOn generalizing cs with
  | ind n ih =>
    subst size
    cases cs with
    | nil => rfl
    | cons c rest =>
      have later : decode (encode keptInPath rest) = decode rest := ih _ (Nat.lt_succ_self _) rest rfl
      by_cases escape : IsEscape (c :: rest)
      · obtain ⟨a, b, tail, x, shape, first, second, undone⟩ := exists_of_isEscape escape
        have same : decode (encode keptInPath tail) = decode tail := by
          refine ih tail.length ?_ tail rfl
          rw [shape]
          simp only [List.length_cons]
          omega
        rw [shape, undone, encode_cons_of_kept (by decide), encode_cons_of_kept (keptInPath_of_hexDigit? first),
          encode_cons_of_kept (keptInPath_of_hexDigit? second), undone, same]
      · rw [decode_of_not_isEscape escape]
        by_cases kept : keptInPath c = true
        · rw [encode_cons_of_kept kept, decode_of_not_isEscape (mt isEscape_of_encode escape), later]
        · rw [encode_cons_of_not_kept kept, decode_escapes, later]

theorem decode_of_unescaped (plain : Unescaped cs) : decode cs = utf8 cs := by
  induction cs with
  | nil => rfl
  | cons c rest ih => rw [decode_of_not_isEscape plain.1, ih plain.2, utf8_cons]

/-- Only an escape makes bytes fewer: it stands for one, and is written with three. -/
theorem length_decode (cs : List Char) : (decode cs).length ≤ (utf8 cs).length ∧
    ((decode cs).length = (utf8 cs).length → Unescaped cs) := by
  induction size : cs.length using Nat.strongRecOn generalizing cs with
  | ind n ih =>
    subst size
    cases cs with
    | nil => exact ⟨Nat.le_refl _, fun _ => trivial⟩
    | cons c rest =>
      by_cases escape : IsEscape (c :: rest)
      · obtain ⟨a, b, tail, x, shape, -, -, undone⟩ := exists_of_isEscape escape
        rw [shape] at ih ⊢
        have fewer := (ih tail.length (by simp only [List.length_cons]; omega) tail rfl).1
        have sign := length_utf8EncodeChar_pos '%'
        have high := length_utf8EncodeChar_pos a
        have low := length_utf8EncodeChar_pos b
        simp only [undone, utf8_cons, List.length_cons, List.length_append]
        constructor
        · omega
        · intro same
          omega
      · obtain ⟨fewer, plain⟩ := ih rest.length (Nat.lt_succ_self _) rest rfl
        rw [decode_of_not_isEscape escape, utf8_cons, List.length_append, List.length_append]
        refine ⟨by omega, fun same => ⟨escape, plain ?_⟩⟩
        omega

end Percent

end DatabaseOperator
