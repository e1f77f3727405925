import DatabaseOperator.Text.Base64

namespace DatabaseOperator

namespace Base64

theorem letter_mem (n : Nat) : letter n ∈ alphabet := by
  unfold letter
  rw [List.getD_eq_getElem?_getD]
  cases found : alphabet[n]? with
  | none => decide
  | some c => exact List.mem_of_getElem? found

/-- Every letter of an encoding is one of the alphabet, or fills it up. -/
theorem forall_mem_encode (bytes : List UInt8) : ∀ c ∈ encode bytes, c ∈ '=' :: alphabet := by
  fun_induction encode bytes with
  | case1 => exact fun _ => nofun
  | case2 a n | case3 a b n =>
    simp only [List.mem_cons, List.not_mem_nil, or_false]
    rintro c (rfl | rfl | rfl | rfl) <;> simp [letter_mem]
  | case4 a b c rest n ih =>
    simp only [List.mem_cons] at ih ⊢
    rintro d (rfl | rfl | rfl | rfl | later)
    · exact .inr (letter_mem _)
    · exact .inr (letter_mem _)
    · exact .inr (letter_mem _)
    · exact .inr (letter_mem _)
    · exact ih d later

theorem letter_ne_pad (n : Nat) : letter n ≠ '=' := fun pad =>
  absurd (pad ▸ letter_mem n) (by decide)

theorem value?_letter : ∀ n < 64, value? (letter n) = some n := by
  decide +kernel

theorem ofNat_eq {n : Nat} {a : UInt8} (h : n % 256 = a.toNat) : UInt8.ofNat n = a := by
  apply UInt8.toNat_inj.mp
  rw [UInt8.toNat_ofNat']
  exact h

/-- What is written is read. -/
theorem decode_encode (bytes : List UInt8) : decode (encode bytes) = some bytes := by
  fun_induction encode bytes with
  | case1 => rfl
  | case2 a n =>
    have small := a.toNat_lt
    have first : value? (letter (n / 4)) = some (n / 4) := value?_letter _ (by omega)
    have second : value? (letter (n % 4 * 16)) = some (n % 4 * 16) := value?_letter _ (by omega)
    have byte : UInt8.ofNat (n / 4 * 4 + n % 4 * 16 / 16) = a := ofNat_eq (by omega)
    have filled : n % 4 * 16 % 16 = 0 := by omega
    simp only [decode, first, second, Option.bind_eq_bind, Option.bind_some, filled, if_true, byte]
  | case3 a b n =>
    have small := a.toNat_lt
    have small' := b.toNat_lt
    have first : value? (letter (n / 1024)) = some (n / 1024) := value?_letter _ (by omega)
    have second : value? (letter (n / 16 % 64)) = some (n / 16 % 64) := value?_letter _ (by omega)
    have third : value? (letter (n % 16 * 4)) = some (n % 16 * 4) := value?_letter _ (by omega)
    have filled : n % 16 * 4 % 4 = 0 := by omega
    have byte : UInt8.ofNat (((n / 1024 * 64 + n / 16 % 64) * 64 + n % 16 * 4) / 1024) = a :=
      ofNat_eq (by omega)
    have byte' : UInt8.ofNat (((n / 1024 * 64 + n / 16 % 64) * 64 + n % 16 * 4) / 4) = b :=
      ofNat_eq (by omega)
    simp [decode, first, second, third, byte, byte', filled, letter_ne_pad]
  | case4 a b c rest n ih =>
    have small := a.toNat_lt
    have small' := b.toNat_lt
    have small'' := c.toNat_lt
    have whole : ((n / 262144 * 64 + n / 4096 % 64) * 64 + n / 64 % 64) * 64 + n % 64 = n := by omega
    have byte : UInt8.ofNat (n / 65536) = a := ofNat_eq (by omega)
    have byte' : UInt8.ofNat (n / 256) = b := ofNat_eq (by omega)
    have byte'' : UInt8.ofNat n = c := ofNat_eq (by omega)
    have first : value? (letter (n / 262144)) = some (n / 262144) := value?_letter _ (by omega)
    have second : value? (letter (n / 4096 % 64)) = some (n / 4096 % 64) := value?_letter _ (by omega)
    have third : value? (letter (n / 64 % 64)) = some (n / 64 % 64) := value?_letter _ (by omega)
    have fourth : value? (letter (n % 64)) = some (n % 64) := value?_letter _ (by omega)
    rw [decode]
    · simp only [first, second, third, fourth, Option.bind_eq_bind, Option.bind_some, whole, byte, byte',
        byte'', ih]
    · exact fun pad => absurd pad (letter_ne_pad _)
    · exact fun pad => absurd pad (letter_ne_pad _)

end Base64

theorem toList_loop (b : ByteArray) (i : Nat) (r : List UInt8) :
    ByteArray.toList.loop b i r = r.reverse ++ b.data.toList.drop i := by
  fun_induction ByteArray.toList.loop b i r with
  | case1 i r inside ih =>
    have byte : b.get! i = b.data.toList[i] := getElem!_pos b.data i inside
    rw [ih, List.drop_eq_getElem_cons (l := b.data.toList) inside, List.reverse_cons, List.append_assoc, byte]
    rfl
  | case2 i r past =>
    rw [List.drop_of_length_le (Nat.le_of_not_lt past), List.append_nil]

theorem utf8Bytes_eq (s : String) : utf8Bytes s = s.toByteArray.data.toList :=
  toList_loop s.toByteArray 0 []

/-- A text is what its bytes in UTF-8 spell, and no others spell it. -/
theorem ofUtf8Bytes?_eq_some_iff {bytes : List UInt8} {text : String} :
    ofUtf8Bytes? bytes = some text ↔ bytes = utf8Bytes text := by
  rw [utf8Bytes_eq, ofUtf8Bytes?, String.fromUTF8?]
  constructor
  · intro h
    split at h
    next =>
      cases h
      rfl
    next => cases h
  · rintro rfl
    exact dif_pos text.isValidUTF8

theorem utf8Bytes_injective : Function.Injective utf8Bytes := fun text text' same => by
  have spelled : ofUtf8Bytes? (utf8Bytes text) = some text := ofUtf8Bytes?_eq_some_iff.mpr rfl
  exact Option.some.inj (spelled.symm.trans (ofUtf8Bytes?_eq_some_iff.mpr same))

end DatabaseOperator
