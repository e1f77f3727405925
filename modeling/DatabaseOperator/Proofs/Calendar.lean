import DatabaseOperator.Calendar

namespace DatabaseOperator

namespace Time

variable {n width : Nat} {ds rest : List Char}

theorem digitValue?_of_isDigit {c : Char} (h : c.isDigit = true) :
    digitValue? c = some (c.toNat - '0'.toNat) := by
  have bounds : '0' ≤ c ∧ c ≤ '9' := by simpa [Char.isDigit, Char.le_def] using h
  exact if_pos bounds

theorem isBlank_of_isDigit {c : Char} (h : c.isDigit = true) : isBlank c = false := by
  have bounds : 48 ≤ c.toNat ∧ c.toNat ≤ 57 := by
    simpa [Char.isDigit, Char.le_def, UInt32.le_iff_toNat_le] using h
  simp [isBlank, blankCodes]
  omega

/-- The digits of a numeral in at least so many digits. -/
def numeral (width n : Nat) : List Char :=
  (padded width n).toList

theorem numeral_eq (width n : Nat) : numeral width n =
    List.replicate (width - (Nat.toDigits 10 n).length) '0' ++ Nat.toDigits 10 n := by
  simp [numeral, padded, Nat.repr_eq_ofList_toDigits]

theorem isDigit_of_mem_numeral {c : Char} (mem : c ∈ numeral width n) : c.isDigit = true := by
  rw [numeral_eq] at mem
  rcases List.mem_append.mp mem with zero | digit
  · rw [(List.mem_replicate.mp zero).2]
    rfl
  · exact Nat.isDigit_of_mem_toDigits (by decide) (by decide) digit

theorem ofDigitChars_numeral (width n : Nat) : Nat.ofDigitChars 10 (numeral width n) 0 = n := by
  rw [numeral_eq, Nat.ofDigitChars_append, Nat.ofDigitChars_replicate_zero]
  simp [Nat.ofDigitChars_toDigits]

theorem length_numeral (short : (Nat.toDigits 10 n).length ≤ width) : (numeral width n).length = width := by
  rw [numeral_eq, List.length_append, List.length_replicate]
  omega

theorem numeral_ne_nil (width n : Nat) : numeral width n ≠ [] := by
  rw [numeral_eq]
  exact List.append_ne_nil_of_right_ne_nil _ Nat.toDigits_ne_nil

/-- The value of digits. -/
def values (ds : List Char) : List Nat :=
  ds.map fun c => c.toNat - '0'.toNat

theorem foldl_values (ds : List Char) :
    (values ds).foldl (fun n d => 10 * n + d) 0 = Nat.ofDigitChars 10 ds 0 := by
  rw [values, List.foldl_map]
  rfl

/-- Digits are taken up to the width. -/
theorem takeDigits_of_length (digits : ∀ c ∈ ds, c.isDigit = true) (full : ds.length = width) :
    takeDigits (some width) (ds ++ rest) = (values ds, rest) := by
  induction ds generalizing width with
  | nil =>
    subst full
    cases rest <;> rfl
  | cons c ds ih =>
    obtain ⟨digit, digits⟩ := List.forall_mem_cons.mp digits
    subst full
    have later := ih digits rfl
    simp only [List.cons_append, List.length_cons, takeDigits, digitValue?_of_isDigit digit,
      Option.map_some, Nat.add_sub_cancel, later]
    rfl

/-- Without a width digits are taken as long as there are any. -/
theorem takeDigits_of_stop (digits : ∀ c ∈ ds, c.isDigit = true)
    (stop : ∀ c ∈ rest.head?, digitValue? c = none) :
    takeDigits none (ds ++ rest) = (values ds, rest) := by
  induction ds with
  | nil =>
    cases rest with
    | nil => rfl
    | cons c rest =>
      have other : digitValue? c = none := stop c rfl
      simp [takeDigits, other, values]
  | cons c ds ih =>
    obtain ⟨digit, digits⟩ := List.forall_mem_cons.mp digits
    have later := ih digits
    simp only [List.cons_append, takeDigits, digitValue?_of_isDigit digit, Option.map_none, later]
    rfl

theorem readNumber_of_taken {w : Option Nat}
    (taken : takeDigits w (numeral width n ++ rest) = (values (numeral width n), rest)) :
    readNumber w (numeral width n ++ rest) = some (n, rest) := by
  have number := ofDigitChars_numeral width n
  unfold readNumber
  rw [taken]
  cases shape : numeral width n with
  | nil => exact absurd shape (numeral_ne_nil width n)
  | cons c ds =>
    have value := foldl_values (c :: ds)
    rw [← shape, number] at value
    change some ((values (c :: ds)).foldl (fun n d => 10 * n + d) 0, rest) = some (n, rest)
    rw [← shape, value]

theorem readNumber_of_short (short : (Nat.toDigits 10 n).length ≤ width) :
    readNumber (some width) (numeral width n ++ rest) = some (n, rest) :=
  readNumber_of_taken (takeDigits_of_length (fun _ => isDigit_of_mem_numeral) (length_numeral short))

theorem readNumber_of_stop (stop : ∀ c ∈ rest.head?, digitValue? c = none) :
    readNumber none (numeral width n ++ rest) = some (n, rest) :=
  readNumber_of_taken (takeDigits_of_stop (fun _ => isDigit_of_mem_numeral) stop)

theorem skipBlanks_numeral : skipBlanks (numeral width n ++ rest) = numeral width n ++ rest := by
  cases shape : numeral width n with
  | nil => exact absurd shape (numeral_ne_nil width n)
  | cons c ds =>
    have digit : c.isDigit = true := isDigit_of_mem_numeral (shape ▸ List.mem_cons_self)
    exact List.dropWhile_cons_of_neg (by simp [isBlank_of_isDigit digit])

theorem readPair_numeral (small : n < 100) :
    readPair (numeral 2 n ++ rest) = some (n, rest) := by
  rw [readPair, skipBlanks_numeral]
  exact readNumber_of_short ((Nat.length_toDigits_le_iff (by decide) (by decide)).mpr small)

theorem readMark_cons {mark : Char} (visible : isBlank mark = false) :
    readMark mark (mark :: rest) = some rest := by
  have kept : skipBlanks (mark :: rest) = mark :: rest :=
    List.dropWhile_cons_of_neg (by simp [visible])
  rw [readMark, kept]
  exact if_pos rfl

theorem readYear_numeral (small : n < 10000) :
    readYear (numeral 4 n ++ rest) = some ((n : Int), rest) := by
  have number : readNumber (some 4) (numeral 4 n ++ rest) = some (n, rest) :=
    readNumber_of_short ((Nat.length_toDigits_le_iff (by decide) (by decide)).mpr small)
  have signless (sign : Char) (other : sign.isDigit = false) (cs : List Char) :
      numeral 4 n ++ rest ≠ sign :: cs := by
    intro same
    cases shape : numeral 4 n with
    | nil => exact numeral_ne_nil 4 n shape
    | cons c ds =>
      rw [shape] at same
      have digit : c.isDigit = true := isDigit_of_mem_numeral (shape ▸ List.mem_cons_self)
      rw [(List.cons.inj same).1] at digit
      exact absurd digit (by simp [other])
  rw [readYear, skipBlanks_numeral]
  split
  next negative => exact absurd negative (signless '-' rfl _)
  next positive => exact absurd positive (signless '+' rfl _)
  next => rw [number, Option.map_some]

theorem readYear_yearText (year : Int) :
    readYear ((yearText year).toList ++ '-' :: rest) = some (year, '-' :: rest) := by
  have stop : ∀ c ∈ ('-' :: rest).head?, digitValue? c = none := by
    rintro _ ⟨⟩
    decide
  have number : readNumber none (numeral 4 year.natAbs ++ '-' :: rest) =
      some (year.natAbs, '-' :: rest) := readNumber_of_stop stop
  unfold yearText
  split
  next negative =>
    have signed : readYear (("-" ++ padded 4 year.natAbs).toList ++ '-' :: rest) =
        (readNumber none (numeral 4 year.natAbs ++ '-' :: rest)).map fun x =>
          (-(x.1 : Int), x.2) := by
      rw [String.toList_append]
      rfl
    have same : -((year.natAbs : Nat) : Int) = year := by omega
    rw [signed, number, Option.map_some]
    simp only [same]
  next positive =>
    split
    next small =>
      have same : ((year.natAbs : Nat) : Int) = year := by omega
      have four : year.natAbs < 10000 := by omega
      change readYear (numeral 4 year.natAbs ++ '-' :: rest) = _
      rw [readYear_numeral four, same]
    next large =>
      have signed : readYear (("+" ++ padded 4 year.natAbs).toList ++ '-' :: rest) =
          (readNumber none (numeral 4 year.natAbs ++ '-' :: rest)).map fun x =>
            ((x.1 : Int), x.2) := by
        rw [String.toList_append]
        rfl
      have same : ((year.natAbs : Nat) : Int) = year := by omega
      rw [signed, number, Option.map_some]
      simp only [same]

theorem sharp_lt : 0 < 2 * secondNanos := by
  decide

theorem leap_lt : secondNanos < 2 * secondNanos := by
  decide

theorem next_lt {t : Time} (early : ¬ t.second % 60 = 59) : t.second + 1 < daySeconds := by
  have small := t.second_lt
  unfold daySeconds at small ⊢
  omega

/-- A moment as it is written, without what is finer than a second. -/
def whole (t : Time) : Time :=
  if t.nanos < secondNanos then { t with nanos := 0, nanos_lt := sharp_lt }
  else if h : t.second % 60 = 59 then { t with nanos := secondNanos, nanos_lt := leap_lt }
  else { t with second := t.second + 1, nanos := 0, second_lt := next_lt h, nanos_lt := sharp_lt }

theorem whole_of_sharp {t : Time} (sharp : t.nanos = 0) : t.whole = t := by
  have small : t.nanos < secondNanos := by
    rw [sharp]
    decide
  obtain ⟨date, second, nanos, date_valid, second_lt, nanos_lt⟩ := t
  subst sharp
  exact if_pos small

theorem render_whole (t : Time) : t.whole.render = t.render := by
  unfold whole
  split
  next sharp =>
    have none : 0 < secondNanos := by decide
    simp [render, secondOfMinute, sharp, none]
  next leap =>
    split
    next last => simp [render, secondOfMinute, leap]
    next early =>
      have hour : (t.second + 1) / 3600 = t.second / 3600 := by omega
      have minute : (t.second + 1) / 60 % 60 = t.second / 60 % 60 := by omega
      have second : (t.second + 1) % 60 = t.second % 60 + 1 := by omega
      have none : 0 < secondNanos := by decide
      simp [render, secondOfMinute, leap, none, hour, minute, second]

/-- Without a shift the parts make up a moment of the same day. A leap second is the one before it. -/
theorem ofParts_of_total {date : Date} {hour minute second total : Nat} (valid : date.Valid)
    (hours : hour < 24) (minutes : minute < 60) (seconds : second ≤ 60) (small : total < daySeconds)
    (sum : (hour * 60 + minute) * 60 + (if second = 60 then 59 else second) = total) :
    ofParts date hour minute second 0 0 = some ⟨date, total, if second = 60 then secondNanos else 0, valid,
      small, by split <;> decide⟩ := by
  have admitted : date.Valid ∧ hour < 24 ∧ minute < 60 ∧ second ≤ 60 ∧ 0 < secondNanos ∧
      (-1440 : Int) < 0 ∧ (0 : Int) < 1440 :=
    ⟨valid, hours, minutes, seconds, by decide, by decide, by decide⟩
  have same : ((hour * 60 + minute : Nat) : Int) * 60 + ((if second = 60 then 59 else second : Nat) : Int) -
      0 * 60 = total := by omega
  have early : ¬ (total : Int) < 0 := by omega
  have late : ¬ ((daySeconds : Nat) : Int) ≤ total := by omega
  unfold ofParts
  rw [if_pos admitted]
  by_cases leap : second = 60
  · simp only [leap, if_true] at same
    simp only [leap, if_true, same, early, late, if_false]
    exact dif_pos ⟨valid, small, by decide⟩
  · simp only [leap, if_false] at same
    simp only [leap, same, early, late, if_false]
    exact dif_pos ⟨valid, small, by decide⟩

/-- A moment is made up of the parts that are written of it. -/
theorem ofParts_parts (t : Time) :
    ofParts t.date (t.second / 3600) (t.second / 60 % 60) t.secondOfMinute 0 0 = some t.whole := by
  have small := t.second_lt
  unfold daySeconds at small
  have hours : t.second / 3600 < 24 := by omega
  have minutes : t.second / 60 % 60 < 60 := by omega
  unfold whole
  by_cases sharp : t.nanos < secondNanos
  · have same : t.secondOfMinute = t.second % 60 := if_pos sharp
    have ordinary : ¬ t.second % 60 = 60 := by omega
    have sum : (t.second / 3600 * 60 + t.second / 60 % 60) * 60 +
        (if t.second % 60 = 60 then 59 else t.second % 60) = t.second := by
      rw [if_neg ordinary]
      omega
    rw [same, ofParts_of_total t.date_valid hours minutes (by omega) t.second_lt sum]
    simp [sharp, ordinary]
  have past : t.secondOfMinute = t.second % 60 + 1 := if_neg sharp
  by_cases last : t.second % 60 = 59
  · have sum : (t.second / 3600 * 60 + t.second / 60 % 60) * 60 +
        (if t.second % 60 + 1 = 60 then 59 else t.second % 60 + 1) = t.second := by
      rw [if_pos (by omega)]
      omega
    rw [past, ofParts_of_total t.date_valid hours minutes (by omega) t.second_lt sum]
    simp [sharp, last]
  · have ordinary : ¬ t.second % 60 + 1 = 60 := by omega
    have sum : (t.second / 3600 * 60 + t.second / 60 % 60) * 60 +
        (if t.second % 60 + 1 = 60 then 59 else t.second % 60 + 1) = t.second + 1 := by
      rw [if_neg ordinary]
      omega
    have within : t.second + 1 < daySeconds := by
      unfold daySeconds
      omega
    rw [past, ofParts_of_total t.date_valid hours minutes (by omega) within sum]
    simp [sharp, last]

theorem read_render (t : Time) : read t.render = some t.whole := by
  have text : t.render.toList = (yearText t.date.year).toList ++ '-' :: (numeral 2 t.date.month ++
      '-' :: (numeral 2 t.date.day ++ 'T' :: (numeral 2 (t.second / 3600) ++
      ':' :: (numeral 2 (t.second / 60 % 60) ++ ':' :: (numeral 2 t.secondOfMinute ++ ['Z']))))) := by
    simp [render, numeral]
  have valid := t.date_valid
  unfold Date.Valid at valid
  have day : t.date.day < 100 := by
    have longest : daysInMonth t.date.year t.date.month ≤ 31 := by
      unfold daysInMonth
      split
      next => split <;> omega
      next => split <;> omega
    omega
  have second : t.secondOfMinute < 100 := by
    unfold secondOfMinute
    split <;> omega
  have hour : t.second / 3600 < 24 := by
    have small := t.second_lt
    unfold daySeconds at small
    omega
  have ends : readOffset ['Z'] = some (0, []) := by decide
  have dash {cs : List Char} : readMark '-' ('-' :: cs) = some cs := readMark_cons (by decide)
  have colon {cs : List Char} : readMark ':' (':' :: cs) = some cs := readMark_cons (by decide)
  unfold read
  rw [text]
  refine Option.bind_eq_some_iff.mpr ⟨_, readYear_yearText t.date.year, ?_⟩
  refine Option.bind_eq_some_iff.mpr ⟨_, dash, ?_⟩
  refine Option.bind_eq_some_iff.mpr ⟨_, readPair_numeral (by omega), ?_⟩
  refine Option.bind_eq_some_iff.mpr ⟨_, dash, ?_⟩
  refine Option.bind_eq_some_iff.mpr ⟨_, readPair_numeral day, ?_⟩
  refine (if_pos (.inl rfl)).trans (Option.bind_eq_some_iff.mpr ⟨_, rfl, ?_⟩)
  refine Option.bind_eq_some_iff.mpr ⟨_, readPair_numeral (by omega), ?_⟩
  refine Option.bind_eq_some_iff.mpr ⟨_, colon, ?_⟩
  refine Option.bind_eq_some_iff.mpr ⟨_, readPair_numeral (by omega), ?_⟩
  refine Option.bind_eq_some_iff.mpr ⟨_, colon, ?_⟩
  refine Option.bind_eq_some_iff.mpr ⟨_, readPair_numeral second, ?_⟩
  refine Option.bind_eq_some_iff.mpr ⟨(0, ['Z']), rfl, ?_⟩
  refine Option.bind_eq_some_iff.mpr ⟨_, ends, ?_⟩
  exact ofParts_parts t

end Time

end DatabaseOperator
