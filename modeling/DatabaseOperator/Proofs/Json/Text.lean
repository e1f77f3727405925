import DatabaseOperator.Proofs.Json.Number

namespace DatabaseOperator

theorem Binary.decimalText_ne_empty (digits : Nat) (exp : Int) : decimalText digits exp ≠ "" := by
  unfold decimalText
  dsimp only
  split
  · simp
  split
  · simp
  split
  · simp
  split <;> simp

theorem Binary.render_ne_empty (bits : Nat) : render bits ≠ "" := by
  unfold render
  dsimp only
  split
  · decide
  split
  · simp
  · simp [decimalText_ne_empty]

theorem Number.render_ne_empty (n : Number) : n.render ≠ "" := by
  cases n with
  | whole n => cases n <;> simp [Number.render, toString, Int.repr]
  | binary bits => exact Binary.render_ne_empty bits.toNat

namespace Json

theorem renderString_ne_empty (s : String) : renderString s ≠ "" := by
  simp [renderString]

/-- Every value has a text. -/
theorem render_ne_empty (v : Json) : v.render ≠ "" := by
  cases v with
  | null => decide
  | bool b => cases b <;> decide
  | number n => exact n.render_ne_empty
  | string s => exact renderString_ne_empty s
  | array items => simp [render]
  | object members => simp [render]
  | unreadable => decide

/-- How the control characters are written, and that they are read as that. -/
theorem escaped_control (n : Nat) (control : n < 32) :
    (∃ e, (escaped (Char.ofNat n)).toList = ['\\', e] ∧ plainEscape? e = some (Char.ofNat n)) ∨
    ∃ h d, (escaped (Char.ofNat n)).toList = ['\\', 'u', '0', '0', h, d] ∧
      hexUnit? '0' '0' h d = some n := by
  -- The witnesses are looked for in lists: a decision that ranges over all characters does not end.
  have found : ∀ n < 32,
      (['n', 'r', 't', 'b', 'f'].any fun e => (escaped (Char.ofNat n)).toList = ['\\', e] ∧
        plainEscape? e = some (Char.ofNat n)) ∨
      (['0', '1'].any fun h => "0123456789abcdef".toList.any fun d =>
        (escaped (Char.ofNat n)).toList = ['\\', 'u', '0', '0', h, d] ∧
          hexUnit? '0' '0' h d = some n) := by
    decide +kernel
  simp only [List.any_eq_true, decide_eq_true_eq] at found
  rcases found n control with ⟨e, _, plain⟩ | ⟨h, _, d, _, unit⟩
  · exact .inl ⟨e, plain⟩
  · exact .inr ⟨h, d, unit⟩

theorem scanString_plainEscape {e c : Char} (plain : plainEscape? e = some c) (acc : List Unit16)
    (rest : List Char) : scanString acc ('\\' :: e :: rest) = scanString (.char c :: acc) rest := by
  have other : e ≠ 'u' := by
    rintro rfl
    cases plain
  rw [scanString, plain]
  exact fun _ _ _ _ _ unit => absurd unit other

theorem scanString_unit {a b c d : Char} {n : Nat} (unit : hexUnit? a b c d = some n)
    (acc : List Unit16) (rest : List Char) :
    scanString acc ('\\' :: 'u' :: a :: b :: c :: d :: rest) = scanString (Unit16.ofNat n :: acc) rest := by
  rw [scanString, unit]

theorem scanString_char {c : Char} (shown : 32 ≤ c.toNat) (quote : c ≠ '"') (backslash : c ≠ '\\')
    (acc : List Unit16) (rest : List Char) :
    scanString acc (c :: rest) = scanString (.char c :: acc) rest := by
  rw [scanString, if_neg (by simp [backslash]; omega)]
  · exact quote
  · exact fun _ _ _ _ _ escape => absurd escape backslash
  · exact fun _ _ escape => absurd escape backslash

theorem scanString_escaped (c : Char) (acc : List Unit16) (rest : List Char) :
    scanString acc ((escaped c).toList ++ rest) = scanString (.char c :: acc) rest := by
  by_cases control : c.toNat < 32
  · have same : Char.ofNat c.toNat = c := Char.ofNat_toNat c
    rcases escaped_control c.toNat control with ⟨e, text, plain⟩ | ⟨h, d, text, unit⟩
    · rw [same] at text plain
      rw [text]
      exact scanString_plainEscape plain acc rest
    · have char : Unit16.ofNat c.toNat = .char c := by
        rw [Unit16.ofNat, if_neg (by omega), if_neg (by omega), same]
      rw [same] at text
      rw [text, ← char]
      exact scanString_unit unit acc rest
  · by_cases quote : c = '"'
    · subst quote
      exact scanString_plainEscape (e := '"') rfl acc rest
    by_cases backslash : c = '\\'
    · subst backslash
      exact scanString_plainEscape (e := '\\') rfl acc rest
    have shown {d : Char} (hidden : d.toNat < 32) : c ≠ d := fun same => control (same ▸ hidden)
    have text : escaped c = String.singleton c := by
      rw [escaped, if_neg quote, if_neg backslash, if_neg (shown (by decide)), if_neg (shown (by decide)),
        if_neg (shown (by decide)), if_neg (shown (by decide)), if_neg (shown (by decide)),
        if_neg (by omega), if_neg control]
    rw [text, String.toList_singleton]
    exact scanString_char (by omega) quote backslash acc rest

/-- What is written of a string is read as its characters. -/
theorem scanString_escapes (cs : List Char) (acc : List Unit16) (rest : List Char) :
    scanString acc (cs.flatMap (fun c => (escaped c).toList) ++ '"' :: rest) =
      some ((cs.map .char).reverse ++ acc, rest) := by
  induction cs generalizing acc with
  | nil => rw [List.flatMap_nil, List.nil_append, scanString]; rfl
  | cons c cs ih =>
    rw [List.flatMap_cons, List.append_assoc, scanString_escaped, ih]
    simp

theorem joinUnits_chars (cs : List Char) : joinUnits (cs.map .char) = some cs := by
  induction cs with
  | nil => rfl
  | cons c cs ih => rw [List.map_cons, joinUnits, ih]; rfl

theorem toList_renderString (s : String) :
    (renderString s).toList = '"' :: (s.toList.flatMap (fun c => (escaped c).toList) ++ ['"']) := by
  simp [renderString, String.toList_join, List.flatMap_map]

theorem readString_render (s : String) (rest : List Char) :
    readString (s.toList.flatMap (fun c => (escaped c).toList) ++ '"' :: rest) = some (some s, rest) := by
  rw [readString, scanString_escapes]
  simp [joinUnits_chars]

/-- A value that is made of texts and nested no deeper than this. -/
inductive Textual : Nat → Json → Prop
  | string {n : Nat} (s : String) : Textual n (string s)
  | array {n : Nat} {items : List Json} : (∀ v ∈ items, Textual n v) → Textual (n + 1) (array items)
  | object {n : Nat} {members : List (String × Json)} : (∀ m ∈ members, Textual n m.2) →
      Textual (n + 1) (object members)

/-- A value without fractions and unreadable parts, nested no deeper than this. Its numbers fit in 64 bits, signed
when negative. -/
inductive Plain : Nat → Json → Prop
  | null {n : Nat} : Plain n null
  | bool {n : Nat} (b : Bool) : Plain n (bool b)
  | whole {n : Nat} {k : Int} (low : -0x8000000000000000 ≤ k) (high : k ≤ 0xffffffffffffffff) : Plain n (ofInt k)
  | string {n : Nat} (s : String) : Plain n (string s)
  | array {n : Nat} {items : List Json} : (∀ v ∈ items, Plain n v) → Plain (n + 1) (array items)
  | object {n : Nat} {members : List (String × Json)} : (∀ m ∈ members, Plain n m.2) →
      Plain (n + 1) (object members)

theorem Textual.plain {n : Nat} {v : Json} (h : Textual n v) : Plain n v := by
  induction h with
  | string s => exact .string s
  | array _ ih => exact .array ih
  | object _ ih => exact .object ih

theorem Plain.mono {n k : Nat} {v : Json} (h : Plain n v) (le : n ≤ k) : Plain k v := by
  induction h generalizing k with
  | null => exact .null
  | bool b => exact .bool b
  | whole low high => exact .whole low high
  | string s => exact .string s
  | array _ ih =>
    obtain ⟨k, rfl⟩ : ∃ m, k = m + 1 := ⟨k - 1, by omega⟩
    exact .array fun v mem => ih v mem (by omega)
  | object _ ih =>
    obtain ⟨k, rfl⟩ : ∃ m, k = m + 1 := ⟨k - 1, by omega⟩
    exact .object fun m mem => ih m mem (by omega)

theorem skipGaps_cons {c : Char} (h : isGap c = false) (cs : List Char) : skipGaps (c :: cs) = c :: cs := by
  simp [skipGaps, h]

@[simp]
theorem skipGaps_bracket (cs : List Char) : skipGaps (']' :: cs) = ']' :: cs := rfl

@[simp]
theorem skipGaps_brace (cs : List Char) : skipGaps ('\x7d' :: cs) = '\x7d' :: cs := rfl

@[simp]
theorem skipGaps_comma (cs : List Char) : skipGaps (',' :: cs) = ',' :: cs := rfl

@[simp]
theorem skipGaps_colon (cs : List Char) : skipGaps (':' :: cs) = ':' :: cs := rfl

theorem length_render_pos (v : Json) : 0 < v.render.toList.length := by
  refine List.length_pos_iff.mpr fun none => v.render_ne_empty ?_
  simpa using none

/-- The text of the value is read as the value, at this depth and with anything behind it that does not go on
with a numeral. -/
structure ReadsBack (depth : Nat) (v : Json) : Prop where
  begins : ∃ c cs, v.render.toList = c :: cs ∧ isGap c = false ∧ c ≠ ']'
  reads : ∀ fuel rest, v.render.toList.length < fuel → Ends rest →
    readValue depth fuel (v.render.toList ++ rest) = some (v, rest)

variable {depth n : Nat} {v : Json} {items : List Json} {members : List (String × Json)}

theorem ReadsBack.skipGaps_append (h : ReadsBack depth v) (rest : List Char) :
    skipGaps (v.render.toList ++ rest) = v.render.toList ++ rest := by
  obtain ⟨c, cs, text, gap, _⟩ := h.begins
  rw [text]
  exact skipGaps_cons gap (cs ++ rest)

theorem ends_bracket (cs : List Char) : Ends (']' :: cs) := by
  simp [Ends]
  decide

theorem ends_brace (cs : List Char) : Ends ('\x7d' :: cs) := by
  simp [Ends]
  decide

theorem ends_comma (cs : List Char) : Ends (',' :: cs) := by
  simp [Ends]
  decide

theorem readWord_append (word : List Char) (v : Json) (rest : List Char) :
    readWord word v (word ++ rest) = some (v, rest) := by
  have begins : word.isPrefixOf (word ++ rest) = true := List.isPrefixOf_iff_prefix.mpr (List.prefix_append word rest)
  rw [readWord, if_pos begins, List.drop_left]

theorem readsBack_null : ReadsBack depth null where
  begins := ⟨'n', _, rfl, rfl, by decide⟩
  reads fuel rest enough _ := by
    obtain ⟨fuel, rfl⟩ : ∃ f, fuel = f + 1 := ⟨fuel - 1, by omega⟩
    exact readWord_append "null".toList null rest

theorem readsBack_bool (b : Bool) : ReadsBack depth (bool b) where
  begins := by
    cases b with
    | false => exact ⟨'f', _, rfl, rfl, by decide⟩
    | true => exact ⟨'t', _, rfl, rfl, by decide⟩
  reads fuel rest enough _ := by
    obtain ⟨fuel, rfl⟩ : ∃ f, fuel = f + 1 := ⟨fuel - 1, by omega⟩
    cases b with
    | false => exact readWord_append "false".toList (bool false) rest
    | true => exact readWord_append "true".toList (bool true) rest

/-- A numeral begins with a digit or with a minus sign, and so with nothing that begins another value. -/
theorem exists_toString (k : Int) : ∃ c cs, (toString k).toList = c :: cs ∧
    ∀ d : Char, d.isDigit = false → d ≠ '-' → c ≠ d := by
  cases k with
  | ofNat n =>
    obtain ⟨c, cs, text, digit⟩ := exists_toDigits n
    refine ⟨c, cs, Nat.toList_repr.trans text, ?_⟩
    rintro d other - rfl
    cases other.symm.trans digit
  | negSucc n =>
    refine ⟨'-', (n + 1).repr.toList, ?_, fun d _ minus => minus.symm⟩
    change ("-" ++ (n + 1).repr).toList = _
    rw [String.toList_append]
    rfl

theorem readsBack_whole {k : Int} (low : -0x8000000000000000 ≤ k) (high : k ≤ 0xffffffffffffffff) : ReadsBack depth (ofInt k) where
  begins := by
    obtain ⟨c, cs, text, other⟩ := exists_toString k
    refine ⟨c, cs, text, ?_, other ']' rfl (by decide)⟩
    simp [isGap, other ' ' rfl (by decide), other '\n' rfl (by decide), other '\t' rfl (by decide),
      other '\r' rfl (by decide)]
  reads fuel rest enough ends := by
    obtain ⟨fuel, rfl⟩ : ∃ f, fuel = f + 1 := ⟨fuel - 1, by omega⟩
    obtain ⟨c, cs, text, other⟩ := exists_toString k
    obtain ⟨x, read, value⟩ := readNumeral_whole low high ends
    have mark {d : Char} (shape : d.isDigit = false ∧ d ≠ '-') (tail : List Char) :
        c :: (cs ++ rest) = d :: tail → False :=
      fun same => other d shape.1 shape.2 (List.cons.inj same).1
    have shape : (ofInt k).render.toList = (toString k).toList := rfl
    rw [shape]
    rw [text, List.cons_append] at read ⊢
    rw [readValue]
    · simp [read, value, ofInt]
    all_goals exact mark (by decide)

theorem readsBack_string (s : String) : ReadsBack depth (string s) where
  begins := ⟨_, _, toList_renderString s, rfl, by decide⟩
  reads fuel rest enough _ := by
    cases fuel with
    | zero => cases enough
    | succ fuel =>
      rw [render, toList_renderString, List.cons_append, List.append_assoc, readValue]
      simp [readString_render]

theorem toList_items_cons (v w : Json) (items : List Json) :
    (",".intercalate (renderItems (v :: w :: items))).toList =
      v.render.toList ++ ',' :: (",".intercalate (renderItems (w :: items))).toList := by
  simp [renderItems, String.intercalate_cons_cons]

theorem ReadsBack.items_begin (h : ReadsBack depth v) (items : List Json) :
    ∃ c cs, (",".intercalate (renderItems (v :: items))).toList = c :: cs ∧ isGap c = false ∧ c ≠ ']' := by
  obtain ⟨c, cs, text, begins⟩ := h.begins
  cases items with
  | nil => exact ⟨c, cs, by simpa [renderItems] using text, begins⟩
  | cons w items =>
    rw [toList_items_cons, text]
    exact ⟨c, _, rfl, begins⟩

theorem readItems_render (h : ∀ w ∈ v :: items, ReadsBack depth w) (acc : List Json) {fuel : Nat}
    (rest : List Char) (enough : (",".intercalate (renderItems (v :: items))).toList.length + 1 < fuel) :
    readItems depth acc fuel ((",".intercalate (renderItems (v :: items))).toList ++ ']' :: rest) =
      some (acc.reverse ++ v :: items, rest) := by
  induction items generalizing v acc fuel with
  | nil =>
    obtain ⟨fuel, rfl⟩ : ∃ f, fuel = f + 1 := ⟨fuel - 1, by omega⟩
    have text : (",".intercalate (renderItems [v])).toList = v.render.toList := by simp [renderItems]
    rw [text] at enough ⊢
    rw [readItems, (h v List.mem_cons_self).reads fuel _ (by omega) (ends_bracket rest)]
    simp
  | cons w items ih =>
    obtain ⟨fuel, rfl⟩ : ∃ f, fuel = f + 1 := ⟨fuel - 1, by omega⟩
    have later : ∀ x ∈ w :: items, ReadsBack depth x := fun x mem => h x (List.mem_cons_of_mem v mem)
    obtain ⟨c, cs, text, gap, _⟩ := (later w List.mem_cons_self).items_begin items
    have skip : skipGaps ((",".intercalate (renderItems (w :: items))).toList ++ ']' :: rest) =
        (",".intercalate (renderItems (w :: items))).toList ++ ']' :: rest := by
      rw [text]
      exact skipGaps_cons gap _
    have pos := length_render_pos v
    rw [toList_items_cons] at enough ⊢
    simp only [List.length_append, List.length_cons] at enough
    rw [List.append_assoc, List.cons_append, readItems,
      (h v List.mem_cons_self).reads fuel _ (by omega) (ends_comma _)]
    simp only [skipGaps_comma, skip]
    rw [ih later (v :: acc) (by omega)]
    simp

theorem toList_members_singleton (m : String × Json) :
    (",".intercalate (renderMembers [m])).toList =
      (renderString m.1).toList ++ ':' :: m.2.render.toList := by
  simp [renderMembers]

theorem toList_members_cons (m k : String × Json) (members : List (String × Json)) :
    (",".intercalate (renderMembers (m :: k :: members))).toList =
      (renderString m.1).toList ++ ':' :: (m.2.render.toList ++
        ',' :: (",".intercalate (renderMembers (k :: members))).toList) := by
  simp [renderMembers, String.intercalate_cons_cons]

theorem exists_members_cons (m : String × Json) (members : List (String × Json)) :
    ∃ cs, (",".intercalate (renderMembers (m :: members))).toList = '"' :: cs := by
  cases members with
  | nil => exact ⟨_, by rw [toList_members_singleton, toList_renderString]; rfl⟩
  | cons k members => exact ⟨_, by rw [toList_members_cons, toList_renderString]; rfl⟩

/-- The member at the front is read, when others follow. -/
theorem readMembers_next {m : String × Json} (h : ReadsBack depth m.2) (acc : List (Option String × Json))
    {fuel : Nat} (rest : List Char) (enough : m.2.render.toList.length < fuel) :
    readMembers depth acc (fuel + 1)
        ((renderString m.1).toList ++ ':' :: (m.2.render.toList ++ ',' :: rest)) =
      readMembers depth ((some m.1, m.2) :: acc) fuel (skipGaps rest) := by
  rw [toList_renderString, List.cons_append, List.append_assoc, readMembers]
  simp only [List.singleton_append, readString_render, skipGaps_colon, h.skipGaps_append,
    h.reads fuel _ enough (ends_comma rest), skipGaps_comma]

/-- The last member is read. -/
theorem readMembers_last {m : String × Json} (h : ReadsBack depth m.2) (acc : List (Option String × Json))
    {fuel : Nat} (rest : List Char) (enough : m.2.render.toList.length < fuel) :
    readMembers depth acc (fuel + 1)
        ((renderString m.1).toList ++ ':' :: (m.2.render.toList ++ '\x7d' :: rest)) =
      some (acc.reverse ++ [(some m.1, m.2)], rest) := by
  rw [toList_renderString, List.cons_append, List.append_assoc, readMembers]
  simp only [List.singleton_append, readString_render, skipGaps_colon, h.skipGaps_append,
    h.reads fuel _ enough (ends_brace rest), skipGaps_brace, List.reverse_cons]

theorem readMembers_render {m : String × Json} (h : ∀ k ∈ m :: members, ReadsBack depth k.2)
    (acc : List (Option String × Json)) {fuel : Nat} (rest : List Char)
    (enough : (",".intercalate (renderMembers (m :: members))).toList.length + 1 < fuel) :
    readMembers depth acc fuel ((",".intercalate (renderMembers (m :: members))).toList ++ '\x7d' :: rest) =
      some (acc.reverse ++ (m :: members).map fun k => (some k.1, k.2), rest) := by
  induction members generalizing m acc fuel with
  | nil =>
    obtain ⟨fuel, rfl⟩ : ∃ f, fuel = f + 1 := ⟨fuel - 1, by omega⟩
    rw [toList_members_singleton] at enough ⊢
    simp only [List.length_append, List.length_cons] at enough
    rw [List.append_assoc, List.cons_append, readMembers_last (h m List.mem_cons_self) acc _ (by omega)]
    rfl
  | cons k members ih =>
    obtain ⟨fuel, rfl⟩ : ∃ f, fuel = f + 1 := ⟨fuel - 1, by omega⟩
    have later : ∀ x ∈ k :: members, ReadsBack depth x.2 := fun x mem => h x (List.mem_cons_of_mem m mem)
    obtain ⟨cs, text⟩ := exists_members_cons k members
    have skip : skipGaps ((",".intercalate (renderMembers (k :: members))).toList ++ '\x7d' :: rest) =
        (",".intercalate (renderMembers (k :: members))).toList ++ '\x7d' :: rest := by
      rw [text]
      rfl
    rw [toList_members_cons] at enough ⊢
    simp only [List.length_append, List.length_cons] at enough
    rw [List.append_assoc, List.cons_append, List.append_assoc, List.cons_append,
      readMembers_next (h m List.mem_cons_self) acc _ (by omega), skip, ih later _ (by omega)]
    simp

theorem ofMembers_named (members : List (String × Json)) :
    ofMembers (members.map fun k => (some k.1, k.2)) = object members := by
  have named : (members.map fun k => (some k.1, k.2)).mapM
      (fun m : Option String × Json => m.1.map fun name => (name, m.2)) = some members := by
    induction members with
    | nil => rfl
    | cons m members ih => rw [List.map_cons, List.mapM_cons, ih]; rfl
  rw [ofMembers, named]

theorem toList_render_array (items : List Json) :
    (array items).render.toList = '[' :: ((",".intercalate (renderItems items)).toList ++ [']']) := by
  simp [render]

theorem toList_render_object (members : List (String × Json)) :
    (object members).render.toList =
      '\x7b' :: ((",".intercalate (renderMembers members)).toList ++ ['\x7d']) := by
  simp [render]

theorem readsBack_array (shallow : depth < depthLimit) (h : ∀ v ∈ items, ReadsBack (depth + 1) v) :
    ReadsBack depth (array items) where
  begins := ⟨_, _, toList_render_array items, rfl, by decide⟩
  reads fuel rest enough _ := by
    obtain ⟨fuel, rfl⟩ : ∃ f, fuel = f + 1 := ⟨fuel - 1, by omega⟩
    rw [toList_render_array] at enough ⊢
    simp only [List.length_append, List.length_cons, List.length_nil] at enough
    rw [List.cons_append, List.append_assoc, List.singleton_append]
    cases items with
    | nil => simp [renderItems, readValue, shallow]
    | cons v items =>
      have read : readItems (depth + 1) [] fuel _ = _ := readItems_render h [] rest (by omega)
      obtain ⟨c, cs, text, gap, bracket⟩ := (h v List.mem_cons_self).items_begin items
      rw [text, List.cons_append] at read ⊢
      rw [readValue, skipGaps_cons gap]
      split
      next closed => exact absurd (List.cons.inj closed).1 bracket
      next => simp [read, shallow]

theorem readsBack_object (shallow : depth < depthLimit) (h : ∀ m ∈ members, ReadsBack (depth + 1) m.2) :
    ReadsBack depth (object members) where
  begins := ⟨_, _, toList_render_object members, rfl, by decide⟩
  reads fuel rest enough _ := by
    obtain ⟨fuel, rfl⟩ : ∃ f, fuel = f + 1 := ⟨fuel - 1, by omega⟩
    rw [toList_render_object] at enough ⊢
    simp only [List.length_append, List.length_cons, List.length_nil] at enough
    rw [List.cons_append, List.append_assoc, List.singleton_append]
    cases members with
    | nil => simp [renderMembers, readValue, shallow]
    | cons m members =>
      have read : readMembers (depth + 1) [] fuel _ = _ := readMembers_render h [] rest (by omega)
      obtain ⟨cs, text⟩ := exists_members_cons m members
      rw [text, List.cons_append] at read ⊢
      rw [readValue, skipGaps_cons rfl]
      simp only [List.reverse_nil, List.nil_append] at read
      simpa [read, shallow] using ofMembers_named (m :: members)

/-- A value that leaves room for its depth reads back. -/
theorem Plain.readsBack (h : Plain n v) (room : depth + n ≤ depthLimit) : ReadsBack depth v := by
  induction h generalizing depth with
  | null => exact readsBack_null
  | bool b => exact readsBack_bool b
  | whole low high => exact readsBack_whole low high
  | string s => exact readsBack_string s
  | array _ ih => exact readsBack_array (by omega) fun v mem => ih v mem (by omega)
  | object _ ih => exact readsBack_object (by omega) fun m mem => ih m mem (by omega)

/-- What is written is read. -/
theorem Plain.read_render (h : Plain n v) (shallow : n ≤ depthLimit) : read v.render = some v := by
  have back : ReadsBack 0 v := h.readsBack (by omega)
  have skip := back.skipGaps_append []
  rw [List.append_nil] at skip
  have reads := back.reads (v.render.toList.length + 1) [] (by omega) ends_nil
  rw [List.append_nil] at reads
  rw [read, skip]
  simp [reads, skipGaps]

theorem read_render (h : Textual n v) (shallow : n ≤ depthLimit) : read v.render = some v :=
  h.plain.read_render shallow

end Json

end DatabaseOperator
