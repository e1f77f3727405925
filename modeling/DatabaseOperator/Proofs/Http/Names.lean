import DatabaseOperator.Proofs.Http.Segments
import Mathlib.Data.List.Forall2
import Mathlib.Data.List.TakeWhile

namespace DatabaseOperator

namespace Url

open Percent (Unescaped IsEscape decode encode keptInPath)
open String (utf8EncodeChar)

variable {c : Char} {cs ds : List Char} {names : List (List Char)} {path : List String}

/-- The text does not end in a blank or a control character. -/
def Closed (cs : List Char) : Prop :=
  ∀ c ∈ cs.getLast?, isEdge c = false

theorem Closed.dropWhile_reverse (h : Closed cs) : cs.reverse.dropWhile isEdge = cs.reverse := by
  cases shape : cs.reverse with
  | nil => rfl
  | cons c rest =>
    have last : c ∈ cs.getLast? := by
      rw [← List.head?_reverse, shape]
      rfl
    exact List.dropWhile_cons_of_neg (by simp [h c last])

theorem closed_append_slash (cs : List Char) : Closed (cs ++ '/' :: ds) ↔ Closed ds := by
  unfold Closed
  rw [List.getLast?_append]
  cases ds with
  | nil => simp; decide
  | cons d ds => simp [List.getLast?_cons_cons]

theorem closed_slashed_iff : Closed (slashed names) ↔ ∀ n ∈ names.getLast?, Closed n := by
  induction names with
  | nil => simp [slashed, Closed]
  | cons n rest ih =>
    cases rest with
    | nil => simp [slashed]
    | cons m rest =>
      rw [slashed, closed_append_slash, ih, List.getLast?_cons_cons]
      simp

/-- What is read of a text that ends an address: blanks at its end and breaks are dropped. -/
def rear (cs : List Char) : List Char :=
  (cs.reverse.dropWhile isEdge).reverse.filter fun c => !isBreak c

/-- The part of it that belongs to the path. -/
def reached (cs : List Char) : List Char :=
  ((rear cs).takeWhile (· ≠ '#')).takeWhile (· ≠ '?')

theorem trimmed_sublist (cs : List Char) : (cs.reverse.dropWhile isEdge).reverse.Sublist cs := by
  have suffix : (cs.reverse.dropWhile isEdge).Sublist cs.reverse := List.dropWhile_sublist _
  have back := suffix.reverse
  rwa [List.reverse_reverse] at back

theorem rear_sublist (cs : List Char) : (rear cs).Sublist cs :=
  List.filter_sublist.trans (trimmed_sublist cs)

theorem reached_sublist_rear (cs : List Char) : (reached cs).Sublist (rear cs) :=
  (List.takeWhile_sublist _).trans (List.takeWhile_sublist _)

theorem length_utf8_of_sublist (h : cs.Sublist ds) : (utf8 cs).length ≤ (utf8 ds).length ∧
    ((utf8 cs).length = (utf8 ds).length → cs = ds) := by
  induction h with
  | slnil => exact ⟨Nat.le_refl _, fun _ => rfl⟩
  | cons d _ ih =>
    have more := length_utf8EncodeChar_pos d
    rw [utf8_cons, List.length_append]
    exact ⟨by omega, fun same => by omega⟩
  | cons_cons d _ ih =>
    rw [utf8_cons, utf8_cons, List.length_append, List.length_append]
    refine ⟨by omega, fun same => ?_⟩
    rw [ih.2 (by omega)]

/-- A name that the reader of an address takes as it is. -/
structure Plain (n : List Char) : Prop where
  chars : ∀ c ∈ n, c ∉ ['/', '\\', '?', '#', '\t', '\n', '\r']
  unescaped : Unescaped n
  undotted : n ≠ ['.'] ∧ n ≠ ['.', '.']

theorem plainDots_of_unescaped (plain : Unescaped cs) : plainDots cs = cs := by
  fun_induction plainDots cs with
  | case1 e rest dot ih =>
    have escape : IsEscape ('%' :: '2' :: e :: rest) := by
      refine ⟨rfl, by decide, ?_⟩
      rcases dot with rfl | rfl <;> decide
    exact absurd escape plain.1
  | case2 e rest other ih => rw [ih plain.2.2.2]
  | case3 c rest other ih => rw [ih plain.2]
  | case4 => rfl

theorem Plain.dots {n : List Char} (h : Plain n) : isDoubleDot n = false ∧ isSingleDot n = false := by
  have same := plainDots_of_unescaped h.unescaped
  simp [isDoubleDot, isSingleDot, same, h.undotted]

theorem Plain.not_slash {n : List Char} (h : Plain n) : ∀ c ∈ n, isSlash c = false := by
  intro c mem
  have other := h.chars c mem
  simp only [List.mem_cons, not_or] at other
  simp [isSlash, other]

theorem forall_ne_of_not_mem (absent : c ∉ cs) : ∀ d ∈ cs, (d ≠ c : Bool) = true := by
  intro d mem
  have other : d ≠ c := fun same => absent (same ▸ mem)
  simpa using other

theorem takeWhile_ne_of_not_mem (absent : c ∉ cs) : cs.takeWhile (· ≠ c) = cs :=
  List.takeWhile_eq_self_iff.mpr (forall_ne_of_not_mem absent)

theorem not_mem_takeWhile_ne (c : Char) (cs : List Char) : c ∉ cs.takeWhile (· ≠ c) := by
  intro mem
  have other := List.all_eq_true.mp List.all_takeWhile c mem
  simp at other

/-- A text without marks that the reader minds, slashes aside. -/
structure Unmarked (cs : List Char) : Prop where
  chars : ∀ c ∈ cs, c ∉ ['?', '#', '\t', '\n', '\r']
  closed : Closed cs

theorem Unmarked.rear_eq (h : Unmarked cs) : rear cs = cs := by
  rw [rear, h.closed.dropWhile_reverse, List.reverse_reverse]
  refine List.filter_eq_self.mpr fun c mem => ?_
  have other := h.chars c mem
  simp only [List.mem_cons, not_or] at other
  simp [isBreak, other]

theorem Unmarked.reached_eq (h : Unmarked cs) : reached cs = cs := by
  have fragment : '#' ∉ cs := fun mem => h.chars '#' mem (by decide)
  have query : '?' ∉ cs := fun mem => h.chars '?' mem (by decide)
  rw [reached, h.rear_eq, takeWhile_ne_of_not_mem fragment, takeWhile_ne_of_not_mem query]

/-- Where all of a text is reached, nothing of it was dropped. -/
theorem unmarked_of_reached (whole : reached cs = cs) : Unmarked cs := by
  have part : rear cs = cs := by
    refine (rear_sublist cs).eq_of_length_le ?_
    have longer := (reached_sublist_rear cs).length_le
    rwa [whole] at longer
  have before : cs.takeWhile (· ≠ '#') = cs := by
    refine (List.takeWhile_sublist _).eq_of_length_le ?_
    have longer := (List.takeWhile_sublist (· ≠ '?') (l := cs.takeWhile (· ≠ '#'))).length_le
    rw [reached, part] at whole
    rwa [whole] at longer
  have trimmed : (cs.reverse.dropWhile isEdge).reverse = cs := by
    refine (trimmed_sublist cs).eq_of_length_le ?_
    have longer : (rear cs).length ≤ (cs.reverse.dropWhile isEdge).reverse.length := List.length_filter_le _ _
    rwa [part] at longer
  constructor
  · intro c mem
    have query : c ≠ '?' := by
      rintro rfl
      rw [← whole] at mem
      exact not_mem_takeWhile_ne '?' _ mem
    have fragment : c ≠ '#' := by
      rintro rfl
      rw [← before] at mem
      exact not_mem_takeWhile_ne '#' cs mem
    have unbroken : isBreak c = false := by
      rw [← part] at mem
      simpa using (List.mem_filter.mp mem).2
    simp only [isBreak, Bool.or_eq_false_iff, decide_eq_false_iff_not] at unbroken
    simp [query, fragment, unbroken]
  · intro c last
    have first := List.head?_dropWhile_not isEdge cs.reverse
    rw [← List.reverse_reverse (cs.reverse.dropWhile isEdge), trimmed, List.head?_reverse, last] at first
    exact first

/-- Names that are segments of their own behind any path. What ends the last one ends the address. -/
structure Clean (names : List (List Char)) : Prop where
  plain : ∀ n ∈ names, Plain n
  closed : ∀ n ∈ names.getLast?, Closed n

/-- Clean names are read as they are written. -/
theorem Clean.unmarked (clean : Clean names) : Unmarked (slashed names) := by
  refine ⟨?_, closed_slashed_iff.mpr clean.closed⟩
  intro c mem
  rcases mem_slashed mem with rfl | ⟨n, within, mem⟩
  · decide
  · have plain := (clean.plain n within).chars c mem
    simp only [List.mem_cons, not_or] at plain ⊢
    exact plain.2.2

theorem Clean.resolve_eq (clean : Clean names) (some : names ≠ []) :
    resolve path (splitSlashes (reached (slashed names))) =
      path.reverse ++ names.map fun n => String.ofList (encode keptInPath n) := by
  rw [clean.unmarked.reached_eq, splitSlashes_slashed some fun n mem => (clean.plain n mem).not_slash]
  exact resolve_of_undotted fun n mem => (clean.plain n mem).dots

/-- Letters, digits, hyphens and underscores. -/
def isWordChar (c : Char) : Bool :=
  c.isAlphanum || c = '-' || c = '_'

theorem isWordChar_eq_false {c : Char} (mark : isEdge c = true ∨ c ∈ ['/', '\\', '?', '#', '%', '.']) :
    isWordChar c = false := by
  rcases mark with edge | mark
  · have small : ∀ n ≤ 0x20, isWordChar (Char.ofNat n) = false := by decide
    simp only [isEdge, decide_eq_true_eq] at edge
    have found := small c.toNat edge
    rwa [Char.ofNat_toNat] at found
  · have known : (['/', '\\', '?', '#', '%', '.'].all fun d => !isWordChar d) = true := by decide
    simpa using List.all_eq_true.mp known c mark

theorem plain_of_word {n : List Char} (word : n.all isWordChar = true) : Plain n := by
  have absent {c : Char} (other : isWordChar c = false) : c ∉ n := by
    intro mem
    have met := List.all_eq_true.mp word c mem
    rw [other] at met
    cases met
  refine ⟨?_, Percent.unescaped_of_not_mem (absent (by decide)), ?_, ?_⟩
  · intro c mem mark
    refine absent (isWordChar_eq_false ?_) mem
    simp only [List.mem_cons, List.not_mem_nil, or_false] at mark ⊢
    rcases mark with rfl | rfl | rfl | rfl | rfl | rfl | rfl <;> decide
  · rintro rfl
    exact absent (c := '.') (by decide) List.mem_cons_self
  · rintro rfl
    exact absent (c := '.') (by decide) List.mem_cons_self

/-- Words are clean. -/
theorem clean_of_words (words : ∀ n ∈ names, n.all isWordChar = true) : Clean names := by
  refine ⟨fun n mem => plain_of_word (words n mem), fun n last c closing => ?_⟩
  have within : c ∈ n := List.mem_of_getLast? closing
  have word : isWordChar c = true := List.all_eq_true.mp (words n (List.mem_of_getLast? last)) c within
  by_contra edge
  rw [isWordChar_eq_false (.inl (by simpa using edge))] at word
  cases word

/-- The segment says the name. -/
def Spells (segment : String) (name : List Char) : Prop :=
  decode segment.toList = utf8 name

theorem weight_of_spells {segments : List String} (spells : List.Forall₂ Spells segments names) :
    weight segments = bytes names := by
  induction spells with
  | nil => rfl
  | cons first _ ih => rw [weight_cons, bytes_cons, ih, first]

/-- Segments that say the names are as many, and say as much as is written. So nothing was cut off from what is
written, no slash was in a name, and there is neither a dot segment nor an escape. -/
theorem clean_of_spells {segments : List String} (some : names ≠ [])
    (resolved : resolve path (splitSlashes (reached (slashed names))) = path.reverse ++ segments)
    (spells : List.Forall₂ Spells segments names) : Clean names := by
  obtain ⟨shorter, whole⟩ := length_utf8_of_sublist ((reached_sublist_rear _).trans (rear_sublist (slashed names)))
  have many := length_resolve_le path (splitSlashes (reached (slashed names)))
  obtain ⟨much, exact⟩ := weight_resolve path (splitSlashes (reached (slashed names)))
  have cut := bytes_splitSlashes (reached (slashed names))
  have written := bytes_slashed some
  rw [resolved, List.length_append, List.length_reverse, spells.length_eq] at many
  rw [resolved, weight_append, weight_reverse, weight_of_spells spells] at much exact
  have whole : reached (slashed names) = slashed names := whole (by omega)
  rw [whole] at exact cut many much
  have unslashed := not_slash_of_length some (by omega)
  rw [splitSlashes_slashed some unslashed] at exact
  have segments := exact rfl
  have read := unmarked_of_reached whole
  refine ⟨fun n mem => ⟨?_, (segments n mem).2, ?_⟩, closed_slashed_iff.mp read.closed⟩
  · intro c within
    have other := read.chars c (mem_slashed_of_mem mem within)
    have unslashed := unslashed n mem c within
    simp only [isSlash, Bool.or_eq_false_iff, decide_eq_false_iff_not] at unslashed
    simp only [List.mem_cons, not_or] at other ⊢
    exact ⟨unslashed.1, unslashed.2, other⟩
  · obtain ⟨double, single⟩ := (segments n mem).1
    constructor
    · rintro rfl
      cases single
    · rintro rfl
      cases double

end Url

end DatabaseOperator
