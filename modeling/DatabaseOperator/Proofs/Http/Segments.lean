import DatabaseOperator.Http.Url
import DatabaseOperator.Proofs.Text.Percent
import Mathlib.Algebra.GroupWithZero.Nat
import Mathlib.Data.List.Basic

namespace DatabaseOperator

namespace Url

open Percent (Unescaped decode encode keptInPath)
open String (utf8EncodeChar)

variable {c : Char} {cs ds : List Char} {names : List (List Char)} {path : List String}

/-- Names with a slash between them. -/
def slashed : List (List Char) → List Char
  | [] => []
  | [n] => n
  | n :: rest => n ++ '/' :: slashed rest

/-- How many bytes there are in a list of texts. -/
def bytes (ss : List (List Char)) : Nat :=
  (ss.map fun s => (utf8 s).length).sum

theorem splitSlashes_ne_nil (cs : List Char) : splitSlashes cs ≠ [] := by
  cases cs with
  | nil => simp [splitSlashes]
  | cons c rest =>
    unfold splitSlashes
    split
    next => simp
    next => split <;> simp

theorem splitSlashes_of_slash (slash : isSlash c = true) : splitSlashes (c :: cs) = [] :: splitSlashes cs := by
  rw [splitSlashes, if_pos slash]

theorem exists_splitSlashes (cs : List Char) (plain : isSlash c = false) : ∃ s ss, splitSlashes cs = s :: ss ∧
    splitSlashes (c :: cs) = (c :: s) :: ss := by
  cases shape : splitSlashes cs with
  | nil => exact absurd shape (splitSlashes_ne_nil cs)
  | cons s ss =>
    refine ⟨s, ss, rfl, ?_⟩
    rw [splitSlashes, if_neg (by simp [plain]), shape]

/-- What is cut at a slash is cut before it and behind it. -/
theorem splitSlashes_append (cs ds : List Char) :
    splitSlashes (cs ++ '/' :: ds) = splitSlashes cs ++ splitSlashes ds := by
  induction cs with
  | nil => exact splitSlashes_of_slash rfl
  | cons c cs ih =>
    cases slash : isSlash c with
    | true => rw [List.cons_append, splitSlashes_of_slash slash, splitSlashes_of_slash slash, ih, List.cons_append]
    | false =>
      obtain ⟨s, ss, rest, whole⟩ := exists_splitSlashes cs slash
      obtain ⟨s', ss', rest', whole'⟩ := exists_splitSlashes (cs ++ '/' :: ds) slash
      rw [rest'] at ih
      rw [rest, List.cons_append] at ih
      obtain ⟨rfl, rfl⟩ := List.cons.inj ih
      rw [List.cons_append, whole', whole, List.cons_append]

theorem splitSlashes_of_plain (plain : ∀ c ∈ cs, isSlash c = false) : splitSlashes cs = [cs] := by
  induction cs with
  | nil => rfl
  | cons c cs ih =>
    obtain ⟨first, later⟩ := List.forall_mem_cons.mp plain
    obtain ⟨s, ss, rest, whole⟩ := exists_splitSlashes cs first
    rw [ih later] at rest
    obtain ⟨rfl, rfl⟩ := List.cons.inj rest
    exact whole

theorem splitSlashes_slashed (some : names ≠ []) (plain : ∀ n ∈ names, ∀ c ∈ n, isSlash c = false) :
    splitSlashes (slashed names) = names := by
  induction names with
  | nil => exact absurd rfl some
  | cons n rest ih =>
    obtain ⟨first, later⟩ := List.forall_mem_cons.mp plain
    cases rest with
    | nil => exact splitSlashes_of_plain first
    | cons m rest =>
      have behind := ih (List.cons_ne_nil m rest) later
      rw [slashed, splitSlashes_append, splitSlashes_of_plain first, behind]
      · rfl
      · simp

theorem bytes_cons (s : List Char) (ss : List (List Char)) : bytes (s :: ss) = (utf8 s).length + bytes ss := by
  simp [bytes]

theorem length_utf8_slash (slash : isSlash c = true) : (utf8EncodeChar c).length = 1 := by
  have marks : c = '/' ∨ c = '\\' := by simpa [isSlash] using slash
  rcases marks with rfl | rfl <;> decide

/-- Each slash is one byte. -/
theorem bytes_splitSlashes (cs : List Char) :
    bytes (splitSlashes cs) + (splitSlashes cs).length = (utf8 cs).length + 1 := by
  induction cs with
  | nil => rfl
  | cons c cs ih =>
    rw [utf8_cons, List.length_append]
    cases slash : isSlash c with
    | true =>
      rw [splitSlashes_of_slash slash, bytes_cons, length_utf8_slash slash, List.length_cons]
      have none : (utf8 []).length = 0 := rfl
      omega
    | false =>
      obtain ⟨s, ss, rest, whole⟩ := exists_splitSlashes cs slash
      rw [rest, bytes_cons, List.length_cons] at ih
      rw [whole, bytes_cons, List.length_cons, utf8_cons, List.length_append]
      omega

theorem bytes_slashed (some : names ≠ []) : bytes names + names.length = (utf8 (slashed names)).length + 1 := by
  induction names with
  | nil => exact absurd rfl some
  | cons n rest ih =>
    rw [bytes_cons, List.length_cons]
    cases rest with
    | nil => rfl
    | cons m rest =>
      have behind := ih (List.cons_ne_nil m rest)
      have slash : (utf8EncodeChar '/').length = 1 := length_utf8_slash rfl
      rw [slashed, utf8_append, utf8_cons, List.length_append, List.length_append]
      · omega
      · simp

/-- What a segment does to the path before it, last segment first, when others follow. -/
def push (path : List String) (s : List Char) : List String :=
  if isDoubleDot s then path.drop 1
  else if isSingleDot s then path
  else String.ofList (encode keptInPath s) :: path

theorem resolve_append {a b : List (List Char)} (some : b ≠ []) :
    resolve path (a ++ b) = resolve (a.foldl push path) b := by
  induction a generalizing path with
  | nil => rfl
  | cons s a ih =>
    have more : (a ++ b).isEmpty = false := by simp [some]
    rw [List.cons_append, resolve, more, List.foldl_cons, ← ih, push]
    split
    next => rfl
    next => split <;> rfl

theorem resolve_nil (path : List String) : resolve path [[]] = path.reverse ++ [""] := by
  have double : isDoubleDot [] = false := rfl
  have single : isSingleDot [] = false := rfl
  simp only [resolve, double, single, Bool.false_eq_true, if_false, List.reverse_cons]
  rfl

/-- A slash at the end of a path is an empty segment, unless a dot segment has left one already. -/
theorem resolve_append_nil (path : List String) {ss : List (List Char)} (some : ss ≠ []) :
    resolve path (ss ++ [[]]) = resolve path ss ∨ resolve path (ss ++ [[]]) = resolve path ss ++ [""] := by
  obtain ⟨before, s, rfl⟩ : ∃ before s, ss = before ++ [s] := ⟨_, _, (List.dropLast_append_getLast some).symm⟩
  have shorter : resolve path (before ++ [s]) = resolve (before.foldl push path) [s] :=
    resolve_append (List.cons_ne_nil s [])
  have longer : resolve path (before ++ [s] ++ [[]]) = (push (before.foldl push path) s).reverse ++ [""] := by
    rw [resolve_append (List.cons_ne_nil [] []), List.foldl_concat, resolve_nil]
  rw [longer, shorter]
  by_cases double : isDoubleDot s = true
  · simp [resolve, push, double]
  · by_cases single : isSingleDot s = true
    · simp [resolve, push, double, single]
    · simp [resolve, push, double, single]

theorem resolve_of_undotted {ss : List (List Char)}
    (plain : ∀ s ∈ ss, isDoubleDot s = false ∧ isSingleDot s = false) :
    resolve path ss = path.reverse ++ ss.map fun s => String.ofList (encode keptInPath s) := by
  induction ss generalizing path with
  | nil => simp [resolve]
  | cons s ss ih =>
    obtain ⟨⟨double, single⟩, later⟩ := List.forall_mem_cons.mp plain
    rw [resolve, if_neg (by simp [double]), if_neg (by simp [single]), ih later]
    simp

theorem length_resolve_le (path : List String) (ss : List (List Char)) :
    (resolve path ss).length ≤ path.length + ss.length := by
  have closing (last : Bool) (path : List String) :
      (if last then "" :: path else path).length ≤ path.length + 1 := by
    cases last <;> simp
  induction ss generalizing path with
  | nil => simp [resolve]
  | cons s ss ih =>
    rw [resolve, List.length_cons]
    split
    next =>
      have dropped : (path.drop 1).length ≤ path.length := by simp
      have more := closing ss.isEmpty (path.drop 1)
      refine Nat.le_trans (ih _) ?_
      omega
    next =>
      split
      next =>
        have more := closing ss.isEmpty path
        refine Nat.le_trans (ih _) ?_
        omega
      next =>
        refine Nat.le_trans (ih _) ?_
        rw [List.length_cons]
        omega

/-- How many bytes segments say. -/
def weight (path : List String) : Nat :=
  (path.map fun s => (decode s.toList).length).sum

theorem weight_cons (s : String) (path : List String) : weight (s :: path) = (decode s.toList).length + weight path := by
  simp [weight]

theorem weight_append (a b : List String) : weight (a ++ b) = weight a + weight b := by
  simp [weight]

theorem weight_reverse (path : List String) : weight path.reverse = weight path := by
  simp [weight, List.map_reverse, List.sum_reverse]

theorem weight_drop_le (path : List String) : weight (path.drop 1) ≤ weight path := by
  cases path with
  | nil => exact Nat.le_refl _
  | cons s path => simp [weight_cons]

/-- The empty segment behind a dot segment at the end says nothing. -/
theorem weight_closing (last : Bool) (path : List String) : weight (if last then "" :: path else path) = weight path := by
  cases last with
  | false => rfl
  | true =>
    rw [if_pos rfl, weight_cons]
    exact Nat.zero_add _

theorem utf8_ne_nil_of_dots (dots : isDoubleDot cs = true ∨ isSingleDot cs = true) : 0 < (utf8 cs).length := by
  cases cs with
  | nil => rcases dots with dots | dots <;> cases dots
  | cons c cs =>
    have first := length_utf8EncodeChar_pos c
    rw [utf8_cons, List.length_append]
    omega

/-- Segments say no more than what they were written with, and less when there is a dot segment or an escape. -/
theorem weight_resolve (path : List String) (ss : List (List Char)) :
    weight (resolve path ss) ≤ weight path + bytes ss ∧
    (weight (resolve path ss) = weight path + bytes ss →
      ∀ s ∈ ss, (isDoubleDot s = false ∧ isSingleDot s = false) ∧ Unescaped s) := by
  induction ss generalizing path with
  | nil => simp [resolve, weight_reverse, bytes]
  | cons s ss ih =>
    rw [resolve, bytes_cons]
    split
    next double =>
      have some := utf8_ne_nil_of_dots (.inl double)
      have fewer := weight_drop_le path
      have bound := (ih (if ss.isEmpty then "" :: path.drop 1 else path.drop 1)).1
      rw [weight_closing] at bound
      exact ⟨by omega, fun equal => by omega⟩
    next double =>
      split
      next single =>
        have some := utf8_ne_nil_of_dots (.inr single)
        have bound := (ih (if ss.isEmpty then "" :: path else path)).1
        rw [weight_closing] at bound
        exact ⟨by omega, fun equal => by omega⟩
      next single =>
        obtain ⟨bound, plain⟩ := ih (String.ofList (encode keptInPath s) :: path)
        obtain ⟨fewer, unescaped⟩ := Percent.length_decode s
        rw [weight_cons, String.toList_ofList, Percent.decode_encode] at bound plain
        refine ⟨by omega, fun equal => ?_⟩
        refine List.forall_mem_cons.mpr ⟨⟨⟨?_, ?_⟩, unescaped (by omega)⟩, plain (by omega)⟩
        · simpa using double
        · simpa using single

/-- How many slashes there are in texts. -/
def slashes (ss : List (List Char)) : Nat :=
  (ss.map fun s => s.countP isSlash).sum

theorem length_splitSlashes (cs : List Char) : (splitSlashes cs).length = cs.countP isSlash + 1 := by
  induction cs with
  | nil => rfl
  | cons c cs ih =>
    cases slash : isSlash c with
    | true => rw [splitSlashes_of_slash slash, List.length_cons, ih, List.countP_cons_of_pos slash]
    | false =>
      obtain ⟨s, ss, rest, whole⟩ := exists_splitSlashes cs slash
      rw [rest, List.length_cons] at ih
      rw [whole, List.length_cons, ih, List.countP_cons_of_neg (by simp [slash])]

theorem countP_slashed (some : names ≠ []) : (slashed names).countP isSlash + 1 = slashes names + names.length := by
  induction names with
  | nil => exact absurd rfl some
  | cons n rest ih =>
    cases rest with
    | nil => simp [slashed, slashes]
    | cons m rest =>
      have behind := ih (List.cons_ne_nil m rest)
      rw [slashed, List.countP_append, List.countP_cons_of_pos rfl]
      · simp only [slashes, List.map_cons, List.sum_cons, List.length_cons] at behind ⊢
        omega
      · simp

/-- Each name is a part of its own only when none of them has a slash. -/
theorem not_slash_of_length (some : names ≠ []) (few : (splitSlashes (slashed names)).length ≤ names.length) :
    ∀ n ∈ names, ∀ c ∈ n, isSlash c = false := by
  have split := length_splitSlashes (slashed names)
  have joined := countP_slashed some
  have none : slashes names = 0 := by omega
  intro n mem c within
  have each : n.countP isSlash = 0 := List.sum_eq_zero_iff_forall_eq_nat.mp none _ (List.mem_map_of_mem mem)
  simpa using List.countP_eq_zero.mp each c within

theorem mem_slashed_of_mem {n : List Char} (mem : n ∈ names) (within : c ∈ n) : c ∈ slashed names := by
  induction names with
  | nil => cases mem
  | cons m rest ih =>
    cases rest with
    | nil =>
      obtain rfl := List.mem_singleton.mp mem
      exact within
    | cons k rest =>
      rw [slashed]
      · rcases List.mem_cons.mp mem with rfl | later
        · exact List.mem_append_left _ within
        · exact List.mem_append_right _ (List.mem_cons_of_mem _ (ih later))
      · simp

theorem mem_slashed (mem : c ∈ slashed names) : c = '/' ∨ ∃ n ∈ names, c ∈ n := by
  induction names with
  | nil => cases mem
  | cons m rest ih =>
    cases rest with
    | nil => exact .inr ⟨m, List.mem_singleton.mpr rfl, mem⟩
    | cons k rest =>
      rw [slashed] at mem
      · rcases List.mem_append.mp mem with first | later
        · exact .inr ⟨m, List.mem_cons_self, first⟩
        rcases List.mem_cons.mp later with slash | later
        · exact .inl slash
        rcases ih later with slash | ⟨n, within, holds⟩
        · exact .inl slash
        · exact .inr ⟨n, List.mem_cons_of_mem _ within, holds⟩
      · simp

end Url

end DatabaseOperator
