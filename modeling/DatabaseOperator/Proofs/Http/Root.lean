import DatabaseOperator.Http.Url
import DatabaseOperator.Proofs.Text.Natural

namespace DatabaseOperator

namespace Url

open Percent (encode keptInQuery)

variable {c : Char} {cs ds rest : List Char} {u url : Url}

/-- A character that ends the name of the server. -/
def isStop (c : Char) : Bool :=
  isSlash c || c = '?'

/-- The query of what stands behind the name of the server. -/
def queryOf (cs : List Char) : Option String :=
  match cs.dropWhile (· ≠ '?') with
  | _ :: q => some (String.ofList (encode keptInQuery q))
  | [] => none

/-- The address of a text without blanks at its ends, breaks and a fragment. -/
def locate (cs : List Char) : Option Url := do
  let (scheme, cs) ← readScheme cs
  let cs := cs.dropWhile isSlash
  let authority ← readAuthority (cs.takeWhile fun c => !isStop c)
  let cs := cs.dropWhile fun c => !isStop c
  some ⟨scheme ++ "://" ++ authority, readPath (cs.takeWhile (· ≠ '?')), queryOf cs⟩

theorem parse_eq (text : String) : parse text = locate ((tidy text.toList).takeWhile (· ≠ '#')) := by
  have same : (fun c => !isSlash c && c ≠ '?') = fun c => !isStop c := by
    funext c
    simp [isStop]
  unfold parse locate
  simp only [same]
  rfl

/-- What comes before the path: a scheme, slashes and the name of the server. -/
structure Root where
  scheme : List Char
  slashes : List Char
  server : List Char

namespace Root

def text (r : Root) : List Char :=
  r.scheme ++ ':' :: (r.slashes ++ r.server)

/-- The parts are read apart. -/
structure WellFormed (r : Root) : Prop where
  colon : ∀ c ∈ r.scheme, c ≠ ':'
  known : lower r.scheme = "http".toList ∨ lower r.scheme = "https".toList
  slashes : ∀ c ∈ r.slashes, isSlash c = true
  server : ∀ c ∈ r.server, isStop c = false
  nonempty : r.server ≠ []

variable {r : Root}

theorem WellFormed.readScheme_eq (h : r.WellFormed) (cs : List Char) :
    readScheme (r.scheme ++ ':' :: cs) = some (String.ofList (lower r.scheme), cs) := by
  have colon : ∀ c ∈ r.scheme, (c ≠ ':' : Bool) = true := by
    intro c mem
    simpa using h.colon c mem
  have taken : (r.scheme ++ ':' :: cs).takeWhile (· ≠ ':') = r.scheme := by
    rw [List.takeWhile_append_of_pos colon, List.takeWhile_cons_of_neg (by simp), List.append_nil]
  have left : (r.scheme ++ ':' :: cs).dropWhile (· ≠ ':') = ':' :: cs := by
    rw [List.dropWhile_append_of_pos colon, List.dropWhile_cons_of_neg (by simp)]
  rw [readScheme, taken, if_pos h.known, left]

theorem WellFormed.locate_eq (h : r.WellFormed) (stops : ∀ c ∈ rest.head?, isStop c = true) :
    locate (r.text ++ rest) = (readAuthority r.server).map fun authority =>
      ⟨String.ofList (lower r.scheme) ++ "://" ++ authority, readPath (rest.takeWhile (· ≠ '?')),
        queryOf rest⟩ := by
  have shape : r.text ++ rest = r.scheme ++ ':' :: (r.slashes ++ (r.server ++ rest)) := by simp [text]
  have named : (r.server ++ rest).dropWhile isSlash = r.server ++ rest := by
    cases server : r.server with
    | nil => exact absurd server h.nonempty
    | cons c cs =>
      have first : isStop c = false := h.server c (server ▸ List.mem_cons_self)
      simp only [isStop, Bool.or_eq_false_iff] at first
      exact List.dropWhile_cons_of_neg (by simp [first.1])
  have server : ∀ c ∈ r.server, (!isStop c) = true := by
    intro c mem
    simp [h.server c mem]
  have taken : rest.takeWhile (fun c => !isStop c) = [] ∧ rest.dropWhile (fun c => !isStop c) = rest := by
    cases rest with
    | nil => exact ⟨rfl, rfl⟩
    | cons c rest => simp [stops c rfl]
  rw [shape, locate, h.readScheme_eq]
  simp only [Option.bind_eq_bind, Option.bind_some, List.dropWhile_append_of_pos h.slashes, named,
    List.takeWhile_append_of_pos server, List.dropWhile_append_of_pos server, taken, List.append_nil]
  cases readAuthority r.server <;> rfl

/-- The name of a server goes on up to a mark that ends it. -/
theorem WellFormed.append (h : r.WellFormed) (plain : ∀ c ∈ cs, isStop c = false) :
    WellFormed { r with server := r.server ++ cs } := by
  refine { h with server := ?_, nonempty := ?_ }
  · intro c mem
    rcases List.mem_append.mp mem with early | late
    · exact h.server c early
    · exact plain c late
  · intro none
    exact h.nonempty (List.append_eq_nil_iff.mp none).1

end Root

/-- What is behind the first of some characters begins with one. -/
theorem stop_of_dropWhile {p : Char → Bool} (mem : c ∈ (cs.dropWhile p).head?) : p c = false := by
  have first := List.head?_dropWhile_not p cs
  rw [mem] at first
  exact first

theorem ne_of_isEdge {d : Char} (edge : isEdge c = true) (inner : isEdge d = false) : c ≠ d := by
  rintro rfl
  rw [inner] at edge
  cases edge

theorem getLast?_takeWhile_reverse {p : Char → Bool} (last : c ∈ cs.getLast?) (met : p c = true) :
    c ∈ (cs.reverse.takeWhile p).reverse.getLast? := by
  rw [← List.head?_reverse] at last
  cases shape : cs.reverse with
  | nil =>
    rw [shape] at last
    cases last
  | cons d rest =>
    rw [shape] at last
    obtain rfl : d = c := Option.some.inj last
    rw [List.getLast?_reverse, List.takeWhile_cons_of_pos met]
    rfl

theorem isPort_eq_false (last : c ∈ cs.getLast?) (edge : isEdge c = true) : isPort cs = false := by
  unfold isPort
  split
  next => cases last
  next => rfl
  next =>
    cases read : readNatural limit16 cs with
    | error e => rfl
    | ok n =>
      have digit : c.isDigit = true := by
        cases (readNatural_eq_ok_iff.mp read).1 with
        | digits _ digit => exact digit c (List.mem_of_getLast? last)
        | signed nonempty digit =>
          rw [List.getLast?_cons, List.getLast?_eq_some_getLast nonempty, Option.getD_some] at last
          obtain rfl := Option.some.inj last
          exact digit _ (List.getLast_mem nonempty)
      simp only [Char.isDigit, Bool.and_eq_true, decide_eq_true_eq, UInt32.le_iff_toNat_le] at digit
      simp only [isEdge, decide_eq_true_eq, Char.toNat] at edge
      have bound := digit.1
      have value : ('0'.val.toNat) = 48 := rfl
      omega

theorem isHost_eq_false (last : c ∈ cs.getLast?) (edge : isEdge c = true) : isHost cs = false := by
  unfold isHost
  split
  next => rfl
  next rest =>
    have other : rest.getLast? ≠ some ']' := by
      intro closed
      rw [List.getLast?_cons, closed] at last
      obtain rfl : ']' = c := Option.some.inj last
      cases edge
    simp [other]
  next =>
    have forbidden : isForbiddenInHost c = true := by
      simp only [isEdge, decide_eq_true_eq] at edge
      simp [isForbiddenInHost, edge]
    have found : cs.any isForbiddenInHost = true := List.any_eq_true.mpr ⟨c, List.mem_of_getLast? last, forbidden⟩
    rw [found]
    rfl

/-- No name of a server ends in a blank. -/
theorem readAuthority_eq_none (last : c ∈ cs.getLast?) (edge : isEdge c = true) : readAuthority cs = none := by
  have different {d : Char} (inner : isEdge d = false) : c ≠ d := ne_of_isEdge edge inner
  let named := (cs.reverse.takeWhile (· ≠ '@')).reverse
  have named_last : c ∈ named.getLast? :=
    getLast?_takeWhile_reverse last (by simpa using different (d := '@') (by decide))
  have tail_last : c ∈ (named.reverse.takeWhile fun c => c ≠ ':' && c ≠ ']').reverse.getLast? :=
    getLast?_takeWhile_reverse named_last (by simp [different (d := ':') (by decide), different (d := ']') (by decide)])
  have unreadable : (isHost (splitPort named).1 && isPort (splitPort named).2) = false := by
    simp only [splitPort]
    split
    next => rw [isPort_eq_false tail_last edge, Bool.and_false]
    next => rw [isHost_eq_false named_last edge, Bool.false_and]
  change (if isHost (splitPort named).1 && isPort (splitPort named).2 then _ else none) = none
  rw [unreadable]
  rfl

theorem not_stop_of_isEdge (edge : isEdge c = true) : isStop c = false ∧ c ≠ '?' := by
  have slash : c ≠ '/' := ne_of_isEdge edge (by decide)
  have backslash : c ≠ '\\' := ne_of_isEdge edge (by decide)
  have mark : c ≠ '?' := ne_of_isEdge edge (by decide)
  simp [isStop, isSlash, slash, backslash, mark]

theorem readAuthority_nil : readAuthority [] = none := rfl

/-- A scheme that is read stands before the first colon. -/
theorem known_of_readScheme {scheme : String} {left : List Char} (h : readScheme cs = some (scheme, left)) :
    (lower (cs.takeWhile (· ≠ ':')) = "http".toList ∨ lower (cs.takeWhile (· ≠ ':')) = "https".toList) ∧
      cs = cs.takeWhile (· ≠ ':') ++ ':' :: left := by
  simp only [readScheme] at h
  split at h
  next known =>
    split at h
    next mark behind dropped =>
      obtain ⟨-, rfl⟩ := Prod.mk.inj (Option.some.inj h)
      have first : (mark ≠ ':' : Bool) = false := stop_of_dropWhile (by rw [dropped]; rfl)
      obtain rfl : mark = ':' := by simpa using first
      refine ⟨known, ?_⟩
      rw [← dropped, List.takeWhile_append_dropWhile]
    next => cases h
  next => cases h

/-- An address that is read begins with a root that is. -/
theorem exists_root (located : locate cs = some url) : ∃ (r : Root) (rest : List Char), r.WellFormed ∧
    cs = r.text ++ rest ∧ (∀ c ∈ rest.head?, isStop c = true) := by
  obtain ⟨⟨scheme, left⟩, schemed, located⟩ := Option.bind_eq_some_iff.mp located
  obtain ⟨authority, named, -⟩ := Option.bind_eq_some_iff.mp located
  obtain ⟨known, whole⟩ := known_of_readScheme schemed
  let server := (left.dropWhile isSlash).takeWhile fun c => !isStop c
  let rest := (left.dropWhile isSlash).dropWhile fun c => !isStop c
  have split : left = left.takeWhile isSlash ++ (server ++ rest) := by
    rw [List.takeWhile_append_dropWhile, List.takeWhile_append_dropWhile]
  refine ⟨⟨cs.takeWhile (· ≠ ':'), left.takeWhile isSlash, server⟩, rest, ⟨?_, known, ?_, ?_, ?_⟩, ?_, ?_⟩
  · intro c mem
    simpa using List.all_eq_true.mp List.all_takeWhile c mem
  · exact List.all_eq_true.mp List.all_takeWhile
  · intro c mem
    simpa using List.all_eq_true.mp List.all_takeWhile c mem
  · intro none
    have none : server = [] := none
    have named : readAuthority server = some authority := named
    rw [none, readAuthority_nil] at named
    cases named
  · rw [split] at whole
    refine whole.trans ?_
    simp [Root.text]
  · intro c mem
    simpa using stop_of_dropWhile mem

end Url

end DatabaseOperator
