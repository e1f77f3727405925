import DatabaseOperator.Proofs.Http.Names
import DatabaseOperator.Proofs.Http.Root

namespace DatabaseOperator

namespace Url

open Percent (encode)

variable {c : Char} {cs ds rest : List Char} {u url : Url}

/-- What is read of a base that a slash follows: blanks at its end stay. -/
def front (cs : List Char) : List Char :=
  (cs.dropWhile isEdge).filter fun c => !isBreak c

theorem tidy_append_slash (cs ds : List Char) : tidy (cs ++ '/' :: ds) = front cs ++ '/' :: rear ds := by
  have slash : isEdge '/' = false := by decide
  have opening : (cs ++ '/' :: ds).dropWhile isEdge = cs.dropWhile isEdge ++ '/' :: ds := by
    rw [List.dropWhile_append, List.dropWhile_cons_of_neg (by simp [slash])]
    split
    next blank => rw [List.isEmpty_iff.mp blank, List.nil_append]
    next => rfl
  have closing (as : List Char) :
      (as ++ '/' :: ds).reverse.dropWhile isEdge = ds.reverse.dropWhile isEdge ++ '/' :: as.reverse := by
    have turned : (as ++ '/' :: ds).reverse = ds.reverse ++ '/' :: as.reverse := by simp
    rw [turned, List.dropWhile_append, List.dropWhile_cons_of_neg (by simp [slash])]
    split
    next blank => rw [List.isEmpty_iff.mp blank, List.nil_append]
    next => rfl
  have kept : isBreak '/' = false := by decide
  simp only [tidy, opening, closing]
  simp [front, rear, kept]

/-- Without a slash behind it, a base loses the blanks at its end. -/
theorem exists_front_eq (cs : List Char) :
    ∃ blanks, front cs = tidy cs ++ blanks ∧ ∀ c ∈ blanks, isEdge c = true := by
  let kept := cs.dropWhile isEdge
  have split : kept = (kept.reverse.dropWhile isEdge).reverse ++ (kept.reverse.takeWhile isEdge).reverse := by
    rw [← List.reverse_append, List.takeWhile_append_dropWhile, List.reverse_reverse]
  refine ⟨(kept.reverse.takeWhile isEdge).reverse.filter fun c => !isBreak c, ?_, ?_⟩
  · change kept.filter (fun c => !isBreak c) = _
    rw [split, List.filter_append]
    simp [tidy, kept]
  · intro c mem
    have within := List.mem_reverse.mp (List.mem_filter.mp mem).1
    exact List.all_eq_true.mp List.all_takeWhile c within

theorem Closed.front_eq (h : Closed cs) : front cs = tidy cs := by
  have later : Closed (cs.dropWhile isEdge) := by
    intro c last
    refine h c ?_
    rw [← List.takeWhile_append_dropWhile (p := isEdge) (l := cs), List.getLast?_append, Option.mem_def.mp last]
    rfl
  simp only [front, tidy, later.dropWhile_reverse, List.reverse_reverse]

theorem tidy_sublist (cs : List Char) : (tidy cs).Sublist cs :=
  List.filter_sublist.trans ((trimmed_sublist _).trans (List.dropWhile_sublist _))

theorem front_sublist (cs : List Char) : (front cs).Sublist cs :=
  List.filter_sublist.trans (List.dropWhile_sublist _)

theorem mem_dropWhile_of_neg {p : Char → Bool} (mem : c ∈ cs) (other : p c = false) : c ∈ cs.dropWhile p := by
  rw [← List.takeWhile_append_dropWhile (p := p) (l := cs)] at mem
  rcases List.mem_append.mp mem with early | late
  · have met := List.all_eq_true.mp List.all_takeWhile c early
    rw [other] at met
    cases met
  · exact late

theorem mem_tidy_of_mem (mem : c ∈ cs) (inner : isEdge c = false) (unbroken : isBreak c = false) : c ∈ tidy cs := by
  have opened := mem_dropWhile_of_neg mem inner
  have closed := mem_dropWhile_of_neg (List.mem_reverse.mpr opened) inner
  exact List.mem_filter.mpr ⟨List.mem_reverse.mpr closed, by simp [unbroken]⟩

/-- Nothing is read behind the mark of a fragment. -/
theorem parse_append_of_fragment {base : String} (fragment : '#' ∈ base.toList) (w : String) :
    parse (base ++ "/" ++ w) = parse base := by
  obtain ⟨blanks, longer, -⟩ := exists_front_eq base.toList
  have mem : '#' ∈ tidy base.toList := mem_tidy_of_mem fragment (by decide) (by decide)
  obtain ⟨as, bs, split, early⟩ := List.eq_append_cons_of_mem mem
  have cut (ds : List Char) : (tidy base.toList ++ ds).takeWhile (· ≠ '#') = as := by
    rw [split, List.append_assoc, List.takeWhile_append_of_pos (forall_ne_of_not_mem early), List.cons_append,
      List.takeWhile_cons_of_neg (by simp), List.append_nil]
  have written : (base ++ "/" ++ w).toList = base.toList ++ '/' :: w.toList := by simp
  have alone := cut []
  rw [List.append_nil] at alone
  rw [parse_eq, parse_eq, written, tidy_append_slash, longer, List.append_assoc, cut, alone]

/-- Without a fragment, what is read behind a slash is read as far as its own fragment. -/
theorem parse_append {base : String} (whole : '#' ∉ base.toList) (w : String) :
    parse (base ++ "/" ++ w) = locate (front base.toList ++ '/' :: (rear w.toList).takeWhile (· ≠ '#')) := by
  have absent : '#' ∉ front base.toList := fun mem => whole ((front_sublist _).subset mem)
  have written : (base ++ "/" ++ w).toList = base.toList ++ '/' :: w.toList := by simp
  rw [parse_eq, written, tidy_append_slash, List.takeWhile_append_of_pos (forall_ne_of_not_mem absent),
    List.takeWhile_cons_of_pos (by decide)]

theorem queryOf_eq_none_iff : queryOf cs = none ↔ '?' ∉ cs := by
  unfold queryOf
  split
  next mark q dropped =>
    have within : mark ∈ cs := (List.dropWhile_sublist (· ≠ '?')).subset (dropped ▸ List.mem_cons_self)
    have first : (mark ≠ '?' : Bool) = false := stop_of_dropWhile (by rw [dropped]; rfl)
    have same : mark = '?' := by simpa using first
    simp [same ▸ within]
  next dropped =>
    have absent : '?' ∉ cs := by
      intro mem
      have left : '?' ∈ cs.dropWhile (· ≠ '?') := mem_dropWhile_of_neg mem (by decide)
      rw [dropped] at left
      cases left
    simp [absent]

theorem queryOf_append (absent : '?' ∉ cs) (ds : List Char) : queryOf (cs ++ ds) = queryOf ds := by
  rw [queryOf, List.dropWhile_append_of_pos (forall_ne_of_not_mem absent), queryOf]

/-- What ends in a slash has said which directory the path begins with. -/
theorem exists_directory (stops : ∀ c ∈ rest.head?, isSlash c = true) :
    ∃ path, (∀ ds, readPath (rest ++ '/' :: ds) = resolve path (splitSlashes ds)) ∧
      (path.reverse ++ [""] = readPath rest ∨ path.reverse ++ [""] = readPath rest ++ [""]) := by
  cases rest with
  | nil => exact ⟨[], fun ds => rfl, .inl rfl⟩
  | cons c rest =>
    have slash : isSlash c = true := stops c rfl
    have closed := resolve_append_nil [] (splitSlashes_ne_nil rest)
    rw [resolve_append (List.cons_ne_nil [] []), resolve_nil] at closed
    refine ⟨(splitSlashes rest).foldl push [], fun ds => ?_, ?_⟩
    · rw [List.cons_append, readPath]
      simp only [slash, if_true]
      rw [splitSlashes_append, resolve_append (splitSlashes_ne_nil ds)]
    · rw [readPath]
      simp only [slash, if_true]
      exact closed

/-- A base that is read as `u` is a root and a path, also when a slash follows and blanks at its end stay. -/
structure Root.Opens (r : Root) (rest cs : List Char) (u : Url) : Prop where
  formed : r.WellFormed
  split : front cs = r.text ++ rest
  unasked : '?' ∉ rest
  stops : ∀ c ∈ rest.head?, isSlash c = true
  path : front cs = tidy cs → u.segments = readPath rest
  served : ∀ authority, readAuthority r.server = some authority →
    u.origin = String.ofList (lower r.scheme) ++ "://" ++ authority

theorem exists_opens (located : locate (tidy cs) = some u) (plain : u.query = none) :
    ∃ (r : Root) (rest : List Char), r.Opens rest cs u := by
  obtain ⟨blanks, longer, blank⟩ := exists_front_eq cs
  obtain ⟨r, rest, formed, split, stops⟩ := exists_root located
  rw [split, formed.locate_eq stops] at located
  obtain ⟨authority, named, rfl⟩ := Option.map_eq_some_iff.mp located
  have absent : '?' ∉ rest := queryOf_eq_none_iff.mp plain
  have other : ∀ c ∈ blanks, isStop c = false ∧ c ≠ '?' := fun c mem => not_stop_of_isEdge (blank c mem)
  cases rest with
  | nil =>
    -- The blanks go to the name of the server, which cannot be read then.
    rw [List.append_nil] at split
    refine ⟨{ r with server := r.server ++ blanks }, [], ?_⟩
    refine { formed := ?_, split := ?_, unasked := List.not_mem_nil, stops := by simp, path := fun _ => rfl,
             served := ?_ }
    · exact formed.append fun c mem => (other c mem).1
    · rw [longer, split]
      simp [Root.text]
    · intro authority' named'
      rcases List.eq_nil_or_concat blanks with rfl | ⟨before, last, rfl⟩
      · rw [List.append_nil, named] at named'
        rw [Option.some.inj named']
      · have unnamed : readAuthority (r.server ++ before.concat last) = none :=
          readAuthority_eq_none (c := last) (by simp) (blank last (by simp))
        cases unnamed.symm.trans named'
  | cons c rest =>
    -- The blanks go to the path.
    refine ⟨r, c :: rest ++ blanks, ?_⟩
    refine { formed, split := ?_, unasked := ?_, stops := ?_, path := ?_, served := ?_ }
    · rw [longer, split, List.append_assoc]
    · intro mem
      rcases List.mem_append.mp mem with early | late
      · exact absent early
      · exact (other '?' late).2 rfl
    · intro d first
      obtain rfl : c = d := Option.some.inj first
      have slash := stops c rfl
      have mark : c ≠ '?' := fun same => absent (same ▸ List.mem_cons_self)
      simpa [isStop, mark] using slash
    · intro same
      rw [longer] at same
      rw [List.append_right_eq_self.mp same, List.append_nil, takeWhile_ne_of_not_mem absent]
    · intro authority' named'
      rw [named] at named'
      rw [Option.some.inj named']

variable {r : Root}

/-- What follows a slash behind the base changes neither its server nor its directory. -/
theorem Root.Opens.locate_eq (h : r.Opens rest cs u) {path : List String}
    (below : ∀ ds, readPath (rest ++ '/' :: ds) = resolve path (splitSlashes ds)) (ds : List Char) :
    locate (front cs ++ '/' :: ds) = (readAuthority r.server).map fun authority =>
      ⟨String.ofList (lower r.scheme) ++ "://" ++ authority,
        resolve path (splitSlashes (ds.takeWhile (· ≠ '?'))), queryOf ds⟩ := by
  have begins : ∀ c ∈ (rest ++ '/' :: ds).head?, isStop c = true := by
    intro c first
    have slash : isSlash c = true := by
      cases rest with
      | nil =>
        obtain rfl : '/' = c := Option.some.inj first
        rfl
      | cons d rest => exact h.stops c first
    simp [isStop, slash]
  rw [h.split, List.append_assoc, h.formed.locate_eq begins,
    List.takeWhile_append_of_pos (forall_ne_of_not_mem h.unasked), List.takeWhile_cons_of_pos (by decide), below,
    queryOf_append h.unasked]
  rfl

/-- The directory of a base that is read as `u`: what is read when a slash follows. It is on the base's server and
has the base's path, up to that slash, unless blanks at the end of the base count now. -/
structure IsDirectory (base : String) (u dir : Url) : Prop where
  parsed : parse (base ++ "/") = some dir
  origin : dir.origin = u.origin
  path : Closed base.toList → dir.segments = u.segments ∨ dir.segments = u.segments ++ [""]

/-- What an address says that is written behind a base and a slash: the server is the base's, and so is the
directory that the path begins with. Behind a fragment nothing counts. -/
theorem parse_below {base w : String} (based : parse base = some u) (plain : u.query = none)
    (parsed : parse (base ++ "/" ++ w) = some url) : ∃ dir, IsDirectory base u dir ∧ url.origin = u.origin ∧
    if '#' ∈ base.toList then url = dir
    else ∃ path, dir.segments = path.reverse ++ [""] ∧
      url.segments = resolve path (splitSlashes (reached w.toList)) ∧
      url.query = queryOf ((rear w.toList).takeWhile (· ≠ '#')) := by
  have bare : parse (base ++ "/" ++ "") = parse (base ++ "/") := by rw [String.append_empty]
  by_cases fragment : '#' ∈ base.toList
  · rw [parse_append_of_fragment fragment, based] at parsed bare
    obtain rfl := Option.some.inj parsed
    exact ⟨u, ⟨bare.symm, rfl, fun _ => .inl rfl⟩, rfl, by rw [if_pos fragment]⟩
  · simp only [if_neg fragment]
    have whole : '#' ∉ tidy base.toList := fun mem => fragment ((tidy_sublist _).subset mem)
    rw [parse_eq, takeWhile_ne_of_not_mem whole] at based
    obtain ⟨r, rest, opens⟩ := exists_opens based plain
    obtain ⟨path, below, home⟩ := exists_directory opens.stops
    rw [parse_append fragment, opens.locate_eq below] at parsed bare
    obtain ⟨authority, named, rfl⟩ := Option.map_eq_some_iff.mp parsed
    rw [named] at bare
    have same := opens.served authority named
    refine ⟨_, ⟨bare.symm, same.symm, fun closed => ?_⟩, same.symm, path, resolve_nil path, rfl, rfl⟩
    rw [opens.path closed.front_eq]
    exact (resolve_nil path).symm ▸ home

variable {base w : String} {dir : Url} {names : List (List Char)}

/-- The path is what a directory has and these segments, and there is no query. -/
def EndsIn (dir url : Url) (segments : List String) : Prop :=
  url.segments = dir.segments.dropLast ++ segments ∧ url.query = none

/-- Names that are written behind a base without a fragment are the segments behind its directory just when
they are clean. -/
theorem exists_directory_of_whole (based : parse base = some u) (plain : u.query = none)
    (parsed : parse (base ++ "/" ++ w) = some url) (written : w.toList = slashed names) (some : names ≠ [])
    (whole : '#' ∉ base.toList) : ∃ dir, IsDirectory base u dir ∧ url.origin = u.origin ∧
      dir.segments.getLast? = Option.some "" ∧
      (∀ segments, List.Forall₂ Spells segments names → EndsIn dir url segments → Clean names) ∧
      (Clean names → EndsIn dir url (names.map fun n => String.ofList (encode Percent.keptInPath n))) := by
  obtain ⟨dir, directory, origin, behind⟩ := parse_below based plain parsed
  rw [if_neg whole] at behind
  obtain ⟨path, begins, continues, asked⟩ := behind
  rw [written] at continues asked
  refine ⟨dir, directory, origin, by simp [begins], fun segments spells ends => ?_, fun clean => ⟨?_, ?_⟩⟩
  · have resolved : resolve path (splitSlashes (reached (slashed names))) = path.reverse ++ segments := by
      rw [← continues, ends.1, begins, List.dropLast_concat]
    exact clean_of_spells some resolved spells
  · rw [continues, clean.resolve_eq some, begins, List.dropLast_concat]
  · have absent : '?' ∉ slashed names := fun mem => clean.unmarked.chars '?' mem (by decide)
    rw [asked, queryOf_eq_none_iff, clean.unmarked.rear_eq]
    exact fun mem => absent ((List.takeWhile_sublist _).subset mem)

/-- Names that are written behind a base are the segments behind its directory just when the base has no fragment
and the names are clean. -/
theorem exists_directory_spelled (based : parse base = some u) (plain : u.query = none)
    (parsed : parse (base ++ "/" ++ w) = some url) (written : w.toList = slashed names) (many : 2 ≤ names.length) :
    ∃ dir, IsDirectory base u dir ∧ url.origin = u.origin ∧
      (∀ segments, List.Forall₂ Spells segments names → EndsIn dir url segments →
        '#' ∉ base.toList ∧ Clean names) ∧
      ('#' ∉ base.toList → Clean names →
        EndsIn dir url (names.map fun n => String.ofList (encode Percent.keptInPath n))) := by
  by_cases fragment : '#' ∈ base.toList
  · obtain ⟨dir, directory, origin, behind⟩ := parse_below based plain parsed
    rw [if_pos fragment] at behind
    refine ⟨dir, directory, origin, fun segments spells ends => ?_, fun whole => absurd fragment whole⟩
    have length := congrArg List.length ends.1
    rw [behind, List.length_append, List.length_dropLast, spells.length_eq] at length
    omega
  · have some : names ≠ [] := by
      rintro rfl
      cases many
    obtain ⟨dir, directory, origin, _, only, exact⟩ :=
      exists_directory_of_whole based plain parsed written some fragment
    exact ⟨dir, directory, origin, fun segments spells ends => ⟨fragment, only segments spells ends⟩,
      fun _ => exact⟩

end Url

end DatabaseOperator
