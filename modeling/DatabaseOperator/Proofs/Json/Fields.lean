import DatabaseOperator.Proofs.Cluster.Rereading
import DatabaseOperator.Proofs.Json.Text

namespace DatabaseOperator

theorem lookup_eq_some_iff_mem {α : Type} {l : List (String × α)} {k : String} {v : α}
    (distinct : (l.map Prod.fst).Nodup) : l.lookup k = some v ↔ (k, v) ∈ l := by
  constructor
  · exact Dictionary.mem_of_lookup
  · intro mem
    induction l with
    | nil => cases mem
    | cons e rest ih =>
      obtain ⟨apart, distinct⟩ := List.nodup_cons.mp distinct
      rcases List.mem_cons.mp mem with rfl | later
      · exact List.lookup_cons_self
      · have other : k ≠ e.1 := fun same => apart (same ▸ List.mem_map_of_mem later)
        rw [List.lookup_cons, beq_false_of_ne other]
        exact ih distinct later

namespace Json

variable {α : Type} {name : String} {decode : Decoder α} {encode : α → Json} {v : Json} {x : Option α} {n : Nat}

section presents

variable {parts : List (String × Option Json)} {part : Option Json} {names : List String}

theorem mem_presents {m : String × Json} : m ∈ presents parts ↔ (m.1, some m.2) ∈ parts := by
  constructor
  · intro mem
    obtain ⟨⟨key, part⟩, given, mem⟩ := List.mem_flatMap.mp mem
    cases part with
    | none => cases mem
    | some v =>
      obtain rfl := List.mem_singleton.mp mem
      exact given
  · intro given
    exact List.mem_flatMap.mpr ⟨_, given, List.mem_singleton.mpr rfl⟩

/-- No part stands twice. -/
theorem nodup_presents (distinct : (parts.map Prod.fst).Nodup) : ((presents parts).map Prod.fst).Nodup := by
  have fewer : ((presents parts).map Prod.fst).Sublist (parts.map Prod.fst) := by
    clear distinct
    induction parts with
    | nil => exact .slnil
    | cons p parts ih =>
      obtain ⟨key, part⟩ := p
      cases part with
      | none => exact ih.cons key
      | some v => exact ih.cons_cons key
  exact fewer.nodup distinct

/-- What a part says is found under its name. -/
theorem lookup_presents (distinct : (parts.map Prod.fst).Nodup) (found : parts.lookup name = some part) :
    (presents parts).lookup name = part := by
  refine Option.ext fun v => ?_
  rw [lookup_eq_some_iff_mem (nodup_presents distinct), mem_presents, ← lookup_eq_some_iff_mem distinct, found,
    Option.some.injEq]

theorem fields?_presents (distinct : (parts.map Prod.fst).Nodup) :
    fields? names (.object (presents parts)) = some ⟨presents parts, false⟩ := by
  have once : repeated names (presents parts) = false := by
    refine List.any_eq_false.mpr fun name _ => ?_
    have few := List.nodup_iff_count.mp (nodup_presents distinct) name
    have same : (presents parts).countP (fun m => m.1 = name) = ((presents parts).map Prod.fst).count name := by
      rw [List.count, List.countP_map]
      exact List.countP_congr fun m _ => by simp
    rw [← same] at few
    simpa using Nat.lt_succ_of_le few
  rw [fields?, once]
  rfl

theorem required_presents {a : α} (distinct : (parts.map Prod.fst).Nodup)
    (found : parts.lookup name = some (some v)) (back : decode v = some a) :
    Fields.required ⟨presents parts, false⟩ name decode = some a := by
  rw [Fields.required, Fields.get?, lookup_presents distinct found]
  exact back

theorem withDefault_presents {a default : α} (distinct : (parts.map Prod.fst).Nodup)
    (found : parts.lookup name = some part) (back : part.elim (some default) decode = some a) :
    Fields.withDefault ⟨presents parts, false⟩ name default decode = some a := by
  rw [Fields.withDefault, Fields.get?, lookup_presents distinct found]
  cases part with
  | none => exact back
  | some v => exact back

theorem optional_presents (distinct : (parts.map Prod.fst).Nodup) (found : parts.lookup name = some part)
    (back : part.elim (some none) (option? decode) = some x) :
    Fields.optional ⟨presents parts, false⟩ name decode = some x :=
  withDefault_presents distinct found back

theorem plain_presents (plain : ∀ p ∈ parts, ∀ v ∈ p.2, Plain n v) : Plain (n + 1) (.object (presents parts)) :=
  .object fun m mem => plain _ (mem_presents.mp mem) m.2 rfl

end presents

/-- A text that is left out when empty. -/
def unlessEmpty (s : String) : Option Json :=
  if s.isEmpty then none else some (string s)

theorem nonEmpty_eq (name s : String) : nonEmpty name s = present name (unlessEmpty s) := by
  unfold nonEmpty unlessEmpty
  split <;> rfl

theorem plain_unlessEmpty (s : String) : ∀ v ∈ unlessEmpty s, Plain n v := by
  unfold unlessEmpty
  split
  next => simp
  next =>
    rintro v ⟨⟩
    exact .string s

theorem plain_map (plain : ∀ a, Plain n (encode a)) (x : Option α) : ∀ v ∈ x.map encode, Plain n v := by
  intro v mem
  obtain ⟨a, -, rfl⟩ := Option.map_eq_some_iff.mp mem
  exact plain a

theorem plain_array (plain : ∀ a, Plain n (encode a)) (l : List α) : Plain (n + 1) (array (l.map encode)) :=
  .array (List.forall_mem_map.mpr fun a _ => plain a)

theorem elim_unlessEmpty (s : String) : (unlessEmpty s).elim (some "") text? = some s := by
  unfold unlessEmpty
  split
  next empty => rw [String.isEmpty_iff.mp empty, Option.elim_none]
  next => rfl

/-- A member of an object of the cluster is read from a value of its own. -/
theorem exists_of_member? {ms : List (String × Json)} {a : α} (h : member? ms name decode = some (some a)) :
    ∃ v, decode v = some a := by
  have folded : ∀ last : Option α, (∀ b, last = some b → ∃ v, decode v = some b) →
      ms.foldlM (fun last m => if m.1 = name then option? decode m.2 else some last) last = some (some a) →
      ∃ v, decode v = some a := by
    clear h
    induction ms with
    | nil =>
      intro last known done
      exact known a (Option.some.inj done)
    | cons m ms ih =>
      intro last known folds
      rw [List.foldlM_cons] at folds
      obtain ⟨next, first, later⟩ := Option.bind_eq_some_iff.mp folds
      refine ih next ?_ later
      rintro b rfl
      split at first
      next =>
        by_cases given : m.2 = null
        · rw [given] at first
          cases first
        · rw [option?_of_ne_null given] at first
          obtain ⟨c, read, same⟩ := Option.map_eq_some_iff.mp first
          cases same
          exact ⟨m.2, read⟩
      next => exact known b (Option.some.inj first)
  exact folded none (fun _ none => nomatch none) h

theorem forall_of_list? {P : α → Prop} (each : ∀ v a, decode v = some a → P a) {l : List α}
    (h : list? decode v = some l) : ∀ a ∈ l, P a := by
  cases v with
  | array items =>
    have pairs := mapM_eq_some_iff.mp h
    clear h
    induction pairs with
    | nil => simp
    | cons read _ ih => exact List.forall_mem_cons.mpr ⟨each _ _ read, ih⟩
  | _ => cases h

theorem bounds_of_int64? {k : Int} (h : int64? v = some k) : -0x8000000000000000 ≤ k ∧ k ≤ 0x7fffffffffffffff := by
  unfold int64? int? at h
  split at h
  next =>
    split at h
    next within =>
      obtain rfl := Option.some.inj h
      omega
    next => cases h
  next => cases h

/-- What a text is read as. -/
def readAs (decode : Decoder α) (text : String) : Option α :=
  (read text).bind decode

/-- What is written of a value is read as the value, and so is the text of it. -/
structure Kept (decode : Decoder α) (encode : α → Json) (a : α) : Prop where
  value : decode (encode a) = some a
  text : readAs decode (encode a).render = some a

theorem kept_of_plain {a : α} (back : decode (encode a) = some a) (plain : Plain n (encode a))
    (shallow : n ≤ depthLimit) : Kept decode encode a where
  value := back
  text := by rw [readAs, plain.read_render shallow, Option.bind_some, back]

end Json

end DatabaseOperator
