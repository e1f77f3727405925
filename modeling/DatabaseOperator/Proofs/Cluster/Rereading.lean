import DatabaseOperator.Proofs.Calendar
import DatabaseOperator.Proofs.Dictionary
import DatabaseOperator.Proofs.Lists
import DatabaseOperator.Resource.Metadata

namespace DatabaseOperator

theorem Dictionary.mem_of_mem_ofList {α : Type} {x : String × α} {l : List (String × α)}
    (mem : x ∈ (ofList l).entries) : x ∈ l := by
  have inserted (d : Dictionary α) (l : List (String × α))
      (mem : x ∈ (l.foldl (fun d e => d.insert e.1 e.2) d).entries) : x ∈ d.entries ∨ x ∈ l := by
    induction l generalizing d with
    | nil => exact .inl mem
    | cons e rest ih =>
      rcases ih _ mem with early | late
      · rcases mem_put early with rfl | early
        · exact .inr List.mem_cons_self
        · exact .inl early
      · exact .inr (List.mem_cons_of_mem e late)
  exact (inserted empty l mem).resolve_left fun none => nomatch none

/-- What depends on one part and then on the rest. -/
theorem bind_eq_some_iff {α β : Type} {x : Option α} {f : α → Option β} {b : β} :
    (do let a ← x; f a) = some b ↔ ∃ a, x = some a ∧ f a = some b :=
  Option.bind_eq_some_iff

namespace Json

theorem settledMembers_of_forall {ms : List (String × Json)} (h : ∀ m ∈ ms, m.2.settled = some m.2) :
    settledMembers ms = some ms := by
  induction ms with
  | nil => rfl
  | cons m rest ih =>
    obtain ⟨first, later⟩ := List.forall_mem_cons.mp h
    simp [settledMembers, first, ih later]

mutual

/-- What is settled stays as it is. -/
theorem settled_of_settled : ∀ {v w : Json}, v.settled = some w → w.settled = some w
  | null, _, h | bool _, _, h | number _, _, h | string _, _, h => by
    cases h
    rfl
  | array items, _, h => by
    obtain ⟨ws, settled, rfl⟩ := Option.map_eq_some_iff.mp h
    exact congrArg (Option.map array) (settledItems_of_settled settled)
  | object members, _, h => by
    obtain ⟨ws, settled, rfl⟩ := Option.map_eq_some_iff.mp h
    have each : ∀ m ∈ (Dictionary.ofList ws).entries, m.2.settled = some m.2 := fun m mem =>
      forall_settled_of_settled settled m (Dictionary.mem_of_mem_ofList mem)
    change (settledMembers _).map _ = _
    rw [settledMembers_of_forall each, Option.map_some, Dictionary.ofList_entries]

theorem settledItems_of_settled : ∀ {items ws : List Json}, settledItems items = some ws →
    settledItems ws = some ws
  | [], _, h => by
    cases h
    rfl
  | v :: rest, _, h => by
    obtain ⟨w, first, h⟩ := Option.bind_eq_some_iff.mp h
    obtain ⟨ws, later, h⟩ := Option.bind_eq_some_iff.mp h
    cases h
    simp [settledItems, settled_of_settled first, settledItems_of_settled later]

theorem forall_settled_of_settled : ∀ {ms ws : List (String × Json)}, settledMembers ms = some ws →
    ∀ m ∈ ws, m.2.settled = some m.2
  | [], _, h => by
    cases h
    exact fun _ none => nomatch none
  | (name, v) :: rest, _, h => by
    obtain ⟨w, first, h⟩ := Option.bind_eq_some_iff.mp h
    obtain ⟨ws, later, h⟩ := Option.bind_eq_some_iff.mp h
    cases h
    exact List.forall_mem_cons.mpr ⟨settled_of_settled first, forall_settled_of_settled later⟩

end

theorem ne_null_of_settled {v w : Json} (h : v.settled = some w) (given : v ≠ null) : w ≠ null := by
  cases v with
  | null => exact absurd rfl given
  | bool | number | string =>
    cases h
    exact nofun
  | array | object =>
    obtain ⟨_, _, rfl⟩ := Option.map_eq_some_iff.mp h
    exact nofun
  | unreadable => cases h

variable {α : Type} {name other : String} {decode : Decoder α} {encode : α → Json} {x x' : Option α}

/-- A member that may be left out says something only under its own name. -/
theorem foldlM_present {v : Option Json} {last : Option α} :
    (present other v).foldlM (fun last m => if m.1 = name then option? decode m.2 else some last) last =
      if other = name then v.elim (some last) (option? decode) else some last := by
  cases v with
  | none => exact (ite_self _).symm
  | some v =>
    change (if other = name then option? decode v else some last) >>= pure = _
    exact bind_pure _

/-- The members of an object whose parts are left out when absent. -/
def presents (parts : List (String × Option Json)) : List (String × Json) :=
  parts.flatMap fun p => present p.1 p.2

section presents

variable {last : Option α} {parts : List (String × Option Json)}

theorem foldlM_presents_of_not_mem (other : name ∉ parts.map Prod.fst) :
    (presents parts).foldlM (fun last m => if m.1 = name then option? decode m.2 else some last) last =
      some last := by
  induction parts with
  | nil => rfl
  | cons p rest ih =>
    have first : p.1 ≠ name := fun same => other (same ▸ List.mem_cons_self)
    rw [presents, List.flatMap_cons, List.foldlM_append, foldlM_present, if_neg first]
    exact ih fun later => other (List.mem_cons_of_mem _ later)

/-- A part is read under its own name alone. -/
theorem member?_presents (distinct : (parts.map Prod.fst).Nodup) : member? (presents parts) name decode =
    ((parts.lookup name).getD none).elim (some none) (option? decode) := by
  induction parts with
  | nil => rfl
  | cons p rest ih =>
    obtain ⟨apart, distinct⟩ := List.nodup_cons.mp distinct
    rw [member?, presents, List.flatMap_cons, List.foldlM_append, foldlM_present]
    by_cases same : p.1 = name
    · subst same
      rw [if_pos rfl, List.lookup_cons, beq_self_eq_true]
      exact (congrArg _ (funext fun _ => foldlM_presents_of_not_mem apart)).trans (Option.bind_fun_some _)
    · have skip : (name == p.1) = false := beq_false_of_ne (Ne.symm same)
      rw [if_neg same, List.lookup_cons, skip]
      exact ih distinct

end presents

/-- A part that is left out when absent is read back. -/
theorem elim_option? {β : Type} {decode : Decoder β} {encode : β → Json} {x : Option β}
    (back : ∀ b, option? decode (encode b) = some (some b)) :
    (x.map encode).elim (some none) (option? decode) = some x := by
  cases x with
  | none => rfl
  | some b => exact back b

theorem option?_of_object {ms : List (String × Json)} {a : α} (h : decode (.object ms) = some a) :
    option? decode (.object ms) = some (some a) :=
  congrArg (Option.map some) h

theorem dictionary?_map {encode : α → Json} (back : ∀ a, decode (encode a) = some a) (d : Dictionary α) :
    dictionary? decode (.object (d.map encode).entries) = some d := by
  have read : (d.entries.map fun e => (e.1, encode e.2)).mapM (fun m => (decode m.2).map fun v => (m.1, v)) =
      some d.entries := mapM_map_eq_some fun e => by simp [back]
  change Option.map Dictionary.ofList ((d.entries.map fun e => (e.1, encode e.2)).mapM _) = some d
  rw [read, Option.map_some, Dictionary.ofList_entries]

theorem option?_of_ne_null {v : Json} (given : v ≠ null) : option? decode v = (decode v).map some := by
  cases v with
  | null => exact absurd rfl given
  | _ => rfl

/-- What is read of a part that is left out when absent. -/
def reread (decode : Decoder α) (encode : α → Json) (x : Option α) : Option (Option α) :=
  (x.map encode).elim (some none) (option? decode)

/-- What is read of a part is read again as it is. -/
def Settles (decode : Decoder α) (encode : α → Json) : Prop :=
  ∀ a a', option? decode (encode a) = some (some a') → option? decode (encode a') = some (some a')

theorem Settles.reread (settles : Settles decode encode) (h : reread decode encode x = some x') :
    reread decode encode x' = some x' := by
  cases x' with
  | none => rfl
  | some a' =>
    cases x with
    | none => cases h
    | some a => exact settles a a' h

theorem eq_of_reread (back : ∀ a, option? decode (encode a) = some (some a))
    (h : reread decode encode x = some x') : x' = x :=
  Option.some.inj (h.symm.trans (elim_option? back))

theorem settles_of_faithful (back : ∀ a, option? decode (encode a) = some (some a)) :
    Settles decode encode :=
  fun _ a' _ => back a'

theorem settles_of_decode (given : ∀ a, encode a ≠ null)
    (again : ∀ a a', decode (encode a) = some a' → decode (encode a') = some a') :
    Settles decode encode := by
  intro a a' h
  rw [option?_of_ne_null (given a)] at h
  obtain ⟨_, read, same⟩ := Option.map_eq_some_iff.mp h
  cases same
  rw [option?_of_ne_null (given a'), again a a' read]
  rfl

theorem settles_list (again : ∀ a a', decode (encode a) = some a' → decode (encode a') = some a') :
    Settles (list? decode) (fun l => array (l.map encode)) := by
  refine settles_of_decode nofun fun l l' h => ?_
  have pairs := List.forall₂_map_left_iff.mp (mapM_eq_some_iff.mp h)
  refine mapM_eq_some_iff.mpr (List.forall₂_map_left_iff.mpr ?_)
  clear h
  induction pairs with
  | nil => exact .nil
  | cons read _ ih => exact .cons (again _ _ read) ih

theorem option?_list {encode : α → Json} (back : ∀ a, decode (encode a) = some a) (l : List α) :
    option? (list? decode) (array (l.map encode)) = some (some l) :=
  congrArg (Option.map some) (mapM_map_eq_some back)

theorem option?_textList (l : List String) : option? (list? text?) (array (l.map string)) = some (some l) :=
  @option?_list _ text? string (fun _ => rfl) l

theorem option?_texts (d : Dictionary String) :
    option? (dictionary? text?) (Metadata.encodeTexts d) = some (some d) :=
  option?_of_object (@dictionary?_map _ text? string (fun _ => rfl) d)

theorem settles_time : Settles Time.decode Time.encode := by
  have decoded (t : Time) : Time.decode t.encode = Time.read t.render := by
    simp only [Time.decode, Time.encode, text?, Option.bind_some]
  refine settles_of_decode (fun _ => Json.noConfusion) fun t t' h => ?_
  rw [decoded, Time.read_render] at h
  cases h
  rw [decoded, Time.render_whole]
  exact Time.read_render t

theorem settles_int : Settles int64? ofInt := by
  have decoded (n : Int) : int64? (ofInt n) =
      if -0x8000000000000000 ≤ n ∧ n ≤ 0x7fffffffffffffff then some n else none := rfl
  refine settles_of_decode nofun fun n n' h => ?_
  rw [decoded] at h
  split at h
  next within =>
    cases h
    exact (decoded n).trans (if_pos within)
  next => cases h

theorem settles_settled : Settles settled id := by
  intro v w h
  have given : v ≠ null := by
    rintro rfl
    cases h
  rw [id, option?_of_ne_null given] at h
  obtain ⟨_, read, same⟩ := Option.map_eq_some_iff.mp h
  cases same
  rw [id, option?_of_ne_null (ne_null_of_settled read given), settled_of_settled read]
  rfl

theorem settles_text : Settles text? string :=
  settles_of_faithful fun _ => rfl

end Json

theorem Owner.decode_encode (o : Owner) : decode o.encode = some o := by
  obtain ⟨apiVersion, kind, name, uid, controller, blocking⟩ := o
  cases controller <;> cases blocking <;> rfl

namespace FieldManagement

open Json

/-- A note about the manager of a part, and what is read of it. -/
structure Reread (m m' : FieldManagement) : Prop where
  apiVersion : reread text? string m.apiVersion = some m'.apiVersion
  fieldsType : reread text? string m.fieldsType = some m'.fieldsType
  fields : reread settled id m.fields = some m'.fields
  manager : reread text? string m.manager = some m'.manager
  operation : reread text? string m.operation = some m'.operation
  subresource : reread text? string m.subresource = some m'.subresource
  time : reread Time.decode Time.encode m.time = some m'.time

def parts (m : FieldManagement) : List (String × Option Json) :=
  [("apiVersion", m.apiVersion.map .string), ("fieldsType", m.fieldsType.map .string),
    ("fieldsV1", m.fields.map id), ("manager", m.manager.map .string),
    ("operation", m.operation.map .string), ("subresource", m.subresource.map .string),
    ("time", m.time.map Time.encode)]

theorem encode_eq (m : FieldManagement) : m.encode = .object (presents m.parts) := by
  simp only [encode, presents, parts, Option.map_id, id, List.flatMap_cons, List.flatMap_nil,
    List.append_assoc, List.append_nil]

theorem member?_parts {α : Type} {m : FieldManagement} {name : String} {decode : Decoder α} :
    member? (presents m.parts) name decode =
      ((m.parts.lookup name).getD none).elim (some none) (option? decode) :=
  member?_presents (show ["apiVersion", "fieldsType", "fieldsV1", "manager", "operation", "subresource",
    "time"].Nodup by decide)

theorem decode_encode_iff {m m' : FieldManagement} : decode m.encode = some m' ↔ Reread m m' := by
  simp only [encode_eq, decode, members?, bind_eq_some_iff, Option.some.injEq, exists_eq_left', member?_parts]
  constructor
  · rintro ⟨_, apiVersion, _, fieldsType, _, fields, _, manager, _, operation, _, subresource, _, time, ⟨⟩⟩
    exact ⟨apiVersion, fieldsType, fields, manager, operation, subresource, time⟩
  · rintro ⟨apiVersion, fieldsType, fields, manager, operation, subresource, time⟩
    exact ⟨_, apiVersion, _, fieldsType, _, fields, _, manager, _, operation, _, subresource, _, time, rfl⟩

theorem Reread.again {m m' : FieldManagement} (h : Reread m m') : Reread m' m' where
  apiVersion := settles_text.reread h.apiVersion
  fieldsType := settles_text.reread h.fieldsType
  fields := settles_settled.reread h.fields
  manager := settles_text.reread h.manager
  operation := settles_text.reread h.operation
  subresource := settles_text.reread h.subresource
  time := settles_time.reread h.time

end FieldManagement

namespace Metadata

open Json

/-- What describes an object, and what is read of it. -/
structure Reread (m m' : Metadata) : Prop where
  annotations : reread (dictionary? text?) encodeTexts m.annotations = some m'.annotations
  creationTimestamp : reread Time.decode Time.encode m.creationTimestamp = some m'.creationTimestamp
  deletionGracePeriodSeconds :
    reread int64? ofInt m.deletionGracePeriodSeconds = some m'.deletionGracePeriodSeconds
  deletionTimestamp : reread Time.decode Time.encode m.deletionTimestamp = some m'.deletionTimestamp
  finalizers : reread (list? text?) (fun fs => array (fs.map string)) m.finalizers = some m'.finalizers
  generateName : reread text? string m.generateName = some m'.generateName
  generation : reread int64? ofInt m.generation = some m'.generation
  labels : reread (dictionary? text?) encodeTexts m.labels = some m'.labels
  managedFields : reread (list? FieldManagement.decode)
    (fun fs => array (fs.map FieldManagement.encode)) m.managedFields = some m'.managedFields
  name : reread text? string m.name = some m'.name
  namespaceName : reread text? string m.namespaceName = some m'.namespaceName
  ownerReferences : reread (list? Owner.decode) (fun os => array (os.map Owner.encode)) m.ownerReferences =
    some m'.ownerReferences
  resourceVersion : reread text? string m.resourceVersion = some m'.resourceVersion
  selfLink : reread text? string m.selfLink = some m'.selfLink
  uid : reread text? string m.uid = some m'.uid

def parts (m : Metadata) : List (String × Option Json) :=
  [("annotations", m.annotations.map encodeTexts),
    ("creationTimestamp", m.creationTimestamp.map Time.encode),
    ("deletionGracePeriodSeconds", m.deletionGracePeriodSeconds.map Json.ofInt),
    ("deletionTimestamp", m.deletionTimestamp.map Time.encode),
    ("finalizers", m.finalizers.map fun fs => .array (fs.map .string)),
    ("generateName", m.generateName.map .string),
    ("generation", m.generation.map Json.ofInt),
    ("labels", m.labels.map encodeTexts),
    ("managedFields", m.managedFields.map fun fs => .array (fs.map FieldManagement.encode)),
    ("name", m.name.map .string),
    ("namespace", m.namespaceName.map .string),
    ("ownerReferences", m.ownerReferences.map fun os => .array (os.map Owner.encode)),
    ("resourceVersion", m.resourceVersion.map .string),
    ("selfLink", m.selfLink.map .string),
    ("uid", m.uid.map .string)]

theorem encode_eq (m : Metadata) : m.encode = .object (presents m.parts) := by
  simp only [encode, presents, parts, List.flatMap_cons, List.flatMap_nil, List.append_assoc, List.append_nil]

theorem member?_parts {α : Type} {m : Metadata} {name : String} {decode : Decoder α} :
    member? (presents m.parts) name decode =
      ((m.parts.lookup name).getD none).elim (some none) (option? decode) :=
  member?_presents (show ["annotations", "creationTimestamp", "deletionGracePeriodSeconds",
    "deletionTimestamp", "finalizers", "generateName", "generation", "labels", "managedFields", "name",
    "namespace", "ownerReferences", "resourceVersion", "selfLink", "uid"].Nodup by decide)

theorem decode_encode_iff {m m' : Metadata} : decode m.encode = some m' ↔ Reread m m' := by
  simp only [encode_eq, decode, members?, bind_eq_some_iff, Option.some.injEq, exists_eq_left', member?_parts]
  constructor
  · rintro ⟨_, annotations, _, creationTimestamp, _, deletionGracePeriodSeconds, _, deletionTimestamp, _,
      finalizers, _, generateName, _, generation, _, labels, _, managedFields, _, name, _, namespaceName, _,
      ownerReferences, _, resourceVersion, _, selfLink, _, uid, ⟨⟩⟩
    exact ⟨annotations, creationTimestamp, deletionGracePeriodSeconds, deletionTimestamp, finalizers,
      generateName, generation, labels, managedFields, name, namespaceName, ownerReferences, resourceVersion,
      selfLink, uid⟩
  · intro h
    exact ⟨_, h.annotations, _, h.creationTimestamp, _, h.deletionGracePeriodSeconds, _,
      h.deletionTimestamp, _, h.finalizers, _, h.generateName, _, h.generation, _, h.labels, _,
      h.managedFields, _, h.name, _, h.namespaceName, _, h.ownerReferences, _, h.resourceVersion, _,
      h.selfLink, _, h.uid, rfl⟩

namespace Reread

variable {m m' : Metadata}

theorem again (h : Reread m m') : Reread m' m' where
  annotations := (settles_of_faithful option?_texts).reread h.annotations
  creationTimestamp := settles_time.reread h.creationTimestamp
  deletionGracePeriodSeconds := settles_int.reread h.deletionGracePeriodSeconds
  deletionTimestamp := settles_time.reread h.deletionTimestamp
  finalizers := (settles_of_faithful option?_textList).reread h.finalizers
  generateName := settles_text.reread h.generateName
  generation := settles_int.reread h.generation
  labels := (settles_of_faithful option?_texts).reread h.labels
  managedFields := (settles_list fun _ _ read => FieldManagement.decode_encode_iff.mpr
    (FieldManagement.decode_encode_iff.mp read).again).reread h.managedFields
  name := settles_text.reread h.name
  namespaceName := settles_text.reread h.namespaceName
  ownerReferences := (settles_of_faithful (option?_list Owner.decode_encode)).reread h.ownerReferences
  resourceVersion := settles_text.reread h.resourceVersion
  selfLink := settles_text.reread h.selfLink
  uid := settles_text.reread h.uid

/-- The number of the version has no part in how the rest is read. -/
theorem renumbered (h : Reread m m') (number : Option String) :
    Reread { m with resourceVersion := number } { m' with resourceVersion := number } :=
  { h with resourceVersion := elim_option? fun _ => rfl }

theorem annotations_eq (h : Reread m m') : m'.annotations = m.annotations :=
  eq_of_reread option?_texts h.annotations

theorem finalizers_eq (h : Reread m m') : m'.finalizers = m.finalizers :=
  eq_of_reread option?_textList h.finalizers

theorem labels_eq (h : Reread m m') : m'.labels = m.labels :=
  eq_of_reread option?_texts h.labels

theorem ownerReferences_eq (h : Reread m m') : m'.ownerReferences = m.ownerReferences :=
  eq_of_reread (option?_list Owner.decode_encode) h.ownerReferences

theorem resourceVersion_eq (h : Reread m m') : m'.resourceVersion = m.resourceVersion :=
  eq_of_reread (fun _ => rfl) h.resourceVersion

end Reread

end Metadata

end DatabaseOperator
