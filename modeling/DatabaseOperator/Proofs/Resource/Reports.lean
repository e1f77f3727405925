import DatabaseOperator.Proofs.Resource.Timeless

namespace DatabaseOperator

namespace Condition

variable {c x : Condition} {cs before after : List Condition}

/-- The entry `x` with what `c` says; the time stays while the status does. -/
structure Revises (c x y : Condition) : Prop where
  type : y.type = x.type
  told : y.Says c.status c.reason c.message c.observedGeneration
  kept : y.status = x.status → y.lastTransitionTime = x.lastTransitionTime
  moved : y.status ≠ x.status → y.lastTransitionTime = c.lastTransitionTime

theorem revises_revise (c x : Condition) : Revises c x (x.revise c) where
  type := rfl
  told := says_revise x c
  kept same := if_pos same.symm
  moved differs := if_neg fun same => differs same.symm

/-- A list of conditions after one was put into it, and what is reported of that. -/
structure Filed (c : Condition) (cs : List Condition) (filed : List Condition × Bool) : Prop where
  unchanged_iff : filed.2 = false ↔ filed.1 = cs
  appended : (∀ x ∈ cs, x.type ≠ c.type) → filed.1 = cs ++ [c]
  revised : ∀ before x after, cs = before ++ x :: after → (∀ y ∈ before, y.type ≠ c.type) →
    x.type = c.type → ∃ y, filed.1 = before ++ y :: after ∧ Revises c x y

theorem put_of_fresh (fresh : ∀ x ∈ cs, x.type ≠ c.type) : c.put cs = (cs ++ [c], true) := by
  induction cs with
  | nil => rfl
  | cons x rest ih =>
    obtain ⟨other, fresh⟩ := List.forall_mem_cons.mp fresh
    rw [put, if_neg other, ih fresh]
    rfl

theorem put_of_first (earlier : ∀ y ∈ before, y.type ≠ c.type) (same : x.type = c.type) :
    c.put (before ++ x :: after) = (before ++ x.revise c :: after, x.differs c) := by
  induction before with
  | nil => exact if_pos same
  | cons y rest ih =>
    obtain ⟨other, earlier⟩ := List.forall_mem_cons.mp earlier
    rw [List.cons_append, put, if_neg other, ih earlier]
    rfl

/-- A list either lacks a type or has a first entry of it. -/
theorem fresh_or_split (type : String) (cs : List Condition) : (∀ x ∈ cs, x.type ≠ type) ∨
    ∃ before x after, cs = before ++ x :: after ∧ (∀ y ∈ before, y.type ≠ type) ∧ x.type = type := by
  induction cs with
  | nil => exact .inl fun _ mem => nomatch mem
  | cons y rest ih =>
    by_cases same : y.type = type
    · exact .inr ⟨[], y, rest, rfl, (fun _ mem => nomatch mem), same⟩
    · rcases ih with fresh | ⟨before, x, after, rfl, earlier, found⟩
      · exact .inl (List.forall_mem_cons.mpr ⟨same, fresh⟩)
      · exact .inr ⟨y :: before, x, after, rfl, List.forall_mem_cons.mpr ⟨same, earlier⟩, found⟩

theorem put_unchanged_iff_eq : (c.put cs).2 = false ↔ (c.put cs).1 = cs := by
  refine ⟨put_unchanged, fun same => ?_⟩
  rcases fresh_or_split c.type cs with fresh | ⟨before, x, after, rfl, earlier, found⟩
  · rw [put_of_fresh fresh] at same
    exact absurd same (by simp)
  · rw [put_of_first earlier found] at same ⊢
    have kept : x.revise c = x := (List.cons.inj (List.append_cancel_left same)).1
    exact differs_eq_false_iff.mpr (revise_eq_iff.mp kept)

theorem filed_put (c : Condition) (cs : List Condition) : Filed c cs (c.put cs) where
  unchanged_iff := put_unchanged_iff_eq
  appended fresh := by rw [put_of_fresh fresh]
  revised before x after split earlier same := by
    rw [split, put_of_first earlier same]
    exact ⟨x.revise c, rfl, revises_revise c x⟩

theorem nodup_put (distinct : (cs.map type).Nodup) : ((c.put cs).1.map type).Nodup := by
  rw [map_type_put]
  split
  next => exact distinct
  next fresh =>
    refine List.nodup_append.mpr ⟨distinct, by simp, ?_⟩
    rintro a mem b new rfl
    exact fresh (List.mem_singleton.mp new ▸ mem)

/-- The conditions put into a list one after the other. -/
def putAll (puts cs : List Condition) : List Condition :=
  puts.foldl (fun l c => (c.put l).1) cs

theorem nodup_putAll (puts : List Condition) (distinct : (cs.map type).Nodup) :
    ((putAll puts cs).map type).Nodup := by
  induction puts generalizing cs with
  | nil => exact distinct
  | cons c rest ih => exact ih (nodup_put distinct)

end Condition

namespace Resource

variable {r : Resource} {time : Time}

/-- What is to be noted about a resource. -/
structure Note where
  type : String
  status : Bool
  reason : String
  message : String

namespace Note

/-- The condition that notes it, of the present generation of the resource. -/
def condition (time : Time) (n : Note) (r : Resource) : Condition :=
  ⟨n.type, if n.status then Names.statusTrue else Names.statusFalse, n.reason, n.message, time,
    r.metadata.generation⟩

def set (time : Time) (n : Note) (r : Resource) : Resource × Bool :=
  r.setCondition time n.type n.status n.reason n.message

/-- The entry of this type says what is to be noted. -/
def Stands (n : Note) (r : Resource) : Prop :=
  ∃ x, Condition.find? n.type r.conditions = some x ∧
    x.Says (if n.status then Names.statusTrue else Names.statusFalse) n.reason n.message
      r.metadata.generation

/-- Notes one after the other, each at the time that the clock gives for its type, with whether any of
them changes the resource. -/
def setAll (clock : String → Time) : List Note → Resource → Resource × Bool
  | [], r => (r, false)
  | n :: rest, r =>
    let first := n.set (clock n.type) r
    let others := setAll clock rest first.1
    (others.1, first.2 || others.2)

variable {n m : Note} {notes : List Note} {clock : String → Time}

theorem stands_iff : n.Stands r ↔ (n.set time r).2 = false :=
  (Condition.put_unchanged_iff (c := n.condition time r)).symm

theorem stands_set (n : Note) (r : Resource) : n.Stands (n.set time r).1 :=
  Condition.find?_put_self (n.condition time r) r.conditions

/-- A note does not touch what is noted under another type. -/
theorem Stands.set (h : n.Stands r) (other : n.type ≠ m.type) : n.Stands (m.set time r).1 := by
  obtain ⟨x, found, told⟩ := h
  exact ⟨x, (Condition.find?_put_other (c := m.condition time r) other _).trans found, told⟩

theorem set_of_stands (h : n.Stands r) : n.set time r = (r, false) := by
  have flag : (n.set time r).2 = false := stands_iff.mp h
  exact Prod.ext (setCondition_eq_self flag) flag

theorem setAll_of_stand (h : ∀ n ∈ notes, n.Stands r) : setAll clock notes r = (r, false) := by
  induction notes with
  | nil => rfl
  | cons n rest ih =>
    obtain ⟨first, others⟩ := List.forall_mem_cons.mp h
    rw [setAll, set_of_stands first]
    simp only [ih others, Bool.or_self]

theorem Stands.setAll (h : n.Stands r) (other : ∀ m ∈ notes, n.type ≠ m.type) :
    n.Stands (setAll clock notes r).1 := by
  induction notes generalizing r with
  | nil => exact h
  | cons m rest ih =>
    obtain ⟨first, others⟩ := List.forall_mem_cons.mp other
    exact ih (h.set first) others

/-- What is noted under different types all stands at the end. -/
theorem stand_setAll (distinct : (notes.map type).Nodup) :
    ∀ n ∈ notes, n.Stands (setAll clock notes r).1 := by
  induction notes generalizing r with
  | nil => exact nofun
  | cons n rest ih =>
    obtain ⟨fresh, distinct⟩ := List.nodup_cons.mp distinct
    refine List.forall_mem_cons.mpr ⟨?_, ih distinct⟩
    refine (stands_set n r).setAll fun m mem same => fresh ?_
    rw [same]
    exact List.mem_map_of_mem mem

theorem setAll_eq_self (h : (setAll clock notes r).2 = false) : (setAll clock notes r).1 = r := by
  induction notes generalizing r with
  | nil => rfl
  | cons n rest ih =>
    obtain ⟨first, others⟩ := Bool.or_eq_false_iff.mp h
    exact (ih others).trans (setCondition_eq_self first)

end Note

/-- A setter of conditions that reports real changes only, settles with its first call, and touches nothing
but conditions of its types. -/
structure Reports {τ : Type} (types : List String) (set : τ → Resource → Resource × Bool) : Prop where
  changed_iff : ∀ now r, (set now r).2 = true ↔ (set now r).1 ≠ r
  settles : ∀ now later r, set later (set now r).1 = ((set now r).1, false)
  spec : ∀ now r, (set now r).1.spec = r.spec
  metadata : ∀ now r, (set now r).1.metadata = r.metadata
  databaseId : ∀ now r, (set now r).1.databaseId = r.databaseId
  others : ∀ now r, (set now r).1.conditions.filter (fun x => x.type ∉ types) =
    r.conditions.filter fun x => x.type ∉ types

namespace Note

variable {notes : List Note}

theorem setAll_frame (clock : String → Time) (notes : List Note) (r : Resource) :
    (setAll clock notes r).1.spec = r.spec ∧ (setAll clock notes r).1.metadata = r.metadata ∧
      (setAll clock notes r).1.databaseId = r.databaseId := by
  induction notes generalizing r with
  | nil => exact ⟨rfl, rfl, rfl⟩
  | cons n rest ih =>
    obtain ⟨spec, metadata, databaseId⟩ := ih (n.set (clock n.type) r).1
    exact ⟨spec, metadata, databaseId.trans (databaseId_setCondition _ _ _ _)⟩

theorem filter_setAll {types : List String} {clock : String → Time} (known : ∀ n ∈ notes, n.type ∈ types) (r : Resource) :
    ((setAll clock notes r).1.conditions.filter fun x => x.type ∉ types) =
      r.conditions.filter fun x => x.type ∉ types := by
  induction notes generalizing r with
  | nil => rfl
  | cons n rest ih =>
    obtain ⟨first, others⟩ := List.forall_mem_cons.mp known
    exact (ih others _).trans (Condition.filter_put (c := n.condition (clock n.type) r) first r.conditions)

theorem reports_setAll {τ : Type} {clock : τ → String → Time} (distinct : (notes.map type).Nodup) :
    Reports (notes.map type) fun now r => setAll (clock now) notes r where
  changed_iff now r := by
    rw [← Bool.not_eq_false]
    refine not_congr ⟨setAll_eq_self, fun same => ?_⟩
    have stand : ∀ n ∈ notes, n.Stands (setAll (clock now) notes r).1 := stand_setAll distinct
    rw [same] at stand
    rw [setAll_of_stand stand]
  settles now later r := setAll_of_stand (stand_setAll distinct)
  spec now r := (setAll_frame (clock now) notes r).1
  metadata now r := (setAll_frame (clock now) notes r).2.1
  databaseId now r := (setAll_frame (clock now) notes r).2.2
  others now r := filter_setAll (fun n mem => List.mem_map_of_mem mem) r

end Note

def initialNotes : List Note :=
  [⟨Names.available, false, Names.Reason.notAvailable, Names.Message.notAvailable⟩,
    ⟨Names.provisioning, false, Names.Reason.notProvisioned, Names.Message.notProvisioned⟩]

def provisioningNotes : List Note :=
  [⟨Names.provisioning, true, Names.Reason.provisioning, Names.Message.provisioning⟩]

def provisionedNotes : List Note :=
  [⟨Names.available, true, Names.Reason.available, Names.Message.available⟩,
    ⟨Names.provisioning, false, Names.Reason.provisioned, Names.Message.provisioned⟩]

def clock (now : Times) (type : String) : Time :=
  if type = Names.available then now.available else now.provisioning

theorem setInitial_eq : setInitial = fun now r => Note.setAll (clock now) initialNotes r := by
  funext now r
  simp [setInitial, initialNotes, Note.setAll, Note.set, clock, names_differ]

theorem setProvisioning_eq :
    setProvisioning = fun time r => Note.setAll (fun _ => time) provisioningNotes r := by
  funext time r
  simp [setProvisioning, provisioningNotes, Note.setAll, Note.set]

theorem setProvisioned_eq : setProvisioned = fun now r => Note.setAll (clock now) provisionedNotes r := by
  funext now r
  simp [setProvisioned, provisionedNotes, Note.setAll, Note.set, clock, names_differ]

theorem reports_setInitial : Reports [Names.available, Names.provisioning] setInitial := by
  rw [setInitial_eq]
  have distinct : (initialNotes.map Note.type).Nodup := by decide
  exact Note.reports_setAll distinct

theorem reports_setProvisioning : Reports [Names.provisioning] setProvisioning := by
  rw [setProvisioning_eq]
  have distinct : (provisioningNotes.map Note.type).Nodup := by decide
  exact Note.reports_setAll distinct

theorem reports_setProvisioned : Reports [Names.available, Names.provisioning] setProvisioned := by
  rw [setProvisioned_eq]
  have distinct : (provisionedNotes.map Note.type).Nodup := by decide
  exact Note.reports_setAll distinct

/-- Setters of conditions report exactly the real changes and keep the list keyed by type. -/
theorem setters_report :
    (∀ c cs, Condition.Filed c cs (c.put cs)) ∧
      (∀ puts cs, (cs.map Condition.type).Nodup →
        ((Condition.putAll puts cs).map Condition.type).Nodup) ∧
      Reports [Names.available, Names.provisioning] setInitial ∧
      Reports [Names.provisioning] setProvisioning ∧
      Reports [Names.available, Names.provisioning] setProvisioned :=
  ⟨Condition.filed_put, fun puts _ => Condition.nodup_putAll puts, reports_setInitial,
    reports_setProvisioning, reports_setProvisioned⟩

end Resource

end DatabaseOperator
