import DatabaseOperator.Proofs.Cluster.Writing
import DatabaseOperator.Proofs.Trace
import Mathlib.Data.List.Nodup

namespace DatabaseOperator

namespace Cluster

/-- A key that is set in a secret, and the owner that comes with it. -/
structure Entry where
  key : String
  value : String
  owner : Option Owner

/-- The secret with this key alone. -/
def Entry.secret (e : Entry) (namespaceName name : String) : Secret :=
  ⟨namespaceName, name, e.key, e.value⟩

/-- What is kept in a secret: bytes under keys, and the owners. -/
structure Holding where
  data : Dictionary (List UInt8)
  owners : List Owner

namespace Holding

def empty : Holding :=
  ⟨.empty, []⟩

/-- One key more, and one owner more unless the owner is there already. -/
def add (h : Holding) (e : Entry) : Holding where
  data := h.data.insert e.key (utf8Bytes e.value)
  owners :=
    match e.owner with
    | none => h.owners
    | some o => if h.owners.any fun x => x.uid = o.uid then h.owners else h.owners ++ [o]

variable {h : Holding} {e : Entry} {o : Owner} {k : String}

theorem get?_add_same : (h.add e).data.get? e.key = some (utf8Bytes e.value) :=
  Dictionary.get?_insert_same h.data

theorem get?_add_of_ne (other : e.key ≠ k) : (h.add e).data.get? k = h.data.get? k :=
  Dictionary.get?_insert_of_ne other.symm h.data

theorem isSome_add (held : (h.data.get? k).isSome = true) : ((h.add e).data.get? k).isSome = true := by
  by_cases same : e.key = k
  · subst same
    rw [get?_add_same]
    rfl
  · rwa [get?_add_of_ne same]

theorem mem_owners_add (mem : o ∈ h.owners) : o ∈ (h.add e).owners := by
  unfold add
  cases e.owner with
  | none => exact mem
  | some x =>
    simp only
    split
    next => exact mem
    next => exact List.mem_append_left [x] mem

theorem exists_owner_add (owner : e.owner = some o) : ∃ x ∈ (h.add e).owners, x.uid = o.uid := by
  simp only [add, owner]
  split
  next known =>
    obtain ⟨x, mem, same⟩ := List.any_eq_true.mp known
    exact ⟨x, mem, by simpa using same⟩
  next => exact ⟨o, List.mem_append_right h.owners List.mem_cons_self, rfl⟩

variable {es before after : List Entry}

theorem isSome_foldl (held : (h.data.get? k).isSome = true) : ((es.foldl add h).data.get? k).isSome = true := by
  induction es generalizing h with
  | nil => exact held
  | cons e es ih => exact ih (isSome_add held)

theorem get?_foldl_of_forall_ne (others : ∀ e ∈ es, e.key ≠ k) :
    (es.foldl add h).data.get? k = h.data.get? k := by
  induction es generalizing h with
  | nil => rfl
  | cons e es ih =>
    obtain ⟨other, others⟩ := List.forall_mem_cons.mp others
    exact (ih others).trans (get?_add_of_ne other)

/-- The last entry for a key is the one that is kept. -/
theorem get?_foldl_last (later : ∀ x ∈ after, x.key ≠ e.key) :
    ((before ++ e :: after).foldl add h).data.get? e.key = some (utf8Bytes e.value) := by
  rw [List.foldl_append, List.foldl_cons, get?_foldl_of_forall_ne later, get?_add_same]

theorem mem_owners_foldl (mem : o ∈ h.owners) : o ∈ (es.foldl add h).owners := by
  induction es generalizing h with
  | nil => exact mem
  | cons e es ih => exact ih (mem_owners_add mem)

theorem exists_owner_foldl (mem : e ∈ es) (owner : e.owner = some o) :
    ∃ x ∈ (es.foldl add h).owners, x.uid = o.uid := by
  obtain ⟨before, after, rfl⟩ := List.append_of_mem mem
  rw [List.foldl_append, List.foldl_cons]
  obtain ⟨x, kept, same⟩ := exists_owner_add (h := before.foldl add h) owner
  exact ⟨x, mem_owners_foldl kept, same⟩

end Holding

end Cluster

open Cluster

namespace SecretObject

variable {s s' : SecretObject} {e : Entry}

def holding (s : SecretObject) : Holding :=
  ⟨s.data.getD .empty, s.metadata.ownerReferences.getD []⟩

/-- The number of a version. -/
def number (s : SecretObject) : Option String :=
  s.metadata.resourceVersion

theorem holding_set (s : SecretObject) (e : Entry) :
    (s.set e.key e.value e.owner).holding = s.holding.add e := by
  unfold set
  cases owner : e.owner <;> simp [holding, Holding.add, owner]

theorem number_set (s : SecretObject) (e : Entry) : (s.set e.key e.value e.owner).number = s.number := by
  unfold set
  cases e.owner <;> rfl

theorem holding_new (e : Entry) (namespaceName name : String) :
    (new (e.secret namespaceName name) e.owner).holding = Holding.empty.add e := by
  unfold new
  cases owner : e.owner <;> simp [holding, Holding.add, Holding.empty, Entry.secret, owner]

theorem Reread.holding_eq (h : Reread s s') : s'.holding = s.holding := by
  rw [holding, h.data, h.metadata.ownerReferences_eq, holding]

/-- What is sent is what is kept, under the number that it was read with. -/
theorem holding_of_sent (sent : decode s.encode = some s') :
    s'.holding = s.holding ∧ s'.number = s.number :=
  have read := decode_encode_iff.mp sent
  ⟨read.holding_eq, read.metadata.resourceVersion_eq⟩

end SecretObject

namespace Cluster

/-- The versions of a secret, the last one first. There are none when there is no such secret. -/
structure Shelf where
  versions : List SecretObject
  numbered : ∀ s ∈ versions, s.number ≠ none
  distinct : (versions.map SecretObject.number).Nodup

namespace Shelf

def current (shelf : Shelf) : Option SecretObject :=
  shelf.versions.head?

def holding (shelf : Shelf) : Holding :=
  (shelf.current.map SecretObject.holding).getD .empty

/-- The next version, under a number that no version has had. -/
def put (shelf : Shelf) (s : SecretObject) (numbered : s.number ≠ none)
    (unused : s.number ∉ shelf.versions.map SecretObject.number) : Shelf where
  versions := s :: shelf.versions
  numbered := List.forall_mem_cons.mpr ⟨numbered, shelf.numbered⟩
  distinct := List.nodup_cons.mpr ⟨unused, shelf.distinct⟩

variable {shelf : Shelf} {s s' : SecretObject}

theorem mem_of_current (h : shelf.current = some s) : s ∈ shelf.versions :=
  List.mem_of_head? h

theorem holding_of_current (h : shelf.current = some s) : shelf.holding = s.holding := by
  rw [holding, h]
  rfl

theorem holding_of_absent (h : shelf.current = none) : shelf.holding = .empty := by
  rw [holding, h]
  rfl

/-- A number tells a version. -/
theorem eq_of_number (mem : s ∈ shelf.versions) (mem' : s' ∈ shelf.versions) (same : s.number = s'.number) :
    s = s' :=
  List.inj_on_of_nodup_map shelf.distinct mem mem' same

end Shelf

/-- The answer has a secret in it. -/
def Bears (r : Response) (s : SecretObject) : Prop :=
  isRefusal r = false ∧ (Json.read r.body).bind SecretObject.decode = some s

theorem Bears.heard {r : Response} {s : SecretObject} (bears : Bears r s) :
    heard SecretObject.decode (some r) = .ok s := by
  simp only [Cluster.heard, bears.1, bears.2]
  rfl

/-- What the cluster keeps of a secret before and behind a request. Reading gives the last version. A write
that carries the number of another version can only be refused, and so can one that makes a secret that is
there. A request that is refused, or gets lost on its way, changes nothing. -/
inductive Handles (collection name : String) : Shelf → Exchange cluster → Shelf → Prop
  | got {shelf : Shelf} {target : String} (s : SecretObject) {r : Response} :
      target? (collection ++ "/" ++ name) = some target → shelf.current = some s → Bears r s →
      Handles collection name shelf ⟨⟨.get, target, none⟩, some r⟩ shelf
  | replaced {shelf : Shelf} {target : String} {body : Json} (s sent stored : SecretObject) {r : Response}
      (numbered : stored.number ≠ none) (unused : stored.number ∉ shelf.versions.map SecretObject.number) :
      target? (collection ++ "/" ++ name) = some target → shelf.current = some s →
      SecretObject.decode body = some sent → sent.number = none ∨ sent.number = s.number →
      stored.holding = sent.holding → Bears r stored →
      Handles collection name shelf ⟨⟨.put, target, some body⟩, some r⟩ (shelf.put stored numbered unused)
  | created {shelf : Shelf} {target : String} {body : Json} (sent stored : SecretObject) {r : Response}
      (numbered : stored.number ≠ none) (unused : stored.number ∉ shelf.versions.map SecretObject.number) :
      target? collection = some target → shelf.current = none →
      SecretObject.decode body = some sent → sent.metadata.name = some name →
      stored.holding = sent.holding → Bears r stored →
      Handles collection name shelf ⟨⟨.post, target, some body⟩, some r⟩ (shelf.put stored numbered unused)
  | refused {shelf : Shelf} {q : ClusterRequest} {answer : Option Response} :
      (∀ r, answer = some r → isRefusal r = true) → Handles collection name shelf ⟨q, answer⟩ shelf

theorem Handles.subset {collection name : String} {x : Exchange cluster} {shelf shelf' : Shelf}
    (handles : Handles collection name shelf x shelf') : shelf.versions ⊆ shelf'.versions := by
  cases handles with
  | got | refused => exact List.Subset.refl _
  | replaced | created => exact List.subset_cons_self _ _

end Cluster

end DatabaseOperator
