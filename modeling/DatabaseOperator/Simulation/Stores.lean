import DatabaseOperator.Simulation.Failures
import DatabaseOperator.Store.Calls
import DatabaseOperator.Text.Natural

namespace DatabaseOperator

/-- A namespace and a name. -/
abbrev ObjectKey : Type :=
  String × String

structure SimulatedStores where
  /-- In the order of their keys, no two with the same. -/
  resources : List Resource
  /-- No two with the same namespace, name and key. -/
  secrets : List Secret
  /-- The next write meets a change by someone else. -/
  conflictArmed : Bool
  failures : Failures StoreError

namespace SimulatedStores

def blank : SimulatedStores :=
  ⟨[], [], false, .empty⟩

/-- Where a resource is stored. -/
def key (r : Resource) : ObjectKey :=
  (r.namespaceName, r.anyName)

def objectName (k : ObjectKey) : String :=
  k.1 ++ "/" ++ k.2

def before (a b : ObjectKey) : Bool :=
  a.1 < b.1 || (a.1 = b.1 && a.2 < b.2)

/-- Puts a resource at the place of its key, instead of the one that is there. -/
def putResource (r : Resource) : List Resource → List Resource
  | [] => [r]
  | x :: rest =>
    if key x = key r then r :: rest
    else if before (key r) (key x) then r :: x :: rest
    else x :: putResource r rest

def findResource (s : SimulatedStores) (k : ObjectKey) : Option Resource :=
  s.resources.find? fun x => key x = k

/-- Stores a resource under its key; the ones under other keys stay. -/
def setResource (s : SimulatedStores) (r : Resource) : SimulatedStores :=
  { s with resources := putResource r s.resources }

def removeResource (s : SimulatedStores) (k : ObjectKey) : SimulatedStores :=
  { s with resources := s.resources.filter fun x => key x ≠ k }

/-- The version of a resource as a number, zero if it is none. -/
def versionNumber (r : Resource) : Nat :=
  match readNatural limit64 (r.metadata.resourceVersion.getD "").toList with
  | .ok n => n
  | .error _ => 0

def withVersion (n : Nat) (r : Resource) : Resource :=
  { r with metadata.resourceVersion := some (toString n) }

/-- Stores a resource in its next version. One that is to be deleted and has no finalizers is
removed instead. -/
def store (s : SimulatedStores) (r : Resource) : Resource × SimulatedStores :=
  let next := withVersion (versionNumber r + 1) r
  if next.metadata.deletionTimestamp.isSome && (next.metadata.finalizers.getD []).isEmpty then
    (next, s.removeResource (key next))
  else (next, s.setResource next)

/-- Someone else changes a stored resource if a conflict is armed. -/
def intrude (s : SimulatedStores) (stored : Resource) : Resource × SimulatedStores :=
  if s.conflictArmed then
    let changed := withVersion (versionNumber stored + 1) stored
    (changed, { s.setResource changed with conflictArmed := false })
  else (stored, s)

/-- Writes a part of a resource over the stored one. -/
def write (s : SimulatedStores) (method : String) (r : Resource) (merge : Resource → Resource) :
    Except StoreError Resource × SimulatedStores :=
  let name := objectName (key r)
  let (cause, failures) := s.failures.next method
  let s := { s with failures := failures }
  match cause with
  | some e => (.error e, s)
  | none =>
    match s.findResource (key r) with
    | none => (.error (.notFound name), s)
    | some stored =>
      let (stored, s) := s.intrude stored
      if stored.metadata.resourceVersion = r.metadata.resourceVersion then
        let (next, s) := s.store (merge stored)
        (.ok next, s)
      else (.error (.conflict name), s)

def answerResource (s : SimulatedStores) :
    (c : ResourceCall) → Except StoreError c.Result × SimulatedStores
  | .get ns name =>
    let (cause, failures) := s.failures.next "resource_get"
    let s := { s with failures := failures }
    match cause with
    | some e => (.error e, s)
    | none => (.ok (s.findResource (ns, name)), s)
  | .update r =>
    s.write "update" r fun stored => { stored with metadata := r.metadata, spec := r.spec }
  | .updateStatus r =>
    s.write "update_status" r fun stored => { stored with status := r.status }

/-- Puts a secret, in the place of the one under the same key. -/
def putSecret (s : Secret) : List Secret → List Secret
  | [] => [s]
  | x :: rest =>
    if x.namespaceName = s.namespaceName ∧ x.name = s.name ∧ x.key = s.key then s :: rest
    else x :: putSecret s rest

def answerSecret (s : SimulatedStores) :
    (c : SecretCall) → Except StoreError c.Result × SimulatedStores
  | .get ns name key =>
    let (cause, failures) := s.failures.next "secret_get"
    let s := { s with failures := failures }
    match cause with
    | some e => (.error e, s)
    | none =>
      match s.secrets.find? fun x => x.namespaceName = ns ∧ x.name = name ∧ x.key = key with
      | none => (.error (.notFound ("secret " ++ ns ++ "/" ++ name)), s)
      | some x => (.ok x.value, s)
  | .set secret _ =>
    let (cause, failures) := s.failures.next "secret_set"
    let s := { s with failures := failures }
    match cause with
    | some e => (.error e, s)
    | none => (.ok (), { s with secrets := putSecret secret s.secrets })

end SimulatedStores

end DatabaseOperator
