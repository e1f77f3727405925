import DatabaseOperator.Proofs.Cluster.Shelf
import DatabaseOperator.Proofs.Json.Text
import Mathlib.Logic.Function.Basic

namespace DatabaseOperator

/-- What a program has ended with. -/
def Dialogue.result? {I : Interface} {α : Type} : Dialogue I α → Option α
  | .done a => some a
  | .ask _ _ => none

namespace Cluster

open DatabaseOperator.SecretObject (decode)

variable {namespaceName name : String} {e : Entry} {shelf shelf' : Shelf}

/-- How far a call has come. What it has read was kept in the secret at some time. -/
inductive Stage (namespaceName name : String) (e : Entry) (shelf : Shelf) :
    Dialogue cluster (Except StoreError Unit) → Prop
  | beginning : Stage namespaceName name e shelf
      (secretStore (.set (e.secret namespaceName name) e.owner)).run
  | replacing {stored : SecretObject} : stored ∈ shelf.versions →
      Stage namespaceName name e shelf (replacing (e.secret namespaceName name) e.owner stored)
  | creating : Stage namespaceName name e shelf (creating (e.secret namespaceName name) e.owner)
  | ended (res : Except StoreError Unit) : Stage namespaceName name e shelf (.done res)

/-- What a turn does to the secret: a call that succeeds adds its entry, and any other does nothing. -/
def Adds (e : Entry) (shelf shelf' : Shelf) (rest : Dialogue cluster (Except StoreError Unit)) : Prop :=
  rest = .done (.ok ()) ∧ shelf'.holding = shelf.holding.add e ∨ rest ≠ .done (.ok ()) ∧ shelf' = shelf

theorem Adds.grows {rest : Dialogue cluster (Except StoreError Unit)} {o : Owner}
    (adds : Adds e shelf shelf' rest) (mem : o ∈ shelf.holding.owners) : o ∈ shelf'.holding.owners := by
  rcases adds with ⟨_, added⟩ | ⟨_, rfl⟩
  · rw [added]
    exact Holding.mem_owners_add mem
  · exact mem

namespace Stage

variable {d : Dialogue cluster (Except StoreError Unit)} {q : ClusterRequest}
  {next : Option Response → Dialogue cluster (Except StoreError Unit)} {answer : Option Response}

theorem mono (stage : Stage namespaceName name e shelf d) (subset : shelf.versions ⊆ shelf'.versions) :
    Stage namespaceName name e shelf' d := by
  cases stage with
  | beginning => exact .beginning
  | replacing known => exact .replacing (subset known)
  | creating => exact .creating
  | ended res => exact .ended res

/-- A call that has failed does nothing to the secret. -/
theorem adds_of_fault {s : Secret} {fault : ClusterFault} : Adds e shelf shelf (concluding s (.error fault)) :=
  .inr ⟨nofun, rfl⟩

theorem adds_of_refused {s : Secret} (refused : ∀ r, answer = some r → isRefusal r = true) :
    Adds e shelf shelf (concluding s (heard decode answer)) := by
  obtain ⟨fault, failed⟩ : ∃ fault, heard decode answer = .error fault := heard_of_refused refused
  rw [failed]
  exact adds_of_fault

/-- A call that has a write before it does nothing yet, and neither does one whose write cannot be sent. -/
theorem adds_of_asking {s : Secret} {method : Method} {target : String} {body : Option Json} :
    Adds e shelf shelf (asking method target body decode (concluding s)) := by
  refine .inr ⟨fun finished => ?_, rfl⟩
  cases of_asking_eq_done finished rfl

/-- A secret that is sent back takes effect when it was read as the last version. -/
theorem adds_of_replacing {stored : SecretObject} (known : stored ∈ shelf.versions)
    (asks : Cluster.replacing (e.secret namespaceName name) e.owner stored = .ask q next)
    (handles : Handles (Watch.secretsPath (some namespaceName)) name shelf ⟨q, answer⟩ shelf') :
    Adds e shelf shelf' (next answer) := by
  obtain ⟨target, _, rfl, goes⟩ := of_asking_eq_ask asks rfl
  rw [goes]
  cases handles with
  | replaced s sent written numbered unused _ current read fresh kept bears =>
    obtain ⟨same, numberSent⟩ := SecretObject.holding_of_sent read
    have number : sent.number = stored.number := numberSent.trans (SecretObject.number_set stored e)
    have last : stored = s := by
      refine Shelf.eq_of_number known (Shelf.mem_of_current current) ?_
      rcases fresh with absent | fresh
      · exact absurd (number.symm.trans absent) (shelf.numbered stored known)
      · exact number.symm.trans fresh
    have added : written.holding = shelf.holding.add e := by
      rw [kept, same, Shelf.holding_of_current current, last]
      exact SecretObject.holding_set s e
    exact .inl ⟨by rw [bears.heard]; rfl, added⟩
  | refused refused => exact adds_of_refused refused

/-- A new secret takes effect when there was none. -/
theorem adds_of_creating (asks : Cluster.creating (e.secret namespaceName name) e.owner = .ask q next)
    (handles : Handles (Watch.secretsPath (some namespaceName)) name shelf ⟨q, answer⟩ shelf') :
    Adds e shelf shelf' (next answer) := by
  obtain ⟨target, _, rfl, goes⟩ := of_asking_eq_ask asks rfl
  rw [goes]
  cases handles with
  | created sent written numbered unused _ absent read _ kept bears =>
    have added : written.holding = shelf.holding.add e := by
      rw [kept, (SecretObject.holding_of_sent read).1, SecretObject.holding_new,
        Shelf.holding_of_absent absent]
    exact .inl ⟨by rw [bears.heard]; rfl, added⟩
  | refused refused => exact adds_of_refused refused

/-- Reading the secret does nothing to it, and goes on with its last version. -/
theorem of_beginning (asks : (secretStore (.set (e.secret namespaceName name) e.owner)).run = .ask q next)
    (handles : Handles (Watch.secretsPath (some namespaceName)) name shelf ⟨q, answer⟩ shelf') :
    Stage namespaceName name e shelf' (next answer) ∧ Adds e shelf shelf' (next answer) := by
  rw [run_set] at asks
  split at asks
  next => cases asks
  next =>
    obtain ⟨target, _, rfl, goes⟩ := of_asking_eq_ask asks rfl
    rw [goes]
    cases handles with
    | got stored _ current bears =>
      rw [bears.heard]
      exact ⟨.replacing (Shelf.mem_of_current current), adds_of_asking⟩
    | refused refused =>
      obtain ⟨fault, failed⟩ : ∃ fault, heard decode answer = .error fault := heard_of_refused refused
      rw [failed]
      cases fault with
      | other => exact ⟨.ended _, adds_of_fault⟩
      | refused code reason =>
        by_cases absent : reason = "NotFound"
        · rw [proceeding, if_pos absent]
          exact ⟨.creating, adds_of_asking⟩
        · rw [proceeding, if_neg absent]
          exact ⟨.ended _, adds_of_fault⟩

theorem beginning_ne_ok : (secretStore (.set (e.secret namespaceName name) e.owner)).run ≠ .done (.ok ()) := by
  intro finished
  rw [run_set] at finished
  split at finished
  next => cases finished
  next => cases of_asking_eq_done finished rfl

/-- A turn of a call takes it a stage further, and adds its entry when it succeeds by it. -/
theorem step (stage : Stage namespaceName name e shelf (.ask q next))
    (handles : Handles (Watch.secretsPath (some namespaceName)) name shelf ⟨q, answer⟩ shelf') :
    Stage namespaceName name e shelf' (next answer) ∧ Adds e shelf shelf' (next answer) := by
  generalize asks : (Dialogue.ask q next : Dialogue cluster (Except StoreError Unit)) = d at stage
  cases stage with
  | beginning => exact of_beginning asks.symm handles
  | replacing known =>
    obtain ⟨_, _, _, goes⟩ := of_asking_eq_ask asks.symm rfl
    exact ⟨by rw [goes]; exact .ended _, adds_of_replacing known asks.symm handles⟩
  | creating =>
    obtain ⟨_, _, _, goes⟩ := of_asking_eq_ask asks.symm rfl
    exact ⟨by rw [goes]; exact .ended _, adds_of_creating asks.symm handles⟩
  | ended => cases asks

end Stage

variable {ι : Type}

/-- The secret, and what is left of each call. -/
structure Writers (ι : Type) where
  shelf : Shelf
  rest : ι → Dialogue cluster (Except StoreError Unit)

/-- A request of one of the calls, the secret before and behind it, and what the call returns upon it. -/
structure Turn (ι : Type) where
  writer : ι
  exchange : Exchange cluster
  before : Shelf
  after : Shelf
  returned : Option (Except StoreError Unit)

/-- Whose call succeeds by the turn. -/
def Turn.winner? (t : Turn ι) : Option ι :=
  match t.returned with
  | some (.ok _) => some t.writer
  | _ => none

/-- The calls that have succeeded, in the order in which they did. -/
def succeeded (ts : List (Turn ι)) : List ι :=
  ts.filterMap Turn.winner?

variable {i : ι} {x : Exchange cluster} {before after : Shelf} {ts : List (Turn ι)}
  {rest : Dialogue cluster (Except StoreError Unit)}

theorem succeeded_append_of_ok :
    succeeded (ts ++ [⟨i, x, before, after, some (.ok ())⟩]) = succeeded ts ++ [i] :=
  List.filterMap_append

theorem succeeded_append_of_ne (unfinished : rest ≠ .done (.ok ())) :
    succeeded (ts ++ [⟨i, x, before, after, rest.result?⟩]) = succeeded ts := by
  have none : Turn.winner? ⟨i, x, before, after, rest.result?⟩ = none := by
    cases rest with
    | ask => rfl
    | done res =>
      cases res with
      | error e => rfl
      | ok => exact absurd rfl unfinished
  rw [succeeded, List.filterMap_append, List.filterMap_cons_none none]
  exact List.append_nil _

variable {entry : ι → Entry} {first : Shelf} {w : Writers ι}

/-- What the calls and the cluster can come to, each call with its own entry for the secret. -/
inductive Interleaves [DecidableEq ι] (namespaceName name : String) (entry : ι → Entry) (first : Shelf) :
    List (Turn ι) → Writers ι → Prop
  | start : Interleaves namespaceName name entry first []
      ⟨first, fun i => (secretStore (.set ((entry i).secret namespaceName name) (entry i).owner)).run⟩
  | turn {ts : List (Turn ι)} {w : Writers ι} (i : ι) {q : ClusterRequest}
      {next : Option Response → Dialogue cluster (Except StoreError Unit)} (answer : Option Response)
      {shelf : Shelf} : Interleaves namespaceName name entry first ts w → w.rest i = .ask q next →
      Handles (Watch.secretsPath (some namespaceName)) name w.shelf ⟨q, answer⟩ shelf →
      Interleaves namespaceName name entry first
        (ts ++ [⟨i, ⟨q, answer⟩, w.shelf, shelf, (next answer).result?⟩])
        ⟨shelf, Function.update w.rest i (next answer)⟩

/-- The calls as they stand after any turns: the secret is what the successful ones make of it one after the
other, in the order in which they succeeded. -/
structure Serial (namespaceName name : String) (entry : ι → Entry) (first : Shelf) (ts : List (Turn ι))
    (w : Writers ι) : Prop where
  stages : ∀ i, Stage namespaceName name (entry i) w.shelf (w.rest i)
  holding : w.shelf.holding = ((succeeded ts).map entry).foldl Holding.add first.holding
  succeeded_iff : ∀ i, i ∈ succeeded ts ↔ w.rest i = .done (.ok ())
  changed : ∀ t ∈ ts, t.after = t.before ∨ t.writer ∈ succeeded ts
  owners : ∀ t ∈ ts, ∀ o ∈ t.after.holding.owners, o ∈ w.shelf.holding.owners

namespace Serial

theorem start : Serial namespaceName name entry first []
    ⟨first, fun i => (secretStore (.set ((entry i).secret namespaceName name) (entry i).owner)).run⟩ where
  stages _ := .beginning
  holding := rfl
  succeeded_iff _ := ⟨nofun, fun ended => absurd ended Stage.beginning_ne_ok⟩
  changed := nofun
  owners := nofun

theorem owners_append (serial : Serial namespaceName name entry first ts w)
    (adds : Adds (entry i) w.shelf shelf rest) (x : Exchange cluster) (res : Option (Except StoreError Unit)) :
    ∀ t ∈ ts ++ [⟨i, x, w.shelf, shelf, res⟩], ∀ o ∈ t.after.holding.owners, o ∈ shelf.holding.owners := by
  intro t mem o kept
  rcases List.mem_append.mp mem with early | last
  · exact adds.grows (serial.owners t early o kept)
  · rwa [List.mem_singleton.mp last] at kept

variable [DecidableEq ι] {q : ClusterRequest}
  {next : Option Response → Dialogue cluster (Except StoreError Unit)}

theorem stages_update (serial : Serial namespaceName name entry first ts w)
    (subset : w.shelf.versions ⊆ shelf.versions) (stage : Stage namespaceName name (entry i) shelf rest)
    (j : ι) : Stage namespaceName name (entry j) shelf (Function.update w.rest i rest j) := by
  by_cases same : j = i
  · subst same
    rwa [Function.update_self]
  · rw [Function.update_of_ne same]
    exact (serial.stages j).mono subset

/-- The call whose turn it is had not ended, so it has succeeded when it succeeds now. -/
theorem update_eq_ok_iff (asks : w.rest i = .ask q next) (rest : Dialogue cluster (Except StoreError Unit))
    (j : ι) : Function.update w.rest i rest j = .done (.ok ()) ↔
    w.rest j = .done (.ok ()) ∨ j = i ∧ rest = .done (.ok ()) := by
  by_cases same : j = i
  · subst same
    rw [Function.update_self, asks]
    exact ⟨fun finished => .inr ⟨rfl, finished⟩, fun h => (h.resolve_left nofun).2⟩
  · rw [Function.update_of_ne same]
    exact (or_iff_left fun last => same last.1).symm

theorem turn (serial : Serial namespaceName name entry first ts w) (asks : w.rest i = .ask q next)
    (stage : Stage namespaceName name (entry i) shelf rest) (adds : Adds (entry i) w.shelf shelf rest)
    (subset : w.shelf.versions ⊆ shelf.versions) :
    Serial namespaceName name entry first (ts ++ [⟨i, x, w.shelf, shelf, rest.result?⟩])
      ⟨shelf, Function.update w.rest i rest⟩ := by
  have stages := serial.stages_update subset stage
  have owners := serial.owners_append adds x rest.result?
  have ended := update_eq_ok_iff asks rest
  rcases adds with ⟨rfl, added⟩ | ⟨unfinished, rfl⟩
  · have succeeds : succeeded (ts ++ [⟨i, x, w.shelf, shelf, some (.ok ())⟩]) = succeeded ts ++ [i] :=
      succeeded_append_of_ok
    refine ⟨stages, ?_, fun j => ?_, List.forall_mem_append.mpr ⟨fun t mem => ?_, ?_⟩, owners⟩
    · rw [Dialogue.result?, succeeds, List.map_append, List.foldl_append, ← serial.holding]
      exact added
    · rw [Dialogue.result?, succeeds, List.mem_append, List.mem_singleton, serial.succeeded_iff]
      exact (or_congr_right (and_iff_left rfl).symm).trans (ended j).symm
    · rw [Dialogue.result?, succeeds]
      exact (serial.changed t mem).imp_right (List.mem_append_left [i])
    · rw [Dialogue.result?, succeeds]
      exact List.forall_mem_singleton.mpr (.inr (List.mem_append_right _ List.mem_cons_self))
  · have same : succeeded (ts ++ [⟨i, x, w.shelf, w.shelf, rest.result?⟩]) = succeeded ts :=
      succeeded_append_of_ne unfinished
    refine ⟨stages, ?_, fun j => ?_, List.forall_mem_append.mpr ⟨fun t mem => ?_, ?_⟩, owners⟩
    · rw [same]
      exact serial.holding
    · rw [same, serial.succeeded_iff]
      exact (or_iff_left fun last => unfinished last.2).symm.trans (ended j).symm
    · rw [same]
      exact serial.changed t mem
    · exact List.forall_mem_singleton.mpr (.inl rfl)

end Serial

theorem Interleaves.serial [DecidableEq ι] (h : Interleaves namespaceName name entry first ts w) :
    Serial namespaceName name entry first ts w := by
  induction h with
  | start => exact .start
  | turn i answer _ asks handles ih =>
    obtain ⟨stage, adds⟩ := (asks ▸ ih.stages i).step handles
    exact ih.turn asks stage adds handles.subset

/-- Nothing gets lost in a secret. -/
structure Lossless (entry : ι → Entry) (first : Shelf) (ts : List (Turn ι)) (w : Writers ι) : Prop where
  succeeded_iff : ∀ i, i ∈ succeeded ts ↔ w.rest i = .done (.ok ())
  /-- A key stays, with its value unless a call that has succeeded sets it. -/
  present : ∀ k, (first.holding.data.get? k).isSome = true → (w.shelf.holding.data.get? k).isSome = true
  untouched : ∀ k, (∀ i ∈ succeeded ts, (entry i).key ≠ k) →
    w.shelf.holding.data.get? k = first.holding.data.get? k
  /-- The last call for a key that has succeeded is the one that the key has its value from. -/
  latest : ∀ before i after, succeeded ts = before ++ i :: after →
    (∀ j ∈ after, (entry j).key ≠ (entry i).key) →
    w.shelf.holding.data.get? (entry i).key = some (utf8Bytes (entry i).value)
  /-- A call that has not succeeded, on a conflict or otherwise, has changed nothing. -/
  idle : ∀ t ∈ ts, w.rest t.writer ≠ .done (.ok ()) → t.after = t.before
  /-- An owner stays, whether it was there from the start or has come by a call. -/
  initial : ∀ o ∈ first.holding.owners, o ∈ w.shelf.holding.owners
  added : ∀ t ∈ ts, ∀ o ∈ t.after.holding.owners, o ∈ w.shelf.holding.owners
  owned : ∀ i ∈ succeeded ts, ∀ o, (entry i).owner = some o → ∃ x ∈ w.shelf.holding.owners, x.uid = o.uid

theorem Interleaves.lossless [DecidableEq ι] (h : Interleaves namespaceName name entry first ts w) :
    Lossless entry first ts w where
  succeeded_iff := h.serial.succeeded_iff
  present k held := by
    rw [h.serial.holding]
    exact Holding.isSome_foldl held
  untouched k others := by
    rw [h.serial.holding]
    exact Holding.get?_foldl_of_forall_ne (List.forall_mem_map.mpr others)
  latest before i after order later := by
    rw [h.serial.holding, order, List.map_append, List.map_cons]
    exact Holding.get?_foldl_last (List.forall_mem_map.mpr later)
  idle t mem unfinished := (h.serial.changed t mem).resolve_right fun finished =>
    unfinished ((h.serial.succeeded_iff t.writer).mp finished)
  initial o mem := by
    rw [h.serial.holding]
    exact Holding.mem_owners_foldl mem
  added := h.serial.owners
  owned i finished o owner := by
    rw [h.serial.holding]
    exact Holding.exists_owner_foldl (List.mem_map_of_mem finished) owner

/-- A call goes on with the answer that it gets, and the others stay where they are. -/
theorem Interleaves.proceeds [DecidableEq ι] {q : ClusterRequest} {answer : Option Response}
    {next : Option Response → Dialogue cluster (Except StoreError Unit)}
    (h : Interleaves namespaceName name entry first ts w) (kept : w.shelf = before)
    (asks : w.rest i = .ask q next)
    (handles : Handles (Watch.secretsPath (some namespaceName)) name before ⟨q, answer⟩ after) :
    ∃ ts' w', Interleaves namespaceName name entry first ts' w' ∧ w'.shelf = after ∧
      w'.rest i = next answer ∧ ∀ j ≠ i, w'.rest j = w.rest j :=
  ⟨_, _, h.turn i answer asks (kept ▸ handles), rfl, Function.update_self ..,
    fun _ other => Function.update_of_ne other ..⟩

/-- What describes a secret in one of its versions. -/
def label (number : String) : Metadata :=
  { Metadata.blank with name := some "db", namespaceName := some "prod", resourceVersion := some number }

def version (number : String) (data : Dictionary (List UInt8)) : SecretObject :=
  ⟨label number, some data, none, none, some "Opaque"⟩

def answering (s : SecretObject) : Response :=
  ⟨200, s.encode.render⟩

theorem textual_version {number : String} {data : Dictionary (List UInt8)} :
    (version number data).encode.Textual 2 := by
  have labelled : (label number).encode.Textual 1 := .object (by
    simp only [label, Metadata.blank, Option.map_some, Option.map_none, Json.present, List.nil_append,
      List.append_nil, List.cons_append]
    refine List.forall_mem_cons.mpr ⟨.string "db", List.forall_mem_cons.mpr ⟨.string "prod", ?_⟩⟩
    exact List.forall_mem_singleton.mpr (.string number))
  have texts : (Json.object (data.map SecretObject.encodeBytes).entries).Textual 1 := by
    refine .object fun m mem => ?_
    obtain ⟨e, _, rfl⟩ := List.mem_map.mp mem
    exact .string _
  refine .object (List.forall_mem_cons.mpr ⟨.string "v1", List.forall_mem_cons.mpr ⟨.string "Secret",
    List.forall_mem_cons.mpr ⟨texts, List.forall_mem_cons.mpr ⟨labelled, ?_⟩⟩⟩⟩)
  exact List.forall_mem_singleton.mpr (.string "Opaque")

theorem bears_answering {number : String} {data : Dictionary (List UInt8)}
    (described : Metadata.decode (label number).encode = some (label number)) :
    Bears (answering (version number data)) (version number data) := by
  refine ⟨rfl, ?_⟩
  change (Json.read (version number data).encode.render).bind decode = _
  rw [Json.read_render textual_version (by decide), Option.bind_some]
  exact SecretObject.decode_encode described

/-- A host and a port, for the same secret. -/
def connections : Bool → Entry
  | true => ⟨"HOST", "db-1", none⟩
  | false => ⟨"PORT", "5432", none⟩

/-- The secret before either of them is in it, and with the host. -/
def vacant : SecretObject :=
  version "1" .empty

def hosted : SecretObject :=
  version "2" (Dictionary.empty.insert "HOST" (utf8Bytes "db-1"))

def vacantShelf : Shelf where
  versions := [vacant]
  numbered := List.forall_mem_singleton.mpr nofun
  distinct := List.nodup_singleton _

def hostedShelf : Shelf :=
  vacantShelf.put hosted nofun (by decide)

def overtaken : Response where
  status := 409
  body := "\x7b\"kind\":\"Status\",\"apiVersion\":\"v1\",\"status\":\"Failure\"," ++
    "\"message\":\"the object has been modified\",\"reason\":\"Conflict\",\"code\":409\x7d"

/-- Two calls have read the same version. The one that is served first succeeds, and the other one ends in a
conflict. -/
theorem lossless_overtaken : ∃ (ts : List (Turn Bool)) (w : Writers Bool),
    Interleaves "prod" "db" connections vacantShelf ts w ∧ w.rest true = .done (.ok ()) ∧
      w.rest false = .done (.error (.conflict "secret prod/db")) ∧
      Lossless connections vacantShelf ts w := by
  have place : target? (Watch.secretsPath (some "prod") ++ "/" ++ "db") =
      some "/api/v1/namespaces/prod/secrets/db" := by decide +kernel
  have read : Bears (answering vacant) vacant := bears_answering rfl
  have written : Bears (answering hosted) hosted := bears_answering rfl
  have late : refusal overtaken = .refused 409 "Conflict" := by decide +kernel
  have named : ¬ "db".isEmpty = true := by decide
  have reading (i : Bool) :
      (secretStore (.set ((connections i).secret "prod" "db") (connections i).owner)).run = .ask _ _ :=
    (run_set _ _).trans ((if_neg named).trans (asking_eq_ask place))
  have writing (i : Bool) : proceeding ((connections i).secret "prod" "db") (connections i).owner
      (heard decode (some (answering vacant))) = .ask _ _ :=
    (congrArg _ read.heard).trans (asking_eq_ask place)
  have got := Handles.got vacant place (show vacantShelf.current = some vacant from rfl) read
  obtain ⟨_, w₁, h₁, kept₁, own₁, others₁⟩ :=
    (@Interleaves.start Bool _ "prod" "db" connections vacantShelf).proceeds rfl (reading true) got
  obtain ⟨_, w₂, h₂, kept₂, own₂, others₂⟩ :=
    h₁.proceeds kept₁ ((others₁ false nofun).trans (reading false)) got
  obtain ⟨_, w₃, h₃, kept₃, own₃, others₃⟩ :=
    h₂.proceeds kept₂ ((others₂ true nofun).trans (own₁.trans (writing true)))
      (.replaced vacant (vacant.set "HOST" "db-1" none) hosted nofun (by decide) place rfl
        (SecretObject.decode_encode rfl) (.inr rfl) rfl written : Handles _ _ _ _ hostedShelf)
  obtain ⟨ts, w₄, h₄, _, own₄, others₄⟩ :=
    h₃.proceeds kept₃ ((others₃ false nofun).trans (own₂.trans (writing false)))
      (.refused fun r same => by cases same; rfl : Handles _ _ _ ⟨_, some overtaken⟩ _)
  have succeeds : w₄.rest true = .done (.ok ()) := by
    rw [others₄ true nofun, own₃, written.heard]
    rfl
  have fails : w₄.rest false = .done (.error (.conflict "secret prod/db")) := by
    rw [own₄, heard, if_pos (show isRefusal overtaken = true from rfl), late]
    rfl
  exact ⟨ts, w₄, h₄, succeeds, fails, h₄.lossless⟩

end Cluster

end DatabaseOperator
