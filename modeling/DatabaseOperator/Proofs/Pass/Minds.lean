import DatabaseOperator.Proofs.Pass.Writes
import DatabaseOperator.Proofs.Provider.Manager

namespace DatabaseOperator

namespace Pass

variable {t u : List (Exchange pass)} {r : Resource} {id : String} {delay : Nat}
  {res : Except Error Requeue}

/-- No call of the trace creates or deletes a database, or reads another one than this. -/
def Minds (id : String) (t : List (Exchange pass)) : Prop :=
  ∀ e ∈ t, ∀ c, e.call = .provider c → c.Minds id

theorem minds_nil : Minds id [] :=
  fun _ h => nomatch h

theorem Minds.append (h : Minds id t) (g : Minds id u) : Minds id (t ++ u) :=
  fun e he => (List.mem_append.mp he).elim (h e) (g e)

theorem Minds.cons {c : PassCall} (a : pass.Answer c) (hc : ∀ d, c ≠ .provider d)
    (h : Minds id t) : Minds id (⟨c, a⟩ :: t) := by
  intro e he d hd
  rcases List.mem_cons.mp he with rfl | he
  · exact absurd hd (hc d)
  · exact h e he d hd

theorem minds_ofSecret (t : List (Exchange secrets)) : Minds id (t.map .ofSecret) := by
  intro e he c hc
  obtain ⟨x, _, rfl⟩ := List.mem_map.mp he
  cases hc

theorem minds_ofProvider {α : Type} {x : ProviderTask α} (hx : x.run.Only (ProviderCall.Minds id))
    {p : List (Exchange provider)} {a : Except Error α} (h : x.run.Runs p a) :
    Minds id (p.map .ofProvider) := by
  intro e he c hc
  obtain ⟨x, mem, rfl⟩ := List.mem_map.mp he
  obtain rfl := PassCall.provider.inj hc
  exact hx p a h x mem

theorem Opening.minds {res : Except Error Unit} (h : Opening r t res) : Minds id t := by
  cases h with
  | tokenless => exact minds_ofSecret _
  | connected a =>
    exact (minds_ofSecret _).append (minds_nil.cons _ fun _ => PassCall.noConfusion)

theorem minds_resource {c : ResourceCall} (a : pass.Answer (.resource c)) :
    Minds id [⟨.resource c, a⟩] :=
  minds_nil.cons _ fun _ => PassCall.noConfusion

theorem minds_ticks (times : List Time) : Minds id (ticks times) := by
  intro e he c hc
  obtain ⟨time, _, rfl⟩ := List.mem_map.mp he
  cases hc

theorem minds_timed {w : Resource} (times : List Time) (a : Except StoreError Resource) :
    Minds id (ticks times ++ [⟨.resource (.updateStatus w), a⟩]) :=
  (minds_ticks times).append (minds_resource _)

theorem HandingOver.minds {db : Database} (h : HandingOver r db t res) : Minds id t := by
  cases h with
  | unnamed named => exact minds_ofProvider Manager.minds_connectionUrl named
  | unsaved named =>
    exact (minds_ofProvider Manager.minds_connectionUrl named).append (minds_ofSecret _)
  | saved a named =>
    exact (minds_ofProvider Manager.minds_connectionUrl named).append
      ((minds_ofSecret _).append (minds_resource _))

theorem Awaiting.minds (h : Awaiting delay r t res) : Minds r.databaseId t := by
  cases h with
  | closed opening => exact opening.minds
  | unread opening read | early opening read =>
    exact opening.minds.append (minds_ofProvider Manager.minds_get read)
  | noted now opening read _ _ handing =>
    exact opening.minds.append ((minds_ofProvider Manager.minds_get read).append
      ((minds_ticks _).append handing.minds))
  | unnoted now e opening read =>
    exact opening.minds.append ((minds_ofProvider Manager.minds_get read).append
      (minds_timed _ _))
  | renoted now stored opening read _ _ handing =>
    exact opening.minds.append ((minds_ofProvider Manager.minds_get read).append
      ((minds_ticks _).append (handing.minds.cons _ fun _ => PassCall.noConfusion)))

theorem Updating.minds (h : Updating delay r t res) : Minds r.databaseId t := by
  cases h with
  | invalid => exact minds_nil
  | closed _ opening => exact opening.minds
  | unread _ opening _ read | busy _ opening _ read =>
    exact opening.minds.append (minds_ofProvider Manager.minds_get read)
  | arrived now a _ opening _ read =>
    exact opening.minds.append ((minds_ofProvider Manager.minds_get read).append
      (minds_timed _ a))
  | failed _ opening _ updated =>
    exact opening.minds.append (minds_ofProvider Manager.minds_update updated)
  | planned time a _ opening _ updated =>
    exact opening.minds.append ((minds_ofProvider Manager.minds_update updated).append
      (minds_timed _ a))
  | noted now _ opening _ _ updated =>
    exact opening.minds.append ((minds_ofProvider Manager.minds_update updated).append
      (minds_ticks _))
  | renoted now a _ opening _ _ updated =>
    exact opening.minds.append ((minds_ofProvider Manager.minds_update updated).append
      (minds_timed _ a))

/-- All calls but one deletion, which is of the recorded database, mind the database. -/
theorem Finalizing.minds (id : String) (h : Finalizing r t res) :
    ∀ e ∈ t, ∀ c, e.call = .provider c →
      c.Minds id ∨ (c = .deleteDatabase r.databaseId ∧ r.databaseId ≠ "") := by
  cases h with
  | unguarded => exact fun _ he => nomatch he
  | unrecorded a => exact fun e he c hc => .inl (minds_resource _ e he c hc)
  | closed _ _ opening => exact fun e he c hc => .inl (opening.minds e he c hc)
  | refused _ recorded opening =>
    intro e he c hc
    rcases List.mem_append.mp he with he | he
    · exact .inl (opening.minds e he c hc)
    · obtain rfl := List.mem_singleton.mp he
      exact .inr ⟨(PassCall.provider.inj hc).symm, recorded⟩
  | deleted a b _ recorded opening =>
    intro e he c hc
    rcases List.mem_append.mp he with he | he
    · exact .inl (opening.minds e he c hc)
    rcases List.mem_cons.mp he with rfl | he
    · exact .inr ⟨(PassCall.provider.inj hc).symm, recorded⟩
    · exact .inl (minds_resource _ e he c hc)

/-- All calls but one creation mind the database, whichever it is. -/
theorem Creating.minds (id : String) (h : Creating delay r t res) :
    ∀ e ∈ t, ∀ c, e.call = .provider c → c.Minds id ∨ ∃ wanted, c = .createDatabase wanted := by
  cases h with
  | invalid => exact fun _ he => nomatch he
  | closed _ opening => exact fun e he c hc => .inl (opening.minds e he c hc)
  | refused _ opening | nameless _ opening =>
    intro e he c hc
    rcases List.mem_append.mp he with he | he
    · exact .inl (opening.minds e he c hc)
    · obtain rfl := List.mem_singleton.mp he
      exact .inr ⟨_, (PassCall.provider.inj hc).symm⟩
  | created time a _ opening =>
    intro e he c hc
    rcases List.mem_append.mp he with he | he
    · exact .inl (opening.minds e he c hc)
    rcases List.mem_cons.mp he with rfl | he
    · exact .inr ⟨_, (PassCall.provider.inj hc).symm⟩
    · exact .inl (minds_timed [time] a e he c hc)

theorem Opening.not_create {wanted : Database} {a : pass.Answer (.provider (.createDatabase wanted))}
    {res : Except Error Unit} (h : Opening r t res) :
    (⟨.provider (.createDatabase wanted), a⟩ : Exchange pass) ∉ t :=
  fun mem => (h.minds : Minds "" t) _ mem _ rfl

theorem Opening.not_update {w : Resource} {a : pass.Answer (.resource (.updateStatus w))}
    {res : Except Error Unit} (h : Opening r t res) :
    (⟨.resource (.updateStatus w), a⟩ : Exchange pass) ∉ t :=
  fun mem => h.quiet _ mem _ rfl

/-- What is written after the creation carries the id of the new database. -/
theorem Creating.recorded {wanted db : Database} {w stored : Resource}
    (h : Creating delay r t res)
    (made : (⟨.provider (.createDatabase wanted), .ok db⟩ : Exchange pass) ∈ t)
    (written : (⟨.resource (.updateStatus w), .ok stored⟩ : Exchange pass) ∈ t) :
    w.databaseId = db.id := by
  cases h with
  | invalid => cases made
  | closed _ opening => exact absurd made opening.not_create
  | refused _ opening | nameless _ opening =>
    rcases List.mem_append.mp written with early | late
    · exact absurd early opening.not_update
    · cases List.mem_singleton.mp late
  | created time a _ opening =>
    rcases List.mem_append.mp made with early | made
    · exact absurd early opening.not_create
    rcases List.mem_append.mp written with early | written
    · exact absurd early opening.not_update
    simp only [List.mem_cons, List.not_mem_nil, or_false] at made written
    rcases made with made | made | made
    · cases made
      rcases written with written | written | written
      · cases written
      · cases written
      · cases written
        exact Resource.databaseId_setProvisioning
    · cases made
    · cases made

/-- A creation after which the step does not fail has its id written. -/
theorem Creating.ok {wanted : Database} {a : pass.Answer (.provider (.createDatabase wanted))}
    {next : Requeue} (h : Creating delay r t (.ok next))
    (made : (⟨.provider (.createDatabase wanted), a⟩ : Exchange pass) ∈ t) :
    ∃ (db : Database) (w stored : Resource), db.id ≠ "" ∧
      (⟨.provider (.createDatabase wanted), .ok db⟩ : Exchange pass) ∈ t ∧
      (⟨.resource (.updateStatus w), .ok stored⟩ : Exchange pass) ∈ t := by
  generalize eq : Except.ok next = res at h
  cases h with
  | invalid => cases eq
  | closed => cases eq
  | refused => cases eq
  | nameless => cases eq
  | @created _ db _ time b _ opening named =>
    rcases List.mem_append.mp made with early | made
    · exact absurd early opening.not_create
    simp only [List.mem_cons, List.not_mem_nil, or_false] at made
    rcases made with made | made | made
    · cases made
      cases b with
      | error e => cases eq
      | ok stored =>
        exact ⟨db, _, stored, named, List.mem_append_right _ (.head _),
          List.mem_append_right _ (.tail _ (.tail _ (.head _)))⟩
    · cases made
    · cases made

/-- Which calls to the provider a course can make, by the step that it is a course of. -/
theorem Course.minds (h : Course delay r t res) :
    ∀ e ∈ t, ∀ c, e.call = .provider c → c.Minds r.databaseId ∨
      (c = .deleteDatabase r.databaseId ∧ r.databaseId ≠ "") ∨
      ∃ wanted, c = .createDatabase wanted ∧ r.databaseId = "" := by
  intro e he c hc
  cases h with
  | finalize _ h => exact (h.minds _ e he c hc).imp id .inl
  | mark a | flag a => exact .inl (minds_resource _ e he c hc)
  | init now a => exact .inl (minds_timed _ a e he c hc)
  | create _ unrecorded _ h =>
    exact (h.minds _ e he c hc).imp id fun ⟨wanted, eq⟩ => .inr ⟨wanted, eq, unrecorded⟩
  | await _ _ _ h => exact .inl (h.minds e he c hc)
  | update _ _ _ h => exact .inl (h.minds e he c hc)

theorem Course.creates {wanted : Database} (h : Course delay r t res) {e : Exchange pass}
    (mem : e ∈ t) (created : e.call = .provider (.createDatabase wanted)) :
    r.databaseId = "" ∧ ∃ res', res = res'.mapError (Error.phase "create database") ∧
      Creating delay r t res' := by
  cases h with
  | finalize _ h =>
    rcases h.minds "" e mem _ created with none | ⟨other, _⟩
    · cases none
    · cases other
  | mark a | flag a => exact ((minds_resource _ : Minds "" _) e mem _ created).elim
  | init now a => exact ((minds_timed _ a : Minds "" _) e mem _ created).elim
  | create _ unrecorded _ h => exact ⟨unrecorded, _, rfl, h⟩
  | await _ _ _ h => exact (h.minds e mem _ created).elim
  | update _ _ _ h => exact (h.minds e mem _ created).elim

end Pass

end DatabaseOperator
