import DatabaseOperator.Proofs.Guards
import DatabaseOperator.Proofs.Pass.Service
import DatabaseOperator.Proofs.Provider.Access

namespace DatabaseOperator

open Manager

namespace Pass

variable {delay : Nat} {r : Resource} {t u : List (Exchange pass)} {res : Except Error Requeue}
  {db : Database}

/-- No feature, firewall rule or plan is touched. -/
def Unamending (t : List (Exchange pass)) : Prop :=
  ∀ e ∈ asked t, ¬ e.call.Amends

theorem unamending_of_unasked (unasked : asked t = []) : Unamending t := by
  intro e mem
  rw [unasked] at mem
  cases mem

theorem Unamending.append (h : Unamending t) (g : Unamending u) : Unamending (t ++ u) := by
  intro e mem
  rw [asked_append] at mem
  exact (List.mem_append.mp mem).elim (h e) (g e)

theorem unamending_ofProvider {α : Type} {task : ProviderTask α} {p : List (Exchange provider)}
    {a : Except Error α} (reads : task.run.Only ProviderCall.Reads) (h : task.run.Runs p a) :
    Unamending (p.map .ofProvider) := by
  intro e mem
  rw [asked_ofProvider] at mem
  exact (reads p a h e mem).not_amends

theorem Opening.unamending {res : Except Error Unit} (h : Opening r t res) : Unamending t :=
  unamending_of_unasked h.asked_eq

theorem Finalizing.unamending (h : Finalizing r t res) : Unamending t := by
  intro e mem amends
  have deleted := h.eq_of_asked (mem_asked_iff.mp mem) rfl
  rw [deleted] at amends
  exact amends

theorem Creating.unamending (h : Creating delay r t res) : Unamending t := by
  have created (wanted : Database) (a : Except ProviderError Database) (later : List (Exchange pass))
      (silent : asked later = []) : Unamending (⟨.provider (.createDatabase wanted), a⟩ :: later) := by
    intro e mem
    have asked : e ∈ (⟨.createDatabase wanted, a⟩ : Exchange provider) :: asked later := mem
    rw [silent] at asked
    obtain rfl := List.mem_singleton.mp asked
    exact fun amends => amends
  cases h with
  | invalid => exact unamending_of_unasked rfl
  | closed _ opening => exact opening.unamending
  | refused _ opening | nameless _ opening => exact opening.unamending.append (created _ _ _ rfl)
  | created time a _ opening => exact opening.unamending.append (created _ _ _ rfl)

theorem HandingOver.unamending (h : HandingOver r db t res) : Unamending t := by
  cases h with
  | unnamed named => exact unamending_ofProvider reads_connectionUrl named
  | unsaved named =>
    exact (unamending_ofProvider reads_connectionUrl named).append
      (unamending_of_unasked (asked_ofSecret _))
  | saved a named =>
    refine (unamending_ofProvider reads_connectionUrl named).append (unamending_of_unasked ?_)
    rw [asked_append, asked_ofSecret]
    rfl

theorem Awaiting.unamending (h : Awaiting delay r t res) : Unamending t := by
  cases h with
  | closed opening => exact opening.unamending
  | unread opening read | early opening read =>
    exact opening.unamending.append (unamending_ofProvider reads_get read)
  | noted time opening read _ _ handing =>
    exact opening.unamending.append ((unamending_ofProvider reads_get read).append handing.unamending)
  | unnoted time e opening read =>
    exact opening.unamending.append
      ((unamending_ofProvider reads_get read).append (unamending_of_unasked rfl))
  | renoted time stored opening read _ _ handing =>
    exact opening.unamending.append ((unamending_ofProvider reads_get read).append handing.unamending)

/-- The provider was asked for one update to what is declared. -/
inductive Updates (r : Resource) (t : List (Exchange pass)) : Except Error Requeue → Prop
  | failed {wanted : Database} {e f : Error} : r.spec.database = .ok wanted →
      (Manager.update r.databaseId wanted).run.Runs (asked t) (.error e) → Updates r t (.error f)
  | went {wanted : Database} {outcome : UpdateOutcome} {res : Except Error Requeue} :
      r.spec.database = .ok wanted →
      (Manager.update r.databaseId wanted).run.Runs (asked t) (.ok outcome) → Updates r t res

theorem Updates.inPhase {action : String} (h : Updates r t res) :
    Updates r t (res.mapError (Error.phase action)) := by
  cases h with
  | failed valid update => exact .failed valid update
  | went valid update => exact .went valid update

/-- The step that keeps a database as it is declared touches nothing, or it runs one update. -/
theorem Updating.cases_of_amending (h : Updating delay r t res) : Unamending t ∨ Updates r t res := by
  cases h with
  | invalid => exact .inl (unamending_of_unasked rfl)
  | closed _ opening => exact .inl opening.unamending
  | unread _ opening _ read | busy _ opening _ read =>
    exact .inl (opening.unamending.append (unamending_ofProvider reads_get read))
  | arrived time a _ opening _ read =>
    exact .inl (opening.unamending.append
      ((unamending_ofProvider reads_get read).append (unamending_of_unasked rfl)))
  | failed valid opening _ update =>
    exact .inr (.failed valid (by rwa [opening.asked_provided]))
  | planned time a valid opening _ update | noted time valid opening _ _ update
  | renoted time a valid opening _ _ update =>
    exact .inr (.went valid (by rwa [opening.asked_provided_append _ rfl]))

/-- A pass touches no part of a database, or it runs one update of the recorded one. -/
theorem Course.cases_of_amending (h : Course delay r t res) : Unamending t ∨ Updates r t res := by
  cases h with
  | finalize _ h => exact .inl h.unamending
  | mark | init | flag => exact .inl (unamending_of_unasked rfl)
  | create _ _ _ h => exact .inl h.unamending
  | await _ _ _ h => exact .inl h.unamending
  | update _ _ _ h => exact h.cases_of_amending.imp_right Updates.inPhase

end Pass

end DatabaseOperator
