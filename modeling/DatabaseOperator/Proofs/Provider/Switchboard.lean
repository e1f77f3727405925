import DatabaseOperator.Proofs.Provider.Access
import DatabaseOperator.Proofs.Provider.Update

namespace DatabaseOperator

/-- The way that a call turns this feature. -/
def ProviderCall.turns? (feature : String) : ProviderCall → Option Bool
  | enableFeature _ f => if f = feature then some true else none
  | disableFeature _ f => if f = feature then some false else none
  | _ => none

theorem ProviderCall.turns?_of_not_toggles {c : ProviderCall} {feature : String}
    (h : ∀ id addonId, ¬ c.Toggles id addonId) : c.turns? feature = none := by
  cases c with
  | enableFeature target | disableFeature target => exact absurd ⟨rfl, rfl⟩ (h target.id target.addonId)
  | _ => rfl

/-- The provider reports that public access is underway, one way or the other. -/
def Exchange.Lags : Exchange provider → Prop
  | ⟨.getDatabase _, .ok seen⟩ => seen.features.get? Features.publiclyAvailable = some .pending
  | _ => False

theorem Exchange.Lags.eq_getDatabase {e : Exchange provider} (h : e.Lags) :
    ∃ id, e.call = .getDatabase id := by
  obtain ⟨c, a⟩ := e
  cases c with
  | getDatabase id => exact ⟨id, rfl⟩
  | _ => exact h.elim

/-- The features of one database: what the provider reports, and which way each was turned last. -/
structure Switchboard where
  reported : Features
  turned : String → Option Bool

namespace Switchboard

variable {s s' s'' : Switchboard} {t u : List (Exchange provider)} {e : Exchange provider}
  {feature : String} {on : Bool}

/-- Nothing was turned yet. -/
def start (features : Features) : Switchboard :=
  ⟨features, fun _ => none⟩

/-- From now on the provider reports what it has answered. -/
def turn (s : Switchboard) (feature : String) (on : Bool) (status : FeatureStatus) : Switchboard :=
  ⟨s.reported.insert feature status, fun f => if f = feature then some on else s.turned f⟩

/-- A change that is through shows: what was turned on is activated, and what was turned off is gone. -/
def Settles (s : Switchboard) (features : Features) : Prop :=
  ∀ f, features.get? f = s.reported.get? f ∨
    (s.turned f = some true ∧ features.get? f = some .activated) ∨
    (s.turned f = some false ∧ features.get? f = none)

/-- What the provider answers. Turning on succeeds, turning off is always underway at first. -/
inductive Answers (s : Switchboard) : Exchange provider → Switchboard → Prop
  | read {id : String} {seen : Database} : seen.features = s.reported →
      Answers s ⟨.getDatabase id, .ok seen⟩ s
  | enabled {target : Database} {feature : String} {status : FeatureStatus} : status.isActive = true →
      Answers s ⟨.enableFeature target feature, .ok status⟩ (s.turn feature true status)
  | disabled {target : Database} {feature : String} :
      Answers s ⟨.disableFeature target feature, .ok .pending⟩ (s.turn feature false .pending)
  | other {c : ProviderCall} (a : provider.Answer c) : (∀ id, c ≠ .getDatabase id) →
      (∀ id addonId, ¬ c.Toggles id addonId) → Answers s ⟨c, a⟩ s

/-- The provider answers these calls in this order, and changes come through at any time. -/
inductive Turns : Switchboard → List (Exchange provider) → Switchboard → Prop
  | rest (s : Switchboard) : Turns s [] s
  | settle {s s' : Switchboard} {t : List (Exchange provider)} {features : Features} :
      s.Settles features → Turns ⟨features, s.turned⟩ t s' → Turns s t s'
  | call {s s' s'' : Switchboard} {e : Exchange provider} {t : List (Exchange provider)} :
      s.Answers e s' → Turns s' t s'' → Turns s (e :: t) s''

theorem Answers.turned_eq (h : s.Answers e s') (feature : String) :
    s'.turned feature = (e.call.turns? feature).or (s.turned feature) := by
  cases h with
  | read => rfl
  | @enabled target f | @disabled target f =>
    by_cases same : f = feature
    · simp [turn, ProviderCall.turns?, same]
    · simp [turn, ProviderCall.turns?, same, Ne.symm same]
  | other _ _ untoggling => rw [ProviderCall.turns?_of_not_toggles untoggling, Option.none_or]

theorem Turns.of_append (h : s.Turns (t ++ u) s') : ∃ s₁, s.Turns t s₁ ∧ s₁.Turns u s' := by
  generalize eq : t ++ u = v at h
  induction h generalizing t with
  | rest s =>
    obtain ⟨rfl, rfl⟩ := List.append_eq_nil_iff.mp eq
    exact ⟨s, .rest s, .rest s⟩
  | settle settles _ ih =>
    obtain ⟨s₁, before, after⟩ := ih eq
    exact ⟨s₁, .settle settles before, after⟩
  | @call s s' s'' e v answers later ih =>
    cases t with
    | nil =>
      rw [List.nil_append] at eq
      subst eq
      exact ⟨s, .rest s, .call answers later⟩
    | cons x t =>
      obtain ⟨rfl, rest⟩ := List.cons.inj eq
      obtain ⟨s₁, before, after⟩ := ih rest
      exact ⟨s₁, .call answers before, after⟩

theorem Turns.append (h : s.Turns t s') (g : s'.Turns u s'') : s.Turns (t ++ u) s'' := by
  induction h with
  | rest => exact g
  | settle settles _ ih => exact .settle settles (ih g)
  | call answers _ ih => exact .call answers (ih g)

/-- What was turned shows: on counts as on, and off is underway or gone. -/
structure Sound (s : Switchboard) : Prop where
  on : ∀ f, s.turned f = some true → s.reported.isActive f = true
  off : ∀ f, s.turned f = some false →
    s.reported.get? f = some .pending ∨ s.reported.get? f = none

theorem sound_start (features : Features) : (start features).Sound :=
  ⟨nofun, nofun⟩

theorem Sound.settle {features : Features} (h : s.Sound) (settles : s.Settles features) :
    Sound ⟨features, s.turned⟩ where
  on f turned := by
    rcases settles f with same | ⟨_, activated⟩ | ⟨off, _⟩
    · have on := h.on f turned
      unfold Features.isActive at on ⊢
      rwa [same]
    · exact Features.isActive_iff.mpr (.inl activated)
    · cases off.symm.trans turned
  off f turned := by
    rcases settles f with same | ⟨on, _⟩ | ⟨_, gone⟩
    · rw [same]
      exact h.off f turned
    · cases on.symm.trans turned
    · exact .inr gone

theorem Sound.turn {status : FeatureStatus} (h : s.Sound)
    (active : on = true → status.isActive = true) (pending : on = false → status = .pending) :
    (s.turn feature on status).Sound where
  on f turned := by
    by_cases same : f = feature
    · subst same
      exact Manager.isActive_insert (active (by simpa [Switchboard.turn] using turned))
    · have on := h.on f (by simpa [Switchboard.turn, same] using turned)
      unfold Features.isActive at on ⊢
      rwa [Switchboard.turn, Dictionary.get?_insert_of_ne same]
  off f turned := by
    by_cases same : f = feature
    · subst same
      obtain rfl := pending (by simpa [Switchboard.turn] using turned)
      exact .inl (Dictionary.get?_insert_same s.reported)
    · rw [Switchboard.turn, Dictionary.get?_insert_of_ne same]
      exact h.off f (by simpa [Switchboard.turn, same] using turned)

theorem Sound.answer (h : s.Sound) (answers : s.Answers e s') : s'.Sound := by
  cases answers with
  | read | other => exact h
  | enabled active => exact h.turn (fun _ => active) nofun
  | disabled => exact h.turn nofun fun _ => rfl

theorem Sound.run (h : s.Sound) (turns : s.Turns t s') : s'.Sound := by
  induction turns with
  | rest => exact h
  | settle settles _ ih => exact ih (h.settle settles)
  | call answers _ ih => exact ih (h.answer answers)

/-- What is read shows what was turned. -/
theorem Sound.of_read {id : String} {seen : Database} (h : s.Sound)
    (turns : s.Turns (⟨.getDatabase id, .ok seen⟩ :: t) s') :
    Sound ⟨seen.features, s.turned⟩ := by
  generalize eq : (⟨.getDatabase id, .ok seen⟩ : Exchange provider) :: t = v at turns
  induction turns with
  | rest => cases eq
  | settle settles _ ih => exact ih (h.settle settles) eq
  | call answers =>
    cases eq
    cases answers with
    | read same =>
      rw [same]
      exact h
    | other _ unread => exact absurd rfl (unread id)

end Switchboard

namespace Manager

variable {id feature : String} {on wanted : Bool} {db seen desired : Database}
  {t u p : List (Exchange provider)} {ts : List (List (Exchange provider))} {s s' : Switchboard}

/-- How often a feature is turned this way. -/
def turns (feature : String) (on : Bool) (p : List (Exchange provider)) : Nat :=
  p.countP fun e => e.call.turns? feature = some on

@[simp]
theorem turns_append (feature : String) (on : Bool) (t u : List (Exchange provider)) :
    turns feature on (t ++ u) = turns feature on t + turns feature on u :=
  List.countP_append

theorem turns_pos_iff : 0 < turns feature on p ↔ ∃ e ∈ p, e.call.turns? feature = some on := by
  simp [turns, List.countP_pos_iff]

theorem turns_of_tunes (h : ∀ e ∈ p, e.call.Tunes) : turns feature on p = 0 := by
  refine List.countP_eq_zero.mpr fun e mem => ?_
  simp [ProviderCall.turns?_of_not_toggles (h e mem).not_toggles]

theorem turns_flatten_eq_zero (h : ∀ t ∈ ts, turns feature on t = 0) :
    turns feature on ts.flatten = 0 := by
  refine List.countP_eq_zero.mpr fun e mem => ?_
  obtain ⟨t, asked, mem⟩ := List.mem_flatten.mp mem
  exact List.countP_eq_zero.mp (h t asked) e mem

/-- A feature that is not turned back stays turned. -/
theorem turned_of_turns (h : s.Turns t s') (kept : turns feature (!on) t = 0)
    (turned : s.turned feature = some on ∨ 0 < turns feature on t) : s'.turned feature = some on := by
  induction h with
  | rest => exact turned.resolve_right (Nat.lt_irrefl 0)
  | settle _ _ ih => exact ih kept turned
  | @call s s' s'' e t answers _ ih =>
    obtain ⟨unturned, kept⟩ : e.call.turns? feature ≠ some (!on) ∧ turns feature (!on) t = 0 := by
      simpa [turns, List.countP_cons, and_comm] using kept
    refine ih kept ?_
    rw [answers.turned_eq]
    cases way : e.call.turns? feature with
    | none => simpa [turns, List.countP_cons, way] using turned
    | some b =>
      rw [way] at unturned
      left
      cases b <;> cases on <;> simp_all

/-- A change of public access that works turns on what is not on, and nothing off but public access. -/
theorem Switching.turns_le {changed : Bool} (h : Switching db wanted t (.ok changed)) :
    turns feature true t ≤ if wanted && !db.features.isActive feature then 1 else 0 := by
  have ne := Features.forceSsl_ne_publiclyAvailable
  generalize eq : Except.ok changed = res at h
  cases h with
  | kept => exact Nat.zero_le _
  | hidden => simp [turns, ProviderCall.turns?]
  | unforced | unexposed | unhidden => cases eq
  | exposed off forcing =>
    by_cases same : feature = Features.publiclyAvailable
    · subst same
      cases forcing with
      | standing => simp [turns, ProviderCall.turns?, off]
      | enabled unforced => simp [turns, ProviderCall.turns?, off, ne]
    · cases forcing with
      | standing => simp [turns, ProviderCall.turns?, Ne.symm same]
      | enabled unforced =>
        by_cases forced : feature = Features.forceSsl
        · subst forced
          simp [turns, ProviderCall.turns?, unforced, Ne.symm ne]
        · simp [turns, ProviderCall.turns?, Ne.symm same, Ne.symm forced]

theorem Switching.turns_eq {changed : Bool} (h : Switching db wanted t (.ok changed)) :
    turns feature false t =
      if feature = Features.publiclyAvailable ∧ wanted = false ∧ db.features.isActive feature = true
      then 1 else 0 := by
  generalize eq : Except.ok changed = res at h
  cases h with
  | kept =>
    rw [if_neg]
    · rfl
    · rintro ⟨rfl, off, on⟩
      exact absurd (on.symm.trans off) (by decide)
  | unforced | unexposed | unhidden => cases eq
  | exposed off forcing =>
    rw [if_neg (by simp)]
    cases forcing with
    | standing | enabled => simp [turns, ProviderCall.turns?]
  | hidden on =>
    by_cases same : feature = Features.publiclyAvailable
    · subst same
      simp [turns, ProviderCall.turns?, on]
    · simp [turns, ProviderCall.turns?, Ne.symm same, same]

/-- What an update asks for that succeeds, by what it has seen. -/
structure Turning (id : String) (wanted : Bool) (seen : Database) (p : List (Exchange provider)) :
    Prop where
  reads : ∃ rest, p = ⟨.getDatabase id, .ok seen⟩ :: rest ∧ ∀ e ∈ rest, ¬ e.Lags
  on : ∀ f, turns f true p ≤ if wanted && !seen.features.isActive f then 1 else 0
  off : ∀ f, turns f false p =
    if f = Features.publiclyAvailable ∧ wanted = false ∧ seen.features.isActive f = true then 1 else 0

theorem turning_of_update {outcome : UpdateOutcome} (h : (update id desired).run.Runs p (.ok outcome)) :
    ∃ seen, Turning id (desired.features.isActive Features.publiclyAvailable) seen p := by
  rcases accessing_of_update h with ⟨_, e, error⟩ | ⟨seen, rules, rest, rfl, accessing⟩
  · cases error
  have single := accessing.guarded.single
  generalize eq : Except.ok outcome = res at accessing
  cases accessing with
  | stopped => cases eq
  | @passed t u changed _ switching tunes =>
    have silent (f : String) (on : Bool) : turns f on (⟨.getDatabase id, .ok seen⟩ ::
        ⟨.listFirewallRules seen.id seen.addonId, .ok rules⟩ :: (t ++ u)) = turns f on t := by
      have tuned : turns f on u = 0 := turns_of_tunes tunes
      change turns f on (t ++ u) = _
      rw [turns_append, tuned, Nat.add_zero]
    refine ⟨seen, ⟨_, rfl, fun e mem lags => ?_⟩, fun f => ?_, fun f => ?_⟩
    · obtain ⟨i, read⟩ := lags.eq_getDatabase
      rcases List.mem_cons.mp mem with rfl | mem
      · cases read
      · exact single e mem i read
    · rw [silent]
      exact switching.turns_le
    · rw [silent]
      exact switching.turns_eq

section Run

variable (updates : ∀ t ∈ ts, ∃ seen, Turning id wanted seen t)

include updates

/-- While public access is wanted a feature is turned on at most once, as it shows from then on. -/
theorem turns_on_le (shown : wanted = true) (sound : s.Sound) (h : s.Turns ts.flatten s') :
    turns feature true ts.flatten ≤ 1 ∧
      (s.turned feature = some true → turns feature true ts.flatten = 0) := by
  induction ts generalizing s with
  | nil => exact ⟨Nat.zero_le 1, fun _ => rfl⟩
  | cons t ts ih =>
    obtain ⟨seen, ⟨rest, rfl, _⟩, on, off⟩ := updates t List.mem_cons_self
    rw [List.flatten_cons] at h ⊢
    obtain ⟨s₁, now, later⟩ := h.of_append
    have unturned := off feature
    rw [if_neg (by simp [shown])] at unturned
    obtain ⟨once, none⟩ := ih (fun t mem => updates t (.tail _ mem)) (sound.run now) later
    have first := on feature
    rw [turns_append]
    constructor
    · rcases Nat.eq_zero_or_pos (turns feature true (⟨.getDatabase id, .ok seen⟩ :: rest))
        with zero | pos
      · omega
      · have further := none (turned_of_turns now unturned (.inr pos))
        split at first <;> omega
    · intro turned
      have shows := (sound.of_read now).on feature turned
      rw [if_neg (by simp [shows])] at first
      have further := none (turned_of_turns now unturned (.inl turned))
      omega

/-- Once public access was turned off, it is turned off again whenever it still shows as underway. -/
theorem turns_off_eq_zero_iff (hidden : wanted = false) (sound : s.Sound)
    (off : s.turned Features.publiclyAvailable = some false) (h : s.Turns ts.flatten s') :
    turns Features.publiclyAvailable false ts.flatten = 0 ↔ ∀ e ∈ ts.flatten, ¬ e.Lags := by
  induction ts generalizing s with
  | nil => exact ⟨fun _ _ none => absurd none List.not_mem_nil, fun _ => rfl⟩
  | cons t ts ih =>
    obtain ⟨seen, ⟨rest, rfl, unread⟩, unshown, turned⟩ := updates t List.mem_cons_self
    rw [List.flatten_cons] at h ⊢
    obtain ⟨s₁, now, later⟩ := h.of_append
    have kept := unshown Features.publiclyAvailable
    rw [if_neg (by simp [hidden])] at kept
    have further := ih (fun t mem => updates t (.tail _ mem)) (sound.run now)
      (turned_of_turns now (Nat.le_zero.mp kept) (.inl off)) later
    have first := turned Features.publiclyAvailable
    rw [turns_append]
    rcases (sound.of_read now).off _ off with pending | gone
    · rw [if_pos ⟨rfl, hidden, Features.isActive_iff.mpr (.inr pending)⟩] at first
      refine iff_of_false (by omega) fun prompt => ?_
      exact prompt _ List.mem_cons_self pending
    · rw [if_neg (by simp [Features.isActive, gone])] at first
      rw [first, Nat.zero_add, further]
      constructor
      · intro prompt e mem
        rcases List.mem_append.mp mem with early | late
        · rcases List.mem_cons.mp early with rfl | early
          · intro lags
            have pending : seen.features.get? Features.publiclyAvailable = some .pending := lags
            exact Option.some_ne_none _ (pending.symm.trans gone)
          · exact unread e early
        · exact prompt e late
      · exact fun prompt e mem => prompt e (List.mem_append_right _ mem)

end Run

/-- No reading after public access was turned off reports that this is still underway. -/
def Prompt (p : List (Exchange provider)) : Prop :=
  p.Pairwise fun e x => e.call.turns? Features.publiclyAvailable = some false → ¬ x.Lags

theorem prompt_of_unread (h : ∀ e ∈ p, ¬ e.Lags) : Prompt p :=
  List.pairwise_iff_getElem.mpr fun _ _ _ later _ _ => h _ (List.getElem_mem later)

theorem prompt_append_iff : Prompt (t ++ u) ↔ Prompt t ∧ Prompt u ∧
    (0 < turns Features.publiclyAvailable false t → ∀ x ∈ u, ¬ x.Lags) := by
  refine List.pairwise_append.trans (and_congr_right fun _ => and_congr_right fun _ => ?_)
  rw [turns_pos_iff]
  exact ⟨fun h ⟨e, mem, turned⟩ x later => h e mem x later turned,
    fun h e mem x later turned => h ⟨e, mem, turned⟩ x later⟩

/-- An update reads before it turns anything. -/
theorem Turning.prompt (h : Turning id wanted seen p) : Prompt p := by
  obtain ⟨rest, rfl, unread⟩ := h.reads
  exact List.pairwise_cons.mpr ⟨fun _ _ => nofun, prompt_of_unread unread⟩

/-- Public access is turned off once exactly when it shows as gone from then on. -/
theorem turns_off_le_iff (updates : ∀ t ∈ ts, ∃ seen, Turning id wanted seen t) (sound : s.Sound)
    (h : s.Turns ts.flatten s') :
    turns Features.publiclyAvailable false ts.flatten ≤ 1 ↔ Prompt ts.flatten := by
  induction ts generalizing s with
  | nil => exact iff_of_true (Nat.zero_le 1) List.Pairwise.nil
  | cons t ts ih =>
    obtain ⟨seen, turning⟩ := updates t List.mem_cons_self
    have later_updates : ∀ t ∈ ts, ∃ seen, Turning id wanted seen t :=
      fun t mem => updates t (.tail _ mem)
    rw [List.flatten_cons] at h ⊢
    obtain ⟨s₁, now, later⟩ := h.of_append
    have first := turning.off Features.publiclyAvailable
    rw [turns_append, prompt_append_iff, and_iff_right turning.prompt]
    split at first
    next due =>
      have unshown := turning.on Features.publiclyAvailable
      rw [if_neg (by simp [due.2.1])] at unshown
      have off : s₁.turned Features.publiclyAvailable = some false :=
        turned_of_turns now (Nat.le_zero.mp unshown) (.inr (by omega))
      have further := turns_off_eq_zero_iff later_updates due.2.1 (sound.run now) off later
      rw [first, ← further]
      constructor
      · intro once
        have silent : turns Features.publiclyAvailable false ts.flatten = 0 := by omega
        exact ⟨prompt_of_unread (further.mp silent), fun _ => silent⟩
      · rintro ⟨_, silent⟩
        have none := silent Nat.one_pos
        omega
    next =>
      rw [first, Nat.zero_add, ih later_updates (sound.run now) later]
      exact ⟨fun prompt => ⟨prompt, nofun⟩, And.left⟩

end Manager

/-- Updates in which nothing fails turn each feature on at most once, and nothing off but public access.
They turn that off once exactly when no later reading reports the change as still underway. -/
theorem Switchboard.turned_once_iff {id : String} {desired : Database} {s s' : Switchboard}
    {ts : List (List (Exchange provider))} (sound : s.Sound)
    (updates : ∀ t ∈ ts, ∃ outcome, (Manager.update id desired).run.Runs t (.ok outcome))
    (turns : s.Turns ts.flatten s') :
    (∀ f, Manager.turns f true ts.flatten ≤ 1) ∧
      (∀ f, f ≠ Features.publiclyAvailable → Manager.turns f false ts.flatten = 0) ∧
      (Manager.turns Features.publiclyAvailable false ts.flatten ≤ 1 ↔ Manager.Prompt ts.flatten) := by
  have turning : ∀ t ∈ ts, ∃ seen, Manager.Turning id
      (desired.features.isActive Features.publiclyAvailable) seen t := by
    intro t mem
    obtain ⟨outcome, update⟩ := updates t mem
    exact Manager.turning_of_update update
  refine ⟨fun f => ?_, fun f other => ?_, Manager.turns_off_le_iff turning sound turns⟩
  · cases wanted : desired.features.isActive Features.publiclyAvailable with
    | true => exact (Manager.turns_on_le turning wanted sound turns).1
    | false =>
      refine Nat.le_trans (Nat.le_of_eq (Manager.turns_flatten_eq_zero fun t mem => ?_)) (Nat.zero_le 1)
      obtain ⟨seen, turned⟩ := turning t mem
      have bound := turned.on f
      rw [if_neg (by simp [wanted])] at bound
      exact Nat.le_zero.mp bound
  · refine Manager.turns_flatten_eq_zero fun t mem => ?_
    obtain ⟨seen, turned⟩ := turning t mem
    rw [turned.off, if_neg (fun due => other due.1)]

namespace Manager

/-- An update that turns public access off. -/
def concealing (db : Database) : List (Exchange provider) :=
  [⟨.getDatabase db.id, .ok db⟩, ⟨.listFirewallRules db.id db.addonId, .ok db.firewallRules⟩,
    ⟨.disableFeature db Features.publiclyAvailable, .ok .pending⟩]

theorem runs_concealing {db desired : Database} (named : db.id ≠ "") (addressed : db.addonId ≠ "")
    (shown : db.features.isActive Features.publiclyAvailable = true)
    (unwanted : desired.features.isActive Features.publiclyAvailable = false)
    (plan : db.plan = desired.plan) (ruled : db.firewallRules = desired.firewallRules) :
    (update db.id desired).run.Runs (concealing db) (.ok .updated) := by
  have read := runs_get db.firewallRules named addressed
  refine Task.runs_bind_of_ok (Task.runs_inPhase_iff.mpr ⟨_, read, rfl⟩) ?_
  have switched : (updateInternetAccess db false).run.Runs
      [⟨.disableFeature db Features.publiclyAvailable, .ok .pending⟩] (.ok true) := by
    unfold updateInternetAccess
    simp only [shown]
    exact Task.runs_bind_of_single (ProviderTask.runs_call_iff.mpr ⟨_, rfl, rfl⟩)
      (Task.runs_pure_iff.mpr ⟨rfl, rfl⟩)
  simp only [unwanted]
  refine Task.runs_bind_of_single (Task.runs_inPhase_iff.mpr ⟨_, switched, rfl⟩) ?_
  have kept : updateFirewallRules db desired.firewallRules = pure false := by
    rw [updateFirewallRules, ruled, diffRules_eq_nil fun _ => Iff.rfl]
  have planned : updatePlan db desired = pure false := if_pos plan
  rw [kept, planned]
  exact Task.runs_pure_iff.mpr ⟨rfl, rfl⟩

end Manager

/-- Features of a hidden database. -/
def hiddenFeatures : Features :=
  Dictionary.empty.insert Features.forceSsl .activated

/-- The same database, with public access. -/
def shownFeatures : Features :=
  hiddenFeatures.insert Features.publiclyAvailable .activated

/-- A running database of which nothing matters but its features. -/
def featured (features : Features) : Database :=
  { Database.blank with id := "db-1", addonId := "addon-1", features := features }

theorem named_featured (features : Features) : (featured features).id ≠ "" :=
  show "db-1" ≠ "" by decide

theorem addressed_featured (features : Features) : (featured features).addonId ≠ "" :=
  show "addon-1" ≠ "" by decide

theorem runs_concealing_featured {features : Features}
    (shown : features.isActive Features.publiclyAvailable = true) :
    (Manager.update "db-1" .blank).run.Runs (Manager.concealing (featured features)) (.ok .updated) :=
  Manager.runs_concealing (named_featured features) (addressed_featured features) shown rfl rfl rfl

/-- The provider reports from then on that public access is about to go. -/
theorem Switchboard.turns_concealing (s : Switchboard) :
    s.Turns (Manager.concealing (featured s.reported))
      (s.turn Features.publiclyAvailable false .pending) :=
  .call (.read rfl) (.call (.other _ nofun nofun) (.call .disabled (.rest _)))

/-- The provider settles the change before the next update, and that has nothing left to do. -/
theorem Switchboard.turned_once_iff_settled :
    ∃ (ts : List (List (Exchange provider))) (s' : Switchboard), (start shownFeatures).Sound ∧
      (∀ t ∈ ts, ∃ outcome, (Manager.update "db-1" .blank).run.Runs t (.ok outcome)) ∧
      (start shownFeatures).Turns ts.flatten s' ∧
      (∀ f, Manager.turns f true ts.flatten ≤ 1) ∧
      (∀ f, f ≠ Features.publiclyAvailable → Manager.turns f false ts.flatten = 0) ∧
      (Manager.turns Features.publiclyAvailable false ts.flatten ≤ 1 ↔ Manager.Prompt ts.flatten) ∧
      Manager.turns Features.publiclyAvailable false ts.flatten = 1 := by
  have settles : ((start shownFeatures).turn Features.publiclyAvailable false .pending).Settles
      hiddenFeatures := by
    intro f
    by_cases same : f = Features.publiclyAvailable
    · subst same
      exact .inr (.inr ⟨by simp [turn], by decide⟩)
    · refine .inl ?_
      rw [turn, Dictionary.get?_insert_of_ne same, start, shownFeatures,
        Dictionary.get?_insert_of_ne same]
  have turns : (start shownFeatures).Turns [Manager.concealing (featured shownFeatures),
      [⟨.getDatabase "db-1", .ok (featured hiddenFeatures)⟩,
        ⟨.listFirewallRules "db-1" "addon-1", .ok []⟩]].flatten _ :=
    (start shownFeatures).turns_concealing.append
      (.settle settles (.call (.read rfl) (.call (.other _ nofun nofun) (.rest _))))
  have updates : ∀ t ∈ [Manager.concealing (featured shownFeatures),
      [⟨.getDatabase "db-1", .ok (featured hiddenFeatures)⟩,
        ⟨.listFirewallRules "db-1" "addon-1", .ok []⟩]],
      ∃ outcome, (Manager.update "db-1" .blank).run.Runs t (.ok outcome) := by
    intro t mem
    simp only [List.mem_cons, List.not_mem_nil, or_false] at mem
    rcases mem with rfl | rfl
    · exact ⟨_, runs_concealing_featured (Manager.isActive_insert rfl)⟩
    · refine ⟨_, Manager.runs_update_of_kept (Manager.runs_get [] (named_featured hiddenFeatures)
        (addressed_featured hiddenFeatures)) rfl (by decide) fun _ => Iff.rfl⟩
  obtain ⟨on, others, off⟩ := turned_once_iff (sound_start shownFeatures) updates turns
  exact ⟨_, _, sound_start shownFeatures, updates, turns, on, others, off, by decide⟩

/-- While the provider reports that public access is about to go, every update turns it off again. -/
theorem not_always_turned_once : ¬ ∀ (id : String) (desired : Database) (features : Features)
    (ts : List (List (Exchange provider))) (s' : Switchboard),
    (∀ t ∈ ts, ∃ outcome, (Manager.update id desired).run.Runs t (.ok outcome)) →
    (Switchboard.start features).Turns ts.flatten s' →
    (∀ f, Manager.turns f true ts.flatten ≤ 1) ∧ ∀ f, Manager.turns f false ts.flatten ≤ 1 := by
  intro always
  let s := Switchboard.start shownFeatures
  let s' := s.turn Features.publiclyAvailable false .pending
  have turns := s.turns_concealing.append (s'.turns_concealing.append (.rest _))
  have updates : ∀ t ∈ [Manager.concealing (featured s.reported),
      Manager.concealing (featured s'.reported)],
      ∃ outcome, (Manager.update "db-1" .blank).run.Runs t (.ok outcome) := by
    intro t mem
    simp only [List.mem_cons, List.not_mem_nil, or_false] at mem
    rcases mem with rfl | rfl
    · exact ⟨_, runs_concealing_featured (Manager.isActive_insert rfl)⟩
    · exact ⟨_, runs_concealing_featured (Manager.isActive_insert rfl)⟩
  have once := (always "db-1" .blank shownFeatures _ _ updates turns).2 Features.publiclyAvailable
  exact absurd once (by decide)

end DatabaseOperator
