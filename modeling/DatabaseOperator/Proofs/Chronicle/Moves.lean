import DatabaseOperator.Proofs.Chronicle
import DatabaseOperator.Proofs.Pass.Writes

namespace DatabaseOperator

namespace Chronicle

variable {s s' s'' : Chronicle} {r : Resource} {t : List (Exchange pass)}

/-- Versions are added by changes of the operator and of others. -/
inductive Moves : Chronicle → Chronicle → Prop
  | rest (s : Chronicle) : Moves s s
  | edit {s s' : Chronicle} {old new : Resource} (v : Option String) (unused : s.Unused v) :
      s.current = some old → old.Edit new → Moves (s.put new v unused) s' → Moves s s'
  | change {s s' : Chronicle} {old new : Resource} (v : Option String) (unused : s.Unused v) :
      s.current = some old → old.Change new → Moves (s.put new v unused) s' → Moves s s'

theorem Moves.trans (h : Moves s s') (g : Moves s' s'') : Moves s s'' := by
  induction h with
  | rest => exact g
  | edit v unused stored edit _ ih => exact .edit v unused stored edit (ih g)
  | change v unused stored change _ ih => exact .change v unused stored change (ih g)

theorem Evolves.moves_of_edits (h : Evolves s [] s') : Moves s s' := by
  generalize ht : [] = t at h
  induction h with
  | rest => exact .rest _
  | edit v unused stored edit _ ih => exact .edit v unused stored edit (ih ht)
  | exchange => cases ht

/-- After a write a pass goes on from what it was told is stored, and stops when it was told nothing. -/
theorem Evolves.moves_after {w : Resource} {v : Option String} {a : Except StoreError Resource}
    (tells : Tells a (w.renumbered v)) (after : Evolves s t s')
    (stop : ∀ e, a = .error e → t = []) (further : a = .ok (w.renumbered v) → Moves s s') :
    Moves s s' := by
  cases a with
  | error e =>
    obtain rfl := stop e rfl
    exact after.moves_of_edits
  | ok stored => exact further (by rw [tells stored rfl])

/-- A write that takes effect is the change that the pass had in mind, since the stored version is the
one that it saw. -/
theorem Evolves.moves (h : Evolves s t s') (known : r ∈ s.versions) (allowed : Pass.Allowed r t) :
    Moves s s' := by
  induction h generalizing r with
  | rest => exact .rest _
  | edit v unused stored edit _ ih =>
    exact .edit v unused stored edit (ih (List.mem_cons_of_mem _ known) allowed)
  | exchange serves after ih =>
    cases allowed with
    | other a silent rest =>
      cases serves with
      | got | failed | updated | statusUpdated => exact absurd rfl (silent _)
      | other => exact ih known rest
    | @update r w t a change status further stop =>
      cases serves with
      | failed c e =>
        obtain rfl := stop e rfl
        exact after.moves_of_edits
      | @updated old _ _ v unused current same tells =>
        obtain rfl : old = r :=
          eq_of_number (mem_of_current current) known (same.trans change.number.symm)
        have merged : { old with metadata := w.metadata, spec := w.spec } = w := by
          rw [← status]
        simp only [merged] at tells after ih
        exact .change v unused current change (after.moves_after tells stop
          fun told => ih List.mem_cons_self (further v told))
      | other _ other => exact absurd rfl (other _)
    | @updateStatus r w t a change metadata spec further stop =>
      cases serves with
      | failed c e =>
        obtain rfl := stop e rfl
        exact after.moves_of_edits
      | @statusUpdated old _ _ v unused current same tells =>
        obtain rfl : old = r :=
          eq_of_number (mem_of_current current) known (same.trans change.number.symm)
        have merged : { old with status := w.status } = w := by
          rw [← metadata, ← spec]
        simp only [merged] at tells after ih
        exact .change v unused current change (after.moves_after tells stop
          fun told => ih List.mem_cons_self (further v told))
      | other _ other => exact absurd rfl (other _)

/-- Later versions take nothing back that earlier ones say. -/
def Forward (s : Chronicle) : Prop :=
  s.versions.Pairwise fun newer older => older.Precedes newer

theorem forward_start (r : Resource) : (start r).Forward :=
  List.pairwise_singleton _ r

theorem Forward.precedes (h : s.Forward) (current : s.current = some r) :
    ∀ x ∈ s.versions, x.Precedes r := by
  obtain ⟨rest, versions⟩ := List.head?_eq_some_iff.mp (s.newest r current)
  intro x hx
  unfold Forward at h
  rw [versions] at h hx
  rcases List.mem_cons.mp hx with rfl | earlier
  · exact .refl x
  · exact List.rel_of_pairwise_cons h earlier

theorem Forward.put {new : Resource} {v : Option String} (h : s.Forward)
    (current : s.current = some r) (precedes : r.Precedes new) (unused : s.Unused v) :
    (s.put new v unused).Forward :=
  List.pairwise_cons.mpr
    ⟨fun x hx => ((h.precedes current x hx).trans precedes).renumbered v, h⟩

theorem Moves.forward (h : Moves s s') (forward : s.Forward) : s'.Forward := by
  induction h with
  | rest => exact forward
  | edit v unused stored edit _ ih => exact ih (forward.put stored edit.precedes unused)
  | change v unused stored change _ ih => exact ih (forward.put stored change.precedes unused)

theorem Moves.tracked (h : Moves s s') (tracked : ∀ r ∈ s.versions, r.Tracked) :
    ∀ r ∈ s'.versions, r.Tracked := by
  induction h with
  | rest => exact tracked
  | edit v unused stored edit _ ih =>
    exact ih (List.forall_mem_cons.mpr
      ⟨(edit.tracked (tracked _ (mem_of_current stored))).renumbered v, tracked⟩)
  | change v unused stored change _ ih =>
    exact ih (List.forall_mem_cons.mpr
      ⟨(change.tracked (tracked _ (mem_of_current stored))).renumbered v, tracked⟩)

theorem Moves.subset (h : Moves s s') : s.versions ⊆ s'.versions := by
  induction h with
  | rest => exact fun _ => id
  | edit _ _ _ _ _ ih | change _ _ _ _ _ ih => exact fun _ mem => ih (List.mem_cons_of_mem _ mem)

/-- As long as nobody asks for the deletion, the finalizer stays, and so does the resource. -/
theorem Moves.guarded (h : Moves s s') (current : s.current = some r)
    (guarded : r.hasFinalizer = true) (wanted : ∀ v ∈ s'.versions, v.isDeletionRequested = false) :
    ∃ r', s'.current = some r' ∧ r'.hasFinalizer = true := by
  induction h generalizing r with
  | rest => exact ⟨r, current, guarded⟩
  | @edit s s' old new v unused stored edit _ ih =>
    obtain rfl : r = old := Option.some.inj (current.symm.trans stored)
    have guarded' : new.hasFinalizer = true := edit.finalizer.trans guarded
    exact ih (s.current_put_of_guarded guarded') guarded' wanted
  | @change s s' old new v unused stored change moves ih =>
    obtain rfl : r = old := Option.some.inj (current.symm.trans stored)
    have present : r ∈ s'.versions :=
      moves.subset (List.mem_cons_of_mem _ (mem_of_current current))
    have guarded' : new.hasFinalizer = true := change.guarded (wanted r present) guarded
    exact ih (s.current_put_of_guarded guarded') guarded' wanted

end Chronicle

end DatabaseOperator
