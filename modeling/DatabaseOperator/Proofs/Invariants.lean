import DatabaseOperator.Proofs.Launch

namespace DatabaseOperator

/-- From a fresh resource on, every stored version is coherent, and none takes back what an earlier one
says. -/
theorem versions_coherent {delay : Nat} {namespaceName name : String} {r : Resource}
    {s : Chronicle} {ps : List (PassRun delay namespaceName name)} (fresh : r.Fresh)
    (h : History delay namespaceName name (.start r) ps s) :
    (∀ v ∈ s.versions, v.Coherent) ∧
      s.versions.Pairwise fun newer older => older.Precedes newer := by
  have tracked := h.moves.tracked (by
    intro v hv
    obtain rfl := List.mem_singleton.mp hv
    exact fresh.tracked)
  exact ⟨fun v hv => (tracked v hv).coherent, h.moves.forward (Chronicle.forward_start r)⟩

theorem versions_coherent_sample :
    ∃ (ps : List (PassRun 30000 "prod" "db")) (s : Chronicle), sample.Fresh ∧
      History 30000 "prod" "db" (.start sample) ps s ∧ ps.length ≥ 1 ∧
      (∀ v ∈ s.versions, v.Coherent) ∧
      s.versions.Pairwise fun newer older => older.Precedes newer := by
  obtain ⟨wanted, creatable⟩ := creatable_sample
  obtain ⟨ps, p, s, r', h, _⟩ := History.exists_launched 30000 "prod" "db"
    { Database.blank with id := "db-1" } fresh_sample rfl creatable (by decide)
  exact ⟨ps ++ [p], s, fresh_sample, h, by simp, versions_coherent fresh_sample h⟩

end DatabaseOperator
