import TypeSurface.Metadata.Lineage

/-!
# Chains of bases

The chain of a type is the type and then the chain of its base (`lineage_eq_cons`), as long as the
chain of the base does not come back to the token of the type. A token that a walk never meets does
not steer it (`basesFrom_of_unmet`).
-/

set_option autoImplicit false

namespace TypeSurface.Metadata.Graph

variable {graph : Graph} {seen : List Token} {key base : Nat}

theorem nextBase?_eq_some_iff :
    graph.nextBase? seen key = some base ↔
      graph.base? key = some base ∧ (graph.token base).isDefinition = true ∧
        graph.token base ∉ seen := by
  simp [nextBase?, Option.filter_eq_some_iff]

theorem basesFrom_of_none (h : graph.nextBase? seen key = none) :
    graph.basesFrom seen key = [] := by
  rw [basesFrom]
  split
  · rfl
  · rename_i next hnext
    rw [h] at hnext
    exact absurd hnext (by simp)

/-- A walk takes the next base and goes on from there. -/
theorem basesFrom_of_some (h : graph.nextBase? seen key = some base) :
    graph.basesFrom seen key = base :: graph.basesFrom (graph.token base :: seen) base := by
  rw [basesFrom]
  split
  · rename_i hnone
    rw [h] at hnone
    exact absurd hnone (by simp)
  · rename_i next hnext
    obtain rfl : base = next := Option.some.inj (h.symm.trans hnext)
    rfl

/-- A token that a walk never meets makes no difference to it when it counts as seen from the start.
-/
theorem basesFrom_of_unmet {unmet : Token} {outer : List Token}
    (houter : ∀ token, token ∈ outer ↔ token = unmet ∨ token ∈ seen)
    (hunmet : unmet ∉ (graph.basesFrom seen key).map graph.token) :
    graph.basesFrom outer key = graph.basesFrom seen key := by
  induction seen, key using Graph.basesFrom.induct graph generalizing outer with
  | case1 seen key hnone =>
      rw [basesFrom_of_none hnone]
      apply basesFrom_of_none
      -- The walk that has seen more cannot go on where the other one stops.
      rw [Option.eq_none_iff_forall_ne_some] at hnone ⊢
      intro next hnext
      obtain ⟨hbase, hdefined, hnew⟩ := nextBase?_eq_some_iff.1 hnext
      rw [houter, not_or] at hnew
      exact hnone next (nextBase?_eq_some_iff.2 ⟨hbase, hdefined, hnew.2⟩)
  | case2 seen key next hnext ih =>
      obtain ⟨hbase, hdefined, hnew⟩ := nextBase?_eq_some_iff.1 hnext
      rw [basesFrom_of_some hnext] at hunmet ⊢
      rw [List.map_cons, List.mem_cons, not_or] at hunmet
      obtain ⟨hne, hrest⟩ := hunmet
      -- The token of the next base is new to both walks, since it is not the one never met.
      have houterNext : graph.nextBase? outer key = some next := by
        refine nextBase?_eq_some_iff.2 ⟨hbase, hdefined, ?_⟩
        rw [houter, not_or]
        exact ⟨Ne.symm hne, hnew⟩
      rw [basesFrom_of_some houterNext]
      refine congrArg (next :: ·) (ih ?_ hrest)
      intro token
      rw [List.mem_cons, List.mem_cons, houter]
      exact or_left_comm

/-- The chain of a type is the type and then the chain of its base, unless the latter comes back to
the token of the type. -/
theorem lineage_eq_cons {own : Nat} (hbase : graph.base? own = some base)
    (hdefined : (graph.token base).isDefinition = true)
    (hacyclic : graph.token own ∉ (graph.lineage base).map graph.token) :
    graph.lineage own = own :: graph.lineage base := by
  rw [lineage, List.map_cons, List.mem_cons, not_or] at hacyclic
  obtain ⟨hne, hrest⟩ := hacyclic
  have hnext : graph.nextBase? [graph.token own] own = some base := by
    refine nextBase?_eq_some_iff.2 ⟨hbase, hdefined, ?_⟩
    rw [List.mem_singleton]
    exact Ne.symm hne
  have hwalk : graph.basesFrom (graph.token base :: [graph.token own]) base
      = graph.basesFrom [graph.token base] base := by
    refine basesFrom_of_unmet (fun token => ?_) hrest
    rw [List.mem_cons, List.mem_singleton, List.mem_singleton]
    exact Or.comm
  rw [lineage, basesFrom_of_some hnext, hwalk, lineage]

end TypeSurface.Metadata.Graph
