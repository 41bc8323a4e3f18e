import TypeSurface.Metadata.Graph

/-!
# Hierarchies

The chain from a type through its bases. The walk follows a base while it resolves, is defined by the
binary itself, and has a token that the chain does not hold yet. The tokens that are not seen yet grow
fewer with every step, so the walk ends on every graph, cycles of bases included.
-/

set_option autoImplicit false

namespace TypeSurface.Metadata.Graph

/-- The next type of a chain that holds the tokens seen. -/
def nextBase? (graph : Graph) (seen : List Token) (key : Nat) : Option Nat :=
  (graph.base? key).filter fun base =>
    (graph.token base).isDefinition && !seen.contains (graph.token base)

theorem unseen_lt_of_nextBase? {graph : Graph} {seen : List Token} {key base : Nat}
    (h : graph.nextBase? seen key = some base) :
    graph.unseen (graph.token base :: seen) < graph.unseen seen := by
  obtain ⟨hbase, hnew⟩ := Option.filter_eq_some_iff.1 h
  have hlive := (Option.filter_eq_some_iff.1 hbase).2
  have hseen : graph.token base ∉ seen := by simp_all
  have hnew : graph.token base ∈ [graph.token base] := List.mem_singleton.2 rfl
  exact unseen_append_lt (row_mem_of_isLive hlive) hnew hseen

/-- The bases that follow a type in a chain that holds the tokens seen. -/
def basesFrom (graph : Graph) (seen : List Token) (key : Nat) : List Nat :=
  match _h : graph.nextBase? seen key with
  | none => []
  | some base => base :: graph.basesFrom (graph.token base :: seen) base
termination_by graph.unseen seen
decreasing_by exact unseen_lt_of_nextBase? _h

/-- A type and all its bases, the nearest first. -/
def lineage (graph : Graph) (key : Nat) : List Nat :=
  key :: graph.basesFrom [graph.token key] key

end TypeSurface.Metadata.Graph
