import TypeSurface.Metadata.Lineage

/-!
# Interfaces of a type

Every interface a type implements: those its levels declare, from the type to its most distant base,
then those that interfaces already found extend. Each token appears once, at its first place. An
interface that is found makes its token seen, so cycles of interfaces end.
-/

set_option autoImplicit false

namespace TypeSurface.Metadata.Graph

/-- The types whose tokens are neither seen nor met earlier in the list. -/
def firstSeen (graph : Graph) (seen : List Token) : List Nat → List Nat
  | [] => []
  | key :: rest =>
      if seen.contains (graph.token key) then graph.firstSeen seen rest
      else key :: graph.firstSeen (graph.token key :: seen) rest

/-- All that is found for the first time was looked at, and its token was not seen. -/
theorem mem_of_mem_firstSeen {graph : Graph} {seen : List Token} {keys : List Nat} {key : Nat}
    (h : key ∈ graph.firstSeen seen keys) : key ∈ keys ∧ graph.token key ∉ seen := by
  induction keys generalizing seen with
  | nil => simp [firstSeen] at h
  | cons first rest ih =>
      unfold firstSeen at h
      split at h
      · exact ⟨List.mem_cons_of_mem _ (ih h).1, (ih h).2⟩
      · rename_i hfirst
        rcases List.mem_cons.1 h with rfl | hrest
        · exact ⟨List.mem_cons_self, by simpa using hfirst⟩
        · exact ⟨List.mem_cons_of_mem _ (ih hrest).1,
            fun hseen => (ih hrest).2 (List.mem_cons_of_mem _ hseen)⟩

/-- Lists found interfaces and then those they extend. The tokens of all found ones are seen. -/
def closeInterfaces (graph : Graph) (seen : List Token) : List Nat → List Nat
  | [] => []
  | key :: rest =>
      let new := graph.firstSeen seen (graph.declaredInterfaces key)
      key :: graph.closeInterfaces (new.map graph.token ++ seen) (rest ++ new)
termination_by found => (graph.unseen seen, found.length)
decreasing_by
  cases hnew : graph.firstSeen seen (graph.declaredInterfaces key) with
  | nil =>
      simp only [List.map_nil, List.nil_append, List.append_nil]
      exact Prod.Lex.right _ (by simp)
  | cons first others =>
      have hmem := mem_of_mem_firstSeen (hnew ▸ List.mem_cons_self : first ∈ _)
      have hlive : graph.isLive first = true := (List.mem_filter.1 hmem.1).2
      exact Prod.Lex.left _ _ (unseen_append_lt (row_mem_of_isLive hlive)
        (List.mem_map.2 ⟨first, List.mem_cons_self, rfl⟩) hmem.2)

/-- Every interface of a type, in the order in which it is found. -/
def interfaces (graph : Graph) (key : Nat) : List Nat :=
  let declared := graph.firstSeen [] ((graph.lineage key).flatMap graph.declaredInterfaces)
  graph.closeInterfaces (declared.map graph.token) declared

theorem interfaces_eq_nil {graph : Graph} {key : Nat}
    (h : (graph.lineage key).flatMap graph.declaredInterfaces = []) : graph.interfaces key = [] := by
  rw [interfaces, h]
  simp [firstSeen, closeInterfaces]

end TypeSurface.Metadata.Graph
