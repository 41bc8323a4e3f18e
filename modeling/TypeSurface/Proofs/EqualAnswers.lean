import TypeSurface.Proofs.Agreement
import TypeSurface.Proofs.EndlessArguments

/-!
# Graphs with the same answers

All that a graph answers about a type comes from the chains, interfaces and references of its rows and
from the members that they declare. Graphs that agree and declare the same members (`DeclaresAlike`)
give the same answers about every handle, faults included (`DeclaresAlike.view`).
-/

set_option autoImplicit false

namespace TypeSurface.Metadata.Graph

namespace Agrees

variable {graph other : Graph}

theorem argumentsOf (h : Agrees graph other) : other.argumentsOf = graph.argumentsOf := by
  funext handle
  cases handle with
  | definition id key => rw [Graph.argumentsOf, Graph.argumentsOf, h.arguments, funext h.handle]
  | named id arguments => rfl
  | parameter name => rfl
  | array element => rfl

/-- The recursion that spells a handle comes to the same text, or goes on in the same way. -/
theorem spellWithin (h : Agrees graph other) (depth : Nat) (handle : Handle Nat) :
    other.spellWithin depth handle = graph.spellWithin depth handle := by
  induction depth generalizing handle with
  | zero => rfl
  | succ depth ih =>
      cases handle with
      | parameter name => rfl
      | array element => rw [Graph.spellWithin, Graph.spellWithin, ih]
      | definition id key | named id arguments =>
          simp only [Graph.spellWithin, h.argumentsOf, funext ih]

theorem reference (h : Agrees graph other) : other.reference = graph.reference := by
  funext handle
  rw [Graph.reference, Graph.reference, h.reference?]

theorem memberReference (h : Agrees graph other) :
    other.memberReference = graph.memberReference := by
  funext type
  cases type with
  | none => rfl
  | some handle => rw [Graph.memberReference, Graph.memberReference, h.reference]

theorem viewField (h : Agrees graph other) : other.viewField = graph.viewField := by
  funext field
  rw [Graph.viewField, Graph.viewField, h.memberReference]

theorem viewProperty (h : Agrees graph other) : other.viewProperty = graph.viewProperty := by
  funext property
  rw [Graph.viewProperty, Graph.viewProperty, h.memberReference]

theorem viewMethod (h : Agrees graph other) : other.viewMethod = graph.viewMethod := by
  have hparameter : other.viewParameter = graph.viewParameter := by
    funext parameter
    rw [Graph.viewParameter, Graph.viewParameter, h.memberReference]
  funext method
  rw [Graph.viewMethod, Graph.viewMethod, h.memberReference, hparameter]

end Agrees

/-- Another graph agrees, and its rows are the same kinds of types with the same members. -/
structure DeclaresAlike (graph other : Graph) : Prop extends Agrees graph other where
  isInterface : ∀ key, (other.row key).flags.isInterface = (graph.row key).flags.isInterface
  level : ∀ key, (other.row key).level = (graph.row key).level

/-- Methods of which the same are dropped, and which are declared alike one by one, are the same
members. -/
theorem map_decl_eq_of_forall₂ {methods others : List MethodRow}
    (h : List.Forall₂ (fun method other =>
      other.dropped = method.dropped ∧ other.decl = method.decl) methods others) :
    (others.filter (!·.dropped)).map (·.decl) = (methods.filter (!·.dropped)).map (·.decl) := by
  induction h with
  | nil => rfl
  | cons hmethod _ ih =>
      rw [List.filter_cons, List.filter_cons, hmethod.1]
      split
      · rw [List.map_cons, List.map_cons, hmethod.2, ih]
      · exact ih

theorem declaresAlike_of_outline_eq {graph other : Graph}
    (hsize : other.rows.size = graph.rows.size)
    (houtline : ∀ key, (other.row key).outline = (graph.row key).outline)
    (hlevel : ∀ key, (other.row key).level = (graph.row key).level) : DeclaresAlike graph other where
  toAgrees := agrees_of_outline_eq hsize houtline
  isInterface key :=
    Row.read_eq_of_outline_eq (houtline key) (fun row => row.flags.isInterface) fun _ => rfl
  level := hlevel

namespace DeclaresAlike

variable {graph other : Graph}

theorem levels (h : DeclaresAlike graph other) (key : Nat) : other.levels key = graph.levels key := by
  rw [Graph.levels, Graph.levels, h.lineage, funext h.level]

theorem fields (h : DeclaresAlike graph other) (key : Nat) : other.fields key = graph.fields key := by
  rw [Graph.fields, Graph.fields, h.resolve, h.levels]

theorem properties (h : DeclaresAlike graph other) (key : Nat) :
    other.properties key = graph.properties key := by
  rw [Graph.properties, Graph.properties, h.resolve, h.levels]

theorem methods (h : DeclaresAlike graph other) (key : Nat) :
    other.methods key = graph.methods key := by
  rw [Graph.methods, Graph.methods, h.spelling?, h.resolve, h.levels]

/-- Every question about a handle has the same answer. -/
theorem view (h : DeclaresAlike graph other) : other.view = graph.view := by
  funext handle
  cases handle with
  | definition id key =>
      have hparameters : genericParameterNames (other.row key).genericParameters
          = genericParameterNames (graph.row key).genericParameters :=
        congrArg Level.genericParameters (h.level key)
      rw [Graph.view, Graph.view, h.isInterface, h.base?, funext h.handle, h.memberReference,
        h.interfaces, h.reference, hparameters, h.fields, h.viewField, h.properties,
        h.viewProperty, h.methods, h.viewMethod]
  | named id arguments => rfl
  | parameter name => rfl
  | array element => rfl

end DeclaresAlike

end TypeSurface.Metadata.Graph
