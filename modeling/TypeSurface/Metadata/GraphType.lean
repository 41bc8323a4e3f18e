import TypeSurface.Metadata.View
import TypeSurface.Source.Basic

/-!
# Types of graphs

A key together with the graph it counts in: a type that can be looked up and described, whichever
binary holds it.
-/

set_option autoImplicit false

namespace TypeSurface.Metadata

/-- A type of a graph. -/
structure GraphType where
  graph : Graph
  key : Nat

namespace GraphType

/-- The handle of a type. -/
def handle (type : GraphType) : Handle Nat := type.graph.handle type.key

end GraphType

/-- The types behind the keys that resolve, in the order of the keys. -/
def Graph.typesAt (graph : Graph) (keys : List Nat) : List GraphType :=
  (keys.filter graph.isLive).map (GraphType.mk graph)

instance : Viewable GraphType where
  id := fun type => type.handle.id
  view := fun type => type.graph.view type.handle
  id_view := fun type => type.graph.id_view type.handle

end TypeSurface.Metadata
