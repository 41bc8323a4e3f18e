import TypeSurface.Source.Basic

/-!
# Catalogs

A source whose types are given as views: some are visible from the start, others come with binaries
that are looked up by their exact paths. A binary can refuse to load.
-/

set_option autoImplicit false

namespace TypeSurface

/-- A view is its own type. -/
instance : Viewable TypeView where
  id := TypeView.id
  view := fun view => view
  id_view := fun _ => rfl

/-- A binary under its path: the views of its types, or the reason why it cannot be loaded. -/
structure CatalogBinary where
  path : String
  content : Except String (List TypeView)

/-- The binaries there are, and the types visible so far. -/
structure Catalog where
  binaries : List CatalogBinary
  visible : List TypeView

namespace Catalog

/-- The types a path stands for. -/
def content (catalog : Catalog) (path : String) : Except LoadFault (List TypeView) :=
  match catalog.binaries.find? (·.path == path) with
  | some binary => binary.content.mapError .refused
  | none => .error .absent

/-- Makes the types of a binary visible after those that already are. -/
def load (catalog : Catalog) (path : String) : Except Fault Catalog :=
  match catalog.content path with
  | .ok types => .ok { catalog with visible := catalog.visible ++ types }
  | .error cause => .error (.load path cause)

end Catalog

instance : TypeSource Catalog TypeView where
  load := Catalog.load
  visible := Catalog.visible

end TypeSurface
