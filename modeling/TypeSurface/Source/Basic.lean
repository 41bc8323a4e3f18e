import TypeSurface.TypePath
import TypeSurface.TypeView

/-!
# Sources of types

A source loads binaries by path and shows the types of all it has loaded, in a fixed order. Looking a
type up means scanning the visible types for the first one that a path names.
-/

set_option autoImplicit false

namespace TypeSurface

/-- Types that can be asked about: each has an identity and a view that keeps it. -/
class Viewable (η : Type) where
  id : η → TypeId
  view : η → TypeView
  id_view : ∀ type, (view type).id = id type

/-- A source of types. Loading leaves the source as it is when it fails. -/
class TypeSource (σ : Type) (η : outParam Type) [Viewable η] where
  load : σ → String → Except Fault σ
  visible : σ → List η

variable {σ η : Type} [Viewable η]

namespace TypePath

/-- The first of some types that the path names. -/
def findIn? (path : TypePath) (types : List η) : Option η :=
  types.find? fun type => path.names (Viewable.id type)

/-- The description of the first of some types that a dotted path names, if there is one. -/
def describeIn (path : String) (types : List η) : Except Fault (Option Description) :=
  match (parse path).findIn? types with
  | some type => (Viewable.view type).describe.map some
  | none => .ok none

end TypePath

end TypeSurface
