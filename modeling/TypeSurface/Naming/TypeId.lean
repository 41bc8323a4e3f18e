/-!
# Type identities

What tells one type of a binary from another: an optional namespace and a simple name, both as the
binary spells them.
-/

set_option autoImplicit false

namespace TypeSurface

/-- The namespace, absent for the global one, and the simple name of a type. -/
structure TypeId where
  ns : Option String
  name : String
deriving DecidableEq, Repr, Inhabited

namespace TypeId

/-- The namespace as a text, empty for the global one. -/
def nsText (id : TypeId) : String := id.ns.getD ""

/-- The identity in the same namespace whose name carries a suffix. -/
def suffixed (id : TypeId) (suffix : String) : TypeId := { id with name := id.name ++ suffix }

end TypeId

end TypeSurface
