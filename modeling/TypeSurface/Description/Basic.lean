import TypeSurface.Member

/-!
# Descriptions

The finished description of one type. Every type it mentions is already spelled in the output
dialect; the type's own namespace and name are kept as its binary spells them.
-/

set_option autoImplicit false

namespace TypeSurface

/-- The public surface of one class or interface. -/
structure Description where
  ns : String
  name : String
  isInterface : Bool
  baseType : String
  interfaces : List String
  genericParameters : List String
  fields : List (Member.Field String)
  properties : List (Member.Property String)
  methods : List (Member.Method String)
deriving DecidableEq, Repr

end TypeSurface
