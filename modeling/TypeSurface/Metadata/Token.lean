/-!
# Metadata tokens

A token is a word whose highest byte names a table and whose other bytes count a row of it.
-/

set_option autoImplicit false

namespace TypeSurface.Metadata

/-- The number of a row in a table of a binary. -/
structure Token where
  value : UInt32
deriving DecidableEq, Repr, Inhabited

namespace Token

/-- The table a token points into. -/
def table (token : Token) : UInt32 := token.value >>> 24

/-- The token points to a type that its own binary defines. -/
def isDefinition (token : Token) : Bool := token.table == 0x02

end Token

end TypeSurface.Metadata
