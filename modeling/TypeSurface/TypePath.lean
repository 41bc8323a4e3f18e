import TypeSurface.Naming.Arity
import TypeSurface.Naming.TypeId
import TypeSurface.Text.Lowercase

/-!
# Type paths

A dotted path names a type: its last segment is the simple name with the arity already flattened, and
all before the last dot is the namespace, whose case does not count.
-/

set_option autoImplicit false

namespace TypeSurface

/-- A namespace in small letters, empty for the global one, and a flattened simple name. -/
structure TypePath where
  ns : String
  name : String
deriving DecidableEq, Repr

namespace TypePath

/-- Reads a dotted path. A path without dots names a type of the global namespace. -/
def parse (path : String) : TypePath :=
  match Text.splitLast '.' path.toList with
  | some (ns, name) => ⟨String.ofList (Text.lowercaseChars ns), String.ofList name⟩
  | none => ⟨"", path⟩

/-- The path under which a type is found. -/
def ofId (id : TypeId) : TypePath :=
  ⟨Text.lowercase id.nsText, Naming.flattenArity id.name⟩

/-- The path names the type. -/
def names (path : TypePath) (id : TypeId) : Bool := decide (ofId id = path)

end TypePath

end TypeSurface
