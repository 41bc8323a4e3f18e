import TypeSurface.Text.Lowercase

/-!
# Packages

The output dialect places every namespace under one root package and writes it in small letters.
-/

set_option autoImplicit false

namespace TypeSurface.Naming

/-- The package that holds all others. -/
def rootPackage : String := "cs"

/-- The package of a namespace: the root package itself for the empty namespace. -/
def packagePath (ns : String) : String :=
  if ns = "" then rootPackage else rootPackage ++ "." ++ Text.lowercase ns

@[simp] theorem packagePath_empty : packagePath "" = "cs" := rfl

end TypeSurface.Naming
