import TypeSurface.Naming.TypeId

/-!
# Handles

A handle is what a signature or a registered type stands for: a definition behind a key, a type known
by name only, a generic parameter or an array. Its identity is computed from its parts, so an array is
found in the namespace of its element.
-/

set_option autoImplicit false

namespace TypeSurface.Metadata

/-- A type that metadata mentions; `κ` holds the keys of definitions. -/
inductive Handle (κ : Type) where
  | definition (id : TypeId) (key : κ)
  | named (id : TypeId) (arguments : List (Handle κ))
  | parameter (name : String)
  | array (element : Handle κ)
deriving Repr

namespace Handle

variable {κ : Type}

instance : Inhabited (Handle κ) := ⟨.parameter ""⟩

/-- The identity of a handle. A generic parameter lies in no namespace. -/
def id : Handle κ → TypeId
  | .definition id _ => id
  | .named id _ => id
  | .parameter name => ⟨none, name⟩
  | .array element => element.id.suffixed "[]"

/-- A type of the `System` namespace. -/
def system (name : String) : Handle κ := .named ⟨some "System", name⟩ []

/-- The same identity with a suffix at its name. Arguments are dropped. -/
def suffixed (handle : Handle κ) (suffix : String) : Handle κ :=
  .named (handle.id.suffixed suffix) []

/-- A handle behind a managed reference. -/
def byReference (handle : Handle κ) : Handle κ := handle.suffixed "&"

/-- A handle behind an unmanaged pointer. -/
def pointer (handle : Handle κ) : Handle κ := handle.suffixed "*"

@[simp] theorem id_suffixed (handle : Handle κ) (suffix : String) :
    (handle.suffixed suffix).id = handle.id.suffixed suffix := rfl

end Handle

end TypeSurface.Metadata
