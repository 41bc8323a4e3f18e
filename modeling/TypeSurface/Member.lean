/-!
# Members

The fields, properties and methods of a type. The way a member mentions types is a parameter: a
reader of metadata lists members over handles, a view holds them over references, and a finished
description over spellings. `map` goes from one to the next and touches nothing else.
-/

set_option autoImplicit false

namespace TypeSurface.Member

variable {α β : Type}

/-- A public field. -/
structure Field (α : Type) where
  name : String
  type : α
deriving DecidableEq, Repr

/-- A public property; reading and writing say which accessors there are. -/
structure Property (α : Type) where
  name : String
  type : α
  canRead : Bool
  canWrite : Bool
deriving DecidableEq, Repr

/-- A parameter of a method; of a default value only its presence is kept. -/
structure Parameter (α : Type) where
  name : String
  type : α
  hasDefault : Bool
deriving DecidableEq, Repr

/-- A public method with its parameters in order. -/
structure Method (α : Type) where
  name : String
  result : α
  parameters : List (Parameter α)
deriving DecidableEq, Repr

/-- Replaces the type of a field. -/
def Field.map (f : α → β) (field : Field α) : Field β := ⟨field.name, f field.type⟩

/-- Replaces the type of a property. -/
def Property.map (f : α → β) (property : Property α) : Property β :=
  ⟨property.name, f property.type, property.canRead, property.canWrite⟩

/-- Replaces the type of a parameter. -/
def Parameter.map (f : α → β) (parameter : Parameter α) : Parameter β :=
  ⟨parameter.name, f parameter.type, parameter.hasDefault⟩

/-- Replaces every type of a method. -/
def Method.map (f : α → β) (method : Method α) : Method β :=
  ⟨method.name, f method.result, method.parameters.map (·.map f)⟩

end TypeSurface.Member
