import TypeSurface.Metadata.Token

/-!
# Type signatures

The trees by which a binary writes the types of its members. Custom modifiers are no part of the
trees: they change neither the identity of a type nor its handle.
-/

set_option autoImplicit false

namespace TypeSurface.Metadata

/-- A type that signatures name without a token. -/
inductive BuiltIn where
  | void | boolean | char
  | int8 | uint8 | int16 | uint16 | int32 | uint32 | int64 | uint64
  | float32 | float64
  | intPtr | uintPtr
  | string | object | typedReference
deriving DecidableEq, Repr

namespace BuiltIn

/-- The simple name of a built-in type in the `System` namespace. -/
def systemName : BuiltIn → String
  | .void => "Void"
  | .boolean => "Boolean"
  | .char => "Char"
  | .int8 => "SByte"
  | .uint8 => "Byte"
  | .int16 => "Int16"
  | .uint16 => "UInt16"
  | .int32 => "Int32"
  | .uint32 => "UInt32"
  | .int64 => "Int64"
  | .uint64 => "UInt64"
  | .float32 => "Single"
  | .float64 => "Double"
  | .intPtr => "IntPtr"
  | .uintPtr => "UIntPtr"
  | .string => "String"
  | .object => "Object"
  | .typedReference => "TypedReference"

end BuiltIn

/-- An element of a signature that stands for no type of its own. -/
inductive Unnamed where
  | unknown | internal | modifier | sentinel | type | boxed | reserved | field
  | requiredModifiers (tokens : List Token)
  | optionalModifiers (tokens : List Token)
deriving DecidableEq, Repr

/-- The signature of a type. -/
inductive Signature where
  /-- A built-in type. -/
  | builtIn (type : BuiltIn)
  /-- A class behind a token. -/
  | classType (token : Token)
  /-- A value type behind a token. -/
  | valueType (token : Token)
  /-- A generic parameter of the declaring type. -/
  | typeParameter (index : Nat)
  /-- A generic parameter of the declaring method. -/
  | methodParameter (index : Nat)
  /-- An array of one dimension that starts at zero. -/
  | vector (element : Signature)
  /-- An array of a given number of dimensions. -/
  | array (element : Signature) (rank : Nat)
  /-- An unmanaged pointer. -/
  | pointer (target : Signature)
  /-- A managed reference. -/
  | byReference (target : Signature)
  /-- A local that the collector does not move. -/
  | pinned (target : Signature)
  /-- A generic type with its arguments. -/
  | instantiation (base : Signature) (arguments : List Signature)
  /-- A pointer to a method: its result, then its parameters, each with its by-reference mark. -/
  | functionPointer (result : Bool × Signature) (parameters : List (Bool × Signature))
  /-- An element without a type. -/
  | unnamed (element : Unnamed)
deriving Repr, Inhabited

end TypeSurface.Metadata
