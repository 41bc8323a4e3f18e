import TypeSurface.Metadata.Signature

/-!
# Levels of a lineage

A level holds what one type of a base chain declares, as far as listing its members depends on it. The
chain is listed from the type itself to its most distant base, so members of the first level are
declared and all others inherited.
-/

set_option autoImplicit false

namespace TypeSurface.Metadata

/-- Visibility of the getter or setter of a property. -/
structure Accessor where
  isPublic : Bool
  isStatic : Bool
deriving DecidableEq, Repr

/-- A field as declared. -/
structure FieldDecl where
  name : String
  isPublic : Bool
  isStatic : Bool
  signature : Signature
deriving Repr

/-- A property as declared, with the accessors it has. -/
structure PropertyDecl where
  name : String
  signature : Signature
  getter : Option Accessor
  setter : Option Accessor
deriving Repr

namespace PropertyDecl

/-- The accessors of a property. -/
def accessors (property : PropertyDecl) : List Accessor :=
  property.getter.toList ++ property.setter.toList

end PropertyDecl

/-- A parameter as declared. -/
structure ParameterDecl where
  name : String
  signature : Signature
  byReference : Bool
  hasDefault : Bool
deriving Repr

/-- A method as declared. -/
structure MethodDecl where
  name : String
  isPublic : Bool
  isStatic : Bool
  genericParameters : List String
  result : Signature
  parameters : List ParameterDecl
deriving Repr

namespace MethodDecl

/-- Constructors are known by their names. -/
def isConstructor (method : MethodDecl) : Bool :=
  method.name == ".ctor" || method.name == ".cctor"

end MethodDecl

/-- The members one type declares, in order, and the names of its generic parameters. -/
structure Level where
  genericParameters : List String
  fields : List FieldDecl
  properties : List PropertyDecl
  methods : List MethodDecl
deriving Repr

/-- How a listed type comes by a member. -/
inductive Origin where
  | declared
  | inherited
deriving DecidableEq, Repr

/-- Applies a rule to every level of a chain: the first one declares, the others are inherited. -/
def eachLevel {α β : Type} (rule : Origin → α → β) : List α → List β
  | [] => []
  | own :: bases => rule .declared own :: bases.map (rule .inherited)

end TypeSurface.Metadata
