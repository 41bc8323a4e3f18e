import TypeSurface.Member
import TypeSurface.Metadata.Hiding
import TypeSurface.Metadata.Level
import TypeSurface.Metadata.Scope

/-!
# Listing members

The public fields, properties and methods of a chain of levels. Inherited static members are left out.
Fields never hide each other, properties hide by name, and methods hide by name, result and parameter
types. A field or property whose signature cannot be read is listed without a type; a method whose
signature cannot be read ends the listing.
-/

set_option autoImplicit false

namespace TypeSurface.Metadata

variable {κ ν : Type}

/-- A member type: a handle, or nothing for a type that is not known. -/
abbrev MemberType (κ : Type) : Type := Option (Handle κ)

/-! ## Fields -/

/-- The field is listed. -/
def FieldDecl.isListed (origin : Origin) (field : FieldDecl) : Bool :=
  field.isPublic && !(origin == .inherited && field.isStatic)

/-- The scope of a level's own members, methods left out of account. -/
def Level.scope (resolve : Token → Option (Handle κ)) (level : Level) : Scope κ :=
  ⟨resolve, level.genericParameters, []⟩

/-- The listed fields of one level. -/
def Level.listedFields (resolve : Token → Option (Handle κ)) (origin : Origin) (level : Level) :
    List (Member.Field (MemberType κ)) :=
  (level.fields.filter (·.isListed origin)).map fun field =>
    ⟨field.name, (level.scope resolve).interpretOrNone field.signature⟩

/-- The public fields of a chain. -/
def listFields (resolve : Token → Option (Handle κ)) (levels : List Level) :
    List (Member.Field (MemberType κ)) :=
  (eachLevel (Level.listedFields resolve) levels).flatten

/-! ## Properties -/

/-- The property can be listed: some accessor is public, and an inherited one has an accessor of an
instance. -/
def PropertyDecl.isEligible (origin : Origin) (property : PropertyDecl) : Bool :=
  property.accessors.any (·.isPublic)
    && !(origin == .inherited && property.accessors.all (·.isStatic))

/-- The eligible properties of one level. -/
def Level.eligibleProperties (resolve : Token → Option (Handle κ)) (origin : Origin)
    (level : Level) : List (Member.Property (MemberType κ)) :=
  (level.properties.filter (·.isEligible origin)).map fun property =>
    ⟨property.name, (level.scope resolve).interpretOrNone property.signature,
      property.getter.isSome, property.setter.isSome⟩

/-- The public properties of a chain. -/
def listProperties (resolve : Token → Option (Handle κ)) (levels : List Level) :
    List (Member.Property (MemberType κ)) :=
  mostDerived (·.name) (eachLevel (Level.eligibleProperties resolve) levels)

/-! ## Methods -/

/-- The method can be listed: public, no constructor, and not static if inherited. -/
def MethodDecl.isEligible (origin : Origin) (method : MethodDecl) : Bool :=
  method.isPublic && !method.isConstructor && !(origin == .inherited && method.isStatic)

/-- The scope of a method's signature. -/
def Level.methodScope (resolve : Token → Option (Handle κ)) (level : Level)
    (method : MethodDecl) : Scope κ :=
  ⟨resolve, level.genericParameters, method.genericParameters⟩

/-- Reads a parameter; one that is passed by reference says so in its type. -/
def ParameterDecl.read (scope : Scope κ) (parameter : ParameterDecl) :
    Except Fault (Member.Parameter (MemberType κ)) := do
  let type ← scope.interpret parameter.signature
  return ⟨parameter.name, if parameter.byReference then type.map .byReference else type,
    parameter.hasDefault⟩

/-- Reads a method: its result, then its parameters from left to right. -/
def MethodDecl.read (scope : Scope κ) (method : MethodDecl) :
    Except Fault (Member.Method (MemberType κ)) := do
  let result ← scope.interpret method.result
  let parameters ← method.parameters.mapM (·.read scope)
  return ⟨method.name, result, parameters⟩

/-- The eligible methods of one level, or the fault of the first that cannot be read. -/
def Level.eligibleMethods (resolve : Token → Option (Handle κ)) (origin : Origin)
    (level : Level) : Except Fault (List (Member.Method (MemberType κ))) :=
  (level.methods.filter (·.isEligible origin)).mapM fun method =>
    method.read (level.methodScope resolve method)

/-- What an override shares with the method it overrides. -/
structure MethodKey (ν : Type) where
  name : String
  result : ν
  parameters : List ν
deriving DecidableEq, Repr

/-- The key of a method whose types are compared by their spelling. -/
def methodKey (spell : MemberType κ → ν) (method : Member.Method (MemberType κ)) : MethodKey ν :=
  ⟨method.name, spell method.result, method.parameters.map fun parameter => spell parameter.type⟩

/-- The public methods of a chain, or the fault of the first eligible one that cannot be read, even
if it would be hidden. Keys are made by a total function, so this listing always ends: `listFrom` is
the one that spells on its way, and `Graph.SpellsKeys` says where spelling has an end. -/
def listMethods [DecidableEq ν] (spell : MemberType κ → ν) (resolve : Token → Option (Handle κ))
    (levels : List Level) : Except Fault (List (Member.Method (MemberType κ))) := do
  let eligible ← (eachLevel (Level.eligibleMethods resolve) levels).mapM id
  return mostDerived (methodKey spell) eligible

end TypeSurface.Metadata
