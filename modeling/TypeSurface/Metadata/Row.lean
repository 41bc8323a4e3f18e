import TypeSurface.Metadata.Flags
import TypeSurface.Metadata.Level
import TypeSurface.Naming.TypeId

/-!
# Rows

What a binary's tables say about one type. References between types count rows of the graph that
holds them. `Row.level` reads from a row all that listing its members needs: names of generic
parameters stand in the order of their numbers, and the rows that annotate parameters give each of
them its name and its default value, never a parameter of its own.
-/

set_option autoImplicit false

namespace TypeSurface.Metadata

/-- A generic parameter: its number and its name. -/
structure GenericParameterRow where
  number : Nat
  name : String
deriving DecidableEq, Repr

/-- Names of generic parameters by number; rows of one number keep their order. -/
def genericParameterNames (rows : List GenericParameterRow) : List String :=
  (rows.mergeSort fun a b => decide (a.number ≤ b.number)).map (·.name)

/-- A field. -/
structure FieldRow where
  name : String
  flags : Flags
  signature : Signature
deriving Repr

/-- A reference to the method that reads or writes a property. -/
structure AccessorRow where
  flags : Flags
  dropped : Bool
deriving DecidableEq, Repr

/-- A property with references to its accessors. -/
structure PropertyRow where
  name : String
  signature : Signature
  getter : Option AccessorRow
  setter : Option AccessorRow
deriving Repr

/-- A result or parameter of a method signature. -/
structure SignatureParameter where
  signature : Signature
  byReference : Bool
deriving Repr

/-- An annotation of a parameter: the sequence number zero stands for the result, the parameters
count from one. -/
structure ParameterRow where
  sequence : Nat
  name : Option String
  flags : Flags
  constant : Bool
deriving DecidableEq, Repr

/-- A method with the annotations of its parameters. -/
structure MethodRow where
  name : String
  flags : Flags
  result : SignatureParameter
  parameters : List SignatureParameter
  genericParameters : List GenericParameterRow
  annotations : List ParameterRow
  dropped : Bool
deriving Repr

/-- A type. A dropped one is no longer there for those that refer to it, and one that is not
registered is not found by its token. -/
structure Row where
  token : Token
  ns : String
  name : String
  flags : Flags
  isGenericParameter : Bool
  base : Option Nat
  interfaces : List Nat
  instantiations : List (List Nat)
  genericParameters : List GenericParameterRow
  fields : List FieldRow
  properties : List PropertyRow
  methods : List MethodRow
  dropped : Bool
  registered : Bool
deriving Repr

/-! ## Members of a row -/

/-- A field as declared. -/
def FieldRow.decl (row : FieldRow) : FieldDecl :=
  ⟨row.name, row.flags.isPublic, row.flags.isStatic, row.signature⟩

/-- An accessor that is still there. -/
def AccessorRow.accessor? (row : AccessorRow) : Option Accessor :=
  if row.dropped then none else some ⟨row.flags.isPublic, row.flags.isStatic⟩

/-- A property as declared, with the accessors that are still there. -/
def PropertyRow.decl (row : PropertyRow) : PropertyDecl :=
  ⟨row.name, row.signature, row.getter.bind (·.accessor?), row.setter.bind (·.accessor?)⟩

namespace ParameterRow

/-- The annotation says that there is a default value. -/
def hasDefault (row : ParameterRow) : Bool := row.flags.hasDefault || row.constant

/-- There is a default value where a bit declares one or a constant is attached. -/
theorem hasDefault_iff {row : ParameterRow} :
    row.hasDefault = true ↔ row.flags &&& 0x1000 = 0x1000 ∨ row.constant = true := by
  rw [hasDefault, Bool.or_eq_true, Flags.hasDefault_iff]

end ParameterRow

/-- A parameter as declared, with the first annotation that counts it. -/
def SignatureParameter.decl (annotations : List ParameterRow) (parameter : SignatureParameter)
    (index : Nat) : ParameterDecl :=
  let found := annotations.find? fun row => row.sequence == index + 1
  { name := (found.bind (·.name)).getD ""
    signature := parameter.signature
    byReference := parameter.byReference
    hasDefault := (found.map (·.hasDefault)).getD false }

/-- A method as declared. Whether the result is passed by reference is not read. There is no fault for a
parameter whose number does not fit 32 bits: a signature counts fewer than `2 ^ 29` of them. -/
def MethodRow.decl (row : MethodRow) : MethodDecl where
  name := row.name
  isPublic := row.flags.isPublic
  isStatic := row.flags.isStatic
  genericParameters := genericParameterNames row.genericParameters
  result := row.result.signature
  parameters := row.parameters.mapIdx fun index parameter => parameter.decl row.annotations index

namespace Row

/-- The row that stands for a missing one: nothing refers to it. -/
def missing : Row :=
  ⟨default, "", "", 0, false, none, [], [], [], [], [], [], true, false⟩

/-- The identity of a type; the empty namespace is the global one. -/
def id (row : Row) : TypeId := ⟨if row.ns = "" then none else some row.ns, row.name⟩

/-- The members a type declares. -/
def level (row : Row) : Level where
  genericParameters := genericParameterNames row.genericParameters
  fields := row.fields.map (·.decl)
  properties := row.properties.map (·.decl)
  methods := (row.methods.filter (!·.dropped)).map (·.decl)

end Row

end TypeSurface.Metadata
