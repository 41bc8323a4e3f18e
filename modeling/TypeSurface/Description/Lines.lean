import TypeSurface.Description.Basic
import TypeSurface.Naming.Arity
import TypeSurface.Naming.Package

/-!
# Lines of a description

A description is handed over as lines: four lines of identity, then five blocks, each announced by
the number of its entries. An interface and a generic parameter take one line each, a field two, a
property four; a method takes two lines and a block of parameters of three lines each. Texts stand in
their lines as they are.
-/

set_option autoImplicit false

namespace TypeSurface.Description

variable {α : Type}

/-- The line of a truth value. -/
def flagLine (value : Bool) : String := if value then "true" else "false"

/-- The line that announces a number of entries. -/
def countLine (number : Nat) : String := number.repr

/-- A counted block: the number of entries, then the lines of each. -/
def block (entry : α → List String) (entries : List α) : List String :=
  countLine entries.length :: entries.flatMap entry

/-- A field takes two lines. -/
def fieldLines (field : Member.Field String) : List String := [field.name, field.type]

/-- A property takes four lines. -/
def propertyLines (property : Member.Property String) : List String :=
  [property.name, property.type, flagLine property.canRead, flagLine property.canWrite]

/-- A parameter takes three lines. -/
def parameterLines (parameter : Member.Parameter String) : List String :=
  [parameter.name, parameter.type, flagLine parameter.hasDefault]

/-- A method takes two lines and the block of its parameters. -/
def methodLines (method : Member.Method String) : List String :=
  method.name :: method.result :: block parameterLines method.parameters

/-- The lines of a description, in order. -/
def lines (description : Description) : List String :=
  [Naming.flattenArity description.name, flagLine description.isInterface,
    Naming.packagePath description.ns, description.baseType]
  ++ block (fun interface => [interface]) description.interfaces
  ++ block (fun parameter => [parameter]) description.genericParameters
  ++ block fieldLines description.fields
  ++ block propertyLines description.properties
  ++ block methodLines description.methods

-- A class with neither a base nor members: four lines of identity and five empty blocks.
example : (Description.mk "" "Root" false "" [] [] [] [] []).lines
    = ["Root", "false", "cs", "", "0", "0", "0", "0", "0"] := by
  decide +kernel

end TypeSurface.Description
