import TypeSurface.Naming.TypeId

/-!
# Aliased built-in types

Four types of the `System` namespace have names of their own in the output dialect. The namespace is
recognised whatever its ASCII case, the simple name only as spelled. `ofId?_runtimeName` says that
every alias is found, and `runtimeName_of_ofId?` that nothing else is.
-/

set_option autoImplicit false

namespace TypeSurface

/-- A built-in type with a name of its own in the output dialect. -/
inductive Alias where
  | void
  | int
  | float
  | bool
deriving DecidableEq, Repr

namespace Alias

/-- All aliases. -/
def all : List Alias := [.void, .int, .float, .bool]

/-- The simple name the runtime gives the type. -/
def runtimeName : Alias → String
  | .void => "Void"
  | .int => "Int32"
  | .float => "Double"
  | .bool => "Boolean"

/-- The name of the type in the output dialect. -/
def text : Alias → String
  | .void => "Void"
  | .int => "Int"
  | .float => "Float"
  | .bool => "Bool"

/-- The namespace of the built-in types, whatever its ASCII case. -/
def isSystem (ns : String) : Bool :=
  ns.toList.map Char.toLower == ['s', 'y', 's', 't', 'e', 'm']

/-- The alias of a type, if it has one. -/
def ofId? (id : TypeId) : Option Alias :=
  match id.ns with
  | some ns => if isSystem ns then all.find? (·.runtimeName == id.name) else none
  | none => none

/-- Every alias is found under the name the runtime gives it. -/
theorem ofId?_runtimeName (short : Alias) : ofId? ⟨some "System", short.runtimeName⟩ = some short := by
  cases short <;> decide +kernel

/-- An alias is found only for its own name in the built-in namespace. -/
theorem runtimeName_of_ofId? {id : TypeId} {short : Alias} (h : ofId? id = some short) :
    short.runtimeName = id.name ∧ ∃ ns, id.ns = some ns ∧ isSystem ns = true := by
  unfold ofId? at h
  split at h
  · rename_i ns hns
    split at h
    · rename_i hsystem
      exact ⟨by simpa using List.find?_some h, ns, hns, hsystem⟩
    · simp at h
  · simp at h

end Alias

end TypeSurface
