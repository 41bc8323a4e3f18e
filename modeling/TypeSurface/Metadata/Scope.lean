import TypeSurface.Fault
import TypeSurface.Metadata.Handle
import TypeSurface.Metadata.Signature

/-!
# Interpretation of signatures

A scope turns signatures into handles. Tokens go through its resolver, and indices of generic
parameters count the names that the declaring type and method give. An interpretation has three
outcomes: a handle, nothing for a signature that stands for no known type, and a fault. A part without
a type leaves the whole without one, unless an earlier part is at fault. Signatures nest at most fifty
deep, whatever stands at the bottom.
-/

set_option autoImplicit false

namespace TypeSurface.Metadata

/-- The depth at which signatures are given up. -/
def nestingLimit : Nat := 50

/-- What tokens and indices of generic parameters stand for. -/
structure Scope (κ : Type) where
  resolve : Token → Option (Handle κ)
  typeParameters : List String
  methodParameters : List String

namespace Scope

variable {κ : Type}

/-- The generic parameter names an index counts. -/
def parametersOf (scope : Scope κ) : ParameterOwner → List String
  | .type => scope.typeParameters
  | .method => scope.methodParameters

/-- The generic parameter behind an index. -/
def parameter (scope : Scope κ) (owner : ParameterOwner) (index : Nat) :
    Except Fault (Option (Handle κ)) :=
  match (scope.parametersOf owner)[index]? with
  | some name => .ok (some (.parameter name))
  | none => .error (.parameterOutOfRange owner index (scope.parametersOf owner).length)

mutual

/-- Interprets a signature that lies at a depth. -/
def interpretAt (scope : Scope κ) (depth : Nat) (signature : Signature) :
    Except Fault (Option (Handle κ)) :=
  if nestingLimit ≤ depth then .error (.nestingLimit nestingLimit)
  else
    match signature with
    | .builtIn type => .ok (some (.system type.systemName))
    | .classType token => .ok (scope.resolve token)
    | .valueType token => .ok (scope.resolve token)
    | .typeParameter index => scope.parameter .type index
    | .methodParameter index => scope.parameter .method index
    | .vector element => (scope.interpretAt (depth + 1) element).map (·.map .array)
    | .array element _ => (scope.interpretAt (depth + 1) element).map (·.map .array)
    | .pointer target => (scope.interpretAt (depth + 1) target).map (·.map .pointer)
    | .byReference target => (scope.interpretAt (depth + 1) target).map (·.map .byReference)
    | .pinned target => scope.interpretAt (depth + 1) target
    | .instantiation base arguments =>
        match scope.interpretAt (depth + 1) base with
        | .error fault => .error fault
        | .ok none => .ok none
        | .ok (some base) =>
            (scope.interpretAllAt (depth + 1) arguments).map (·.map (.named base.id))
    | .functionPointer _ _ => .ok none
    | .unnamed _ => .ok none

/-- Interprets signatures that lie side by side, up to the first without a handle. -/
def interpretAllAt (scope : Scope κ) (depth : Nat) :
    List Signature → Except Fault (Option (List (Handle κ)))
  | [] => .ok (some [])
  | signature :: rest =>
      match scope.interpretAt depth signature with
      | .error fault => .error fault
      | .ok none => .ok none
      | .ok (some handle) => (scope.interpretAllAt depth rest).map (·.map (handle :: ·))

end

/-- Interprets a signature. -/
def interpret (scope : Scope κ) (signature : Signature) : Except Fault (Option (Handle κ)) :=
  scope.interpretAt 0 signature

/-- Interprets a signature; one that cannot be read stands for no known type. -/
def interpretOrNone (scope : Scope κ) (signature : Signature) : Option (Handle κ) :=
  match scope.interpret signature with
  | .ok handle => handle
  | .error _ => none

end Scope

end TypeSurface.Metadata
