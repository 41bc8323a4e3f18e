import TypeSurface.Naming.TypeId

/-!
# Faults

The causes that end a run or an answer, and the one place that words them. A missing type path and a
type that no binary holds are answers, not faults.
-/

set_option autoImplicit false

namespace TypeSurface

/-- Whose generic parameters an index counts. -/
inductive ParameterOwner where
  | type
  | method
deriving DecidableEq, Repr

namespace ParameterOwner

/-- The marks in front of the index in a message. -/
def marks : ParameterOwner → String
  | .type => "!"
  | .method => "!!"

end ParameterOwner

/-- Why a binary is not loaded. -/
inductive LoadFault where
  | absent
  | refused (reason : String)
deriving DecidableEq, Repr

namespace LoadFault

/-- The wording of a cause. -/
def message : LoadFault → String
  | .absent => "no such binary"
  | .refused reason => reason

end LoadFault

/-- Why lines are not delivered. -/
inductive DeliveryFault where
  | full
  | stalled
  | unflushed
  | other (reason : String)
deriving DecidableEq, Repr

namespace DeliveryFault

/-- The wording of a cause. -/
def message : DeliveryFault → String
  | .full => "disk full"
  | .stalled => "failed to write whole buffer"
  | .unflushed => "flush failed"
  | .other reason => reason

end DeliveryFault

/-- What can go wrong between a request and its answer. -/
inductive Fault where
  /-- A signature counts a generic parameter that its owner does not declare. -/
  | parameterOutOfRange (owner : ParameterOwner) (index declared : Nat)
  /-- A type holds itself among its generic arguments, at some depth. -/
  | endlessArguments (id : TypeId)
  /-- A source cannot answer, in its own words. -/
  | malformed (reason : String)
  /-- A signature nests at least as deeply as the limit. -/
  | nestingLimit (limit : Nat)
  /-- A binary is not loaded. -/
  | load (path : String) (cause : LoadFault)
  /-- Lines are not delivered. -/
  | delivery (cause : DeliveryFault)
deriving DecidableEq, Repr

namespace Fault

/-- The wording of a fault. -/
def message : Fault → String
  | .parameterOutOfRange owner index declared =>
      "generic parameter " ++ owner.marks ++ index.repr ++ " out of range, " ++ declared.repr
        ++ " declared"
  | .endlessArguments id => "generic arguments of " ++ id.name ++ " have no end"
  | .malformed reason => reason
  | .nestingLimit limit => "Reach the maximum recursion level allowed - " ++ limit.repr
  | .load path cause => "Failed to load binary '" ++ path ++ "': " ++ cause.message
  | .delivery cause => cause.message

end Fault

end TypeSurface
