import TypeSurface.Description.Basic
import TypeSurface.Fault
import TypeSurface.Naming.TypeRef

/-!
# Views of types

What a source of types answers when it is asked about one type, and the description made of the
answers. The questions are asked in a fixed order and the first one without an answer decides the
fault. Every reference in an answer is spelled at once, so a description refers to nothing outside
itself.
-/

set_option autoImplicit false

namespace TypeSurface

/-- The answers of a source about one type. -/
structure TypeView where
  id : TypeId
  isInterface : Bool
  base : Except Fault (Option TypeRef)
  interfaces : Except Fault (List TypeRef)
  genericParameters : Except Fault (List String)
  fields : Except Fault (List (Member.Field (Option TypeRef)))
  properties : Except Fault (List (Member.Property (Option TypeRef)))
  methods : Except Fault (List (Member.Method (Option TypeRef)))

namespace TypeView

/-- The view of a type that has an identity and nothing else. -/
def bare (id : TypeId) : TypeView where
  id := id
  isInterface := false
  base := .ok none
  interfaces := .ok []
  genericParameters := .ok []
  fields := .ok []
  properties := .ok []
  methods := .ok []

/-- The description of a type, or the fault of the first question without an answer. -/
def describe (view : TypeView) : Except Fault Description := do
  let base ← view.base
  let interfaces ← view.interfaces
  let genericParameters ← view.genericParameters
  let fields ← view.fields
  let properties ← view.properties
  let methods ← view.methods
  return {
    ns := view.id.nsText
    name := view.id.name
    isInterface := view.isInterface
    baseType := TypeRef.spellingOrEmpty base
    interfaces := interfaces.map TypeRef.spelling
    genericParameters := genericParameters
    fields := fields.map (·.map TypeRef.spellingOrEmpty)
    properties := properties.map (·.map TypeRef.spellingOrEmpty)
    methods := methods.map (·.map TypeRef.spellingOrEmpty) }

end TypeView

end TypeSurface
