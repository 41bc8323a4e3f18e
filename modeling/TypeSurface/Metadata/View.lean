import TypeSurface.Metadata.InterfaceClosure
import TypeSurface.Metadata.Listing
import TypeSurface.Metadata.Unfolding
import TypeSurface.TypeView

/-!
# Views of handles

The answers a graph gives about a handle. A definition has the base, the interfaces and the members
that its rows give it; every other handle has an identity and nothing else.
-/

set_option autoImplicit false

namespace TypeSurface.Metadata.Graph

/-- The levels of a type, its own first. -/
def levels (graph : Graph) (key : Nat) : List Level :=
  (graph.lineage key).map fun base => (graph.row base).level

/-- The fields a definition lists. -/
def fields (graph : Graph) (key : Nat) : List (Member.Field (MemberType Nat)) :=
  listFields graph.resolve (graph.levels key)

/-- The properties a definition lists. -/
def properties (graph : Graph) (key : Nat) : List (Member.Property (MemberType Nat)) :=
  listProperties graph.resolve (graph.levels key)

/-- The methods a definition lists, or the fault of the first one that cannot be read. -/
def methods (graph : Graph) (key : Nat) : Except Fault (List (Member.Method (MemberType Nat))) :=
  listMethods graph.spelling? graph.resolve (graph.levels key)

/-- The reference of a member type. -/
def memberReference (graph : Graph) : MemberType Nat → Except Fault (Option TypeRef)
  | none => .ok none
  | some handle => (graph.reference handle).map some

/-- A member of a view: its types are references. -/
def viewField (graph : Graph) (field : Member.Field (MemberType Nat)) :
    Except Fault (Member.Field (Option TypeRef)) := do
  return ⟨field.name, ← graph.memberReference field.type⟩

/-- A member of a view: its types are references. -/
def viewProperty (graph : Graph) (property : Member.Property (MemberType Nat)) :
    Except Fault (Member.Property (Option TypeRef)) := do
  return ⟨property.name, ← graph.memberReference property.type, property.canRead,
    property.canWrite⟩

/-- A parameter of a member of a view: its type is a reference. -/
def viewParameter (graph : Graph) (parameter : Member.Parameter (MemberType Nat)) :
    Except Fault (Member.Parameter (Option TypeRef)) := do
  return ⟨parameter.name, ← graph.memberReference parameter.type, parameter.hasDefault⟩

/-- A member of a view: its types are references. -/
def viewMethod (graph : Graph) (method : Member.Method (MemberType Nat)) :
    Except Fault (Member.Method (Option TypeRef)) := do
  return ⟨method.name, ← graph.memberReference method.result,
    ← method.parameters.mapM graph.viewParameter⟩

/-- The answers about a handle. -/
def view (graph : Graph) : Handle Nat → TypeView
  | .definition id key =>
      { id := id
        isInterface := (graph.row key).flags.isInterface
        base := graph.memberReference ((graph.base? key).map graph.handle)
        interfaces := (graph.interfaces key).mapM fun interface =>
          graph.reference (graph.handle interface)
        genericParameters := .ok (genericParameterNames (graph.row key).genericParameters)
        fields := (graph.fields key).mapM graph.viewField
        properties := (graph.properties key).mapM graph.viewProperty
        methods := do (← graph.methods key).mapM graph.viewMethod }
  | handle => .bare handle.id

theorem id_view (graph : Graph) (handle : Handle Nat) : (graph.view handle).id = handle.id := by
  cases handle <;> rfl

end TypeSurface.Metadata.Graph
