import TypeSurface.Fault
import TypeSurface.Metadata.Graph
import TypeSurface.Naming.TypeRef

/-!
# References of handles

The reference by which a handle is spelled. Definitions are unfolded into their generic arguments,
which are rows of the graph again; an aliased type is spelled without its arguments, so they are not
looked at. Rows whose arguments lead back to themselves have no reference. As every row on a way
through arguments is met once, or else the way has no end, the number of rows bounds the depth at which
unfolding is given up.
-/

set_option autoImplicit false

namespace TypeSurface.Metadata.Graph

/-- The reference of a row, if its generic arguments nest less than `depth` deep. -/
def rowReference? (graph : Graph) (depth : Nat) (key : Nat) : Option TypeRef :=
  let row := graph.row key
  if row.isGenericParameter then some (.parameter row.name)
  else if (Alias.ofId? row.id).isSome then some (.named row.id [])
  else
    match depth with
    | 0 => none
    | depth + 1 => ((graph.arguments key).mapM (graph.rowReference? depth)).map (.named row.id)

mutual

/-- The reference of a handle, unless it holds a definition whose arguments have no end. -/
def reference? (graph : Graph) : Handle Nat → Option TypeRef
  | .definition _ key => graph.rowReference? (graph.rows.size + 1) key
  | .named id arguments =>
      if (Alias.ofId? id).isSome then some (.named id [])
      else (graph.references? arguments).map (.named id)
  | .parameter name => some (.parameter name)
  | .array element => (graph.reference? element).map .array

/-- The references of several handles, in order. -/
def references? (graph : Graph) : List (Handle Nat) → Option (List TypeRef)
  | [] => some []
  | handle :: rest =>
      match graph.reference? handle, graph.references? rest with
      | some ref, some refs => some (ref :: refs)
      | _, _ => none

end

/-- The reference of a handle, or the fault of one whose arguments have no end. -/
def reference (graph : Graph) (handle : Handle Nat) : Except Fault TypeRef :=
  match graph.reference? handle with
  | some ref => .ok ref
  | none => .error (.endlessArguments handle.id)

/-- The spelling of a handle that may be absent; there is none if its arguments have no end. -/
def spelling? (graph : Graph) : Option (Handle Nat) → Option String
  | none => some ""
  | some handle => (graph.reference? handle).map TypeRef.spelling

end TypeSurface.Metadata.Graph
