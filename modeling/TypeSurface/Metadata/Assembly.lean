import TypeSurface.Metadata.GraphType

/-!
# Assemblies

The content of a binary: the types it defines and the foreign types it mentions, both numbered by
tokens of its own. In the graph of an assembly a pseudo type that holds module-level members comes
first; it is registered but not listed. Foreign types have a name and nothing else.
-/

set_option autoImplicit false

namespace TypeSurface.Metadata

/-- A type that an assembly defines. Its base and interfaces are tokens of the assembly. -/
structure DefinedType where
  ns : String
  name : String
  flags : Flags
  base : Option Token
  interfaces : List Token
  fields : List FieldRow
  methods : List MethodRow
deriving Repr

/-- The content of a binary. -/
structure Assembly where
  foreign : List TypeId
  types : List DefinedType
deriving Repr

namespace Assembly

/-- The name of the pseudo type that holds module-level members. -/
def moduleName : String := "<Module>"

/-- The token of the pseudo type. -/
def moduleToken : Token := ⟨0x02000001⟩

/-- The token of a defined type, counted from zero. -/
def typeToken (index : Nat) : Token := ⟨0x02000002 + index.toUInt32⟩

/-- The token of a foreign type, counted from zero. -/
def foreignToken (index : Nat) : Token := ⟨0x01000001 + index.toUInt32⟩

/-- The tokens of all rows, in the order of the rows. -/
def tokens (assembly : Assembly) : List Token :=
  moduleToken :: (List.range assembly.types.length).map typeToken
    ++ (List.range assembly.foreign.length).map foreignToken

/-- The row behind a token. -/
def key? (assembly : Assembly) (token : Token) : Option Nat :=
  assembly.tokens.findIdx? (· == token)

/-- A row with a token and a name and nothing else. -/
def bareRow (token : Token) (id : TypeId) : Row :=
  ⟨token, id.nsText, id.name, 0, false, none, [], [], [], [], [], [], false, true⟩

/-- The row of a defined type. -/
def typeRow (assembly : Assembly) (index : Nat) (type : DefinedType) : Row :=
  { bareRow (typeToken index) ⟨some type.ns, type.name⟩ with
    flags := type.flags
    base := type.base.bind assembly.key?
    interfaces := type.interfaces.filterMap assembly.key?
    fields := type.fields
    methods := type.methods }

/-- The graph of an assembly. -/
def graph (assembly : Assembly) : Graph :=
  ⟨(bareRow moduleToken ⟨none, moduleName⟩ :: assembly.types.mapIdx assembly.typeRow
    ++ assembly.foreign.mapIdx fun index id => bareRow (foreignToken index) id).toArray⟩

end Assembly

namespace Graph

/-- The row is a registered type that the binary defines, the pseudo type left out. -/
def isListed (graph : Graph) (key : Nat) : Bool :=
  (graph.row key).registered && (graph.token key).isDefinition
    && (graph.row key).name != Assembly.moduleName

/-- The listed types of a graph, in order. -/
def listed (graph : Graph) : List GraphType :=
  graph.typesAt ((List.range graph.rows.size).filter graph.isListed)

end Graph

end TypeSurface.Metadata
