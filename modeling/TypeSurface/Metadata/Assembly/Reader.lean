import TypeSurface.Json.Reader
import TypeSurface.Metadata.Assembly

/-!
# Reading assemblies

Assemblies are found on disk as JSON: a record with the foreign types under
`refs` and the defined types under `types`. Members that are missing take defaults, and a signature of
an unknown form stands for no type.
-/

set_option autoImplicit false

namespace TypeSurface.Metadata.Assembly

/-- A number as a word. -/
def word (value : Json) : UInt32 := (value.natural?.getD 0).toUInt32

/-- A number as a token. -/
def token (value : Json) : Token := ⟨word value⟩

/-- Built-in types by the names of their elements. -/
def builtIns : List (String × BuiltIn) := [
  ("void", .void), ("boolean", .boolean), ("char", .char), ("i1", .int8), ("u1", .uint8),
  ("i2", .int16), ("u2", .uint16), ("i4", .int32), ("u4", .uint32), ("i8", .int64),
  ("u8", .uint64), ("r4", .float32), ("r8", .float64), ("i", .intPtr), ("u", .uintPtr),
  ("string", .string), ("object", .object), ("typedbyref", .typedReference)]

/-- Elements without a type by their names. -/
def unnamedElements : List (String × Unnamed) := [
  ("internal", .internal), ("modifier", .modifier), ("sentinel", .sentinel), ("type", .type),
  ("boxed", .boxed), ("reserved", .reserved), ("field", .field)]

/-- The signature that a name stands for. -/
def namedSignature (name : String) : Signature :=
  match builtIns.lookup name with
  | some type => .builtIn type
  | none => .unnamed ((unnamedElements.lookup name).getD .unknown)

mutual

/-- The signature that a value writes down, as far as it nests at most `depth` deep. -/
def signature : Nat → Json → Signature
  | 0, _ => .unnamed .unknown
  | depth + 1, value =>
      match value with
      | .text name => namedSignature name
      | .record _ =>
          if let some item := value.member? "class" then .classType (token item)
          else if let some item := value.member? "valuetype" then .valueType (token item)
          else if let some item := value.member? "var" then .typeParameter (item.natural?.getD 0)
          else if let some item := value.member? "mvar" then .methodParameter (item.natural?.getD 0)
          else if let some item := value.member? "szarray" then .vector (signature depth item)
          else if let some item := value.member? "array" then
            .array (signature depth item) (value.naturalOf "rank")
          else if let some item := value.member? "ptr" then .pointer (signature depth item)
          else if let some item := value.member? "byref" then .byReference (signature depth item)
          else if let some item := value.member? "pinned" then .pinned (signature depth item)
          else if let some item := value.member? "inst" then
            .instantiation (signature depth item) ((value.itemsOf "args").map (signature depth))
          else if let some item := value.member? "fnptr" then
            .functionPointer (parameter depth (item.member "return"))
              ((item.itemsOf "params").map (parameter depth))
          else if let some item := value.member? "modreq" then
            .unnamed (.requiredModifiers (item.items.map token))
          else if let some item := value.member? "modopt" then
            .unnamed (.optionalModifiers (item.items.map token))
          else .unnamed .unknown
      | _ => .unnamed .unknown

/-- A parameter of a method pointer with its by-reference mark. -/
def parameter : Nat → Json → Bool × Signature
  | 0, _ => (false, .unnamed .unknown)
  | depth + 1, value => ((value.member "by_ref").isTrue, signature depth (value.member "type"))

end

/-- Signatures are read deeper than they are interpreted. -/
def signatureDepth : Nat := 2 * nestingLimit

/-- The result or a parameter of a method. -/
def signatureParameter (value : Json) : SignatureParameter :=
  ⟨signature signatureDepth (value.member "type"), (value.member "by_ref").isTrue⟩

/-- A field. -/
def fieldRow (value : Json) : FieldRow :=
  ⟨value.textOf "name", word (value.member "flags"),
    signature signatureDepth (value.member "type")⟩

/-- An annotation of a parameter. -/
def parameterRow (value : Json) : ParameterRow :=
  ⟨value.naturalOf "sequence", (value.member "name").text?, word (value.member "flags"),
    (value.member "constant").isTrue⟩

/-- A generic parameter. -/
def genericParameterRow (value : Json) : GenericParameterRow :=
  ⟨value.naturalOf "number", value.textOf "name"⟩

/-- A method. -/
def methodRow (value : Json) : MethodRow where
  name := value.textOf "name"
  flags := word (value.member "flags")
  result := signatureParameter (value.member "return")
  parameters := (value.itemsOf "params").map signatureParameter
  genericParameters := (value.itemsOf "generic_params").map genericParameterRow
  annotations := (value.itemsOf "rows").map parameterRow
  dropped := (value.member "dropped").isTrue

/-- A defined type. -/
def definedType (value : Json) : DefinedType where
  ns := value.textOf "namespace"
  name := value.textOf "name"
  flags := word (value.member "flags")
  base := ((value.member "base").natural?).map fun base => ⟨base.toUInt32⟩
  interfaces := (value.itemsOf "interfaces").map token
  fields := (value.itemsOf "fields").map fieldRow
  methods := (value.itemsOf "methods").map methodRow

/-- A foreign type. -/
def foreignType (value : Json) : TypeId :=
  ⟨(value.member "namespace").text?, value.textOf "name"⟩

/-- The assembly that a record holds. -/
def ofJson? (value : Json) : Option Assembly :=
  match value with
  | .record _ =>
      some ⟨(value.itemsOf "refs").map foreignType, (value.itemsOf "types").map definedType⟩
  | _ => none

/-- The assembly that a text holds. -/
def ofText? (text : String) : Option Assembly := (Json.parse? text).bind ofJson?

end TypeSurface.Metadata.Assembly
