import TypeSurface.Proofs.Agreement
import TypeSurface.Proofs.FirstFaults
import TypeSurface.Proofs.Hiding

/-!
# Types of fields and properties

The signature of a field or property is read for its own entry only. Graphs that say the same apart
from these signatures (`Graph.untyped`) list the same fields and properties, fail alike and describe
a type alike, but for the types of the entries whose signatures differ (`description_eq`). A
signature that cannot be read leaves the type of its entry empty (`spelled_memberType_of_error`).
-/

set_option autoImplicit false

namespace TypeSurface.Metadata

/-! ## Graphs without types of fields and properties -/

/-- A field without its type. -/
def FieldRow.untyped (field : FieldRow) : FieldRow := { field with signature := .unnamed .unknown }

/-- A property without its type. -/
def PropertyRow.untyped (property : PropertyRow) : PropertyRow :=
  { property with signature := .unnamed .unknown }

/-- A type without the types of its fields and properties. -/
def Row.untyped (row : Row) : Row :=
  { row with
    fields := row.fields.map (·.untyped)
    properties := row.properties.map (·.untyped) }

/-- A member with the key of the type that declares it. -/
structure Declared (ρ : Type) where
  owner : Nat
  row : ρ

/-- Changes a member that a type declares. -/
def Declared.map {ρ : Type} (change : ρ → ρ) (member : Declared ρ) : Declared ρ :=
  ⟨member.owner, change member.row⟩

namespace Graph

/-- A graph without the types of fields and properties. -/
def untyped (graph : Graph) : Graph := ⟨graph.rows.map (·.untyped)⟩

theorem row_untyped (graph : Graph) (key : Nat) :
    graph.untyped.row key = (graph.row key).untyped :=
  row_map rfl key

variable {graph other : Graph}

/-- What is read from a row without its types is the same in graphs that are the same apart from
types. -/
theorem read_eq {α : Type} (read : Row → α) (hread : ∀ row, read row.untyped = read row)
    (h : other.untyped = graph.untyped) (key : Nat) :
    read (other.row key) = read (graph.row key) := by
  rw [← hread, ← row_untyped, h, row_untyped, hread]

theorem agrees_of_untyped_eq (h : other.untyped = graph.untyped) : Agrees graph other := by
  have hsize := congrArg (fun graph => graph.rows.size) h
  rw [untyped, untyped, Array.size_map, Array.size_map] at hsize
  exact agrees_of_outline_eq hsize (read_eq Row.outline (fun _ => rfl) h)

/-! ## Where listed members come from -/

/-- The members that the levels of a type declare and keep for a listing. -/
def declared {ρ : Type} (graph : Graph) (members : Row → List ρ) (keep : Nat → ρ → Bool)
    (key : Nat) : List (List (Declared ρ)) :=
  (graph.lineage key).mapIdx fun number owner =>
    ((members (graph.row owner)).filter (keep number)).map (Declared.mk owner)

/-- The fields that are listed for a type. -/
def fieldSources (graph : Graph) (key : Nat) : List (Declared FieldRow) :=
  (graph.declared Row.fields (fun number field => field.decl.isListed (.ofLevel number))
    key).flatten

/-- The properties that are listed for a type. -/
def propertySources (graph : Graph) (key : Nat) : List (Declared PropertyRow) :=
  mostDerived (·.row.name)
    (graph.declared Row.properties
      (fun number property => property.decl.isEligible (.ofLevel number)) key)

/-- The scope of the fields and properties that a type declares. -/
def memberScope (graph : Graph) (owner : Nat) : Scope Nat :=
  (graph.row owner).level.scope graph.resolve

/-- The type of a field or property that a type declares, if it is known. -/
def memberType (graph : Graph) (owner : Nat) (signature : Signature) : MemberType Nat :=
  (graph.memberScope owner).interpretOrNone signature

/-- The entry of a field that a type declares. -/
def listedField (graph : Graph) (field : Declared FieldRow) : Member.Field (MemberType Nat) :=
  ⟨field.row.name, graph.memberType field.owner field.row.signature⟩

/-- The entry of a property that a type declares. -/
def listedProperty (graph : Graph) (property : Declared PropertyRow) :
    Member.Property (MemberType Nat) :=
  ⟨property.row.name, graph.memberType property.owner property.row.signature,
    property.row.decl.getter.isSome, property.row.decl.setter.isSome⟩

theorem fields_eq (graph : Graph) (key : Nat) :
    graph.fields key = (graph.fieldSources key).map graph.listedField := by
  rw [fields, listFields, eachLevel_levels, fieldSources, declared, List.map_flatten, map_mapIdx]
  refine congrArg (fun level => (List.mapIdx level _).flatten) ?_
  funext number owner
  rw [Level.listedFields, Row.level, List.filter_map, List.map_map, List.map_map]
  rfl

/-- The properties of a type are the entries of the properties that are listed. -/
theorem properties_eq (graph : Graph) (key : Nat) :
    graph.properties key = (graph.propertySources key).map graph.listedProperty := by
  have hlevels : eachLevel (Level.eligibleProperties graph.resolve) (graph.levels key)
      = (graph.declared Row.properties
          (fun number property => property.decl.isEligible (.ofLevel number)) key).map
        (List.map graph.listedProperty) := by
    rw [eachLevel_levels, declared, map_mapIdx]
    refine congrArg (List.mapIdx · _) ?_
    funext number owner
    rw [Level.eligibleProperties, Row.level, List.filter_map, List.map_map, List.map_map]
    rfl
  -- Entries hide each other by the names of the properties they come from.
  rw [properties, listProperties, hlevels]
  exact mostDerivedFrom_map graph.listedProperty Member.Property.name [] _

/-! ## What types have a part in -/

/-- The members that are declared and kept are the same apart from types, when neither the choice
nor the members look at types. -/
theorem declared_untyped_eq {ρ : Type} {members : Row → List ρ} {keep : Nat → ρ → Bool}
    (untyped : ρ → ρ) (hmembers : ∀ row, members row.untyped = (members row).map untyped)
    (hkeep : ∀ number member, keep number (untyped member) = keep number member)
    (h : other.untyped = graph.untyped) (key : Nat) :
    (other.declared members keep key).map (List.map (Declared.map untyped))
      = (graph.declared members keep key).map (List.map (Declared.map untyped)) := by
  have hlevel : ∀ (row : Row) (number owner : Nat),
      (((members row).filter (keep number)).map (Declared.mk owner)).map (Declared.map untyped)
        = ((members row.untyped).filter (keep number)).map (Declared.mk owner) := by
    intro row number owner
    have hsame : keep number ∘ untyped = keep number := funext (hkeep number)
    rw [hmembers, List.filter_map, hsame, List.map_map, List.map_map]
    rfl
  have hrow : ∀ owner, (other.row owner).untyped = (graph.row owner).untyped := by
    intro owner
    rw [← row_untyped, ← row_untyped, h]
  simp only [declared, map_mapIdx, hlevel, hrow, (agrees_of_untyped_eq h).lineage]

theorem fieldSources_untyped_eq (h : other.untyped = graph.untyped) (key : Nat) :
    (other.fieldSources key).map (Declared.map FieldRow.untyped)
      = (graph.fieldSources key).map (Declared.map FieldRow.untyped) := by
  rw [fieldSources, fieldSources, List.map_flatten, List.map_flatten]
  exact congrArg List.flatten
    (declared_untyped_eq FieldRow.untyped (fun _ => rfl) (fun _ _ => rfl) h key)

/-- The same properties are listed, apart from their types. -/
theorem propertySources_untyped_eq (h : other.untyped = graph.untyped) (key : Nat) :
    (other.propertySources key).map (Declared.map PropertyRow.untyped)
      = (graph.propertySources key).map (Declared.map PropertyRow.untyped) := by
  have hhide : ∀ levels : List (List (Declared PropertyRow)),
      (mostDerived (·.row.name) levels).map (Declared.map PropertyRow.untyped)
        = mostDerived (·.row.name) (levels.map (List.map (Declared.map PropertyRow.untyped))) := by
    intro levels
    exact (mostDerivedFrom_map (Declared.map PropertyRow.untyped) (·.row.name) [] levels).symm
  rw [propertySources, propertySources, hhide, hhide]
  exact congrArg (mostDerived _)
    (declared_untyped_eq PropertyRow.untyped (fun _ => rfl) (fun _ _ => rfl) h key)

theorem memberType_eq (h : other.untyped = graph.untyped) (owner : Nat) (signature : Signature) :
    other.memberType owner signature = graph.memberType owner signature := by
  rw [memberType, memberType, memberScope, memberScope, Level.scope, Level.scope,
    (agrees_of_untyped_eq h).resolve]
  rw [read_eq (fun row => row.level.genericParameters) (fun _ => rfl) h owner]

/-- The same methods are listed, or listing them has the same fault. -/
theorem methods_eq (h : other.untyped = graph.untyped) (key : Nat) :
    other.methods key = graph.methods key := by
  have hagrees := agrees_of_untyped_eq h
  have hlevel : ∀ number owner,
      (other.row owner).level.eligibleMethods graph.resolve (.ofLevel number)
        = (graph.row owner).level.eligibleMethods graph.resolve (.ofLevel number) := by
    intro number owner
    exact read_eq (fun row => row.level.eligibleMethods graph.resolve (.ofLevel number))
      (fun _ => rfl) h owner
  -- The overrides are compared by the same spellings over the same chain of levels.
  rw [methods, methods, listMethods, listMethods, eachLevel_levels, eachLevel_levels,
    hagrees.resolve, hagrees.spelling?, hagrees.lineage]
  simp only [hlevel]

/-- The entry of a field in a description. -/
def fieldEntry (graph : Graph) (field : Declared FieldRow) : Member.Field String :=
  (graph.listedField field).map graph.spelled

/-- The entry of a property in a description. -/
def propertyEntry (graph : Graph) (property : Declared PropertyRow) : Member.Property String :=
  (graph.listedProperty property).map graph.spelled

/-- A member whose signature cannot be read has no type to spell. -/
theorem spelled_memberType_of_error {owner : Nat} {signature : Signature} {fault : Fault}
    (h : (graph.memberScope owner).interpret signature = .error fault) :
    graph.spelled (graph.memberType owner signature) = "" := by
  rw [memberType, Scope.interpretOrNone, h]
  rfl

/-- Types of fields and properties have a part in nothing but their own entries. -/
theorem description_eq (h : other.untyped = graph.untyped) (id : TypeId) (key : Nat)
    (methods : List (Member.Method (MemberType Nat))) :
    other.description id key methods =
      { graph.description id key methods with
        fields := (other.fieldSources key).map graph.fieldEntry
        properties := (other.propertySources key).map graph.propertyEntry } := by
  have hagrees := agrees_of_untyped_eq h
  have hfields : (other.fields key).map (·.map other.spelled)
      = (other.fieldSources key).map graph.fieldEntry := by
    rw [fields_eq, List.map_map]
    refine congrArg (List.map · _) (funext fun field => ?_)
    simp only [Function.comp_apply, fieldEntry, listedField, memberType_eq h,
      funext hagrees.spelled]
  have hproperties : (other.properties key).map (·.map other.spelled)
      = (other.propertySources key).map graph.propertyEntry := by
    rw [properties_eq, List.map_map]
    refine congrArg (List.map · _) (funext fun property => ?_)
    simp only [Function.comp_apply, propertyEntry, listedProperty, memberType_eq h,
      funext hagrees.spelled]
  rw [description, hfields, hproperties, hagrees.base?, hagrees.interfaces,
    funext hagrees.spelled, funext hagrees.handle,
    read_eq (fun row => row.flags.isInterface) (fun _ => rfl) h key,
    read_eq (fun row => row.genericParameters) (fun _ => rfl) h key]
  rfl

end Graph

end TypeSurface.Metadata
