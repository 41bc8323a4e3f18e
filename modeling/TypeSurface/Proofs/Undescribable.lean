import TypeSurface.Proofs.MemberTypes

/-!
# Types that cannot be described

Without cycles of generic arguments a type cannot be described exactly when a method of its chain can
be listed and has a signature that cannot be read; the fault is that of the first such method
(`only_eligible_methods_fail`). Everything else that cannot be read does no harm: a field or property
with such a signature is listed without a type, and what other entries say does not change.
-/

set_option autoImplicit false

namespace TypeSurface.Metadata

namespace Graph

variable {graph : Graph}

/-- A description fails when the handle is a definition and its methods cannot be listed. -/
theorem describe_eq_error_iff (hacyclic : graph.Acyclic) {handle : Handle Nat} {fault : Fault} :
    (graph.view handle).describe = .error fault ↔
      ∃ id key, handle = .definition id key ∧ graph.methods key = .error fault := by
  constructor
  · intro h
    cases handle with
    | definition id key =>
        refine ⟨id, key, rfl, ?_⟩
        rw [describe_definition hacyclic] at h
        cases hmethods : graph.methods key with
        | error other =>
            rw [hmethods] at h
            exact congrArg Except.error (Except.error.inj h)
        | ok methods =>
            rw [hmethods] at h
            exact nomatch h
    -- Nothing is asked about the other handles, so nothing fails.
    | named id arguments => exact nomatch h
    | parameter name => exact nomatch h
    | array element => exact nomatch h
  · rintro ⟨id, key, rfl, hmethods⟩
    rw [describe_definition hacyclic, hmethods]
    rfl

/-- The description of a definition says of each field and property what its own declaration says. -/
theorem describe_eq_ok_of_untyped_eq (hacyclic : graph.Acyclic) {other : Graph}
    (h : other.untyped = graph.untyped) {id : TypeId} {key : Nat} {description : Description}
    (hdescribe : (graph.view (.definition id key)).describe = .ok description) :
    (other.view (.definition id key)).describe = .ok
      { description with
        fields := (other.fieldSources key).map graph.fieldEntry
        properties := (other.propertySources key).map graph.propertyEntry } := by
  rw [describe_definition hacyclic] at hdescribe
  obtain ⟨methods, hmethods, rfl⟩ := map_eq_ok_iff.1 hdescribe
  rw [describe_definition ((agrees_of_untyped_eq h).acyclic hacyclic), methods_eq h, hmethods]
  exact congrArg Except.ok (description_eq h id key methods)

/-- In a graph without cycles of generic arguments, describing a handle fails exactly when it is a
definition and some level of its chain has a method that can be listed there and has a signature that
cannot be read; the fault is that of the first such method. Other signatures of fields and properties
change neither success nor fault, and nothing in a description but the types of their own entries: the
entries come from the same fields and properties, each tells the name and the type of its own, and one
whose signature cannot be read has no type. -/
theorem only_eligible_methods_fail (hacyclic : graph.Acyclic) (handle : Handle Nat) :
    ((∃ fault, (graph.view handle).describe = .error fault) ↔
      ∃ id key number owner, handle = .definition id key ∧
        (graph.lineage key)[number]? = some owner ∧
        ∃ method ∈ (graph.row owner).methods, method.IsEligible number ∧
          ∃ signature ∈ method.signatures, ∃ fault,
            (graph.methodScope owner method).interpret signature = .error fault) ∧
    (∀ fault, (graph.view handle).describe = .error fault ↔
      ∃ id key, handle = .definition id key ∧ graph.IsFirstFault key fault) ∧
    ∀ other : Graph, other.untyped = graph.untyped →
      (∀ fault, (other.view handle).describe = .error fault ↔
        (graph.view handle).describe = .error fault) ∧
      ∀ id key description, handle = .definition id key →
        (graph.view handle).describe = .ok description →
        (other.view handle).describe = .ok
          { description with
            fields := (other.fieldSources key).map graph.fieldEntry
            properties := (other.propertySources key).map graph.propertyEntry } ∧
        (other.fieldSources key).map (Declared.map FieldRow.untyped)
          = (graph.fieldSources key).map (Declared.map FieldRow.untyped) ∧
        (other.propertySources key).map (Declared.map PropertyRow.untyped)
          = (graph.propertySources key).map (Declared.map PropertyRow.untyped) ∧
        (∀ field ∈ other.fieldSources key, ∀ fault,
          (graph.memberScope field.owner).interpret field.row.signature = .error fault →
          graph.fieldEntry field = ⟨field.row.name, ""⟩) ∧
        ∀ property ∈ other.propertySources key, ∀ fault,
          (graph.memberScope property.owner).interpret property.row.signature = .error fault →
          graph.propertyEntry property = ⟨property.row.name, "", property.row.decl.getter.isSome,
            property.row.decl.setter.isSome⟩ := by
  refine ⟨?_, fun fault => ?_, fun other hother => ⟨fun fault => ?_, ?_⟩⟩
  · simp only [describe_eq_error_iff hacyclic]
    constructor
    · rintro ⟨fault, id, key, hhandle, hmethods⟩
      obtain ⟨number, owner, howner, hfails⟩ := exists_methods_eq_error_iff.1 ⟨fault, hmethods⟩
      exact ⟨id, key, number, owner, hhandle, howner, hfails⟩
    · rintro ⟨id, key, number, owner, hhandle, howner, hfails⟩
      obtain ⟨fault, hmethods⟩ := exists_methods_eq_error_iff.2 ⟨number, owner, howner, hfails⟩
      exact ⟨fault, id, key, hhandle, hmethods⟩
  · simp only [describe_eq_error_iff hacyclic, methods_eq_error_iff]
  · have hotherAcyclic := (agrees_of_untyped_eq hother).acyclic hacyclic
    simp only [describe_eq_error_iff hacyclic, describe_eq_error_iff hotherAcyclic,
      methods_eq hother]
  · rintro id key description rfl hdescribe
    refine ⟨describe_eq_ok_of_untyped_eq hacyclic hother hdescribe,
      fieldSources_untyped_eq hother key, propertySources_untyped_eq hother key, ?_, ?_⟩
    · intro field _ fault hfault
      exact congrArg (Member.Field.mk field.row.name) (spelled_memberType_of_error hfault)
    · intro property _ fault hfault
      exact congrArg
        (Member.Property.mk property.row.name · property.row.decl.getter.isSome
          property.row.decl.setter.isSome)
        (spelled_memberType_of_error hfault)

end Graph

/-! ## Members that cannot be read -/

namespace UnreadableMembers

/-- A method without parameters. -/
def method (name : String) (flags : Flags) (result : Signature) : MethodRow :=
  ⟨name, flags, ⟨result, false⟩, [], [], [], false⟩

/-- A class of a chain. -/
def type (token : UInt32) (name : String) (base : Option Nat) (fields : List FieldRow)
    (methods : List MethodRow) : Row :=
  ⟨⟨token⟩, "Lib", name, 0, false, base, [], [], [], fields, [], methods, false, true⟩

/-- Two chains. No type is generic, so a generic parameter cannot be read. The constructor, the
private and the inherited static method of the first chain are not listed, the methods that the second
one inherits are. -/
def graph (item : Signature) : Graph :=
  ⟨#[type 0x02000002 "Box" (some 1) [⟨"item", 0x06, item⟩, ⟨"count", 0x06, .builtIn .int32⟩]
      [method ".ctor" 0x06 (.typeParameter 0), method "hide" 0x01 (.typeParameter 0)],
    type 0x02000003 "Crate" none [] [method "make" 0x16 (.typeParameter 0)],
    type 0x02000004 "Lid" (some 3) [] [],
    type 0x02000005 "Frame" none []
      [method "turn" 0x06 (.methodParameter 3), method "spin" 0x06 (.typeParameter 0)]]⟩

/-- The handle of the first type of the first chain. -/
def box : Handle Nat := .definition ⟨some "Lib", "Box"⟩ 0

/-- The handle of the first type of the second chain. -/
def lid : Handle Nat := .definition ⟨some "Lib", "Lid"⟩ 2

theorem acyclic_graph (item : Signature) : (graph item).Acyclic := by
  have hnone : ∀ key, (graph item).arguments key = [] := by
    rintro (_ | _ | _ | _ | _) <;> rfl
  intro key hway
  obtain ⟨argument, hrefers, -⟩ := Relation.TransGen.head'_iff.1 hway
  rw [Graph.Refers, hnone] at hrefers
  exact List.not_mem_nil hrefers

theorem untyped_graph (item other : Signature) : (graph item).untyped = (graph other).untyped := by
  simp [Graph.untyped, graph, type, Row.untyped, FieldRow.untyped]

/-- The second chain fails with the first method it inherits. -/
theorem isFirstFault_lid :
    (graph (.typeParameter 0)).IsFirstFault 2 (.parameterOutOfRange .method 3 0) := by
  refine ⟨[2], 3, [], [], method "turn" 0x06 (.methodParameter 3), _, by decide +kernel, rfl,
    by decide +kernel, by decide +kernel, ?_, fun earlier hearlier => (nomatch hearlier)⟩
  intro number other hother
  -- The type itself declares no methods.
  cases number with
  | zero =>
      obtain rfl := Option.some.inj hother
      exact fun earlier hearlier => (nomatch hearlier)
  | succ _ => exact nomatch hother

theorem methods_box : (graph (.typeParameter 0)).methods 0 = .ok [] := by
  have hlisted : ((graph (.typeParameter 0)).methods 0).toOption.map (List.map (·.name))
      = some [] := by
    decide +kernel
  obtain ⟨methods, hmethods, hnames⟩ := exists_ok_of_toOption_map hlisted
  rw [hmethods, List.map_eq_nil_iff.1 hnames]

theorem exists_description_box :
    ∃ description, ((graph (.typeParameter 0)).view box).describe = .ok description := by
  refine ⟨(graph (.typeParameter 0)).description ⟨some "Lib", "Box"⟩ 0 [], ?_⟩
  rw [box, Graph.describe_definition (acyclic_graph _), methods_box]
  rfl

end UnreadableMembers

open UnreadableMembers in
/-- The box is described although its field cannot be read, and when it can be read nothing else of
the description changes. The lid is not described, as it inherits a method that cannot be read. -/
theorem box_is_described_and_lid_is_not :
    (graph (.typeParameter 0)).Acyclic ∧
      ((graph (.typeParameter 0)).view lid).describe = .error (.parameterOutOfRange .method 3 0) ∧
      ∃ description, ((graph (.typeParameter 0)).view box).describe = .ok description ∧
        description.fields = [⟨"item", ""⟩, ⟨"count", "Int"⟩] ∧
        ((graph (.builtIn .boolean)).view box).describe
          = .ok { description with fields := [⟨"item", "Bool"⟩, ⟨"count", "Int"⟩] } := by
  have hacyclic := acyclic_graph (.typeParameter 0)
  obtain ⟨-, hfault, -⟩ := Graph.only_eligible_methods_fail hacyclic lid
  obtain ⟨-, -, hother⟩ := Graph.only_eligible_methods_fail hacyclic box
  obtain ⟨description, hdescribe⟩ := exists_description_box
  refine ⟨hacyclic, (hfault _).2 ⟨_, 2, rfl, isFirstFault_lid⟩, description, hdescribe, ?_⟩
  have hentries : ∀ item : Signature, ((graph item).view box).describe = .ok
      { description with
        fields := ((graph item).fieldSources 0).map (graph (.typeParameter 0)).fieldEntry
        properties :=
          ((graph item).propertySources 0).map (graph (.typeParameter 0)).propertyEntry } := by
    intro item
    obtain ⟨-, hentries⟩ := hother (graph item) (untyped_graph _ _)
    exact (hentries _ 0 description rfl hdescribe).1
  have hnone : ((graph (.typeParameter 0)).propertySources 0).map
      (graph (.typeParameter 0)).propertyEntry = [] := by
    decide +kernel
  have hnoneRead : ((graph (.builtIn .boolean)).propertySources 0).map
      (graph (.typeParameter 0)).propertyEntry = [] := by
    decide +kernel
  have hempty : ((graph (.typeParameter 0)).fieldSources 0).map
      (graph (.typeParameter 0)).fieldEntry = [⟨"item", ""⟩, ⟨"count", "Int"⟩] := by
    decide +kernel
  have hread : ((graph (.builtIn .boolean)).fieldSources 0).map
      (graph (.typeParameter 0)).fieldEntry = [⟨"item", "Bool"⟩, ⟨"count", "Int"⟩] := by
    decide +kernel
  -- The description itself consists of such entries.
  have hdescription := Except.ok.inj (hdescribe.symm.trans (hentries (.typeParameter 0)))
  rw [hempty, hnone] at hdescription
  have hproperties : description.properties = [] := congrArg Description.properties hdescription
  refine ⟨congrArg Description.fields hdescription, ?_⟩
  rw [hentries, hread, hnoneRead, hproperties]

end TypeSurface.Metadata
