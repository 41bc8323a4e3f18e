import TypeSurface.Metadata.View
import TypeSurface.Proofs.Hiding
import TypeSurface.Proofs.Lineage
import TypeSurface.Proofs.Traversal

/-!
# Inheritance

The members listed for a type are its own and then those its base hands down, without the ones it
hides (`members_compose`). What a base hands down is listed as if the base declared no static
members. The list of the base itself can be shorter: there its static members hide members of more
distant bases, and the types derived from it list those all the same
(`inherited_member_not_listed_for_base`).
-/

set_option autoImplicit false

namespace TypeSurface.Metadata

variable {κ α ν : Type}

/-! ## Static and instance members of a level -/

/-- A property is static when all its accessors are. -/
def PropertyDecl.isStatic (property : PropertyDecl) : Bool := property.accessors.all (·.isStatic)

/-- A level without its static members. -/
def Level.instanceOnly (level : Level) : Level where
  genericParameters := level.genericParameters
  fields := level.fields.filter (!·.isStatic)
  properties := level.properties.filter (!·.isStatic)
  methods := level.methods.filter (!·.isStatic)

/-- A level with its static members alone. -/
def Level.staticOnly (level : Level) : Level where
  genericParameters := level.genericParameters
  fields := level.fields.filter (·.isStatic)
  properties := level.properties.filter (·.isStatic)
  methods := level.methods.filter (·.isStatic)

theorem declared_ne_inherited : (Origin.declared == Origin.inherited) = false := rfl

theorem filter_eq_filter_instance {members : List α} {handedDown declared isStatic : α → Bool}
    (h : ∀ member, handedDown member = (declared member && !isStatic member)) :
    members.filter handedDown
      = (members.filter fun member => !isStatic member).filter declared := by
  rw [List.filter_filter]
  exact List.filter_congr fun member _ => h member

theorem listedFields_inherited (resolve : Token → Option (Handle κ)) (level : Level) :
    level.listedFields resolve .inherited = level.instanceOnly.listedFields resolve .declared := by
  have hlisted : ∀ field : FieldDecl,
      field.isListed .inherited = (field.isListed .declared && !field.isStatic) := by
    intro field
    simp [FieldDecl.isListed, declared_ne_inherited]
  rw [Level.listedFields, filter_eq_filter_instance hlisted]
  rfl

/-- A level hands down the properties that it would declare without its static members. -/
theorem eligibleProperties_inherited (resolve : Token → Option (Handle κ)) (level : Level) :
    level.eligibleProperties resolve .inherited
      = level.instanceOnly.eligibleProperties resolve .declared := by
  have heligible : ∀ property : PropertyDecl,
      property.isEligible .inherited = (property.isEligible .declared && !property.isStatic) := by
    intro property
    simp [PropertyDecl.isEligible, PropertyDecl.isStatic, declared_ne_inherited]
  rw [Level.eligibleProperties, filter_eq_filter_instance heligible]
  rfl

/-- A level hands down the methods that it would declare without its static members. -/
theorem eligibleMethods_inherited (resolve : Token → Option (Handle κ)) (level : Level) :
    level.eligibleMethods resolve .inherited
      = level.instanceOnly.eligibleMethods resolve .declared := by
  have heligible : ∀ method : MethodDecl,
      method.isEligible .inherited = (method.isEligible .declared && !method.isStatic) := by
    intro method
    simp [MethodDecl.isEligible, declared_ne_inherited]
  rw [Level.eligibleMethods, filter_eq_filter_instance heligible]
  rfl

/-- The static methods of a level are read when all the methods that it declares are. -/
theorem exists_eligibleMethods_staticOnly {resolve : Token → Option (Handle κ)} {level : Level}
    {methods : List (Member.Method (MemberType κ))}
    (h : level.eligibleMethods resolve .declared = .ok methods) :
    ∃ static, level.staticOnly.eligibleMethods resolve .declared = .ok static := by
  have hswap : level.staticOnly.methods.filter (·.isEligible .declared)
      = (level.methods.filter (·.isEligible .declared)).filter (·.isStatic) := by
    simp only [Level.staticOnly, List.filter_filter, Bool.and_comm]
  obtain ⟨static, hstatic⟩ := exists_mapM_filter_eq_ok h (·.isStatic)
  refine ⟨static, ?_⟩
  rw [Level.eligibleMethods, hswap]
  exact hstatic

/-! ## Listings of single levels -/

theorem listFields_singleton (resolve : Token → Option (Handle κ)) (level : Level) :
    listFields resolve [level] = level.listedFields resolve .declared := by
  simp [listFields, eachLevel]

theorem listProperties_singleton (resolve : Token → Option (Handle κ)) (level : Level) :
    listProperties resolve [level] = level.eligibleProperties resolve .declared := by
  simp [listProperties, eachLevel, mostDerived_cons, mostDerivedFrom]

/-- A listing of methods reads the eligible ones of all levels and then hides. -/
theorem listMethods_eq_ok_iff [DecidableEq ν] {spell : MemberType κ → ν}
    {resolve : Token → Option (Handle κ)} {levels : List Level}
    {methods : List (Member.Method (MemberType κ))} :
    listMethods spell resolve levels = .ok methods ↔
      ∃ eligible, (eachLevel (Level.eligibleMethods resolve) levels).mapM id = .ok eligible ∧
        methods = mostDerived (methodKey spell) eligible := by
  rw [listMethods, bind_eq_ok_iff]
  constructor
  · rintro ⟨eligible, heligible, hmethods⟩
    exact ⟨eligible, heligible, (Except.ok.inj hmethods).symm⟩
  · rintro ⟨eligible, heligible, rfl⟩
    exact ⟨eligible, heligible, rfl⟩

theorem listMethods_singleton [DecidableEq ν] {spell : MemberType κ → ν}
    {resolve : Token → Option (Handle κ)} {level : Level}
    {methods : List (Member.Method (MemberType κ))}
    (h : level.eligibleMethods resolve .declared = .ok methods) :
    listMethods spell resolve [level] = .ok methods := by
  refine listMethods_eq_ok_iff.2 ⟨[methods], ?_, ?_⟩
  · exact mapM_cons_eq_ok_iff.2 ⟨methods, [], h, rfl, rfl⟩
  · simp [mostDerived_cons, mostDerivedFrom]

/-! ## Composition of listings -/

/-- How the members of a type are made of its own and of those that its base hands down.
`handedDown` would be listed for the base if it declared no static members. The base itself lists
all that it declares, and of what its instance members let through it leaves out what its static
members hide. The type lists its own, and of what is handed down it leaves out what its own hide. -/
structure InheritsFrom [DecidableEq ν] (key : α → ν)
    (own baseOwn baseInstance baseStatic handedDown ofType ofBase : List α) : Prop where
  base_eq : ∃ inherited, handedDown = baseInstance ++ inherited ∧
    ofBase = baseOwn ++ inherited.filter fun member => key member ∉ baseStatic.map key
  type_eq : ofType = own ++ handedDown.filter fun member => key member ∉ own.map key
  mem_or : ∀ member ∈ ofType, member ∈ own ∨ member ∈ ofBase ∨
    ∃ hider ∈ baseStatic, key hider = key member

/-- Hiding makes listings compose. -/
theorem inheritsFrom_of_levels [DecidableEq ν] (key : α → ν) (own : List α)
    {baseOwn baseInstance baseStatic : List α} (above : List (List α))
    (hmem : ∀ member, member ∈ baseOwn ↔ member ∈ baseStatic ∨ member ∈ baseInstance) :
    InheritsFrom key own baseOwn baseInstance baseStatic (mostDerived key (baseInstance :: above))
      (mostDerived key (own :: baseInstance :: above)) (mostDerived key (baseOwn :: above)) := by
  have hkeys : ∀ k, k ∈ baseOwn.map key ↔ k ∈ baseStatic.map key ∨ k ∈ baseInstance.map key := by
    intro k
    simp only [List.mem_map, hmem, or_and_right, exists_or]
  -- `inherited` is what the instance members of the base let through.
  obtain ⟨inherited, hdown, hbase, htype⟩ := exists_inherited key own above hkeys
  have hfilter : ∀ hiders members : List α,
      (members.filter fun member => !(hiders.map key).contains (key member))
        = members.filter fun member => key member ∉ hiders.map key := by
    intro hiders members
    apply List.filter_congr
    intro member _
    rw [List.contains_eq_mem, decide_not]
  rw [hfilter] at hbase htype
  refine ⟨⟨inherited, hdown, hbase⟩, by rw [htype, hdown], ?_⟩
  intro member hmember
  rw [htype, List.mem_append, List.mem_filter, List.mem_append] at hmember
  rw [hbase, List.mem_append, List.mem_filter]
  rcases hmember with hown | ⟨hinst | hinherited, -⟩
  · exact Or.inl hown
  · exact Or.inr (Or.inl (Or.inl ((hmem member).2 (Or.inr hinst))))
  · by_cases hhidden : key member ∈ baseStatic.map key
    · exact Or.inr (Or.inr (List.mem_map.1 hhidden))
    · exact Or.inr (Or.inl (Or.inr ⟨hinherited, by simpa using hhidden⟩))

/-- What is chosen from a list is chosen from its static members or from the others. -/
theorem exists_mem_filter_iff_static_or {members : List α} {chosen isStatic : α → Bool}
    {p : α → Prop} :
    (∃ member ∈ members.filter chosen, p member) ↔
      (∃ member ∈ (members.filter isStatic).filter chosen, p member) ∨
        ∃ member ∈ (members.filter fun member => !isStatic member).filter chosen, p member := by
  simp only [List.mem_filter]
  constructor
  · rintro ⟨member, ⟨hmember, hchosen⟩, hp⟩
    cases hstatic : isStatic member with
    | true => exact Or.inl ⟨member, ⟨⟨hmember, hstatic⟩, hchosen⟩, hp⟩
    | false => exact Or.inr ⟨member, ⟨⟨hmember, by simp [hstatic]⟩, hchosen⟩, hp⟩
  · rintro (⟨member, ⟨⟨hmember, -⟩, hchosen⟩, hp⟩ | ⟨member, ⟨⟨hmember, -⟩, hchosen⟩, hp⟩)
    · exact ⟨member, ⟨hmember, hchosen⟩, hp⟩
    · exact ⟨member, ⟨hmember, hchosen⟩, hp⟩

section Chain

variable (resolve : Token → Option (Handle κ)) (own base : Level) (above : List Level)

/-- The fields of a type are its own and then those that its base hands down. -/
theorem listFields_compose :
    ∃ inherited,
      listFields resolve (base :: above) = listFields resolve [base] ++ inherited ∧
      listFields resolve (own :: base :: above)
        = listFields resolve [own] ++ (listFields resolve [base.instanceOnly] ++ inherited) := by
  refine ⟨(above.map (Level.listedFields resolve .inherited)).flatten, ?_, ?_⟩
  · rw [listFields_singleton]
    rfl
  · rw [listFields_singleton, listFields_singleton, ← listedFields_inherited]
    rfl

/-- The properties of a type are its own and then those that its base hands down, less those that
have the name of an own one. -/
theorem listProperties_compose :
    InheritsFrom (·.name) (listProperties resolve [own]) (listProperties resolve [base])
      (listProperties resolve [base.instanceOnly]) (listProperties resolve [base.staticOnly])
      (listProperties resolve (base.instanceOnly :: above))
      (listProperties resolve (own :: base :: above)) (listProperties resolve (base :: above)) := by
  -- A property that the base declares is listed with its static ones or with the others.
  have hmem : ∀ property, property ∈ base.eligibleProperties resolve .declared ↔
      property ∈ base.staticOnly.eligibleProperties resolve .declared ∨
        property ∈ base.instanceOnly.eligibleProperties resolve .declared := by
    intro property
    rw [Level.eligibleProperties, Level.eligibleProperties, Level.eligibleProperties, List.mem_map,
      List.mem_map, List.mem_map]
    exact exists_mem_filter_iff_static_or
  simp only [listProperties_singleton]
  rw [listProperties, listProperties, listProperties, eachLevel, eachLevel, eachLevel,
    List.map_cons, eligibleProperties_inherited]
  exact inheritsFrom_of_levels _ _ _ hmem

/-- The methods of a type are its own and then those that its base hands down, less those that have
the key of an own one. -/
theorem listMethods_compose [DecidableEq ν] {spell : MemberType κ → ν}
    {ofType ofBase : List (Member.Method (MemberType κ))}
    (htype : listMethods spell resolve (own :: base :: above) = .ok ofType)
    (hbase : listMethods spell resolve (base :: above) = .ok ofBase) :
    ∃ ownMethods baseOwn baseInstance baseStatic handedDown,
      listMethods spell resolve [own] = .ok ownMethods ∧
      listMethods spell resolve [base] = .ok baseOwn ∧
      listMethods spell resolve [base.instanceOnly] = .ok baseInstance ∧
      listMethods spell resolve [base.staticOnly] = .ok baseStatic ∧
      listMethods spell resolve (base.instanceOnly :: above) = .ok handedDown ∧
      InheritsFrom (methodKey spell) ownMethods baseOwn baseInstance baseStatic handedDown ofType
        ofBase := by
  obtain ⟨eligible, heligible, rfl⟩ := listMethods_eq_ok_iff.1 htype
  obtain ⟨eligible', heligible', rfl⟩ := listMethods_eq_ok_iff.1 hbase
  rw [eachLevel, List.map_cons] at heligible
  obtain ⟨ownMethods, rest, hown, hrest, rfl⟩ := mapM_cons_eq_ok_iff.1 heligible
  obtain ⟨baseInstance, others, hinstance, hothers, rfl⟩ := mapM_cons_eq_ok_iff.1 hrest
  obtain ⟨baseOwn, others', hbaseOwn, hothers', rfl⟩ := mapM_cons_eq_ok_iff.1 heligible'
  -- Both listings read the levels above the base, and they read them alike.
  obtain rfl : others = others' := Except.ok.inj (hothers.symm.trans hothers')
  rw [id, eligibleMethods_inherited] at hinstance
  obtain ⟨baseStatic, hstatic⟩ := exists_eligibleMethods_staticOnly hbaseOwn
  have hmem : ∀ method, method ∈ baseOwn ↔ method ∈ baseStatic ∨ method ∈ baseInstance := by
    intro method
    rw [mem_of_mapM_eq_ok hbaseOwn, mem_of_mapM_eq_ok hstatic, mem_of_mapM_eq_ok hinstance]
    exact exists_mem_filter_iff_static_or
  refine ⟨ownMethods, baseOwn, baseInstance, baseStatic,
    mostDerived (methodKey spell) (baseInstance :: others), listMethods_singleton hown,
    listMethods_singleton hbaseOwn, listMethods_singleton hinstance, listMethods_singleton hstatic,
    listMethods_eq_ok_iff.2 ⟨_, mapM_cons_eq_ok_iff.2 ⟨_, _, hinstance, hothers, rfl⟩, rfl⟩, ?_⟩
  exact inheritsFrom_of_levels _ _ _ hmem

end Chain

/-! ## Types and their bases -/

namespace Graph

/-- The members listed for a type are its own and then those its base hands down, when the base
resolves to a type that the binary defines and the chain of the base does not come back to the type.
-/
theorem members_compose (graph : Graph) {key baseKey : Nat} (hbase : graph.base? key = some baseKey)
    (hdefined : (graph.token baseKey).isDefinition = true)
    (hacyclic : graph.token key ∉ (graph.lineage baseKey).map graph.token) :
    let own := (graph.row key).level
    let base := (graph.row baseKey).level
    let above := (graph.levels baseKey).tail
    (∃ inherited,
      graph.fields baseKey = listFields graph.resolve [base] ++ inherited ∧
      graph.fields key = listFields graph.resolve [own]
        ++ (listFields graph.resolve [base.instanceOnly] ++ inherited)) ∧
    InheritsFrom (·.name) (listProperties graph.resolve [own]) (listProperties graph.resolve [base])
      (listProperties graph.resolve [base.instanceOnly])
      (listProperties graph.resolve [base.staticOnly])
      (listProperties graph.resolve (base.instanceOnly :: above))
      (graph.properties key) (graph.properties baseKey) ∧
    ∀ ofType ofBase, graph.methods key = .ok ofType → graph.methods baseKey = .ok ofBase →
      ∃ ownMethods baseOwn baseInstance baseStatic handedDown,
        listMethods graph.spelling? graph.resolve [own] = .ok ownMethods ∧
        listMethods graph.spelling? graph.resolve [base] = .ok baseOwn ∧
        listMethods graph.spelling? graph.resolve [base.instanceOnly] = .ok baseInstance ∧
        listMethods graph.spelling? graph.resolve [base.staticOnly] = .ok baseStatic ∧
        listMethods graph.spelling? graph.resolve (base.instanceOnly :: above) = .ok handedDown ∧
        InheritsFrom (methodKey graph.spelling?) ownMethods baseOwn baseInstance baseStatic
          handedDown ofType ofBase := by
  intro own base above
  have hlevelsBase : graph.levels baseKey = base :: above := rfl
  have hlevels : graph.levels key = own :: base :: above := by
    rw [levels, lineage_eq_cons hbase hdefined hacyclic, List.map_cons]
    exact congrArg (own :: ·) hlevelsBase
  rw [fields, fields, properties, properties, methods, methods, hlevels, hlevelsBase]
  exact ⟨listFields_compose graph.resolve own base above,
    listProperties_compose graph.resolve own base above,
    fun ofType ofBase => listMethods_compose graph.resolve own base above⟩

end Graph

/-! ## A static member in the middle of a chain -/

namespace Shadowing

/-- A public property over whole numbers. -/
def property (getter : Flags) (setter : Option Flags) : PropertyRow :=
  ⟨"Size", .builtIn .int32, some ⟨getter, false⟩, setter.map (⟨·, false⟩)⟩

/-- A method that takes a whole number. -/
def method (flags : Flags) (parameter : String) : MethodRow :=
  ⟨"Open", flags, ⟨.builtIn .void, false⟩, [⟨.builtIn .int32, false⟩], [],
    [⟨1, parameter, 0, false⟩], false⟩

/-- A class. -/
def type (token : UInt32) (name : String) (base : Option Nat) (properties : List PropertyRow)
    (methods : List MethodRow) : Row :=
  ⟨⟨token⟩, "Lib", name, 0, false, base, [], [], [], [], properties, methods, false, true⟩

/-- Three types in a chain. The middle one has a static property and a static method that share
their name and key with members of the most distant one. -/
def graph : Graph :=
  ⟨#[type 0x02000002 "Derived" (some 1) [] [],
    type 0x02000003 "Middle" (some 2) [property 0x16 none] [method 0x16 "shared"],
    type 0x02000004 "Root" none [property 0x06 (some 0x06)] [method 0x06 "own"]]⟩

/-- The names of a method's parameters, by which the two methods differ. -/
def parameterNames (method : Member.Method (MemberType Nat)) : List String :=
  method.parameters.map (·.name)

theorem exists_methods_derived :
    ∃ methods, graph.methods 0 = .ok methods ∧ methods.map parameterNames = [["own"]] := by
  apply exists_ok_of_toOption_map
  decide +kernel

theorem exists_methods_middle :
    ∃ methods, graph.methods 1 = .ok methods ∧ methods.map parameterNames = [["shared"]] := by
  apply exists_ok_of_toOption_map
  decide +kernel

theorem exists_mem_not_mem {α β : Type} {view : α → β} {members others : List α} {b : β}
    (hmembers : b ∈ members.map view) (hothers : b ∉ others.map view) :
    ∃ member ∈ members, member ∉ others := by
  obtain ⟨member, hmember, rfl⟩ := List.mem_map.1 hmembers
  exact ⟨member, hmember, fun hother => hothers (List.mem_map_of_mem hother)⟩

end Shadowing

open Shadowing in
/-- A static member that a type does not hand down still hides members of more distant bases in the
type's own list. A derived type that declares nothing lists these members, and its base does not. -/
theorem inherited_member_not_listed_for_base :
    graph.base? 0 = some 1 ∧ (graph.token 1).isDefinition = true ∧
      graph.token 0 ∉ (graph.lineage 1).map graph.token ∧
      (∃ property ∈ graph.properties 0, property ∉ graph.properties 1) ∧
      listProperties graph.resolve [(graph.row 0).level] = [] ∧
      ∃ ofType ofBase, graph.methods 0 = .ok ofType ∧ graph.methods 1 = .ok ofBase ∧
        listMethods graph.spelling? graph.resolve [(graph.row 0).level] = .ok [] ∧
        ∃ method ∈ ofType, method ∉ ofBase := by
  obtain ⟨ofType, htype, hown⟩ := exists_methods_derived
  obtain ⟨ofBase, hbase, hshared⟩ := exists_methods_middle
  refine ⟨by decide +kernel, by decide +kernel, by decide +kernel, ?_, by rfl, ofType, ofBase,
    htype, hbase, by rfl, ?_⟩
  · have hwritable : true ∈ (graph.properties 0).map (·.canWrite) := by decide +kernel
    have hreadOnly : true ∉ (graph.properties 1).map (·.canWrite) := by decide +kernel
    exact exists_mem_not_mem hwritable hreadOnly
  · have hlisted : ["own"] ∈ ofType.map parameterNames := by rw [hown]; decide
    have habsent : ["own"] ∉ ofBase.map parameterNames := by rw [hshared]; decide
    exact exists_mem_not_mem hlisted habsent

open Shadowing in
/-- The members of the derived type compose of what the middle one hands down, although that one
lists other members itself. -/
theorem members_compose_past_static :
    ∃ ownProperties baseOwn baseInstance baseStatic handedDown,
      InheritsFrom (·.name) ownProperties baseOwn baseInstance baseStatic handedDown
        (graph.properties 0) (graph.properties 1) ∧
      ∃ ofType ofBase, graph.methods 0 = .ok ofType ∧ graph.methods 1 = .ok ofBase ∧
        ∃ ownMethods baseOwn baseInstance baseStatic handedDown,
          InheritsFrom (methodKey graph.spelling?) ownMethods baseOwn baseInstance baseStatic
            handedDown ofType ofBase := by
  obtain ⟨ofType, htype, -⟩ := exists_methods_derived
  obtain ⟨ofBase, hbase, -⟩ := exists_methods_middle
  have hbaseKey : graph.base? 0 = some 1 := by decide +kernel
  obtain ⟨-, hproperties, hmethods⟩ := Graph.members_compose graph hbaseKey (by decide +kernel)
    (by decide +kernel)
  obtain ⟨ownMethods, baseOwn, baseInstance, baseStatic, handedDown, -, -, -, -, -, hinherits⟩ :=
    hmethods ofType ofBase htype hbase
  exact ⟨_, _, _, _, _, hproperties, ofType, ofBase, htype, hbase, ownMethods, baseOwn,
    baseInstance, baseStatic, handedDown, hinherits⟩

end TypeSurface.Metadata
