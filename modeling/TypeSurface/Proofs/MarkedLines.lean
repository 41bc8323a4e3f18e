import TypeSurface.Description.Lines
import TypeSurface.Metadata.View
import TypeSurface.Proofs.Answers
import TypeSurface.Proofs.BuriedMarks
import TypeSurface.Proofs.MethodSources

/-!
# Arity marks in lines

The lines of a description show the accent of an arity mark exactly when some listed member has a
type that buries a mark (`accent_in_lines_iff`). Bases, interfaces, generic parameters and the type
itself never show one. `reference_to_list_shows_accent` is the shortest way to such a line: a
parameter that is passed by reference and whose type is generic.
-/

set_option autoImplicit false

namespace TypeSurface

open Naming

/-! ## Accents in lines -/

namespace Description

variable {α : Type}

theorem not_holdsAccent_flagLine (value : Bool) : ¬HoldsAccent (flagLine value) := by
  cases value <;> decide

theorem not_holdsAccent_countLine (number : Nat) : ¬HoldsAccent (countLine number) := by
  intro h
  rw [HoldsAccent, countLine, Nat.toList_repr] at h
  exact absurd (Nat.isDigit_of_mem_toDigits (by decide) (by decide) h) (by decide)

/-- Accents of a block are those of its entries. -/
theorem accent_in_block_iff {entry : α → List String} {entries : List α} :
    (∃ line ∈ block entry entries, HoldsAccent line) ↔
      ∃ e ∈ entries, ∃ line ∈ entry e, HoldsAccent line := by
  constructor
  · rintro ⟨line, hline, haccent⟩
    rcases List.mem_cons.1 hline with rfl | hline
    · exact absurd haccent (not_holdsAccent_countLine entries.length)
    · obtain ⟨e, he, hline⟩ := List.mem_flatMap.1 hline
      exact ⟨e, he, line, hline, haccent⟩
  · rintro ⟨e, he, line, hline, haccent⟩
    exact ⟨line, List.mem_cons_of_mem _ (List.mem_flatMap.2 ⟨e, he, hline⟩), haccent⟩

theorem accent_in_fieldLines_iff {field : Member.Field String} :
    (∃ line ∈ fieldLines field, HoldsAccent line) ↔
      HoldsAccent field.name ∨ HoldsAccent field.type := by
  simp [fieldLines]

theorem accent_in_propertyLines_iff {property : Member.Property String} :
    (∃ line ∈ propertyLines property, HoldsAccent line) ↔
      HoldsAccent property.name ∨ HoldsAccent property.type := by
  simp [propertyLines, not_holdsAccent_flagLine]

theorem accent_in_parameterLines_iff {parameter : Member.Parameter String} :
    (∃ line ∈ parameterLines parameter, HoldsAccent line) ↔
      HoldsAccent parameter.name ∨ HoldsAccent parameter.type := by
  simp [parameterLines, not_holdsAccent_flagLine]

theorem accent_in_methodLines_iff {method : Member.Method String} :
    (∃ line ∈ methodLines method, HoldsAccent line) ↔
      (HoldsAccent method.name ∨ HoldsAccent method.result) ∨
        ∃ parameter ∈ method.parameters,
          HoldsAccent parameter.name ∨ HoldsAccent parameter.type := by
  simp only [methodLines, List.mem_cons, or_and_right, exists_or, exists_eq_left,
    accent_in_block_iff, accent_in_parameterLines_iff, or_assoc]

/-- Accents of a description whose type is named as the runtime does are those of its references and
members. -/
theorem accent_in_lines_iff_texts {description : Description} (hname : IsTypeName description.name)
    (hns : ¬HoldsAccent description.ns) :
    (∃ line ∈ description.lines, HoldsAccent line) ↔
      HoldsAccent description.baseType ∨
      (∃ interface ∈ description.interfaces, HoldsAccent interface) ∨
      (∃ parameter ∈ description.genericParameters, HoldsAccent parameter) ∨
      (∃ field ∈ description.fields, HoldsAccent field.name ∨ HoldsAccent field.type) ∨
      (∃ property ∈ description.properties, HoldsAccent property.name ∨ HoldsAccent property.type) ∨
      ∃ method ∈ description.methods, (HoldsAccent method.name ∨ HoldsAccent method.result) ∨
        ∃ parameter ∈ method.parameters,
          HoldsAccent parameter.name ∨ HoldsAccent parameter.type := by
  have hpackage : ¬HoldsAccent (packagePath description.ns) :=
    fun haccent => hns (holdsAccent_of_packagePath haccent)
  have hidentity : (∃ line ∈ [flattenArity description.name, flagLine description.isInterface,
      packagePath description.ns, description.baseType], HoldsAccent line) ↔
      HoldsAccent description.baseType := by
    simp [not_holdsAccent_flagLine, hname.not_holdsAccent_flattenArity, hpackage]
  simp only [lines, List.mem_append, or_and_right, exists_or, accent_in_block_iff,
    accent_in_fieldLines_iff, accent_in_propertyLines_iff, accent_in_methodLines_iff, hidentity,
    List.mem_singleton, exists_eq_left, or_assoc]

end Description

namespace Metadata

variable {κ ν : Type}

/-! ## Well-named members -/

/-- A member or parameter has a name without accents and a well-named type, if any. -/
structure WellNamedMember (name : String) (type : MemberType κ) : Prop where
  name : ¬HoldsAccent name
  type : ∀ handle ∈ type, handle.WellNamed

/-- No name in the declaration of a method holds an accent. -/
structure MethodDecl.WellNamed (decl : MethodDecl) : Prop where
  name : ¬HoldsAccent decl.name
  genericParameters : ∀ name ∈ decl.genericParameters, ¬HoldsAccent name
  parameters : ∀ parameter ∈ decl.parameters, ¬HoldsAccent parameter.name

/-- No name of a level holds an accent. -/
structure Level.WellNamed (level : Level) : Prop where
  genericParameters : ∀ name ∈ level.genericParameters, ¬HoldsAccent name
  fields : ∀ field ∈ level.fields, ¬HoldsAccent field.name
  properties : ∀ property ∈ level.properties, ¬HoldsAccent property.name
  methods : ∀ method ∈ level.methods, method.WellNamed

theorem not_holdsAccent_of_mem_genericParameterNames {rows : List GenericParameterRow}
    (h : ∀ row ∈ rows, ¬HoldsAccent row.name) : ∀ name ∈ genericParameterNames rows,
    ¬HoldsAccent name := by
  intro name hname
  obtain ⟨row, hrow, rfl⟩ := List.mem_map.1 hname
  exact h row (List.mem_mergeSort.1 hrow)

/-- A well-named row of a method declares a well-named method. -/
theorem MethodRow.WellNamed.decl {row : MethodRow} (h : row.WellNamed) : row.decl.WellNamed where
  name := h.name
  genericParameters := not_holdsAccent_of_mem_genericParameterNames h.genericParameters
  parameters := by
    intro parameter hparameter
    obtain ⟨index, hindex, rfl⟩ := List.mem_mapIdx.1 hparameter
    unfold SignatureParameter.decl
    simp only
    -- A parameter without an annotation, or whose annotation has no name, has the empty name.
    cases hname : (row.annotations.find? fun row => row.sequence == index + 1).bind (·.name) with
    | none => rw [Option.getD_none]; decide
    | some name =>
        obtain ⟨entry, hfound, hentry⟩ := Option.bind_eq_some_iff.1 hname
        exact h.annotations entry (List.mem_of_find?_eq_some hfound) name hentry

/-- A well-named row declares a well-named level. -/
theorem Row.WellNamed.level {row : Row} (h : row.WellNamed) : row.level.WellNamed where
  genericParameters := not_holdsAccent_of_mem_genericParameterNames h.genericParameters
  fields := by
    intro field hfield
    obtain ⟨fieldRow, hrow, rfl⟩ := List.mem_map.1 hfield
    exact h.fields fieldRow hrow
  properties := by
    intro property hproperty
    obtain ⟨propertyRow, hrow, rfl⟩ := List.mem_map.1 hproperty
    exact h.properties propertyRow hrow
  methods := by
    intro method hmethod
    obtain ⟨methodRow, hrow, rfl⟩ := List.mem_map.1 hmethod
    exact (h.methods methodRow (List.mem_filter.1 hrow).1).decl

section Listing

variable {resolve : Token → Option (Handle κ)}
  (hresolve : ∀ token handle, resolve token = some handle → handle.WellNamed)

include hresolve

theorem Level.WellNamed.scope {level : Level} (h : level.WellNamed) :
    (level.scope resolve).WellNamed :=
  ⟨hresolve, h.genericParameters, fun _ hname => nomatch hname⟩

theorem Level.WellNamed.methodScope {level : Level} (h : level.WellNamed) {decl : MethodDecl}
    (hdecl : decl.WellNamed) : (level.methodScope resolve decl).WellNamed :=
  ⟨hresolve, h.genericParameters, hdecl.genericParameters⟩

variable {levels : List Level} (hlevels : ∀ level ∈ levels, level.WellNamed)

include hlevels

/-- Listed fields are well named. -/
theorem wellNamed_listFields {field : Member.Field (MemberType κ)}
    (h : field ∈ listFields resolve levels) : WellNamedMember field.name field.type := by
  rw [listFields, eachLevel_eq_mapIdx] at h
  obtain ⟨listed, hlisted, hfield⟩ := List.mem_flatten.1 h
  obtain ⟨number, hnumber, rfl⟩ := List.mem_mapIdx.1 hlisted
  obtain ⟨decl, hdecl, rfl⟩ := List.mem_map.1 hfield
  have hlevel := hlevels _ (List.getElem_mem hnumber)
  exact ⟨hlevel.fields decl (List.mem_filter.1 hdecl).1,
    fun _ => Scope.wellNamed_of_interpretOrNone (hlevel.scope hresolve)⟩

/-- Listed properties are well named. -/
theorem wellNamed_listProperties {property : Member.Property (MemberType κ)}
    (h : property ∈ listProperties resolve levels) :
    WellNamedMember property.name property.type := by
  rw [listProperties, eachLevel_eq_mapIdx] at h
  obtain ⟨number, listed, hlisted, hproperty, -⟩ := mem_mostDerived_iff.1 h
  obtain ⟨number', hnumber, rfl⟩ := List.mem_mapIdx.1 (List.mem_of_getElem? hlisted)
  obtain ⟨decl, hdecl, rfl⟩ := List.mem_map.1 hproperty
  have hlevel := hlevels _ (List.getElem_mem hnumber)
  exact ⟨hlevel.properties decl (List.mem_filter.1 hdecl).1,
    fun _ => Scope.wellNamed_of_interpretOrNone (hlevel.scope hresolve)⟩

omit hresolve hlevels in
/-- A parameter that is read in a well-named scope is well named, also if it is passed by
reference. -/
theorem wellNamed_readParameter {scope : Scope κ} (hscope : scope.WellNamed) {decl : ParameterDecl}
    (hname : ¬HoldsAccent decl.name) {parameter : Member.Parameter (MemberType κ)}
    (h : decl.read scope = .ok parameter) : WellNamedMember parameter.name parameter.type := by
  obtain ⟨type, -, hparameter⟩ := ParameterDecl.read_eq_ok_iff.1 h
  refine ⟨?_, hscope.keeps.of_readParameter h⟩
  rw [hparameter]
  exact hname

/-- Listed methods are well named, and so are their parameters. -/
theorem wellNamed_listMethods [DecidableEq ν] {spell : MemberType κ → ν}
    {methods : List (Member.Method (MemberType κ))}
    (h : listMethods spell resolve levels = .ok methods) {method : Member.Method (MemberType κ)}
    (hmethod : method ∈ methods) : WellNamedMember method.name method.result ∧
      ∀ parameter ∈ method.parameters, WellNamedMember parameter.name parameter.type := by
  -- A listed method was read from a declaration of one of the levels.
  rw [listMethods_eq_map_listSourced] at h
  obtain ⟨listed, hlisted, rfl⟩ := map_eq_ok_iff.1 h
  obtain ⟨source, hsource, rfl⟩ := List.mem_map.1 hmethod
  obtain ⟨level, hlevel, hdecl, hread⟩ := (isSource_of_mem_listSourced hlisted hsource).exists_level
  have hwell := hlevels level (List.mem_of_getElem? hlevel)
  have hmethodDecl := hwell.methods source.decl (List.mem_of_getElem? hdecl)
  have hscope := hwell.methodScope hresolve hmethodDecl
  obtain ⟨hname, hresult, hparameters⟩ := MethodDecl.read_eq_ok_iff.1 hread
  rw [hname]
  refine ⟨⟨hmethodDecl.name, fun handle hhandle => ?_⟩, ?_⟩
  · rw [hhandle] at hresult
    exact hscope.keeps.of_interpretAt source.decl.result hresult
  · intro parameter hparameter
    obtain ⟨decl, hmem, hparam⟩ := (mem_of_mapM_eq_ok hparameters parameter).1 hparameter
    exact wellNamed_readParameter hscope (hmethodDecl.parameters decl hmem) hparam

end Listing

/-! ## Views of well-named graphs -/

namespace Graph

/-- A listed member of a type has the handle for its type, or a parameter of a listed method has. -/
inductive Mentions (graph : Graph) (key : Nat) : Handle Nat → Prop where
  | field {field : Member.Field (MemberType Nat)} {handle : Handle Nat} :
      field ∈ graph.fields key → handle ∈ field.type → Mentions graph key handle
  | property {property : Member.Property (MemberType Nat)} {handle : Handle Nat} :
      property ∈ graph.properties key → handle ∈ property.type → Mentions graph key handle
  | result {methods : List (Member.Method (MemberType Nat))}
      {method : Member.Method (MemberType Nat)} {handle : Handle Nat} :
      graph.methods key = .ok methods → method ∈ methods → handle ∈ method.result →
      Mentions graph key handle
  | parameter {methods : List (Member.Method (MemberType Nat))}
      {method : Member.Method (MemberType Nat)} {parameter : Member.Parameter (MemberType Nat)}
      {handle : Handle Nat} : graph.methods key = .ok methods → method ∈ methods →
      parameter ∈ method.parameters → handle ∈ parameter.type → Mentions graph key handle

variable {graph : Graph} (hgraph : graph.WellNamed)

include hgraph

/-- The texts of a well-named member hold an accent exactly when its handle buries a mark. -/
theorem holdsAccent_member_iff {name : String} {type : MemberType Nat} {ref : Option TypeRef}
    (hmember : WellNamedMember name type) (href : graph.memberReference type = .ok ref) :
    HoldsAccent name ∨ HoldsAccent (TypeRef.spellingOrEmpty ref) ↔
      ∃ handle ∈ type, handle.BuriesMark := by
  have hname := hmember.name
  rw [or_iff_right hname]
  cases type with
  | none =>
      obtain rfl : none = ref := Except.ok.inj href
      have hempty : ¬HoldsAccent "" := by decide
      exact ⟨fun h => absurd h hempty, fun ⟨_, hmem, _⟩ => nomatch hmem⟩
  | some handle =>
      obtain ⟨found, hfound, rfl⟩ := map_eq_ok_iff.1 href
      have hiff := holdsAccent_spelling_iff hgraph (hmember.type handle rfl)
        (reference_eq_ok_iff.1 hfound)
      exact ⟨fun h => ⟨handle, rfl, hiff.1 h⟩, fun | ⟨_, rfl, h⟩ => hiff.2 h⟩

theorem not_holdsAccent_of_reference_handle {key : Nat} {ref : TypeRef}
    (h : graph.reference (graph.handle key) = .ok ref) : ¬HoldsAccent ref.spelling := by
  rw [holdsAccent_spelling_iff hgraph (wellNamed_handle hgraph key) (reference_eq_ok_iff.1 h)]
  exact not_buriesMark_handle graph key

/-- The texts of a viewed field hold an accent exactly when its handle buries a mark. -/
theorem accent_in_viewField_iff {field : Member.Field (MemberType Nat)}
    (hfield : WellNamedMember field.name field.type) {viewed : Member.Field (Option TypeRef)}
    (h : graph.viewField field = .ok viewed) :
    HoldsAccent (viewed.map TypeRef.spellingOrEmpty).name ∨
        HoldsAccent (viewed.map TypeRef.spellingOrEmpty).type ↔
      ∃ handle ∈ field.type, handle.BuriesMark := by
  obtain ⟨ref, href, hviewed⟩ := bind_eq_ok_iff.1 h
  obtain rfl := Except.ok.inj hviewed
  exact holdsAccent_member_iff hgraph hfield href

/-- The texts of a viewed property hold an accent exactly when its handle buries a mark. -/
theorem accent_in_viewProperty_iff {property : Member.Property (MemberType Nat)}
    (hproperty : WellNamedMember property.name property.type)
    {viewed : Member.Property (Option TypeRef)} (h : graph.viewProperty property = .ok viewed) :
    HoldsAccent (viewed.map TypeRef.spellingOrEmpty).name ∨
        HoldsAccent (viewed.map TypeRef.spellingOrEmpty).type ↔
      ∃ handle ∈ property.type, handle.BuriesMark := by
  obtain ⟨ref, href, hviewed⟩ := bind_eq_ok_iff.1 h
  obtain rfl := Except.ok.inj hviewed
  exact holdsAccent_member_iff hgraph hproperty href

/-- The texts of a viewed parameter hold an accent exactly when its handle buries a mark. -/
theorem accent_in_viewParameter_iff {parameter : Member.Parameter (MemberType Nat)}
    (hparameter : WellNamedMember parameter.name parameter.type)
    {viewed : Member.Parameter (Option TypeRef)} (h : graph.viewParameter parameter = .ok viewed) :
    HoldsAccent (viewed.map TypeRef.spellingOrEmpty).name ∨
        HoldsAccent (viewed.map TypeRef.spellingOrEmpty).type ↔
      ∃ handle ∈ parameter.type, handle.BuriesMark := by
  obtain ⟨ref, href, hviewed⟩ := bind_eq_ok_iff.1 h
  obtain rfl := Except.ok.inj hviewed
  exact holdsAccent_member_iff hgraph hparameter href

/-- The texts of a viewed method hold an accent exactly when the handle of its result or of a
parameter buries a mark. -/
theorem accent_in_viewMethod_iff {method : Member.Method (MemberType Nat)}
    (hresult : WellNamedMember method.name method.result)
    (hparameters : ∀ parameter ∈ method.parameters, WellNamedMember parameter.name parameter.type)
    {viewed : Member.Method (Option TypeRef)} (h : graph.viewMethod method = .ok viewed) :
    (HoldsAccent (viewed.map TypeRef.spellingOrEmpty).name ∨
        HoldsAccent (viewed.map TypeRef.spellingOrEmpty).result) ∨
        (∃ parameter ∈ (viewed.map TypeRef.spellingOrEmpty).parameters,
          HoldsAccent parameter.name ∨ HoldsAccent parameter.type) ↔
      (∃ handle ∈ method.result, handle.BuriesMark) ∨
        ∃ parameter ∈ method.parameters, ∃ handle ∈ parameter.type, handle.BuriesMark := by
  obtain ⟨ref, href, h⟩ := bind_eq_ok_iff.1 h
  obtain ⟨parameters, hmapM, hviewed⟩ := bind_eq_ok_iff.1 h
  obtain rfl := Except.ok.inj hviewed
  refine or_congr (holdsAccent_member_iff hgraph hresult href) ?_
  exact exists_mem_map_iff_of_mapM_eq_ok hmapM fun parameter hparameter viewed hviewed =>
    accent_in_viewParameter_iff hgraph (hparameters parameter hparameter) hviewed

theorem wellNamed_levels (key : Nat) : ∀ level ∈ graph.levels key, level.WellNamed := by
  intro level hlevel
  obtain ⟨base, -, rfl⟩ := List.mem_map.1 hlevel
  exact (wellNamed_row hgraph base).level

omit hgraph in
/-- The handles that bury a mark belong to fields, properties or methods. -/
theorem exists_mentions_iff {key : Nat} {methods : List (Member.Method (MemberType Nat))}
    (hmethods : graph.methods key = .ok methods) {p : Handle Nat → Prop} :
    (∃ handle, graph.Mentions key handle ∧ p handle) ↔
      (∃ field ∈ graph.fields key, ∃ handle ∈ field.type, p handle) ∨
      (∃ property ∈ graph.properties key, ∃ handle ∈ property.type, p handle) ∨
      ∃ method ∈ methods, (∃ handle ∈ method.result, p handle) ∨
        ∃ parameter ∈ method.parameters, ∃ handle ∈ parameter.type, p handle := by
  constructor
  · rintro ⟨handle, hmentions, hp⟩
    cases hmentions with
    | field hfield hhandle => exact Or.inl ⟨_, hfield, handle, hhandle, hp⟩
    | property hproperty hhandle => exact Or.inr (Or.inl ⟨_, hproperty, handle, hhandle, hp⟩)
    | result hlisted hmethod hhandle =>
        obtain rfl := Except.ok.inj (hmethods.symm.trans hlisted)
        exact Or.inr (Or.inr ⟨_, hmethod, Or.inl ⟨handle, hhandle, hp⟩⟩)
    | parameter hlisted hmethod hparameter hhandle =>
        obtain rfl := Except.ok.inj (hmethods.symm.trans hlisted)
        exact Or.inr (Or.inr ⟨_, hmethod, Or.inr ⟨_, hparameter, handle, hhandle, hp⟩⟩)
  · rintro (⟨field, hfield, handle, hhandle, hp⟩ | ⟨property, hproperty, handle, hhandle, hp⟩ |
      ⟨method, hmethod, ⟨handle, hhandle, hp⟩ | ⟨parameter, hparameter, handle, hhandle, hp⟩⟩)
    · exact ⟨handle, .field hfield hhandle, hp⟩
    · exact ⟨handle, .property hproperty hhandle, hp⟩
    · exact ⟨handle, .result hmethods hmethod hhandle, hp⟩
    · exact ⟨handle, .parameter hmethods hmethod hparameter hhandle, hp⟩

/-- The base of a type is spelled without accents. -/
theorem not_holdsAccent_base {key : Nat} {base : Option TypeRef}
    (h : graph.memberReference ((graph.base? key).map graph.handle) = .ok base) :
    ¬HoldsAccent (TypeRef.spellingOrEmpty base) := by
  cases hkey : graph.base? key with
  | none =>
      rw [hkey] at h
      obtain rfl : none = base := Except.ok.inj h
      rw [TypeRef.spellingOrEmpty]
      decide
  | some baseKey =>
      rw [hkey] at h
      obtain ⟨ref, href, rfl⟩ := map_eq_ok_iff.1 h
      exact not_holdsAccent_of_reference_handle hgraph href

theorem not_holdsAccent_interfaces {keys : List Nat} {interfaces : List TypeRef}
    (h : keys.mapM (fun key => graph.reference (graph.handle key)) = .ok interfaces) :
    ¬∃ text ∈ interfaces.map TypeRef.spelling, HoldsAccent text := by
  rintro ⟨text, htext, haccent⟩
  obtain ⟨ref, hmem, rfl⟩ := List.mem_map.1 htext
  obtain ⟨key, -, href⟩ := (mem_of_mapM_eq_ok h ref).1 hmem
  exact not_holdsAccent_of_reference_handle hgraph href haccent

/-- A definition's lines hold an accent exactly when a listed member mentions a buried mark. -/
theorem accent_in_lines_of_definition {key : Nat} {description : Description}
    (h : (graph.view (.definition (graph.row key).id key)).describe = .ok description) :
    (∃ line ∈ description.lines, HoldsAccent line) ↔
      ∃ handle, graph.Mentions key handle ∧ handle.BuriesMark := by
  have hrow := wellNamed_row hgraph key
  have hlevels := wellNamed_levels hgraph key
  have hresolve : ∀ token handle, graph.resolve token = some handle → handle.WellNamed :=
    fun _ _ => wellNamed_resolve hgraph
  obtain ⟨base, interfaces, genericParameters, fields, properties, viewed, hbase, hinterfaces,
    hgenericParameters, hfields, hproperties, hviewed, hdescription⟩ :=
    TypeView.exists_answers_of_describe h
  obtain ⟨methods, hmethods, hviewed⟩ := bind_eq_ok_iff.1 hviewed
  have hname : IsTypeName description.name := by
    rw [hdescription]
    exact hrow.name
  have hns : ¬HoldsAccent description.ns := by
    rw [hdescription]
    show ¬HoldsAccent (graph.row key).id.nsText
    rw [Row.nsText_id]
    exact hrow.ns
  have hparameters : ¬∃ name ∈ genericParameters, HoldsAccent name := by
    obtain rfl := Except.ok.inj hgenericParameters
    rintro ⟨name, hmem, haccent⟩
    exact not_holdsAccent_of_mem_genericParameterNames hrow.genericParameters name hmem haccent
  rw [Description.accent_in_lines_iff_texts hname hns, hdescription, exists_mentions_iff hmethods,
    or_iff_right (not_holdsAccent_base hgraph hbase),
    or_iff_right (not_holdsAccent_interfaces hgraph hinterfaces), or_iff_right hparameters]
  -- What is left are fields, properties and methods, each listed as it is viewed.
  refine or_congr ?_ (or_congr ?_ ?_)
  · exact exists_mem_map_iff_of_mapM_eq_ok hfields fun field hfield viewed hview =>
      accent_in_viewField_iff hgraph (wellNamed_listFields hresolve hlevels hfield) hview
  · exact exists_mem_map_iff_of_mapM_eq_ok hproperties fun property hproperty viewed hview =>
      accent_in_viewProperty_iff hgraph (wellNamed_listProperties hresolve hlevels hproperty) hview
  · refine exists_mem_map_iff_of_mapM_eq_ok hviewed fun method hmethod viewed hview => ?_
    obtain ⟨hresult, hparameters⟩ := wellNamed_listMethods hresolve hlevels hmethods hmethod
    exact accent_in_viewMethod_iff hgraph hresult hparameters hview

/-- In a well-named graph the lines of a description hold an accent exactly when the type is no
generic parameter and a listed member of it has a type that buries a mark. -/
theorem accent_in_lines_iff {key : Nat} {description : Description}
    (h : (graph.view (graph.handle key)).describe = .ok description) :
    (∃ line ∈ description.lines, HoldsAccent line) ↔
      (graph.row key).isGenericParameter = false ∧
        ∃ handle, graph.Mentions key handle ∧ handle.BuriesMark := by
  unfold handle at h
  split at h
  · rename_i hparameter
    have hdescription := (Except.ok.inj h).symm
    have hname : IsTypeName description.name := by
      rw [hdescription]
      exact Or.inl ((wellNamed_row hgraph key).parameter hparameter)
    have hempty : ¬HoldsAccent "" := by decide
    have hns : ¬HoldsAccent description.ns := by
      rw [hdescription]
      exact hempty
    rw [Description.accent_in_lines_iff_texts hname hns, hdescription]
    simp [TypeRef.spellingOrEmpty, hempty, hparameter]
  · rename_i hdefinition
    rw [accent_in_lines_of_definition hgraph h]
    simp [hdefinition]

end Graph

/-! ## A reference to a generic type -/

namespace ReferenceToList

/-- A method with one parameter that is passed by reference. -/
def fill : MethodRow :=
  ⟨"Fill", 0x06, ⟨.builtIn .void, false⟩, [⟨.classType ⟨0x01000001⟩, true⟩], [],
    [⟨1, some "target", 0, false⟩], false⟩

/-- A class without a base. -/
def type (token : UInt32) (ns name : String) (methods : List MethodRow) : Row :=
  ⟨⟨token⟩, ns, name, 0, false, none, [], [], [], [], [], methods, false, true⟩

/-- A class with one method, whose parameter has a generic type. -/
def graph : Graph :=
  ⟨#[type 0x02000002 "Lib" "Holder" [fill],
    type 0x01000001 "System.Collections.Generic" "List`1" []]⟩

theorem wellNamed_type (token : UInt32) {ns name : String} {methods : List MethodRow}
    (hns : ¬HoldsAccent ns) (hname : IsTypeName name) (hmethods : ∀ row ∈ methods, row.WellNamed) :
    (type token ns name methods).WellNamed :=
  ⟨hns, hname, nofun, nofun, nofun, nofun, hmethods⟩

theorem wellNamed_fill : fill.WellNamed := by
  refine ⟨by decide, nofun, fun entry hentry name hname => ?_⟩
  obtain rfl := List.mem_singleton.1 hentry
  obtain rfl := Option.some.inj hname
  decide

theorem wellNamed_graph : graph.WellNamed := by
  intro row hrow
  have hlist : IsTypeName "List`1" := Or.inr ⟨"List".toList, "1".toList, by decide⟩
  rcases List.mem_cons.1 (Array.mem_def.1 hrow) with rfl | hrow
  · refine wellNamed_type _ (by decide) (Or.inl (by decide)) fun method hmethod => ?_
    obtain rfl := List.mem_singleton.1 hmethod
    exact wellNamed_fill
  · obtain rfl := List.mem_singleton.1 hrow
    exact wellNamed_type _ (by decide) hlist nofun

theorem describe_graph : (graph.view (graph.handle 0)).describe
    = .ok ⟨"Lib", "Holder", false, "", [], [], [], [],
      [⟨"Fill", "Void", [⟨"target", "cs.system.collections.generic.List`1&", false⟩]⟩]⟩ := by
  have hinterfaces : graph.interfaces 0 = [] := Graph.interfaces_eq_nil (by decide +kernel)
  have hview : (graph.view (graph.handle 0)).interfaces = .ok [] :=
    congrArg (fun keys => keys.mapM fun key => graph.reference (graph.handle key)) hinterfaces
  rw [TypeView.describe, hview]
  with_unfolding_all rfl

end ReferenceToList

open ReferenceToList in
/-- The lines of a class with a parameter of a generic type that is passed by reference hold an
accent, as the parameter buries a mark. -/
theorem reference_to_list_shows_accent :
    graph.WellNamed ∧ ∃ description, (graph.view (graph.handle 0)).describe = .ok description ∧
      (∃ line ∈ description.lines, HoldsAccent line) ∧
      ∃ handle, graph.Mentions 0 handle ∧ handle.BuriesMark := by
  have haccent : ∃ line ∈ (Description.mk "Lib" "Holder" false "" [] [] [] []
      [⟨"Fill", "Void", [⟨"target", "cs.system.collections.generic.List`1&", false⟩]⟩]).lines,
      HoldsAccent line := by
    decide +kernel
  have hburied := (Graph.accent_in_lines_iff wellNamed_graph describe_graph).1 haccent
  exact ⟨wellNamed_graph, _, describe_graph, haccent, hburied.2⟩

end Metadata

end TypeSurface
