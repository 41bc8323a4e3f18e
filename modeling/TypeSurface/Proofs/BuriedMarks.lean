import TypeSurface.Metadata.Level
import TypeSurface.Metadata.Row
import TypeSurface.Metadata.Scope
import TypeSurface.Metadata.Unfolding
import TypeSurface.Proofs.Accents
import TypeSurface.Proofs.KeptHandles

/-!
# Handles that bury an arity mark

A signature becomes a handle before its names are flattened, and references, pointers and arrays
write their decorations behind the name of what they decorate. `Handle.BuriesMark` collects the
handles in which a decoration thereby stands behind an arity mark. In a graph that names its types
as the runtime does, these are the handles whose spelling holds an accent
(`holdsAccent_spelling_iff`).
-/

set_option autoImplicit false

namespace TypeSurface.Metadata

open Naming

variable {κ : Type}

/-! ## Well-named handles -/

/-- All names of a handle are as the runtime gives them, decorations included. -/
inductive Handle.WellNamed : Handle κ → Prop where
  | definition {id : TypeId} {key : κ} : id.WellNamed → WellNamed (.definition id key)
  | named {id : TypeId} {arguments : List (Handle κ)} :
      id.WellNamed → (∀ argument ∈ arguments, WellNamed argument) → WellNamed (.named id arguments)
  | parameter {name : String} : ¬HoldsAccent name → WellNamed (.parameter name)
  | array {element : Handle κ} : WellNamed element → WellNamed (.array element)

/-- A handle whose name, element or spelled argument has decorations behind an arity mark. -/
inductive Handle.BuriesMark : Handle κ → Prop where
  | name {id : TypeId} {arguments : List (Handle κ)} :
      Naming.BuriesMark id.name → BuriesMark (.named id arguments)
  | argument {id : TypeId} {arguments : List (Handle κ)} {argument : Handle κ} :
      Alias.ofId? id = none → argument ∈ arguments → BuriesMark argument →
        BuriesMark (.named id arguments)
  | element {element : Handle κ} : BuriesMark element → BuriesMark (.array element)

theorem Handle.WellNamed.id {handle : Handle κ} (h : handle.WellNamed) : handle.id.WellNamed := by
  induction h with
  | definition hid => exact hid
  | named hid _ _ => exact hid
  | parameter hname =>
      have hns : ¬HoldsAccent "" := by decide
      exact ⟨hns, isDecorated_of_not_holdsAccent hname⟩
  | array _ ih => exact ih.suffixed (areDecorations_of_all (by decide))

theorem Handle.WellNamed.suffixed {handle : Handle κ} (h : handle.WellNamed) {suffix : String}
    (hsuffix : AreDecorations suffix.toList) : (handle.suffixed suffix).WellNamed :=
  .named (h.id.suffixed hsuffix) nofun

theorem wellNamed_builtIn (type : BuiltIn) :
    (Handle.system type.systemName : Handle κ).WellNamed := by
  have hns : ¬HoldsAccent "System" := by decide
  have hname : ¬HoldsAccent type.systemName := by cases type <;> decide
  exact .named ⟨hns, isDecorated_of_not_holdsAccent hname⟩ nofun

/-- Aliased types bury no mark. -/
theorem not_buriesMark_of_alias {id : TypeId} (h : (Alias.ofId? id).isSome = true)
    (arguments : List (Handle κ)) : ¬(Handle.named id arguments).BuriesMark := by
  obtain ⟨short, hshort⟩ := Option.isSome_iff_exists.1 h
  intro hburied
  cases hburied with
  | name hname =>
      rw [← (Alias.runtimeName_of_ofId? hshort).1] at hname
      exact short.not_holdsAccent.1 hname.holdsAccent
  | argument hnone _ _ => exact nomatch hshort.symm.trans hnone

/-! ## Interpretation keeps handles well named -/

/-- Tokens stand for well-named handles, and generic parameters have names without accents. -/
structure Scope.WellNamed (scope : Scope κ) : Prop where
  resolve : ∀ token handle, scope.resolve token = some handle → handle.WellNamed
  typeParameters : ∀ name ∈ scope.typeParameters, ¬HoldsAccent name
  methodParameters : ∀ name ∈ scope.methodParameters, ¬HoldsAccent name

namespace Scope

variable {scope : Scope κ}

/-- A well-named scope makes well-named handles. -/
theorem WellNamed.keeps (hscope : scope.WellNamed) : scope.Keeps Handle.WellNamed where
  resolve := hscope.resolve
  builtIn := wellNamed_builtIn
  parameter
    | .type => fun name hname => .parameter (hscope.typeParameters name hname)
    | .method => fun name hname => .parameter (hscope.methodParameters name hname)
  array _ := .array
  pointer _ htarget := htarget.suffixed (areDecorations_of_all (by decide))
  byReference _ htarget := htarget.suffixed (areDecorations_of_all (by decide))
  named _ _ hbase harguments := .named hbase.id harguments

/-- A signature that stands for a handle or for nothing stands for a well-named handle, if for any.
-/
theorem wellNamed_of_interpretOrNone (hscope : scope.WellNamed) {signature : Signature}
    {handle : Handle κ} (h : scope.interpretOrNone signature = some handle) : handle.WellNamed := by
  unfold interpretOrNone at h
  split at h
  · rename_i found hfound
    exact hscope.keeps.of_interpretAt signature (by rw [← h]; exact hfound)
  · exact nomatch h

end Scope

/-! ## Well-named graphs -/

/-- No name of a method, its generic parameters or its parameters holds an accent. -/
structure MethodRow.WellNamed (row : MethodRow) : Prop where
  name : ¬HoldsAccent row.name
  genericParameters : ∀ parameter ∈ row.genericParameters, ¬HoldsAccent parameter.name
  annotations : ∀ entry ∈ row.annotations, ∀ name, entry.name = some name →
    ¬HoldsAccent name

/-- The name of a type holds at most the accent of an arity mark, that of a generic parameter none;
neither do the namespace and the names of generic parameters and members. -/
structure Row.WellNamed (row : Row) : Prop where
  ns : ¬HoldsAccent row.ns
  name : IsTypeName row.name
  parameter : row.isGenericParameter = true → ¬HoldsAccent row.name
  genericParameters : ∀ parameter ∈ row.genericParameters, ¬HoldsAccent parameter.name
  fields : ∀ field ∈ row.fields, ¬HoldsAccent field.name
  properties : ∀ property ∈ row.properties, ¬HoldsAccent property.name
  methods : ∀ method ∈ row.methods, method.WellNamed

theorem Row.nsText_id (row : Row) : row.id.nsText = row.ns := by
  unfold Row.id TypeId.nsText
  split
  · rename_i hempty
    exact hempty.symm
  · rfl

namespace Graph

/-- All rows are well named. -/
def WellNamed (graph : Graph) : Prop := ∀ row ∈ graph.rows, row.WellNamed

/-- References are looked up one by one. -/
theorem references?_eq_mapM (graph : Graph) (handles : List (Handle Nat)) :
    graph.references? handles = handles.mapM graph.reference? := by
  induction handles with
  | nil => rfl
  | cons handle rest ih =>
      rw [references?, List.mapM_cons, ← ih]
      cases graph.reference? handle with
      | none => rfl
      | some ref => cases graph.references? rest <;> rfl

theorem reference_eq_ok_iff {graph : Graph} {handle : Handle Nat} {ref : TypeRef} :
    graph.reference handle = .ok ref ↔ graph.reference? handle = some ref := by
  unfold reference
  cases graph.reference? handle <;> simp

theorem not_buriesMark_handle (graph : Graph) (key : Nat) : ¬(graph.handle key).BuriesMark := by
  unfold handle
  split <;> exact fun hburied => nomatch hburied

variable {graph : Graph} (hgraph : graph.WellNamed)

include hgraph

theorem wellNamed_row (key : Nat) : (graph.row key).WellNamed := by
  unfold row
  cases hrow : graph.rows[key]? with
  | some row => exact hgraph row (Array.mem_of_getElem? hrow)
  | none =>
      have hempty : ¬HoldsAccent "" := by decide
      exact ⟨hempty, Or.inl hempty, fun _ => hempty, fun _ hmem => (nomatch hmem),
        fun _ hmem => (nomatch hmem), fun _ hmem => (nomatch hmem), fun _ hmem => (nomatch hmem)⟩

theorem wellNamed_handle (key : Nat) : (graph.handle key).WellNamed := by
  have hrow := wellNamed_row hgraph key
  unfold handle
  split
  · rename_i hparameter
    exact .parameter (hrow.parameter hparameter)
  · exact .definition ⟨by rw [Row.nsText_id]; exact hrow.ns, hrow.name.isDecorated⟩

theorem wellNamed_resolve {token : Token} {handle : Handle Nat}
    (h : graph.resolve token = some handle) : handle.WellNamed := by
  obtain ⟨key, -, rfl⟩ := Option.map_eq_some_iff.1 h
  exact wellNamed_handle hgraph key

/-- The spelling of a row holds no accent: nothing decorates a row or its arguments. -/
theorem not_holdsAccent_of_rowReference? {depth key : Nat} {ref : TypeRef}
    (h : graph.rowReference? depth key = some ref) : ¬HoldsAccent ref.spelling := by
  have hrow := wellNamed_row hgraph key
  unfold rowReference? at h
  simp only at h
  split at h
  · rename_i hparameter
    obtain rfl := Option.some.inj h
    simp only [TypeRef.spelling]
    exact hrow.parameter hparameter
  · split at h
    · rename_i halias
      obtain rfl := Option.some.inj h
      exact TypeRef.not_holdsAccent_spelling_of_alias halias []
    · rename_i halias
      cases depth with
      | zero => cases h
      | succ depth =>
          obtain ⟨refs, hrefs, rfl⟩ := Option.map_eq_some_iff.1 h
          have hns : ¬HoldsAccent (graph.row key).id.nsText := by
            rw [Row.nsText_id]
            exact hrow.ns
          rw [TypeRef.holdsAccent_spelling_named_iff hns (by simpa using halias), not_or]
          -- The arguments are rows again, and they are unfolded to a smaller depth.
          refine ⟨hrow.name.not_holdsAccent_flattenArity, ?_⟩
          rintro ⟨argument, hargument, haccent⟩
          obtain ⟨other, -, hother⟩ := (mem_of_mapM_eq_some hrefs).2 argument hargument
          exact not_holdsAccent_of_rowReference? hother haccent

/-- The spelling of a well-named handle holds an accent exactly when the handle buries a mark. -/
theorem holdsAccent_spelling_iff {handle : Handle Nat} (hhandle : handle.WellNamed) {ref : TypeRef}
    (href : graph.reference? handle = some ref) :
    HoldsAccent ref.spelling ↔ handle.BuriesMark := by
  induction hhandle generalizing ref with
  | definition hid =>
      -- A definition is spelled as its row is.
      have hplain := not_holdsAccent_of_rowReference? hgraph href
      refine ⟨fun haccent => absurd haccent hplain, ?_⟩
      rintro ⟨⟩
  | parameter hname =>
      obtain rfl := Option.some.inj href
      simp only [TypeRef.spelling]
      refine ⟨fun haccent => absurd haccent hname, ?_⟩
      rintro ⟨⟩
  | array _ ih =>
      obtain ⟨inner, hinner, rfl⟩ := Option.map_eq_some_iff.1 href
      rw [TypeRef.holdsAccent_spelling_array, ih hinner]
      constructor
      · exact .element
      · rintro (_ | _ | helement)
        exact helement
  | @named id arguments hid _ ih =>
      unfold reference? at href
      split at href
      · rename_i halias
        obtain rfl := Option.some.inj href
        exact ⟨fun haccent => absurd haccent (TypeRef.not_holdsAccent_spelling_of_alias halias []),
          fun hburied => absurd hburied (not_buriesMark_of_alias halias arguments)⟩
      · rename_i halias
        have hnone : Alias.ofId? id = none := by simpa using halias
        obtain ⟨refs, hrefs, rfl⟩ := Option.map_eq_some_iff.1 href
        rw [references?_eq_mapM] at hrefs
        obtain ⟨hresults, hsources⟩ := mem_of_mapM_eq_some hrefs
        -- The accent is part of the name or of an argument, and so is the buried mark.
        rw [TypeRef.holdsAccent_spelling_named_iff hid.ns hnone,
          holdsAccent_flattenArity_iff hid.name]
        constructor
        · rintro (hname | ⟨ref, hmem, haccent⟩)
          · exact .name hname
          · obtain ⟨argument, hargument, hfound⟩ := hsources ref hmem
            exact .argument hnone hargument ((ih argument hargument hfound).1 haccent)
        · rintro (hname | ⟨-, hargument, hburied⟩)
          · exact Or.inl hname
          · obtain ⟨ref, hmem, hfound⟩ := hresults _ hargument
            exact Or.inr ⟨ref, hmem, (ih _ hargument hfound).2 hburied⟩

end Graph

end TypeSurface.Metadata
