import Mathlib.Data.Finset.Card
import Mathlib.Data.Finset.Range
import Mathlib.Logic.Relation
import TypeSurface.Metadata.View
import TypeSurface.Proofs.Traversal

/-!
# References without cycles

A row whose arguments do not lead back to a row on the way has a reference (`exists_rowReference?`):
the rows below an argument are fewer than those below the row that is opened with it, so the number
of rows is depth enough. When no row holds itself among its generic arguments, every handle has a
reference (`exists_reference?`), and nothing but an unreadable method keeps a type from being
described (`describe_definition`).
-/

set_option autoImplicit false

namespace TypeSurface.Metadata.Graph

/-! ## Rows below rows -/

/-- A row has another one among its generic arguments. -/
def Refers (graph : Graph) (key argument : Nat) : Prop := argument ∈ graph.arguments key

/-- No row holds itself among its generic arguments, at any depth. -/
def Acyclic (graph : Graph) : Prop := ∀ key, ¬Relation.TransGen graph.Refers key key

/-- The spelling of a row holds that of an argument: the row is no generic parameter, which is
spelled by its own name, and has no alias. -/
def Opens (graph : Graph) (key argument : Nat) : Prop :=
  (graph.row key).isGenericParameter = false ∧ Alias.ofId? (graph.row key).id = none ∧
    graph.Refers key argument

/-- No way that opens rows, from a row on, comes through the same row twice. -/
def Unfolds (graph : Graph) (key : Nat) : Prop :=
  ∀ met, Relation.ReflTransGen graph.Opens key met → ¬Relation.TransGen graph.Opens met met

variable {graph : Graph} {key argument : Nat}

theorem Acyclic.unfolds (hacyclic : graph.Acyclic) (key : Nat) : graph.Unfolds key := by
  intro met _ hloop
  have hrefers : graph.Opens ≤ graph.Refers := fun _ _ hopens => hopens.2.2
  exact hacyclic met (Relation.TransGen.mono hrefers _ _ hloop)

theorem Unfolds.of_opens (hunfolds : graph.Unfolds key) (h : graph.Opens key argument) :
    graph.Unfolds argument := by
  intro met hmet
  exact hunfolds met (Relation.ReflTransGen.head h hmet)

theorem row_eq_missing (h : graph.rows.size ≤ key) : graph.row key = Row.missing := by
  rw [row, Array.getElem?_eq_none h]
  rfl

theorem lt_of_isLive (h : graph.isLive key = true) : key < graph.rows.size := by
  by_contra hsize
  rw [isLive, row_eq_missing (Nat.le_of_not_lt hsize)] at h
  exact absurd h (by decide)

/-- Arguments that all stand in front of their rows form no cycle. -/
theorem acyclic_of_lt (h : ∀ key < graph.rows.size, ∀ argument ∈ graph.arguments key,
    argument < key) : graph.Acyclic := by
  have hrefers : ∀ {key argument : Nat}, graph.Refers key argument → argument < key := by
    intro key argument hargument
    by_cases hkey : key < graph.rows.size
    · exact h key hkey argument hargument
    · rw [Refers, arguments, row_eq_missing (Nat.le_of_not_lt hkey)] at hargument
      exact nomatch hargument
  have hlt : ∀ {key argument : Nat}, Relation.TransGen graph.Refers key argument →
      argument < key := by
    intro key argument hway
    induction hway with
    | single hstep => exact hrefers hstep
    | tail _ hstep ih => exact Nat.lt_trans (hrefers hstep) ih
  exact fun key hloop => Nat.lt_irrefl key (hlt hloop)

open Classical in
/-- The rows that are met on the ways that open a row. -/
noncomputable def below (graph : Graph) (key : Nat) : Finset Nat :=
  (Finset.range graph.rows.size).filter (Relation.TransGen graph.Opens key)

open Classical in
theorem mem_below_iff {met : Nat} :
    met ∈ graph.below key ↔ met < graph.rows.size ∧ Relation.TransGen graph.Opens key met := by
  unfold below
  rw [Finset.mem_filter, Finset.mem_range]

/-- Fewer rows are met below an argument than below the row that is opened with it. -/
theorem card_below_lt (hunfolds : graph.Unfolds key) (h : graph.Opens key argument) :
    (graph.below argument).card < (graph.below key).card := by
  apply Finset.card_lt_card
  refine (Finset.ssubset_iff_of_subset ?_).2 ⟨argument, ?_, ?_⟩
  · -- A way from the argument is a way from the row, one step longer.
    intro met hmet
    obtain ⟨hsize, hway⟩ := mem_below_iff.1 hmet
    exact mem_below_iff.2 ⟨hsize, Relation.TransGen.head h hway⟩
  · have hlive : graph.isLive argument = true := (List.mem_filter.1 h.2.2).2
    exact mem_below_iff.2 ⟨lt_of_isLive hlive, Relation.TransGen.single h⟩
  · -- The argument is met below the row, but not below itself.
    intro hself
    exact hunfolds argument (Relation.ReflTransGen.single h) (mem_below_iff.1 hself).2

theorem card_below_le (graph : Graph) (key : Nat) :
    (graph.below key).card ≤ graph.rows.size := by
  have hsubset : graph.below key ⊆ Finset.range graph.rows.size := by
    intro met hmet
    exact Finset.mem_range.2 (mem_below_iff.1 hmet).1
  have hcard := Finset.card_le_card hsubset
  rw [Finset.card_range] at hcard
  exact hcard

/-! ## References of handles -/

/-- A row that unfolds has a reference at every depth above the number of rows below it. -/
theorem exists_rowReference? (hunfolds : graph.Unfolds key) {depth : Nat}
    (h : (graph.below key).card < depth) : ∃ ref, graph.rowReference? depth key = some ref := by
  induction depth generalizing key with
  | zero => exact absurd h (Nat.not_lt_zero _)
  | succ depth ih =>
      unfold rowReference?
      by_cases hparameter : (graph.row key).isGenericParameter
      · exact ⟨_, if_pos hparameter⟩
      · by_cases halias : (Alias.ofId? (graph.row key).id).isSome
        · exact ⟨_, (if_neg hparameter).trans (if_pos halias)⟩
        · -- One level less is depth enough for each argument.
          obtain ⟨refs, hrefs⟩ : ∃ refs,
              (graph.arguments key).mapM (graph.rowReference? depth) = some refs := by
            apply exists_mapM_eq_some
            intro argument hargument
            have hopens : graph.Opens key argument :=
              ⟨Bool.not_eq_true _ ▸ hparameter, by simpa using halias, hargument⟩
            have hcard := card_below_lt hunfolds hopens
            exact ih (hunfolds.of_opens hopens) (Nat.lt_of_lt_of_le hcard (Nat.le_of_lt_succ h))
          refine ⟨.named (graph.row key).id refs, ?_⟩
          simp only [hparameter, halias, hrefs]
          rfl

mutual

/-- Without cycles of arguments every handle has a reference. -/
theorem exists_reference? (hacyclic : graph.Acyclic) :
    ∀ handle : Handle Nat, ∃ ref, graph.reference? handle = some ref
  | .definition _ key => by
      rw [reference?]
      exact exists_rowReference? (hacyclic.unfolds key)
        (Nat.lt_succ_of_le (graph.card_below_le key))
  | .named id arguments => by
      obtain ⟨refs, hrefs⟩ := exists_references? hacyclic arguments
      rw [reference?, hrefs]
      by_cases halias : (Alias.ofId? id).isSome
      · exact ⟨_, if_pos halias⟩
      · exact ⟨_, if_neg halias⟩
  | .parameter name => ⟨.parameter name, by rw [reference?]⟩
  | .array element => by
      obtain ⟨ref, href⟩ := exists_reference? hacyclic element
      exact ⟨.array ref, by rw [reference?, href]; rfl⟩

theorem exists_references? (hacyclic : graph.Acyclic) :
    ∀ handles : List (Handle Nat), ∃ refs, graph.references? handles = some refs
  | [] => ⟨[], by rw [references?]⟩
  | handle :: rest => by
      obtain ⟨ref, href⟩ := exists_reference? hacyclic handle
      obtain ⟨refs, hrefs⟩ := exists_references? hacyclic rest
      exact ⟨ref :: refs, by rw [references?, href, hrefs]⟩

end

/-! ## Descriptions -/

/-- The text of a member type: nothing for a type that is not known. -/
def spelled (graph : Graph) (type : MemberType Nat) : String :=
  TypeRef.spellingOrEmpty (type.bind graph.reference?)

/-- The description of a definition with the methods listed for it. -/
def description (graph : Graph) (id : TypeId) (key : Nat)
    (methods : List (Member.Method (MemberType Nat))) : Description where
  ns := id.nsText
  name := id.name
  isInterface := (graph.row key).flags.isInterface
  baseType := graph.spelled ((graph.base? key).map graph.handle)
  interfaces := (graph.interfaces key).map fun interface => graph.spelled (graph.handle interface)
  genericParameters := genericParameterNames (graph.row key).genericParameters
  fields := (graph.fields key).map (·.map graph.spelled)
  properties := (graph.properties key).map (·.map graph.spelled)
  methods := methods.map (·.map graph.spelled)

theorem memberReference_eq (hacyclic : graph.Acyclic) (type : MemberType Nat) :
    graph.memberReference type = .ok (type.bind graph.reference?) := by
  cases type with
  | none => rfl
  | some handle =>
      obtain ⟨ref, href⟩ := exists_reference? hacyclic handle
      rw [memberReference, reference, href, Option.bind_some, href]
      rfl

theorem mapM_eq_ok {α β : Type} {f : α → Except Fault β} {result : α → β}
    (h : ∀ a, f a = .ok (result a)) (list : List α) : list.mapM f = .ok (list.map result) := by
  obtain rfl : f = fun a => .ok (result a) := funext h
  exact List.mapM_pure

theorem viewField_eq (hacyclic : graph.Acyclic) (field : Member.Field (MemberType Nat)) :
    graph.viewField field = .ok (field.map (·.bind graph.reference?)) := by
  rw [viewField, memberReference_eq hacyclic]
  rfl

theorem viewProperty_eq (hacyclic : graph.Acyclic) (property : Member.Property (MemberType Nat)) :
    graph.viewProperty property = .ok (property.map (·.bind graph.reference?)) := by
  rw [viewProperty, memberReference_eq hacyclic]
  rfl

/-- Without cycles of arguments every listed method is viewed. -/
theorem viewMethod_eq (hacyclic : graph.Acyclic) (method : Member.Method (MemberType Nat)) :
    graph.viewMethod method = .ok (method.map (·.bind graph.reference?)) := by
  have hparameter : ∀ parameter, graph.viewParameter parameter
      = .ok (parameter.map (·.bind graph.reference?)) := by
    intro parameter
    rw [viewParameter, memberReference_eq hacyclic]
    rfl
  rw [viewMethod, memberReference_eq hacyclic, mapM_eq_ok hparameter]
  rfl

theorem interface_reference_eq (hacyclic : graph.Acyclic) (interface : Nat) :
    graph.reference (graph.handle interface)
      = .ok ((graph.reference? (graph.handle interface)).getD default) := by
  obtain ⟨ref, href⟩ := exists_reference? hacyclic (graph.handle interface)
  rw [reference, href]
  rfl

theorem spelled_handle (hacyclic : graph.Acyclic) (handle : Handle Nat) :
    graph.spelled (some handle) = ((graph.reference? handle).getD default).spelling := by
  obtain ⟨ref, href⟩ := exists_reference? hacyclic handle
  rw [spelled, Option.bind_some, href]
  rfl

theorem spelled_method (method : Member.Method (MemberType Nat)) :
    (method.map (·.bind graph.reference?)).map TypeRef.spellingOrEmpty
      = method.map graph.spelled := by
  simp only [Member.Method.map, List.map_map]
  rfl

/-- Without cycles of arguments a definition is described when its methods can be listed, and
otherwise the fault is theirs. -/
theorem describe_definition (hacyclic : graph.Acyclic) (id : TypeId) (key : Nat) :
    (graph.view (.definition id key)).describe
      = (graph.methods key).map (graph.description id key) := by
  have hbase := memberReference_eq hacyclic ((graph.base? key).map graph.handle)
  have hinterfaces := mapM_eq_ok (interface_reference_eq hacyclic) (graph.interfaces key)
  have hfields := mapM_eq_ok (viewField_eq hacyclic) (graph.fields key)
  have hproperties := mapM_eq_ok (viewProperty_eq hacyclic) (graph.properties key)
  -- Every other question has its answer, so the methods decide.
  simp only [view, TypeView.describe, hbase, hinterfaces, hfields, hproperties]
  cases graph.methods key with
  | error fault => rfl
  | ok methods =>
      have hmethods := mapM_eq_ok (viewMethod_eq hacyclic) methods
      show (do
        let viewed ← methods.mapM graph.viewMethod
        return _ : Except Fault Description) = _
      rw [hmethods]
      refine congrArg Except.ok ?_
      rw [description]
      simp only [spelled_handle hacyclic, List.map_map, ← spelled_method]
      rfl

end TypeSurface.Metadata.Graph
