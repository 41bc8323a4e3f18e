import TypeSurface.Proofs.Answers
import TypeSurface.Proofs.EqualAnswers
import TypeSurface.Proofs.MemberTypes
import TypeSurface.Proofs.ReferenceMarks
import TypeSurface.Proofs.RenamedParameters

/-!
# Numbers of generic parameters

Generic parameters have numbers, and their rows stand in any order. Where the rows of a type or method
carry the numbers below their count (`AreNumbered`), the names have one order by number
(`inNumberOrder_iff`), so an index in a signature means the row of that number at every depth and at
every level of a hierarchy, and rows in another order (`Graph.ReorderedTo`) change no answer
(`indices_mean_numbers`).
-/

set_option autoImplicit false

namespace TypeSurface.Metadata

variable {κ : Type}

/-! ## Names in the order of their numbers -/

/-- The rows carry the numbers below their count, each number once. -/
def AreNumbered (rows : List GenericParameterRow) : Prop :=
  (rows.map (·.number)).Perm (List.range rows.length)

instance (rows : List GenericParameterRow) : Decidable (AreNumbered rows) :=
  inferInstanceAs (Decidable (List.Perm _ _))

/-- The names are those of the rows, each at the place of its number. -/
structure InNumberOrder (rows : List GenericParameterRow) (names : List String) : Prop where
  length : names.length = rows.length
  name : ∀ row ∈ rows, names[row.number]? = some row.name

/-- The rows are the same, or they are numbered and stand in another order. -/
def Reordered (rows others : List GenericParameterRow) : Prop :=
  others = rows ∨ AreNumbered rows ∧ others.Perm rows

section Names

variable {rows others : List GenericParameterRow} {names : List String}

theorem AreNumbered.exists_row (h : AreNumbered rows) {index : Nat} (hindex : index < rows.length) :
    ∃ row ∈ rows, row.number = index :=
  List.mem_map.1 (h.mem_iff.2 (List.mem_range.2 hindex))

theorem AreNumbered.of_perm (h : AreNumbered rows) (hperm : others.Perm rows) :
    AreNumbered others := by
  rw [AreNumbered, hperm.length_eq]
  exact (hperm.map _).trans h

/-- Sorting numbered rows puts each of them at the place of its number. -/
theorem AreNumbered.map_number_mergeSort (h : AreNumbered rows) :
    (rows.mergeSort fun a b => decide (a.number ≤ b.number)).map (·.number)
      = List.range rows.length := by
  have hsorted : (rows.mergeSort fun a b => decide (a.number ≤ b.number)).Pairwise
      fun a b => decide (a.number ≤ b.number) = true := by
    apply List.pairwise_mergeSort
    · intro a b c hab hbc
      exact decide_eq_true (Nat.le_trans (of_decide_eq_true hab) (of_decide_eq_true hbc))
    · intro a b
      rw [Bool.or_eq_true, decide_eq_true_iff, decide_eq_true_iff]
      exact Nat.le_total _ _
  have hascends : ((rows.mergeSort fun a b => decide (a.number ≤ b.number)).map
      (·.number)).Pairwise (· ≤ ·) :=
    List.pairwise_map.2 (hsorted.imp of_decide_eq_true)
  have hperm := (List.mergeSort_perm rows fun a b => decide (a.number ≤ b.number)).map (·.number)
  -- Two ascending lists with the same numbers are the same list.
  exact (hperm.trans h).eq_of_pairwise (fun _ _ _ _ => Nat.le_antisymm) hascends
    List.pairwise_le_range

/-- The names of numbered rows are in the order of the numbers. -/
theorem AreNumbered.inNumberOrder (h : AreNumbered rows) :
    InNumberOrder rows (genericParameterNames rows) where
  length := by rw [genericParameterNames, List.length_map, List.length_mergeSort]
  name row hrow := by
    obtain ⟨place, hplace⟩ := List.getElem?_of_mem (List.mem_mergeSort.2 hrow)
    have hnumber := congrArg (fun numbers => numbers[place]?) h.map_number_mergeSort
    rw [List.getElem?_map, hplace, Option.map_some] at hnumber
    obtain ⟨hlt, hrange⟩ := List.getElem?_eq_some_iff.1 hnumber.symm
    obtain rfl : place = row.number := (List.getElem_range hlt).symm.trans hrange
    rw [genericParameterNames, List.getElem?_map, hplace, Option.map_some]

/-- Numbered rows have their names in the order of the numbers in one way. -/
theorem AreNumbered.inNumberOrder_iff (h : AreNumbered rows) :
    InNumberOrder rows names ↔ names = genericParameterNames rows := by
  constructor
  · intro hnames
    apply List.ext_getElem?
    intro index
    rcases Nat.lt_or_ge index rows.length with hindex | hindex
    · obtain ⟨row, hrow, rfl⟩ := h.exists_row hindex
      rw [hnames.name row hrow, h.inNumberOrder.name row hrow]
    · rw [List.getElem?_eq_none (hnames.length.trans_le hindex),
        List.getElem?_eq_none (h.inNumberOrder.length.trans_le hindex)]
  · rintro rfl
    exact h.inNumberOrder

theorem InNumberOrder.of_perm (h : InNumberOrder rows names) (hperm : others.Perm rows) :
    InNumberOrder others names where
  length := h.length.trans hperm.length_eq.symm
  name row hrow := h.name row (hperm.mem_iff.1 hrow)

theorem Reordered.genericParameterNames_eq (h : Reordered rows others) :
    genericParameterNames others = genericParameterNames rows := by
  rcases h with rfl | ⟨hnumbered, hperm⟩
  · rfl
  · exact hnumbered.inNumberOrder_iff.1 ((hnumbered.of_perm hperm).inNumberOrder.of_perm hperm.symm)

end Names

/-! ## Indices in signatures -/

/-- The signature that counts a generic parameter of an owner. -/
def Signature.parameter : ParameterOwner → Nat → Signature
  | .type, index => .typeParameter index
  | .method, index => .methodParameter index

namespace Scope

variable {scope : Scope κ} {owner : ParameterOwner} {rows : List GenericParameterRow}

/-- Indices mean the numbers of rows. At every depth that interpretation reaches, an index below the
count stands for the name of the row of that number, and any other one is out of range: no signature
that holds it stands for a handle. -/
structure CountsNumbers (scope : Scope κ) (owner : ParameterOwner)
    (rows : List GenericParameterRow) : Prop where
  inRange : ∀ depth < nestingLimit, ∀ index < rows.length, ∃ row ∈ rows, row.number = index ∧
    scope.interpretAt depth (.parameter owner index) = .ok (some (.parameter row.name))
  outOfRange : ∀ depth < nestingLimit, ∀ index, rows.length ≤ index →
    scope.interpretAt depth (.parameter owner index)
      = .error (.parameterOutOfRange owner index rows.length)
  untyped : ∀ signature : Signature, ∀ visit ∈ signature.visits 0, ∀ index, rows.length ≤ index →
    visit.node = .parameter owner index → ∀ handle, scope.interpret signature ≠ .ok (some handle)

theorem interpretAt_parameter {depth : Nat} (hdepth : depth < nestingLimit)
    (owner : ParameterOwner) (index : Nat) :
    scope.interpretAt depth (.parameter owner index) = scope.parameter owner index := by
  cases owner with
  | type | method =>
      rw [Signature.parameter, interpretAt.eq_def, if_neg (Nat.not_le.2 hdepth)]

/-- In a scope whose names are in the order of numbers, indices mean numbers. -/
theorem countsNumbers (hnumbered : AreNumbered rows)
    (hnames : InNumberOrder rows (scope.parametersOf owner)) : scope.CountsNumbers owner rows where
  inRange depth hdepth index hindex := by
    obtain ⟨row, hrow, rfl⟩ := hnumbered.exists_row hindex
    refine ⟨row, hrow, rfl, ?_⟩
    rw [interpretAt_parameter hdepth, parameter, hnames.name row hrow]
  outOfRange depth hdepth index hindex := by
    rw [interpretAt_parameter hdepth, parameter,
      List.getElem?_eq_none (hnames.length.trans_le hindex), hnames.length]
  untyped signature visit hvisit index hindex hnode handle hhandle := by
    have hnone := offence?_eq_none_of_interpret hhandle visit hvisit
    have hlimit := depth_ne_of_offence?_eq_none hnone
    have hrange : ¬index < (scope.parametersOf owner).length := by
      rw [hnames.length]
      exact Nat.not_lt.2 hindex
    rw [offence?, if_neg hlimit, hnode] at hnone
    cases owner with
    | type | method => simp [Signature.parameter, indexOffence?, hrange] at hnone

end Scope

/-! ## Rows in another order -/

/-- A method whose rows of generic parameters stand in another order. -/
structure MethodRow.ReorderedTo (row other : MethodRow) : Prop where
  rest : other = { row with genericParameters := other.genericParameters }
  genericParameters : Reordered row.genericParameters other.genericParameters

/-- A type whose rows of generic parameters, its own and those of its methods, stand in another
order. -/
structure Row.ReorderedTo (row other : Row) : Prop where
  rest : other = { row with
    genericParameters := other.genericParameters
    methods := other.methods }
  genericParameters : Reordered row.genericParameters other.genericParameters
  methods : List.Forall₂ MethodRow.ReorderedTo row.methods other.methods

/-- A graph whose rows of generic parameters stand in another order. -/
structure Graph.ReorderedTo (graph other : Graph) : Prop where
  size : other.rows.size = graph.rows.size
  row : ∀ key, (graph.row key).ReorderedTo (other.row key)

theorem Row.ReorderedTo.read_eq {α : Type} {row other : Row} (h : row.ReorderedTo other)
    (read : Row → α)
    (hread : ∀ (row : Row) genericParameters methods,
      read { row with genericParameters := genericParameters, methods := methods } = read row) :
    read other = read row :=
  (congrArg read h.rest).trans (hread row _ _)

theorem MethodRow.ReorderedTo.decl_eq {row other : MethodRow} (h : row.ReorderedTo other) :
    other.decl = row.decl := by
  rw [h.rest, decl, decl, h.genericParameters.genericParameterNames_eq]

theorem Row.ReorderedTo.level_eq {row other : Row} (h : row.ReorderedTo other) :
    other.level = row.level := by
  have hmethods := h.methods.imp fun method other hmethod =>
    And.intro (congrArg MethodRow.dropped hmethod.rest) hmethod.decl_eq
  rw [level, level, h.read_eq Row.fields fun _ _ _ => rfl, h.read_eq Row.properties fun _ _ _ => rfl,
    h.genericParameters.genericParameterNames_eq, Graph.map_decl_eq_of_forall₂ hmethods]

namespace Graph

variable {graph other : Graph}

namespace ReorderedTo

theorem declaresAlike (h : graph.ReorderedTo other) : graph.DeclaresAlike other :=
  declaresAlike_of_outline_eq h.size (fun key => (h.row key).read_eq Row.outline fun _ _ _ => rfl)
    fun key => (h.row key).level_eq

theorem propertySources_eq (h : graph.ReorderedTo other) (key : Nat) :
    other.propertySources key = graph.propertySources key := by
  have hproperties : ∀ owner, (other.row owner).properties = (graph.row owner).properties :=
    fun owner => (h.row owner).read_eq Row.properties fun _ _ _ => rfl
  simp only [propertySources, declared, hproperties, h.declaresAlike.lineage]

end ReorderedTo

/-! ## Indices in the members of a type -/

theorem genericParameters_of_describe {id : TypeId} {owner : Nat} {description : Description}
    (h : (graph.view (.definition id owner)).describe = .ok description) :
    description.genericParameters = genericParameterNames (graph.row owner).genericParameters := by
  obtain ⟨base, interfaces, genericParameters, fields, properties, methods, -, -, hnames, -, -, -,
    rfl⟩ := TypeView.exists_answers_of_describe h
  exact (Except.ok.inj hnames).symm

/-- A listed method is declared by a type of the chain and read in the scope that the method has
there. -/
theorem exists_read_of_mem_methods {key : Nat} {methods : List (Member.Method (MemberType Nat))}
    (h : graph.methods key = .ok methods) {method : Member.Method (MemberType Nat)}
    (hmethod : method ∈ methods) :
    ∃ owner ∈ graph.lineage key, ∃ row ∈ (graph.row owner).methods,
      row.decl.read (graph.methodScope owner row) = .ok method := by
  rw [Graph.methods, listMethods_eq_map_listSourced] at h
  obtain ⟨listed, hlisted, rfl⟩ := map_eq_ok_iff.1 h
  obtain ⟨source, hsource, rfl⟩ := List.mem_map.1 hmethod
  obtain ⟨owner, row, howner, hrow, hread⟩ :=
    exists_row_of_isSource (isSource_of_mem_listSourced hlisted hsource)
  exact ⟨owner, List.mem_of_getElem? howner, row,
    (List.mem_filter.1 (List.mem_of_getElem? hrow)).1, hread⟩

/-- The fault of a listing is that of a method that a type of the chain declares, read in the scope
that the method has there. -/
theorem exists_read_of_methods_eq_error {key : Nat} {fault : Fault}
    (h : graph.methods key = .error fault) :
    ∃ owner ∈ graph.lineage key, ∃ row ∈ (graph.row owner).methods,
      row.decl.read (graph.methodScope owner row) = .error fault := by
  obtain ⟨nearer, owner, further, before, row, after, hlineage, hmethods, -, hfault, -, -⟩ :=
    methods_eq_error_iff.1 h
  refine ⟨owner, ?_, row, ?_, ?_⟩
  · rw [hlineage]
    exact List.mem_append_cons_self
  · rw [hmethods]
    exact List.mem_append_cons_self
  · rw [← fault?_eq_some_iff, row.fault?_read]
    exact hfault

/-- Indices of generic parameters mean numbers, whatever the order of the rows. In the signatures of
the fields, properties and methods of a type with numbered rows, an index of the type means the row of
that number, and the type lists its generic parameters in this order; in the signatures of a method with
numbered rows, so does an index of the method. The members of every type are read in these scopes, each
in the scope of the type of the chain that declares it. Rows in another order change no listed member,
hide no other members and describe every handle alike. -/
theorem indices_mean_numbers (graph : Graph) :
    (∀ owner, AreNumbered (graph.row owner).genericParameters →
      (graph.memberScope owner).CountsNumbers .type (graph.row owner).genericParameters ∧
      (∀ method, (graph.methodScope owner method).CountsNumbers .type
        (graph.row owner).genericParameters) ∧
      ∃ names, InNumberOrder (graph.row owner).genericParameters names ∧ ∀ id,
        (graph.view (.definition id owner)).genericParameters = .ok names ∧
        ∀ description, (graph.view (.definition id owner)).describe = .ok description →
          description.genericParameters = names) ∧
    (∀ owner method, AreNumbered method.genericParameters →
      (graph.methodScope owner method).CountsNumbers .method method.genericParameters) ∧
    (∀ key, graph.fields key = (graph.fieldSources key).map graph.listedField ∧
      graph.properties key = (graph.propertySources key).map graph.listedProperty ∧
      (∀ methods, graph.methods key = .ok methods → ∀ method ∈ methods,
        ∃ owner ∈ graph.lineage key, ∃ row ∈ (graph.row owner).methods,
          row.decl.read (graph.methodScope owner row) = .ok method) ∧
      ∀ fault, graph.methods key = .error fault →
        ∃ owner ∈ graph.lineage key, ∃ row ∈ (graph.row owner).methods,
          row.decl.read (graph.methodScope owner row) = .error fault) ∧
    ∀ other, graph.ReorderedTo other →
      (∀ key, other.fields key = graph.fields key ∧ other.properties key = graph.properties key ∧
        other.methods key = graph.methods key ∧
        other.propertySources key = graph.propertySources key ∧
        ∀ hider hidden, HidesAt other.spelling? other.resolve (other.levels key) hider hidden ↔
          HidesAt graph.spelling? graph.resolve (graph.levels key) hider hidden) ∧
      ∀ handle, (other.view handle).describe = (graph.view handle).describe := by
  refine ⟨fun owner hnumbered => ⟨Scope.countsNumbers hnumbered hnumbered.inNumberOrder,
      fun _ => Scope.countsNumbers hnumbered hnumbered.inNumberOrder,
      _, hnumbered.inNumberOrder, fun id => ⟨rfl, fun _ => genericParameters_of_describe⟩⟩,
    fun _ _ hnumbered => Scope.countsNumbers hnumbered hnumbered.inNumberOrder,
    fun key => ⟨graph.fields_eq key, graph.properties_eq key,
      fun _ hmethods _ => exists_read_of_mem_methods hmethods,
      fun _ => exists_read_of_methods_eq_error⟩,
    fun other hother => ?_⟩
  have hsame := hother.declaresAlike
  refine ⟨fun key => ⟨hsame.fields key, hsame.properties key, hsame.methods key,
    hother.propertySources_eq key, fun hider hidden => ?_⟩, fun handle => ?_⟩
  · rw [hsame.spelling?, hsame.resolve, hsame.levels]
  · rw [hsame.view]

end Graph

namespace NumberedPair

/-- A class with its base, generic parameters, fields and methods. -/
def type (token : UInt32) (name : String) (base : Option Nat)
    (genericParameters : List GenericParameterRow) (fields : List FieldRow)
    (methods : List MethodRow) : Row :=
  ⟨⟨token⟩, "Lib", name, 0, false, base, [], [], genericParameters, fields, [], methods, false, true⟩

/-- A public method that takes a generic parameter of its type and one of its own and returns another
one of its own. -/
def convert (genericParameters : List GenericParameterRow) : MethodRow :=
  ⟨"convert", 0x06, ⟨.methodParameter 1, false⟩,
    [⟨.vector (.typeParameter 1), false⟩, ⟨.methodParameter 0, false⟩], genericParameters,
    [⟨1, "values", 0, false⟩, ⟨2, "first", 0, false⟩], false⟩

/-- A public method that returns the generic parameter of its type. -/
def keep : MethodRow := ⟨"keep", 0x06, ⟨.typeParameter 0, false⟩, [], [], [], false⟩

/-- A class with generic parameters in the given orders, and its base with one of its own. -/
def graphWith (ofType ofMethod : List GenericParameterRow) : Graph :=
  ⟨#[type 0x02000002 "Pair\x602" (some 1) ofType [⟨"key", 0x06, .typeParameter 0⟩]
      [convert ofMethod],
    type 0x02000003 "Base\x601" none [⟨0, "T"⟩] [] [keep]]⟩

/-- The rows stand in descending order. -/
def graph : Graph := graphWith [⟨1, "V"⟩, ⟨0, "K"⟩] [⟨1, "B"⟩, ⟨0, "A"⟩]

/-- The rows stand in ascending order. -/
def ascending : Graph := graphWith [⟨0, "K"⟩, ⟨1, "V"⟩] [⟨0, "A"⟩, ⟨1, "B"⟩]

theorem reorderedTo : graph.ReorderedTo ascending where
  size := rfl
  row
    | 0 => ⟨rfl, Or.inr (by decide), .cons ⟨rfl, Or.inr (by decide)⟩ .nil⟩
    | 1 => ⟨rfl, Or.inl rfl, .cons ⟨rfl, Or.inl rfl⟩ .nil⟩
    | _ + 2 => ⟨rfl, Or.inl rfl, .nil⟩

/-- The levels of the class, names in the order of their numbers. -/
def levels : List Level :=
  [⟨["K", "V"], [⟨"key", true, false, .typeParameter 0⟩], [],
      [⟨"convert", true, false, ["A", "B"], .methodParameter 1,
        [⟨"values", .vector (.typeParameter 1), false, false⟩,
          ⟨"first", .methodParameter 0, false, false⟩]⟩]⟩,
    ⟨["T"], [], [], [⟨"keep", true, false, [], .typeParameter 0, []⟩]⟩]

theorem names_ofType : genericParameterNames [⟨1, "V"⟩, ⟨0, "K"⟩] = ["K", "V"] :=
  ((AreNumbered.inNumberOrder_iff (by decide)).1 ⟨rfl, by decide⟩).symm

theorem levels_graph : graph.levels 0 = levels := by
  have hlineage : graph.lineage 0 = [0, 1] := by decide +kernel
  have hofMethod : genericParameterNames [⟨1, "B"⟩, ⟨0, "A"⟩] = ["A", "B"] :=
    ((AreNumbered.inNumberOrder_iff (by decide)).1 ⟨rfl, by decide⟩).symm
  have hofBase : genericParameterNames [⟨0, "T"⟩] = ["T"] :=
    ((AreNumbered.inNumberOrder_iff (by decide)).1 ⟨rfl, by decide⟩).symm
  rw [Graph.levels, hlineage, levels, ← names_ofType, ← hofMethod, ← hofBase]
  with_unfolding_all rfl

/-- The class is described with the names of its levels. -/
theorem describe_graph : (graph.view (graph.handle 0)).describe
    = .ok ⟨"Lib", "Pair\x602", false, "cs.lib.Base_1", [], ["K", "V"], [⟨"key", "K"⟩], [],
      [⟨"convert", "B", [⟨"values", "Array<V>", false⟩, ⟨"first", "A", false⟩]⟩,
        ⟨"keep", "T", []⟩]⟩ := by
  have hinterfaces : graph.interfaces 0 = [] := Graph.interfaces_eq_nil (by decide +kernel)
  have hview : (graph.view (graph.handle 0)).interfaces = .ok [] :=
    congrArg (fun keys => keys.mapM fun key => graph.reference (graph.handle key)) hinterfaces
  have hnames : (graph.view (graph.handle 0)).genericParameters = .ok ["K", "V"] :=
    congrArg Except.ok names_ofType
  have hfields : (graph.view (graph.handle 0)).fields
      = (listFields graph.resolve levels).mapM graph.viewField :=
    congrArg (fun levels => (listFields graph.resolve levels).mapM graph.viewField) levels_graph
  have hproperties : (graph.view (graph.handle 0)).properties
      = (listProperties graph.resolve levels).mapM graph.viewProperty :=
    congrArg (fun levels => (listProperties graph.resolve levels).mapM graph.viewProperty)
      levels_graph
  have hmethods : (graph.view (graph.handle 0)).methods
      = (listMethods graph.spelling? graph.resolve levels) >>= (List.mapM graph.viewMethod) :=
    congrArg (fun levels =>
      (listMethods graph.spelling? graph.resolve levels) >>= (List.mapM graph.viewMethod))
      levels_graph
  rw [TypeView.describe, hview, hnames, hfields, hproperties, hmethods]
  with_unfolding_all rfl

end NumberedPair

open NumberedPair in
/-- The class whose rows stand in descending order lists its generic parameters in the order of their
numbers, and every index means a number, as it does with rows in ascending order. -/
theorem descending_rows_are_listed_by_number :
    (graph.memberScope 0).interpretAt 1 (.typeParameter 1) = .ok (some (.parameter "V")) ∧
      (graph.memberScope 0).interpretAt 1 (.typeParameter 2)
        = .error (.parameterOutOfRange .type 2 2) ∧
      ∃ description, (graph.view (graph.handle 0)).describe = .ok description ∧
        (ascending.view (graph.handle 0)).describe = .ok description ∧
        description.genericParameters = ["K", "V"] ∧ description.methods =
          [⟨"convert", "B", [⟨"values", "Array<V>", false⟩, ⟨"first", "A", false⟩]⟩,
            ⟨"keep", "T", []⟩] := by
  obtain ⟨htypes, -, -, hothers⟩ := Graph.indices_mean_numbers graph
  obtain ⟨⟨hinRange, houtOfRange, -⟩, -, -⟩ := htypes 0 (by decide)
  obtain ⟨row, hrow, hnumber, hsecond⟩ := hinRange 1 (by decide) 1 (by decide)
  obtain rfl : row = ⟨1, "V"⟩ := by
    have hrows : ∀ row ∈ (graph.row 0).genericParameters, row.number = 1 → row = ⟨1, "V"⟩ := by
      decide
    exact hrows row hrow hnumber
  have hsame := (hothers ascending reorderedTo).2 (graph.handle 0)
  exact ⟨hsecond, houtOfRange 1 (by decide) 2 (by decide), _, describe_graph,
    hsame.trans describe_graph, rfl, rfl⟩

end TypeSurface.Metadata
