import TypeSurface.Description.Lines
import TypeSurface.Proofs.EqualAnswers

/-!
# References to what is dropped

A type counts its base, interfaces, generic arguments, methods and accessors by references, and what a
reference counts can be dropped. `Graph.pruned` is the graph that never had such references. Wherever a
reference is read, one to what is dropped is passed over, so both graphs agree and declare the same
(`declaresAlike_pruned`), and all their answers are the same (`dropped_count_as_absent`).
-/

set_option autoImplicit false

namespace TypeSurface.Metadata

/-! ## Graphs without these references -/

/-- A property without its references to accessors that are dropped. -/
def PropertyRow.pruned (row : PropertyRow) : PropertyRow :=
  { row with
    getter := row.getter.filter (!·.dropped)
    setter := row.setter.filter (!·.dropped) }

namespace Row

/-- A type without its references to what is dropped; `isLive` says which types are not. -/
def pruned (isLive : Nat → Bool) (row : Row) : Row :=
  { row with
    base := row.base.filter isLive
    interfaces := row.interfaces.filter isLive
    instantiations := row.instantiations.map (List.filter isLive)
    properties := row.properties.map (·.pruned)
    methods := row.methods.filter (!·.dropped) }

/-- All that a type refers to is there. -/
structure Resolves (isLive : Nat → Bool) (row : Row) : Prop where
  base : ∀ base ∈ row.base, isLive base = true
  interfaces : ∀ interface ∈ row.interfaces, isLive interface = true
  arguments : ∀ argument ∈ row.instantiations.flatten, isLive argument = true
  methods : ∀ method ∈ row.methods, method.dropped = false
  accessors : ∀ property ∈ row.properties,
    ∀ accessor ∈ property.getter.toList ++ property.setter.toList, accessor.dropped = false

end Row

/-- A graph without its references to what is dropped. -/
def Graph.pruned (graph : Graph) : Graph := ⟨graph.rows.map (Row.pruned graph.isLive)⟩

/-! ## Members of pruned rows -/

theorem PropertyRow.decl_pruned (row : PropertyRow) : row.pruned.decl = row.decl := by
  have hbind : ∀ found : Option AccessorRow,
      (found.filter (!·.dropped)).bind (·.accessor?) = found.bind (·.accessor?) := by
    rintro (_ | accessor)
    · rfl
    · cases hdropped : accessor.dropped <;> simp [Option.filter, AccessorRow.accessor?, hdropped]
  rw [decl, decl, pruned, hbind, hbind]

theorem PropertyRow.dropped_eq_false_of_pruned {row : PropertyRow} {accessor : AccessorRow}
    (h : accessor ∈ row.pruned.getter.toList ++ row.pruned.setter.toList) :
    accessor.dropped = false := by
  simp only [pruned, List.mem_append, Option.mem_toList, Option.filter_eq_some_iff,
    Bool.not_eq_true'] at h
  exact h.elim And.right And.right

namespace Row

variable (isLive : Nat → Bool) (row : Row)

theorem level_pruned : (row.pruned isLive).level = row.level := by
  have hproperties : (row.properties.map (·.pruned)).map (·.decl) = row.properties.map (·.decl) := by
    rw [List.map_map]
    exact List.map_congr_left fun property _ => property.decl_pruned
  simp only [level, pruned, hproperties, List.filter_filter, Bool.and_self]

/-- All that a pruned type refers to is there. -/
theorem resolves_pruned : (row.pruned isLive).Resolves isLive where
  base _ hbase := (Option.filter_eq_some_iff.1 hbase).2
  interfaces _ hinterface := (List.mem_filter.1 hinterface).2
  arguments argument hargument := by
    rw [pruned, ← List.filter_flatten] at hargument
    exact (List.mem_filter.1 hargument).2
  methods method hmethod := by
    simpa using (List.mem_filter.1 hmethod).2
  accessors property hproperty accessor haccessor := by
    obtain ⟨original, -, rfl⟩ := List.mem_map.1 hproperty
    exact PropertyRow.dropped_eq_false_of_pruned haccessor

end Row

namespace Graph

/-! ## Answers of pruned graphs -/

variable (graph : Graph)

theorem row_pruned (key : Nat) : graph.pruned.row key = (graph.row key).pruned graph.isLive :=
  row_map rfl key

theorem isLive_pruned : graph.pruned.isLive = graph.isLive := by
  funext key
  rw [isLive, row_pruned]
  rfl

theorem base_row_pruned (key : Nat) : (graph.pruned.row key).base = graph.base? key := by
  rw [row_pruned]
  rfl

theorem interfaces_row_pruned (key : Nat) :
    (graph.pruned.row key).interfaces = graph.declaredInterfaces key := by
  rw [row_pruned]
  rfl

theorem instantiations_row_pruned (key : Nat) :
    (graph.pruned.row key).instantiations.flatten = graph.arguments key := by
  rw [row_pruned, arguments, List.filter_flatten]
  rfl

/-- The pruned graph agrees with the graph, and its rows declare the same members. -/
theorem declaresAlike_pruned : graph.DeclaresAlike graph.pruned where
  size := by rw [pruned, Array.size_map]
  token key := by rw [token, row_pruned]; rfl
  id key := by rw [row_pruned]; rfl
  isGenericParameter key := by rw [row_pruned]; rfl
  base? key := by
    rw [base?, base_row_pruned, isLive_pruned, base?, Option.filter_filter]
    simp only [Bool.and_self]
  declaredInterfaces key := by
    rw [declaredInterfaces, interfaces_row_pruned, isLive_pruned, declaredInterfaces,
      List.filter_filter]
    simp only [Bool.and_self]
  arguments key := by
    rw [arguments, instantiations_row_pruned, isLive_pruned, arguments, List.filter_filter]
    simp only [Bool.and_self]
  find token := by
    rw [pruned, Array.findIdx?_map]
    rfl
  isInterface key := by rw [row_pruned]; rfl
  level key := by rw [row_pruned, Row.level_pruned]

/-- What is dropped counts as absent. The graph without references to it has nothing to pass over: it
refers to what resolves in the graph, reference by reference. Both graphs have the same chains, the same
interfaces and generic arguments, and list the same fields, properties and methods. Every handle has the
same text, if its spelling ends, and is described alike, or with the same fault. -/
theorem dropped_count_as_absent :
    (∀ key, (graph.pruned.row key).Resolves graph.pruned.isLive ∧
      (graph.pruned.row key).base = graph.base? key ∧
      (graph.pruned.row key).interfaces = graph.declaredInterfaces key ∧
      (graph.pruned.row key).instantiations.flatten = graph.arguments key ∧
      (graph.pruned.row key).methods.map (·.decl) = (graph.row key).level.methods) ∧
    (∀ key, graph.pruned.handle key = graph.handle key ∧
      graph.pruned.lineage key = graph.lineage key ∧
      graph.pruned.interfaces key = graph.interfaces key ∧
      graph.pruned.arguments key = graph.arguments key ∧
      graph.pruned.fields key = graph.fields key ∧
      graph.pruned.properties key = graph.properties key ∧
      graph.pruned.methods key = graph.methods key) ∧
    ∀ handle, graph.pruned.argumentsOf handle = graph.argumentsOf handle ∧
      (∀ depth, graph.pruned.spellWithin depth handle = graph.spellWithin depth handle) ∧
      graph.pruned.spelling? (some handle) = graph.spelling? (some handle) ∧
      (graph.pruned.view handle).describe = (graph.view handle).describe := by
  have hsame := graph.declaresAlike_pruned
  refine ⟨fun key => ⟨?_, graph.base_row_pruned key, graph.interfaces_row_pruned key,
      graph.instantiations_row_pruned key, ?_⟩,
    fun key => ⟨hsame.handle key, hsame.lineage key, hsame.interfaces key, hsame.arguments key,
      hsame.fields key, hsame.properties key, hsame.methods key⟩,
    fun handle => ⟨?_, fun depth => hsame.spellWithin depth handle, ?_, ?_⟩⟩
  · rw [row_pruned, isLive_pruned]
    exact Row.resolves_pruned graph.isLive (graph.row key)
  · rw [row_pruned]
    rfl
  · rw [hsame.argumentsOf]
  · rw [hsame.spelling?]
  · rw [hsame.view]

end Graph

namespace HolderOfDropped

/-- A type with its references to other types. -/
def type (token : UInt32) (ns name : String) (base : Option Nat) (interfaces : List Nat)
    (instantiations : List (List Nat)) (dropped : Bool) : Row :=
  ⟨⟨token⟩, ns, name, 0, false, base, interfaces, instantiations, [], [], [], [], dropped, true⟩

/-- A public method without parameters. -/
def method (name : String) (result : Signature) (dropped : Bool) : MethodRow :=
  ⟨name, 0x06, ⟨result, false⟩, [], [], [], dropped⟩

/-- A public property of integers. -/
def property (name : String) (getter setter : Option Bool) : PropertyRow :=
  ⟨name, .builtIn .int32, getter.map (⟨0x06, ·⟩), setter.map (⟨0x06, ·⟩)⟩

/-- A class whose base is dropped, and with it the interface of the base. One of its two interfaces is
dropped, and so is an argument of the other. The getter of one property is dropped, the only accessor of
the other, and a method that could not be read. -/
def graph : Graph :=
  ⟨#[{ type 0x02000002 "Lib" "Holder" (some 1) [2, 3] [] false with
        properties := [property "Size" (some true) (some false), property "Lost" (some true) none]
        methods := [method "torn" (.typeParameter 9) true, method "run" (.builtIn .void) false] },
    type 0x02000003 "Lib" "Gone" none [4] [] true, type 0x02000004 "Lib" "IGone" none [] [] true,
    type 0x1b000001 "Lib" "IKept\x601" none [] [[2], [5]] false,
    type 0x02000005 "Lib" "IFar" none [] [] false,
    type 0x01000001 "System" "Int32" none [] [] false]⟩

/-- The class is described by what is left. -/
theorem describe_graph : (graph.view (graph.handle 0)).describe
    = .ok ⟨"Lib", "Holder", false, "", ["cs.lib.IKept_1<Int>"], [], [],
      [⟨"Size", "Int", false, true⟩], [⟨"run", "Void", []⟩]⟩ := by
  have hinterfaces : graph.interfaces 0 = [3] := by cbv
  have hview : (graph.view (graph.handle 0)).interfaces
      = [3].mapM fun key => graph.reference (graph.handle key) :=
    congrArg (fun keys => keys.mapM fun key => graph.reference (graph.handle key)) hinterfaces
  rw [TypeView.describe, hview]
  with_unfolding_all rfl

end HolderOfDropped

open HolderOfDropped in
/-- The class is described by what is left, as it is in the graph without the references. -/
theorem holder_is_described_by_the_rest :
    ¬(graph.row 0).Resolves graph.isLive ∧ (graph.pruned.row 0).Resolves graph.pruned.isLive ∧
      ∃ description, (graph.view (graph.handle 0)).describe = .ok description ∧
        (graph.pruned.view (graph.handle 0)).describe = .ok description ∧
        description.lines = ["Holder", "false", "cs.lib", "", "1", "cs.lib.IKept_1<Int>", "0", "0",
          "1", "Size", "Int", "false", "true", "1", "run", "Void", "0"] := by
  obtain ⟨hrows, -, hhandles⟩ := Graph.dropped_count_as_absent graph
  obtain ⟨-, -, -, hdescribe⟩ := hhandles (graph.handle 0)
  exact ⟨fun h => absurd (h.base 1 rfl) (by decide), (hrows 0).1, _, describe_graph,
    hdescribe.trans describe_graph, by decide +kernel⟩

end TypeSurface.Metadata
