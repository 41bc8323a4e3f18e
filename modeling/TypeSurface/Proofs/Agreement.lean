import TypeSurface.Proofs.Lineage
import TypeSurface.Proofs.References

/-!
# Graphs that agree

Walks over bases and interfaces, and the references of handles, depend on a few things that a graph
says about its rows: tokens, identities, flavors and the references that resolve. Graphs that agree
on these (`Agrees`) have the same chains, the same interfaces and the same references, whatever else
they say about their rows. Rows say these things without their members (`Row.outline`), so graphs whose rows
have the same outlines agree (`agrees_of_outline_eq`).
-/

set_option autoImplicit false

namespace TypeSurface.Metadata

/-! ## Types without their members -/

/-- A type without its generic parameters and its members. -/
def Row.outline (row : Row) : Row :=
  { row with genericParameters := [], fields := [], properties := [], methods := [] }

theorem Row.read_eq_of_outline_eq {α : Type} {row other : Row} (h : other.outline = row.outline)
    (read : Row → α) (hread : ∀ row : Row, read row.outline = read row) : read other = read row := by
  rw [← hread, h, hread]

namespace Graph

theorem row_map {rows : Array Row} {change : Row → Row} (hmissing : change .missing = .missing)
    (key : Nat) : row ⟨rows.map change⟩ key = change (row ⟨rows⟩ key) := by
  rw [row, row, Array.getElem?_map]
  cases rows[key]? with
  | none => exact hmissing.symm
  | some row => rfl

/-- Another graph says the same about tokens, identities, flavors and references between rows. -/
structure Agrees (graph other : Graph) : Prop where
  size : other.rows.size = graph.rows.size
  token : ∀ key, other.token key = graph.token key
  id : ∀ key, (other.row key).id = (graph.row key).id
  isGenericParameter : ∀ key,
    (other.row key).isGenericParameter = (graph.row key).isGenericParameter
  base? : ∀ key, other.base? key = graph.base? key
  declaredInterfaces : ∀ key, other.declaredInterfaces key = graph.declaredInterfaces key
  arguments : ∀ key, other.arguments key = graph.arguments key
  find : ∀ token,
    other.rows.findIdx? (answersTo token) = graph.rows.findIdx? (answersTo token)

section Outlines

variable {graph other : Graph} (hsize : other.rows.size = graph.rows.size)
  (h : ∀ key, (other.row key).outline = (graph.row key).outline)

include hsize h

/-- Among rows of the same outlines a token finds the same row. -/
theorem findIdx?_answersTo_eq (token : Token) :
    other.rows.findIdx? (answersTo token) = graph.rows.findIdx? (answersTo token) := by
  have hanswers : other.rows.map (answersTo token) = graph.rows.map (answersTo token) := by
    apply Array.ext
    · rw [Array.size_map, Array.size_map, hsize]
    · intro key hother hgraph
      rw [Array.size_map] at hother hgraph
      have hrow := Row.read_eq_of_outline_eq (h key) (answersTo token) fun _ => rfl
      rw [row, row, Array.getElem?_eq_getElem hother, Array.getElem?_eq_getElem hgraph] at hrow
      rw [Array.getElem_map, Array.getElem_map]
      exact hrow
  have hfind : ∀ rows : Array Row,
      rows.findIdx? (answersTo token) = (rows.map (answersTo token)).findIdx? id := by
    intro rows
    rw [Array.findIdx?_map]
    rfl
  rw [hfind, hanswers, hfind]

/-- Graphs whose rows have the same outlines agree. -/
theorem agrees_of_outline_eq : Agrees graph other := by
  have hread : ∀ {α : Type} (read : Row → α), (∀ row : Row, read row.outline = read row) →
      ∀ key, read (other.row key) = read (graph.row key) := by
    intro α read hread key
    exact Row.read_eq_of_outline_eq (h key) read hread
  have hlive : other.isLive = graph.isLive :=
    funext (hread (fun row => !row.dropped) fun _ => rfl)
  exact
    { size := hsize
      token := hread Row.token fun _ => rfl
      id := hread Row.id fun _ => rfl
      isGenericParameter := hread Row.isGenericParameter fun _ => rfl
      base? := fun key => by rw [base?, base?, hlive, hread Row.base fun _ => rfl]
      declaredInterfaces := fun key => by
        rw [declaredInterfaces, declaredInterfaces, hlive, hread Row.interfaces fun _ => rfl]
      arguments := fun key => by
        rw [arguments, arguments, hlive, hread Row.instantiations fun _ => rfl]
      find := findIdx?_answersTo_eq hsize h }

end Outlines

namespace Agrees

variable {graph other : Graph}

/-! ## Handles and chains -/

theorem handle (h : Agrees graph other) (key : Nat) : other.handle key = graph.handle key := by
  have hname : (other.row key).name = (graph.row key).name := congrArg TypeId.name (h.id key)
  rw [Graph.handle, Graph.handle, h.isGenericParameter, h.id, hname]

theorem resolve (h : Agrees graph other) : other.resolve = graph.resolve := by
  funext token
  rw [Graph.resolve, Graph.resolve, h.find, funext h.handle]

theorem nextBase? (h : Agrees graph other) (seen : List Token) (key : Nat) :
    other.nextBase? seen key = graph.nextBase? seen key := by
  simp only [Graph.nextBase?, h.base?, h.token]

/-- A walk meets the same bases. -/
theorem basesFrom (h : Agrees graph other) (seen : List Token) (key : Nat) :
    other.basesFrom seen key = graph.basesFrom seen key := by
  -- Both walks are followed by the steps of the first graph.
  induction seen, key using Graph.basesFrom.induct graph with
  | case1 seen key hnone =>
      rw [basesFrom_of_none hnone, basesFrom_of_none ((h.nextBase? seen key).trans hnone)]
  | case2 seen key base hsome ih =>
      rw [basesFrom_of_some hsome, basesFrom_of_some ((h.nextBase? seen key).trans hsome),
        h.token, ih]

theorem lineage (h : Agrees graph other) (key : Nat) : other.lineage key = graph.lineage key := by
  rw [Graph.lineage, Graph.lineage, h.token, h.basesFrom]

/-! ## Interfaces -/

theorem firstSeen (h : Agrees graph other) (seen : List Token) (keys : List Nat) :
    other.firstSeen seen keys = graph.firstSeen seen keys := by
  induction keys generalizing seen with
  | nil => rfl
  | cons key rest ih => simp only [Graph.firstSeen, h.token, ih]

theorem closeInterfaces (h : Agrees graph other) (seen : List Token) (found : List Nat) :
    other.closeInterfaces seen found = graph.closeInterfaces seen found := by
  induction seen, found using Graph.closeInterfaces.induct graph with
  | case1 seen => rw [Graph.closeInterfaces, Graph.closeInterfaces]
  | case2 seen key rest new ih =>
      rw [Graph.closeInterfaces, Graph.closeInterfaces]
      simp only [h.declaredInterfaces, h.firstSeen, funext h.token]
      exact congrArg (key :: ·) ih

theorem interfaces (h : Agrees graph other) (key : Nat) :
    other.interfaces key = graph.interfaces key := by
  simp only [Graph.interfaces, h.lineage, funext h.declaredInterfaces, h.firstSeen,
    funext h.token, h.closeInterfaces]

/-! ## References -/

/-- A row has the same reference at every depth. -/
theorem rowReference? (h : Agrees graph other) (depth key : Nat) :
    other.rowReference? depth key = graph.rowReference? depth key := by
  induction depth generalizing key with
  | zero =>
      have hname : (other.row key).name = (graph.row key).name := congrArg TypeId.name (h.id key)
      simp only [Graph.rowReference?, h.isGenericParameter, h.id, hname]
  | succ depth ih =>
      have hname : (other.row key).name = (graph.row key).name := congrArg TypeId.name (h.id key)
      simp only [Graph.rowReference?, h.isGenericParameter, h.id, hname, h.arguments, funext ih]

mutual

theorem reference? (h : Agrees graph other) :
    ∀ handle : Handle Nat, other.reference? handle = graph.reference? handle
  | .definition _ key => by
      rw [Graph.reference?, Graph.reference?, h.size, h.rowReference?]
  | .named id arguments => by
      rw [Graph.reference?, Graph.reference?, references? h arguments]
  | .parameter name => by rw [Graph.reference?, Graph.reference?]
  | .array element => by rw [Graph.reference?, Graph.reference?, reference? h element]

theorem references? (h : Agrees graph other) :
    ∀ handles : List (Handle Nat), other.references? handles = graph.references? handles
  | [] => by rw [Graph.references?, Graph.references?]
  | handle :: rest => by
      rw [Graph.references?, Graph.references?, reference? h handle, references? h rest]

end

theorem spelled (h : Agrees graph other) (type : MemberType Nat) :
    other.spelled type = graph.spelled type := by
  rw [Graph.spelled, Graph.spelled, funext h.reference?]

theorem spelling? (h : Agrees graph other) : other.spelling? = graph.spelling? := by
  funext type
  cases type with
  | none => rfl
  | some handle => rw [Graph.spelling?, Graph.spelling?, h.reference?]

theorem acyclic (h : Agrees graph other) (hacyclic : graph.Acyclic) : other.Acyclic := by
  intro key hway
  have hrefers : other.Refers = graph.Refers := by
    funext key argument
    rw [Refers, Refers, h.arguments]
  rw [hrefers] at hway
  exact hacyclic key hway

end Agrees

end Graph

end TypeSurface.Metadata
