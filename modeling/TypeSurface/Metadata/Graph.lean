import TypeSurface.Metadata.Handle
import TypeSurface.Metadata.Row

/-!
# Graphs of types

The types of a binary with their references to each other. A reference resolves when the row it counts
is there and not dropped. Tokens in signatures are found among the registered rows, the first row of a
token first.
-/

set_option autoImplicit false

namespace TypeSurface.Metadata

/-- All rows of a binary. -/
structure Graph where
  rows : Array Row
deriving Repr

namespace Graph

/-- The row behind a key. -/
def row (graph : Graph) (key : Nat) : Row := graph.rows[key]?.getD Row.missing

/-- The token of the row behind a key. -/
def token (graph : Graph) (key : Nat) : Token := (graph.row key).token

/-- A reference to the key resolves. -/
def isLive (graph : Graph) (key : Nat) : Bool := !(graph.row key).dropped

/-- The base type of a row, if it resolves. -/
def base? (graph : Graph) (key : Nat) : Option Nat := (graph.row key).base.filter graph.isLive

/-- The interfaces a row declares that resolve, in order. -/
def declaredInterfaces (graph : Graph) (key : Nat) : List Nat :=
  (graph.row key).interfaces.filter graph.isLive

/-- The generic arguments of a row that resolve, one instantiation after the other. -/
def arguments (graph : Graph) (key : Nat) : List Nat :=
  (graph.row key).instantiations.flatten.filter graph.isLive

/-- The handle of a row: generic parameters are known by their names only. -/
def handle (graph : Graph) (key : Nat) : Handle Nat :=
  if (graph.row key).isGenericParameter then .parameter (graph.row key).name
  else .definition (graph.row key).id key

/-- A token finds the row. -/
def answersTo (token : Token) (row : Row) : Bool :=
  row.token == token && row.registered && !row.dropped

/-- The handle of the first row that a token finds. -/
def resolve (graph : Graph) (token : Token) : Option (Handle Nat) :=
  (graph.rows.findIdx? (answersTo token)).map graph.handle

/-- Generic arguments of a handle: those it was made with, or those of its instantiations. -/
def argumentsOf (graph : Graph) : Handle Nat → List (Handle Nat)
  | .definition _ key => (graph.arguments key).map graph.handle
  | .named _ arguments => arguments
  | .parameter _ => []
  | .array _ => []

/-- A handle stands for an interface. -/
def isInterface (graph : Graph) : Handle Nat → Bool
  | .definition _ key => (graph.row key).flags.isInterface
  | _ => false

theorem row_mem_of_isLive {graph : Graph} {key : Nat} (h : graph.isLive key = true) :
    graph.row key ∈ graph.rows := by
  unfold isLive row at h
  unfold row
  cases hrow : graph.rows[key]? with
  | none => simp [hrow, Row.missing] at h
  | some row => simpa [hrow] using Array.mem_of_getElem? hrow

/-! ## Counting the tokens that are not seen yet -/

/-- The number of rows whose tokens are not among those seen. -/
def unseen (graph : Graph) (seen : List Token) : Nat :=
  graph.rows.toList.countP fun row => !seen.contains row.token

/-- A row whose token is seen for the first time is unseen no more. -/
theorem unseen_append_lt {graph : Graph} {new seen : List Token} {row : Row}
    (hrow : row ∈ graph.rows) (hnew : row.token ∈ new) (hseen : row.token ∉ seen) :
    graph.unseen (new ++ seen) < graph.unseen seen := by
  unfold unseen
  have hmem : row ∈ graph.rows.toList := by simpa using hrow
  generalize graph.rows.toList = rows at hmem
  induction rows with
  | nil => simp at hmem
  | cons first rest ih =>
      have hle : rest.countP (fun row => !(new ++ seen).contains row.token)
          ≤ rest.countP fun row => !seen.contains row.token := by
        apply List.countP_mono_left
        intro other _ h
        simp_all
      rcases List.mem_cons.1 hmem with rfl | hrest
      · simp only [List.countP_cons]
        simp [hnew, hseen]
        simpa using Nat.lt_succ_of_le hle
      · have hlt := ih hrest
        have hfirst : (if !(new ++ seen).contains first.token then 1 else 0)
            ≤ if !seen.contains first.token then 1 else 0 := by
          by_cases h : first.token ∈ seen <;> simp [h]
          split <;> decide
        simp only [List.countP_cons]
        omega

end Graph

end TypeSurface.Metadata
