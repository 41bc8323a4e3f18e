import TypeSurface.Text.LastSplit

/-!
# Arity marks

The runtime writes the number of generic parameters of a type behind a grave accent at the end of its
name. The output dialect writes an underscore there. Only the last accent counts, and only when
nothing but ASCII digits follows it. `flattenArityChars_marked` and `flattenArityChars_unmarked` cover
every name.
-/

set_option autoImplicit false

namespace TypeSurface.Naming

/-- The accent that announces an arity. -/
def arityMark : Char := '\x60'

/-- A tail that can be an arity: one or more ASCII digits. -/
def isArity (tail : List Char) : Bool :=
  !tail.isEmpty && tail.all Char.isDigit

/-- Writes an underscore for the accent of an arity mark and leaves every other name alone. -/
def flattenArityChars (name : List Char) : List Char :=
  match Text.splitLast arityMark name with
  | some (base, tail) => if isArity tail then base ++ '_' :: tail else name
  | none => name

/-- Writes an underscore for the accent of an arity mark and leaves every other name alone. -/
def flattenArity (name : String) : String := String.ofList (flattenArityChars name.toList)

@[simp] theorem toList_flattenArity (name : String) :
    (flattenArity name).toList = flattenArityChars name.toList := by
  simp [flattenArity]

/-- The name ends in an arity mark. -/
def HasArityMark (name : List Char) : Prop :=
  ∃ base digits, name = base ++ arityMark :: digits ∧ isArity digits = true

theorem arityMark_not_mem_of_isArity {digits : List Char} (h : isArity digits = true) :
    arityMark ∉ digits := by
  intro hmem
  simp only [isArity, Bool.and_eq_true, List.all_eq_true] at h
  exact absurd (h.2 _ hmem) (by decide)

/-- An arity mark is flattened, whatever stands before it. -/
theorem flattenArityChars_marked (base : List Char) {digits : List Char}
    (h : isArity digits = true) :
    flattenArityChars (base ++ arityMark :: digits) = base ++ '_' :: digits := by
  simp [flattenArityChars, Text.splitLast_append base (arityMark_not_mem_of_isArity h), h]

/-- A name without an arity mark stays as it is. -/
theorem flattenArityChars_unmarked {name : List Char} (h : ¬HasArityMark name) :
    flattenArityChars name = name := by
  unfold flattenArityChars
  split
  · rename_i base tail hsplit
    split
    · rename_i harity
      exact absurd ⟨base, tail, (Text.splitLast_eq_some_iff.1 hsplit).1, harity⟩ h
    · rfl
  · rfl

end TypeSurface.Naming
