/-!
# JSON values

Values of the notation in which assemblies are kept on disk. Of numbers only natural ones carry a
meaning there. A member that is missing or of another kind than asked for takes a default, so an
assembly is never refused once its text is read.
-/

set_option autoImplicit false

namespace TypeSurface

/-- A JSON value. -/
inductive Json where
  | null
  | truth (value : Bool)
  | natural (value : Nat)
  /-- A number that is not natural. -/
  | other
  | text (value : String)
  | list (items : List Json)
  | record (members : List (String × Json))
deriving Repr, Inhabited

namespace Json

/-- The member under a key; of several the last one counts. -/
def member? (value : Json) (key : String) : Option Json :=
  match value with
  | .record members => (members.reverse.find? (·.1 == key)).map (·.2)
  | _ => none

/-- The member under a key, null if there is none. -/
def member (value : Json) (key : String) : Json := (value.member? key).getD .null

/-- The text of a value, if it is one. -/
def text? : Json → Option String
  | .text value => some value
  | _ => none

/-- The natural number of a value, if it is one. -/
def natural? : Json → Option Nat
  | .natural value => some value
  | _ => none

/-- The truth value of a value, false if it is none. -/
def isTrue : Json → Bool
  | .truth value => value
  | _ => false

/-- The items of a list, none if the value is no list. -/
def items : Json → List Json
  | .list items => items
  | _ => []

/-- The text of a member, empty by default. -/
def textOf (value : Json) (key : String) : String := ((value.member key).text?).getD ""

/-- The natural number of a member, zero by default. -/
def naturalOf (value : Json) (key : String) : Nat := ((value.member key).natural?).getD 0

/-- The items of a member, none by default. -/
def itemsOf (value : Json) (key : String) : List Json := (value.member key).items

end Json

end TypeSurface
