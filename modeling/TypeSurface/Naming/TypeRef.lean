import TypeSurface.Naming.Alias
import TypeSurface.Naming.Arity
import TypeSurface.Naming.Package

/-!
# Type references and their spelling

A reference to a type is a tree of arrays and generic instances over named types and generic
parameters. Its spelling is the one text of the output dialect that stands for it wherever a
description mentions the type. The rules apply in the order of the equations of
`TypeRef.spelling`: a generic parameter is its bare name, an array names its element, an aliased type
is its alias whatever its arguments, and any other type is its package, its name and its arguments.
-/

set_option autoImplicit false

namespace TypeSurface

/-- A reference to a type, as far as its spelling depends on it. -/
inductive TypeRef where
  | parameter (name : String)
  | array (element : TypeRef)
  | named (id : TypeId) (arguments : List TypeRef)
deriving Repr, Inhabited

namespace TypeRef

/-- Spelled generic arguments behind a name, nothing for a type without arguments. -/
def argumentList : List String → String
  | [] => ""
  | arguments => "<" ++ String.intercalate ", " arguments ++ ">"

/-- A named type with its spelled arguments, aliases left out of account. -/
def qualified (id : TypeId) (arguments : List String) : String :=
  Naming.packagePath id.nsText ++ "." ++ Naming.flattenArity id.name ++ argumentList arguments

mutual

/-- The text of the output dialect that stands for a reference. -/
def spelling : TypeRef → String
  | .parameter name => name
  | .array element => "Array<" ++ element.spelling ++ ">"
  | .named id arguments =>
      match Alias.ofId? id with
      | some short => short.text
      | none => qualified id (spellings arguments)

/-- The texts of several references, in order. -/
def spellings : List TypeRef → List String
  | [] => []
  | ref :: rest => ref.spelling :: spellings rest

end

theorem spellings_eq_map (refs : List TypeRef) : spellings refs = refs.map spelling := by
  induction refs with
  | nil => simp [spellings]
  | cons ref rest ih => simp [spellings, ih]

/-- The text of a reference that may be absent: nothing at all for an absent one. -/
def spellingOrEmpty : Option TypeRef → String
  | some ref => ref.spelling
  | none => ""

end TypeRef

end TypeSurface
