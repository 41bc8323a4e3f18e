import TypeSurface.Metadata.Assembly

/-!
# Loading assemblies

A source over binaries that are known by their exact paths. What a binary holds is the graph of its
types, listed or not. Each load adds a graph, so a binary that is loaded twice is visible twice, and
tokens never lead from one binary into another.
-/

set_option autoImplicit false

namespace TypeSurface

open Metadata

/-- The graphs of the binaries there are, and of those loaded so far. -/
structure AssemblyStore where
  files : List (String × Graph)
  loaded : List Graph

namespace AssemblyStore

/-- A store that has loaded nothing. -/
def ofFiles (files : List (String × Assembly)) : AssemblyStore :=
  ⟨files.map fun (path, assembly) => (path, assembly.graph), []⟩

/-- Loads the binary at a path. -/
def load (store : AssemblyStore) (path : String) : Except Fault AssemblyStore :=
  match store.files.lookup path with
  | some graph => .ok { store with loaded := store.loaded ++ [graph] }
  | none => .error (.load path .absent)

/-- The listed types of all loaded binaries, in load order. -/
def visible (store : AssemblyStore) : List GraphType := store.loaded.flatMap (·.listed)

end AssemblyStore

instance : TypeSource AssemblyStore GraphType where
  load := AssemblyStore.load
  visible := AssemblyStore.visible

end TypeSurface
