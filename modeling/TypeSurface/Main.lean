import TypeSurface.CommandLine
import TypeSurface.Metadata.Assembly.Reader
import TypeSurface.Source.Assemblies

/-!
# The program

Reads the binaries that the command line names, each an assembly, and prints the answer. A file that
cannot be read as an assembly is left out of the store, so loading it is the fault of the run. Without
a type path no file is opened.
-/

set_option autoImplicit false

namespace TypeSurface.Program

open Metadata

/-- The assembly in a file, if it can be read as one. -/
def readAssembly? (path : String) : IO (Option Assembly) := do
  try
    return Assembly.ofText? (← IO.FS.readFile path)
  catch _ =>
    return none

/-- The assemblies among some files. -/
def readAssemblies (paths : List String) : IO (List (String × Assembly)) := do
  let mut files := []
  for path in paths do
    if let some assembly ← readAssembly? path then
      files := files ++ [(path, assembly)]
  return files

/-- The files that a command reads. -/
def filesOf : CommandLine.Command → List String
  | .describe ⟨some _, binaries⟩ _ => binaries
  | _ => []

/-- Log lines are asked for. -/
def isVerbose : CommandLine.Command → Bool
  | .describe _ verbose => verbose
  | _ => false

/-- Answers the arguments and gives the exit status. -/
def run (arguments : List String) : IO UInt32 := do
  let mut files := []
  if let .ok command := CommandLine.parse arguments then
    files ← readAssemblies (filesOf command)
    if isVerbose command then
      for (path, assembly) in files do
        IO.eprintln (path ++ ": " ++ assembly.types.length.repr ++ " types")
  let response := CommandLine.respond (AssemblyStore.ofFiles files) arguments
  IO.print response.output
  IO.eprint response.errors
  return response.status.toUInt32

end TypeSurface.Program

def main (arguments : List String) : IO UInt32 := TypeSurface.Program.run arguments
