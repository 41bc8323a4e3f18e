import TypeSurface.Run

/-!
# Command line

The arguments of the program, read from left to right. Options may stand anywhere before a double
dash; a single dash is no option. Version and help are answered as soon as they are met, so only an
error before them is reported. `respond` gives the exit status and the texts of the standard streams.
-/

set_option autoImplicit false

namespace TypeSurface.CommandLine

/-- The name of the program. -/
def programName : String := "externdump"

/-- The version of the program. -/
def version : String := "0.1.0"

/-- What the arguments ask for. -/
inductive Command where
  | describe (request : Request) (verbose : Bool)
  | showVersion
  | showHelp
deriving DecidableEq, Repr

/-- Why arguments are not understood. -/
inductive UsageFault where
  | unknownOption (option : String)
  | repeatedOption (option : String)
  | unexpectedValue (option : String)
  | emptyBinary
deriving DecidableEq, Repr

namespace UsageFault

/-- The wording of a fault. -/
def message : UsageFault → String
  | .unknownOption option => "unexpected argument '" ++ option ++ "' found"
  | .repeatedOption option => "the argument '" ++ option ++ "' cannot be used multiple times"
  | .unexpectedValue option => "unexpected value for '" ++ option ++ "' found; no more were expected"
  | .emptyBinary => "a value is required for '[BINARY]...' but none was supplied"

end UsageFault

/-- What the arguments have said so far. -/
structure Progress where
  typePath : Option String
  binaries : List String
  verbose : Bool
deriving DecidableEq, Repr

namespace Progress

/-- Nothing is said yet. -/
def initial : Progress := ⟨none, [], false⟩

/-- The request made of what was said. -/
def command (progress : Progress) : Command :=
  .describe ⟨progress.typePath, progress.binaries⟩ progress.verbose

/-- Takes a positional argument: the type first, then the binaries, none of them empty. -/
def positional (progress : Progress) (argument : String) : Except UsageFault Progress :=
  match progress.typePath with
  | none => .ok { progress with typePath := some argument }
  | some _ =>
      if argument = "" then .error .emptyBinary
      else .ok { progress with binaries := progress.binaries ++ [argument] }

end Progress

/-- An option is taken in, or answers the whole command line. -/
inductive Step where
  | goOn (progress : Progress)
  | finish (command : Command)

/-- Asks for log lines, once at most. -/
def takeVerbose (progress : Progress) : Except UsageFault Step :=
  if progress.verbose then .error (.repeatedOption "--verbose")
  else .ok (.goOn { progress with verbose := true })

/-- Takes an option by its long name, given behind its two dashes. -/
def takeLong (progress : Progress) (option : String) : Except UsageFault Step :=
  let name := String.ofList (option.toList.takeWhile (· != '='))
  if name = "verbose" ∨ name = "version" ∨ name = "help" then
    if option.toList.contains '=' then .error (.unexpectedValue ("--" ++ name))
    else if name = "verbose" then takeVerbose progress
    else if name = "version" then .ok (.finish .showVersion)
    else .ok (.finish .showHelp)
  else .error (.unknownOption ("--" ++ name))

/-- Takes options by their letters, from left to right. -/
def takeLetters (progress : Progress) : List Char → Except UsageFault Step
  | [] => .ok (.goOn progress)
  | letter :: rest =>
      if letter = 'v' then
        match takeVerbose progress with
        | .ok (.goOn progress) => takeLetters progress rest
        | other => other
      else if letter = 'V' then .ok (.finish .showVersion)
      else if letter = 'h' then .ok (.finish .showHelp)
      else .error (.unknownOption (String.ofList ['-', letter]))

/-- Takes an argument that stands before a double dash. -/
def takeArgument (progress : Progress) (argument : String) : Except UsageFault Step :=
  match argument.toList with
  | '-' :: '-' :: option => takeLong progress (String.ofList option)
  | '-' :: letter :: letters => takeLetters progress (letter :: letters)
  | _ => (progress.positional argument).map .goOn

/-- Takes arguments from left to right. -/
def takeAll (progress : Progress) : List String → Except UsageFault Command
  | [] => .ok progress.command
  | argument :: rest =>
      if argument = "--" then (rest.foldlM Progress.positional progress).map (·.command)
      else
        match takeArgument progress argument with
        | .error fault => .error fault
        | .ok (.finish command) => .ok command
        | .ok (.goOn progress) => takeAll progress rest

/-- Reads the arguments of the program. -/
def parse (arguments : List String) : Except UsageFault Command := takeAll .initial arguments

/-! ## Answers -/

/-- The exit status of the program and the texts of its standard streams. -/
structure Response where
  status : Nat
  output : String
  errors : String
deriving DecidableEq, Repr

/-- The line that tells the version. -/
def versionText : String := programName ++ " " ++ version ++ "\n"

/-- The lines that tell the usage. -/
def helpText : String :=
  "Describe the public surface of one type\n\n"
    ++ "Usage: " ++ programName ++ " [OPTIONS] [TYPE] [BINARY]...\n\n"
    ++ "Arguments:\n"
    ++ "  [TYPE]       Dotted path of the type to describe\n"
    ++ "  [BINARY]...  Binaries to load before the type is looked up, in order\n\n"
    ++ "Options:\n"
    ++ "  -v, --verbose  Write log lines to standard error\n"
    ++ "  -h, --help     Print help\n"
    ++ "  -V, --version  Print version\n"

/-- The lines that tell a fault. -/
def faultText (message : String) : String := "Error: " ++ message ++ "\n"

variable {σ η : Type} [Viewable η] [TypeSource σ η]

/-- Answers a command. A fault leaves the standard output empty. -/
def execute (source : σ) : Command → Response
  | .showVersion => ⟨0, versionText, ""⟩
  | .showHelp => ⟨0, helpText, ""⟩
  | .describe request _ =>
      match request.answer source with
      | .ok reply => ⟨0, String.join (reply.lines.map (· ++ "\n")), ""⟩
      | .error fault => ⟨1, "", faultText fault.message⟩

/-- Answers the arguments of the program. -/
def respond (source : σ) (arguments : List String) : Response :=
  match parse arguments with
  | .ok command => execute source command
  | .error fault => ⟨2, "", faultText fault.message⟩

end TypeSurface.CommandLine
