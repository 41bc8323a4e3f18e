import TypeSurface.Description.Lines
import TypeSurface.Session
import TypeSurface.Sink

/-!
# Runs

A run answers one request: it loads the named binaries, looks the type up and hands the lines of its
description to a sink. The whole answer is known before the first byte is written, so a fault of the
source writes nothing. Without a type path nothing is loaded; a missing path and an unknown type are
answered by a line of their own.
-/

set_option autoImplicit false

namespace TypeSurface

/-- The type to describe and the binaries to load first, in order. -/
structure Request where
  typePath : Option String
  binaries : List String
deriving DecidableEq, Repr

/-- How a request is answered. -/
inductive Outcome where
  | missingTypePath
  | notFound
  | described
deriving DecidableEq, Repr

/-- An outcome with the lines that tell it. -/
structure Reply where
  outcome : Outcome
  lines : List String
deriving DecidableEq, Repr

namespace Reply

/-- The line that stands for a missing type path. -/
def missingTypePath : Reply := ⟨.missingTypePath, ["<no type path provided>"]⟩

/-- The line that stands for an unknown type. -/
def notFound : Reply := ⟨.notFound, ["<no type found>"]⟩

/-- The lines of a description. -/
def described (description : Description) : Reply := ⟨.described, description.lines⟩

end Reply

namespace Request

variable {σ η : Type} [Viewable η] [TypeSource σ η]

/-- The answer to a request, or the fault of loading or describing. -/
def answer (source : σ) (request : Request) : Except Fault Reply :=
  match request.typePath with
  | none => .ok .missingTypePath
  | some path =>
      match (Session.start source).load request.binaries with
      | (.error fault, _) => .error fault
      | (.ok (), session) =>
          match session.lookup path with
          | .error fault => .error fault
          | .ok none => .ok .notFound
          | .ok (some description) => .ok (.described description)

/-- Answers a request and delivers the lines of the answer. -/
def run (source : σ) (request : Request) (sink : Sink) : Except Fault Outcome × Sink :=
  match request.answer source with
  | .error fault => (.error fault, sink)
  | .ok reply =>
      match sink.deliver reply.lines with
      | (.error cause, sink) => (.error (.delivery cause), sink)
      | (.ok (), sink) => (.ok reply.outcome, sink)

end Request

end TypeSurface
