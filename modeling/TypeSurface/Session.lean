import TypeSurface.Source.Basic

/-!
# Sessions

A source together with the record of what it has loaded. Binaries are loaded in order up to the first
that fails; what was loaded before it stays. Looking types up changes nothing. `Session.run` answers
one step after the other in one session, whatever the answers before were.
-/

set_option autoImplicit false

namespace TypeSurface

/-- A source and the paths loaded into it, in order. -/
structure Session (σ : Type) where
  source : σ
  loaded : List String

/-- A step of a session. -/
inductive SessionStep where
  | load (paths : List String)
  | find (path : String)
  | lookup (path : String)
  | listVisible
deriving DecidableEq, Repr

/-- The answer to a step of a session. -/
inductive SessionAnswer (η : Type) where
  | loaded (outcome : Except Fault Unit)
  | found (type : Option η)
  | described (description : Except Fault (Option Description))
  | visible (types : List η)

namespace Session

variable {σ η : Type} [Viewable η] [TypeSource σ η]

/-- The session of a source that has loaded nothing. -/
def start (source : σ) : Session σ := ⟨source, []⟩

/-- Loads binaries in order and stops at the first that fails. -/
def load (session : Session σ) : List String → Except Fault Unit × Session σ
  | [] => (.ok (), session)
  | path :: rest =>
      match TypeSource.load session.source path with
      | .error fault => (.error fault, session)
      | .ok source => load ⟨source, session.loaded ++ [path]⟩ rest

/-- All visible types, in order. -/
def visible (session : Session σ) : List η := TypeSource.visible session.source

/-- The first visible type that a dotted path names. -/
def find? (session : Session σ) (path : String) : Option η :=
  (TypePath.parse path).findIn? session.visible

/-- The description of the first visible type that a dotted path names. -/
def lookup (session : Session σ) (path : String) : Except Fault (Option Description) :=
  TypePath.describeIn path (session.visible : List η)

/-- Answers one step. Only loading changes the session. -/
def step (session : Session σ) : SessionStep → SessionAnswer η × Session σ
  | .load paths =>
      match session.load paths with
      | (outcome, session) => (.loaded outcome, session)
  | .find path => (.found (session.find? path), session)
  | .lookup path => (.described (session.lookup path), session)
  | .listVisible => (.visible session.visible, session)

/-- Answers steps in order; each answer comes with the session after its step. -/
def run (session : Session σ) : List SessionStep → List (SessionAnswer η × Session σ)
  | [] => []
  | first :: rest =>
      match session.step first with
      | (answer, session) => (answer, session) :: session.run rest

end Session

end TypeSurface
