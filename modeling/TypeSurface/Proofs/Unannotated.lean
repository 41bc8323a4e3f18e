import TypeSurface.Proofs.EqualAnswers
import TypeSurface.Proofs.FirstFaults
import TypeSurface.Proofs.Hiding

/-!
# Graphs without annotations

What rows say about the parameters of methods goes into nothing but names and default values. Without
them (`Graph.unannotated`) a chain lists the same methods from the same places, with the same types, and
fails with the same faults (`listSourced_unannotated`). Every handle is viewed as it is in the graph, but
for these names and default values (`Graph.view_unannotated`).
-/

set_option autoImplicit false

namespace TypeSurface

/-! ## Members without annotations -/

/-- A parameter without its name and its default value. -/
def Member.Parameter.unannotated {α : Type} (parameter : Member.Parameter α) : Member.Parameter α :=
  { parameter with name := "", hasDefault := false }

/-- A method whose parameters have neither names nor default values. -/
def Member.Method.unannotated {α : Type} (method : Member.Method α) : Member.Method α :=
  { method with parameters := method.parameters.map (·.unannotated) }

/-- A description whose methods are described without annotations. -/
def Description.unannotated (description : Description) : Description :=
  { description with methods := description.methods.map (·.unannotated) }

theorem Member.Method.map_unannotated {α β : Type} (f : α → β) (method : Member.Method α) :
    method.unannotated.map f = (method.map f).unannotated := by
  rw [unannotated, unannotated, map, map, List.map_map, List.map_map]
  rfl

/-- Without the annotations of methods a view is described without annotations. -/
theorem TypeView.describe_unannotated (view : TypeView) :
    { view with methods := view.methods.map (List.map Member.Method.unannotated) }.describe
      = view.describe.map Description.unannotated := by
  have hbind : ∀ {α : Type} (first : Except Fault α) (next : α → Except Fault Description),
      (first >>= next).map Description.unannotated
        = first >>= fun value => (next value).map Description.unannotated :=
    fun first next => map_bind Description.unannotated first next
  have hmethods : ∀ {α : Type} (answer : Except Fault α) (change : α → α)
      (next : α → Except Fault Description),
      answer.map change >>= next = answer >>= fun value => next (change value) :=
    fun answer change next => bind_map_left change answer next
  have hspelled : ∀ methods : List (Member.Method (Option TypeRef)),
      (methods.map Member.Method.unannotated).map (·.map TypeRef.spellingOrEmpty)
        = (methods.map (·.map TypeRef.spellingOrEmpty)).map Member.Method.unannotated := by
    intro methods
    rw [List.map_map, List.map_map]
    exact List.map_congr_left fun method _ => method.map_unannotated TypeRef.spellingOrEmpty
  simp only [describe, hbind, hmethods, hspelled]
  rfl

namespace Metadata

variable {κ ν : Type}

/-! ## Listings without annotations -/

/-- A method declared without the names and default values of its parameters. -/
def MethodDecl.unannotated (decl : MethodDecl) : MethodDecl :=
  { decl with parameters := decl.parameters.map fun parameter =>
      { parameter with name := "", hasDefault := false } }

/-- A level whose methods are declared without annotations. -/
def Level.unannotated (level : Level) : Level :=
  { level with methods := level.methods.map (·.unannotated) }

/-- A source that is declared and read without annotations. -/
def Sourced.unannotated (source : Sourced κ) : Sourced κ :=
  { source with decl := source.decl.unannotated, method := source.method.unannotated }

/-- A rule that does not look at annotations comes to the same for every level of a chain. -/
theorem eachLevel_unannotated {β : Type} {rule : Origin → Level → β}
    (hrule : ∀ origin level, rule origin level.unannotated = rule origin level)
    (levels : List Level) :
    eachLevel rule (levels.map Level.unannotated) = eachLevel rule levels := by
  cases levels with
  | nil => rfl
  | cons own bases =>
      rw [List.map_cons, eachLevel, eachLevel, hrule, List.map_map]
      exact congrArg (_ :: ·) (List.map_congr_left fun level _ => hrule .inherited level)

/-- Reading a method without annotations comes to the same types, and to the same fault. -/
theorem MethodDecl.read_unannotated (scope : Scope κ) (decl : MethodDecl) :
    decl.unannotated.read scope = (decl.read scope).map (·.unannotated) := by
  have hparameter : ∀ parameter : ParameterDecl,
      ParameterDecl.read scope { parameter with name := "", hasDefault := false }
        = (parameter.read scope).map (·.unannotated) := by
    intro parameter
    rw [ParameterDecl.read, ParameterDecl.read]
    cases scope.interpret parameter.signature <;> rfl
  have hparameters : decl.unannotated.parameters.mapM (ParameterDecl.read scope)
      = (decl.parameters.mapM (ParameterDecl.read scope)).map (List.map (·.unannotated)) := by
    rw [unannotated]
    exact mapM_map_of_commutes fun parameter _ => hparameter parameter
  rw [read, read, hparameters]
  cases hresult : scope.interpret decl.result with
  | error fault => rw [unannotated, hresult]; rfl
  | ok result =>
      rw [unannotated, hresult]
      cases decl.parameters.mapM (·.read scope) <;> rfl

/-- The methods of a level come from the same places without annotations. -/
theorem Level.sourcedMethods_unannotated (resolve : Token → Option (Handle κ)) (number : Nat)
    (level : Level) :
    level.unannotated.sourcedMethods resolve number
      = (level.sourcedMethods resolve number).map (List.map Sourced.unannotated) := by
  rw [sourcedMethods, sourcedMethods, unannotated, List.zipIdx_map, List.filter_map]
  refine mapM_map_of_commutes fun entry _ => ?_
  show (entry.1.unannotated.read (level.methodScope resolve entry.1)).map _ = _
  rw [MethodDecl.read_unannotated]
  cases entry.1.read (level.methodScope resolve entry.1) <;> rfl

theorem methodKey_unannotated (spell : MemberType κ → ν) (method : Member.Method (MemberType κ)) :
    methodKey spell method.unannotated = methodKey spell method := by
  rw [methodKey, methodKey, Member.Method.unannotated, List.map_map]
  rfl

/-- Without annotations a chain lists the same methods from the same places, or fails with the same
fault. -/
theorem listSourced_unannotated [DecidableEq ν] (spell : MemberType κ → ν)
    (resolve : Token → Option (Handle κ)) (levels : List Level) :
    listSourced spell resolve (levels.map Level.unannotated)
      = (listSourced spell resolve levels).map (List.map Sourced.unannotated) := by
  have hlevels : (levels.map Level.unannotated).mapIdx (Level.sourcedMethods resolve)
      = (levels.mapIdx (Level.sourcedMethods resolve)).map
          (Except.map (List.map Sourced.unannotated)) := by
    rw [map_mapIdx]
    apply List.ext_getElem?
    intro number
    rw [List.getElem?_mapIdx, List.getElem?_mapIdx, List.getElem?_map, Option.map_map]
    refine congrArg (fun rule => levels[number]?.map rule) (funext fun level => ?_)
    exact level.sourcedMethods_unannotated resolve number
  have heligible := mapM_map_result id (List.map Sourced.unannotated)
    (levels.mapIdx (Level.sourcedMethods resolve))
  have hkey : (fun source : Sourced κ => methodKey spell source.unannotated.method)
      = fun source => methodKey spell source.method :=
    funext fun source => methodKey_unannotated spell source.method
  rw [listSourced, listSourced, hlevels, List.mapM_map]
  refine (congrArg (· >>= _) heligible).trans ?_
  cases (levels.mapIdx (Level.sourcedMethods resolve)).mapM id with
  | error fault => rfl
  | ok eligible =>
      have hhides := mostDerivedFrom_map Sourced.unannotated
        (fun source => methodKey spell source.method) [] eligible
      rw [hkey] at hhides
      exact congrArg Except.ok hhides

/-- Without annotations a chain lists the same methods with the same types, or fails with the same
fault. -/
theorem listMethods_unannotated [DecidableEq ν] (spell : MemberType κ → ν)
    (resolve : Token → Option (Handle κ)) (levels : List Level) :
    listMethods spell resolve (levels.map Level.unannotated)
      = (listMethods spell resolve levels).map (List.map (·.unannotated)) := by
  rw [listMethods_eq_map_listSourced, listMethods_eq_map_listSourced, listSourced_unannotated]
  cases listSourced spell resolve levels with
  | error fault => rfl
  | ok listed =>
      refine congrArg Except.ok ?_
      rw [List.map_map, List.map_map]
      rfl

/-! ## Graphs without annotations -/

/-- A method without its annotations. -/
def MethodRow.unannotated (row : MethodRow) : MethodRow := { row with annotations := [] }

/-- A type whose methods have no annotations. -/
def Row.unannotated (row : Row) : Row := { row with methods := row.methods.map (·.unannotated) }

theorem MethodRow.decl_unannotated (row : MethodRow) :
    row.unannotated.decl = row.decl.unannotated := by
  rw [decl, decl, MethodDecl.unannotated, map_mapIdx]
  rfl

theorem Row.level_unannotated (row : Row) : row.unannotated.level = row.level.unannotated := by
  have hmethods : (row.unannotated.methods.filter (!·.dropped)).map (·.decl)
      = ((row.methods.filter (!·.dropped)).map (·.decl)).map (·.unannotated) := by
    rw [unannotated, List.filter_map, List.map_map, List.map_map]
    exact List.map_congr_left fun method _ => method.decl_unannotated
  rw [level, hmethods]
  rfl

namespace Graph

/-- A graph without annotations. -/
def unannotated (graph : Graph) : Graph := ⟨graph.rows.map (·.unannotated)⟩

variable (graph : Graph)

theorem row_unannotated (key : Nat) : graph.unannotated.row key = (graph.row key).unannotated :=
  row_map rfl key

theorem agrees_unannotated : Agrees graph graph.unannotated := by
  refine agrees_of_outline_eq (Array.size_map ..) fun key => ?_
  rw [row_unannotated]
  rfl

theorem levels_unannotated (key : Nat) :
    graph.unannotated.levels key = (graph.levels key).map Level.unannotated := by
  rw [levels, levels, graph.agrees_unannotated.lineage, List.map_map]
  refine List.map_congr_left fun owner _ => ?_
  rw [row_unannotated, Row.level_unannotated]
  rfl

theorem fields_unannotated (key : Nat) : graph.unannotated.fields key = graph.fields key := by
  rw [fields, fields, levels_unannotated, graph.agrees_unannotated.resolve, listFields,
    eachLevel_unannotated fun _ _ => rfl]
  rfl

theorem properties_unannotated (key : Nat) :
    graph.unannotated.properties key = graph.properties key := by
  rw [properties, properties, levels_unannotated, graph.agrees_unannotated.resolve, listProperties,
    eachLevel_unannotated fun _ _ => rfl]
  rfl

/-- Without annotations a type lists the same methods with the same types, or fails with the same
fault. -/
theorem methods_unannotated (key : Nat) :
    graph.unannotated.methods key = (graph.methods key).map (List.map (·.unannotated)) := by
  rw [methods, methods, levels_unannotated, graph.agrees_unannotated.resolve,
    graph.agrees_unannotated.spelling?, listMethods_unannotated]

/-- A method is viewed without annotations, or with the same fault. -/
theorem viewMethod_unannotated (method : Member.Method (MemberType Nat)) :
    graph.unannotated.viewMethod method.unannotated
      = (graph.viewMethod method).map (·.unannotated) := by
  have hparameter : ∀ parameter : Member.Parameter (MemberType Nat),
      graph.viewParameter parameter.unannotated
        = (graph.viewParameter parameter).map (·.unannotated) := by
    intro parameter
    rw [viewParameter, viewParameter, Member.Parameter.unannotated]
    cases graph.memberReference parameter.type <;> rfl
  have hparameters : method.unannotated.parameters.mapM graph.viewParameter
      = (method.parameters.mapM graph.viewParameter).map (List.map (·.unannotated)) := by
    rw [Member.Method.unannotated]
    exact mapM_map_of_commutes fun parameter _ => hparameter parameter
  rw [graph.agrees_unannotated.viewMethod, viewMethod, viewMethod, hparameters,
    Member.Method.unannotated]
  cases graph.memberReference method.result with
  | error fault => rfl
  | ok result => cases method.parameters.mapM graph.viewParameter <;> rfl

/-- Without annotations a handle is viewed without the annotations of its methods. -/
theorem view_unannotated (handle : Handle Nat) :
    graph.unannotated.view handle = { graph.view handle with
      methods := (graph.view handle).methods.map (List.map Member.Method.unannotated) } := by
  have hsame := graph.agrees_unannotated
  cases handle with
  | definition id key =>
      have hmethods : (graph.unannotated.view (.definition id key)).methods
          = (graph.view (.definition id key)).methods.map
              (List.map Member.Method.unannotated) := by
        show graph.unannotated.methods key >>= _ = (graph.methods key >>= _).map _
        rw [methods_unannotated]
        cases graph.methods key with
        | error fault => rfl
        | ok methods =>
            exact mapM_map_of_commutes fun method _ => graph.viewMethod_unannotated method
      rw [← hmethods, view, view, hsame.base?, funext hsame.handle, hsame.memberReference,
        hsame.interfaces, hsame.reference, fields_unannotated, properties_unannotated,
        hsame.viewField, hsame.viewProperty, row_unannotated]
      rfl
  -- Nothing is asked about the other handles, so they have no methods.
  | named id arguments => rfl
  | parameter name => rfl
  | array element => rfl

end Graph

end Metadata

end TypeSurface
