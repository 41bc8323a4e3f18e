import Mathlib.Data.List.Find
import TypeSurface.Proofs.ReferenceMarks
import TypeSurface.Proofs.Unannotated

/-!
# Annotations of parameters

The rows that annotate the parameters of a method can be missing, repeated and in any order, and some
count no parameter at all. `Annotates` says what they come to for one parameter: its name and its default
value are those of the first row that has its number. A method is read as its signature says, and with
these names and default values (`MethodRow.read_decl_eq_ok_iff`). Annotations that come to the same
(`SameAnnotations`) leave every listing and every description as it is, and so annotations only annotate
(`annotations_only_annotate`).
-/

set_option autoImplicit false

namespace TypeSurface.Metadata

variable {κ : Type}

/-! ## What annotations say -/

/-- The row counts one of so many parameters: the number zero is that of the result. -/
def ParameterRow.counts (count : Nat) (row : ParameterRow) : Bool :=
  decide (0 < row.sequence) && decide (row.sequence ≤ count)

/-- The name and the default value that the parameter at a place has by the annotations of its method.
The first row of its number gives both, and without such a row there is neither. -/
inductive Annotates (rows : List ParameterRow) (place : Nat) : String → Bool → Prop where
  | annotated {before after : List ParameterRow} {row : ParameterRow} {hasDefault : Bool}
      (hrows : rows = before ++ row :: after) (hnumber : row.sequence = place + 1)
      (hfirst : ∀ earlier ∈ before, earlier.sequence ≠ place + 1)
      (hdefault : hasDefault = true ↔ row.flags &&& 0x1000 = 0x1000 ∨ row.constant = true) :
      Annotates rows place (row.name.getD "") hasDefault
  | plain (hnone : ∀ row ∈ rows, row.sequence ≠ place + 1) : Annotates rows place "" false

/-- A parameter is declared with what the annotations say about its place, and they say nothing else. -/
theorem annotates_iff_decl {rows : List ParameterRow} {place : Nat} {name : String}
    {hasDefault : Bool} (position : SignatureParameter) :
    Annotates rows place name hasDefault ↔
      name = (position.decl rows place).name ∧
        hasDefault = (position.decl rows place).hasDefault := by
  rw [SignatureParameter.decl]
  constructor
  · intro h
    cases h with
    | @annotated before after row hasDefault hrows hnumber hfirst hdefault =>
        have hfound : rows.find? (fun row => row.sequence == place + 1) = some row := by
          rw [List.find?_eq_some_iff_append]
          exact ⟨by simpa using hnumber, before, after, hrows, by simpa using hfirst⟩
        rw [hfound]
        refine ⟨rfl, ?_⟩
        rw [Bool.eq_iff_iff, hdefault, ← ParameterRow.hasDefault_iff]
        rfl
    | plain hnone =>
        have hfound : rows.find? (fun row => row.sequence == place + 1) = none := by
          simpa using hnone
        rw [hfound]
        exact ⟨rfl, rfl⟩
  · rintro ⟨rfl, rfl⟩
    cases hfound : rows.find? (fun row => row.sequence == place + 1) with
    | none => exact .plain (by simpa using hfound)
    | some row =>
        obtain ⟨hnumber, before, after, hrows, hfirst⟩ := List.find?_eq_some_iff_append.1 hfound
        exact .annotated hrows (by simpa using hnumber) (by simpa using hfirst)
          ParameterRow.hasDefault_iff

/-! ## Reading an annotated method -/

variable {scope : Scope κ} {row : MethodRow} {method : Member.Method (MemberType κ)}

/-- A parameter is read as the type that its signature and its mark stand for, with the name and the
default value that the annotations give it. -/
theorem SignatureParameter.read_decl_eq_ok_iff {rows : List ParameterRow} {place : Nat}
    {position : SignatureParameter} {parameter : Member.Parameter (MemberType κ)} :
    (position.decl rows place).read scope = .ok parameter ↔
      position.ListedAs scope parameter.type ∧
        Annotates rows place parameter.name parameter.hasDefault := by
  rw [annotates_iff_decl position, ParameterDecl.read_eq_ok_iff]
  constructor
  · rintro ⟨converted, hconverted, rfl⟩
    exact ⟨⟨converted, hconverted, rfl⟩, rfl, rfl⟩
  · rintro ⟨⟨converted, hconverted, htype⟩, hname, hdefault⟩
    refine ⟨converted, hconverted, ?_⟩
    cases parameter with
    | mk name type hasDefault =>
        simp only at htype hname hdefault
        rw [hname, hdefault, htype]
        rfl

/-- The method is listed as its row says: with the name of the row, and with the result and exactly the
parameters of its signature, in order. The annotations give the parameters their names and default
values. -/
structure MethodRow.ListedAs (scope : Scope κ) (row : MethodRow)
    (method : Member.Method (MemberType κ)) : Prop where
  name : method.name = row.name
  result : scope.interpret row.result.signature = .ok method.result
  parameters : row.ParametersListedAs scope method.parameters
  annotated : ∀ (place : Nat) (parameter : Member.Parameter (MemberType κ)),
    method.parameters[place]? = some parameter →
      Annotates row.annotations place parameter.name parameter.hasDefault

/-- The parameters of a method are read when they are as many as those of its signature, each with its
type and with what the annotations say about its place. -/
theorem MethodRow.mapM_read_eq_ok_iff {parameters : List (Member.Parameter (MemberType κ))} :
    row.decl.parameters.mapM (·.read scope) = .ok parameters ↔
      row.ParametersListedAs scope parameters ∧
        ∀ (place : Nat) (parameter : Member.Parameter (MemberType κ)),
          parameters[place]? = some parameter →
            Annotates row.annotations place parameter.name parameter.hasDefault := by
  rw [mapM_eq_ok_iff, decl, List.length_mapIdx, ParametersListedAs, and_assoc]
  refine and_congr_right fun hlength => ?_
  constructor
  · intro hplaces
    have hread : ∀ place position parameter, row.parameters[place]? = some position →
        parameters[place]? = some parameter → position.ListedAs scope parameter.type ∧
          Annotates row.annotations place parameter.name parameter.hasDefault := by
      intro place position parameter hposition hparameter
      refine SignatureParameter.read_decl_eq_ok_iff.1 (hplaces place _ _ ?_ hparameter)
      rw [List.getElem?_mapIdx, hposition, Option.map_some]
    refine ⟨fun place position parameter hposition hparameter =>
      (hread place position parameter hposition hparameter).1, fun place parameter hparameter => ?_⟩
    -- There are as many positions as parameters, so there is one at the place.
    have hplace : place < row.parameters.length := by
      rw [← hlength]
      exact (List.getElem?_eq_some_iff.1 hparameter).1
    exact (hread place _ parameter (List.getElem?_eq_getElem hplace) hparameter).2
  · rintro ⟨htypes, hannotated⟩ place decl parameter hdecl hparameter
    rw [List.getElem?_mapIdx] at hdecl
    obtain ⟨position, hposition, rfl⟩ := Option.map_eq_some_iff.1 hdecl
    exact SignatureParameter.read_decl_eq_ok_iff.2
      ⟨htypes place position parameter hposition hparameter, hannotated place parameter hparameter⟩

/-- A method is read as its row says, and as nothing else. -/
theorem MethodRow.read_decl_eq_ok_iff :
    row.decl.read scope = .ok method ↔ row.ListedAs scope method := by
  rw [MethodDecl.read_eq_ok_iff, mapM_read_eq_ok_iff]
  constructor
  · rintro ⟨hname, hresult, htypes, hannotated⟩
    exact ⟨hname, hresult, htypes, hannotated⟩
  · rintro ⟨hname, hresult, htypes, hannotated⟩
    exact ⟨hname, hresult, htypes, hannotated⟩

/-! ## Annotations that come to the same -/

/-- Annotations that come to the same for so many parameters, whatever the parameters are. -/
inductive SameAnnotations (count : Nat) : List ParameterRow → List ParameterRow → Prop where
  /-- Rows that count no parameter are put in, taken out or changed. -/
  | uncounted {rows others : List ParameterRow}
      (h : others.filter (·.counts count) = rows.filter (·.counts count)) :
      SameAnnotations count rows others
  /-- Rows of different numbers are put into another order. -/
  | permuted {rows others : List ParameterRow} (hdistinct : (rows.map (·.sequence)).Nodup)
      (hperm : others.Perm rows) : SameAnnotations count rows others
  /-- A row is taken out that stands behind another of its number. -/
  | repeated {before after : List ParameterRow} {row : ParameterRow}
      (h : row.sequence ∈ before.map (·.sequence)) :
      SameAnnotations count (before ++ row :: after) (before ++ after)
  | symm {rows others : List ParameterRow} (h : SameAnnotations count rows others) :
      SameAnnotations count others rows
  | trans {rows others further : List ParameterRow} (h : SameAnnotations count rows others)
      (hfurther : SameAnnotations count others further) : SameAnnotations count rows further

theorem find?_filter_counts {count place : Nat} (hplace : place < count) (rows : List ParameterRow) :
    (rows.filter (·.counts count)).find? (fun row => row.sequence == place + 1)
      = rows.find? fun row => row.sequence == place + 1 := by
  rw [List.find?_filter]
  refine List.find?_congr fun row _ => ?_
  rw [Bool.eq_iff_iff]
  simp only [ParameterRow.counts, Bool.and_eq_true, decide_eq_true_iff, beq_iff_eq]
  omega

/-- A row that stands behind another of its number is never found first. -/
theorem find?_eq_of_repeated {before after : List ParameterRow} {row : ParameterRow}
    (h : row.sequence ∈ before.map (·.sequence)) (number : Nat) :
    (before ++ after).find? (fun row => row.sequence == number)
      = (before ++ row :: after).find? fun row => row.sequence == number := by
  rw [List.find?_append, List.find?_append, List.find?_cons]
  cases hnumber : row.sequence == number with
  | false => rfl
  | true =>
      -- The earlier row of the same number is found in both lists.
      obtain ⟨earlier, hearlier, hsame⟩ := List.mem_map.1 h
      have hfound : (before.find? fun row => row.sequence == number).isSome = true := by
        rw [List.find?_isSome]
        exact ⟨earlier, hearlier, by rw [hsame, hnumber]⟩
      rw [Option.or_of_isSome hfound, Option.or_of_isSome hfound]

/-- Annotations that come to the same have the same first row of the number of every parameter. -/
theorem SameAnnotations.find?_eq {count place : Nat} {rows others : List ParameterRow}
    (h : SameAnnotations count rows others) (hplace : place < count) :
    others.find? (fun row => row.sequence == place + 1)
      = rows.find? fun row => row.sequence == place + 1 := by
  induction h with
  | @uncounted rows others h =>
      rw [← find?_filter_counts hplace, h, find?_filter_counts hplace]
  | @permuted rows others hdistinct hperm =>
      refine (List.find?_eq_find?_of_perm hperm.symm ?_).symm
      -- Rows of different numbers have at most one row of this one.
      rintro row ⟨hrow, hnumber⟩ other ⟨hother, hsame⟩
      exact List.inj_on_of_nodup_map hdistinct hrow hother
        ((beq_iff_eq.1 hnumber).trans (beq_iff_eq.1 hsame).symm)
  | repeated h => exact find?_eq_of_repeated h (place + 1)
  | symm _ ih => exact ih.symm
  | trans _ _ ih ihfurther => exact ihfurther.trans ih

/-- A method whose annotations are replaced by others that come to the same for its parameters. -/
structure MethodRow.ReannotatedTo (row other : MethodRow) : Prop where
  rest : other = { row with annotations := other.annotations }
  annotations : SameAnnotations row.parameters.length row.annotations other.annotations

/-- A graph whose methods are annotated by other rows that come to the same. -/
structure Graph.ReannotatedTo (graph other : Graph) : Prop where
  rest : other.unannotated = graph.unannotated
  methods : ∀ key,
    List.Forall₂ MethodRow.ReannotatedTo (graph.row key).methods (other.row key).methods

/-- A method is declared in the same way. -/
theorem MethodRow.ReannotatedTo.decl_eq {row other : MethodRow} (h : row.ReannotatedTo other) :
    other.decl = row.decl := by
  have hparameters : (row.parameters.mapIdx fun place position =>
      position.decl other.annotations place)
        = row.parameters.mapIdx fun place position => position.decl row.annotations place := by
    rw [List.mapIdx_eq_mapIdx_iff]
    intro place hplace
    rw [SignatureParameter.decl, SignatureParameter.decl, h.annotations.find?_eq hplace]
  rw [h.rest, decl, decl, hparameters]

/-- The graphs agree, and their rows declare the same members. -/
theorem Graph.ReannotatedTo.declaresAlike {graph other : Graph} (h : graph.ReannotatedTo other) :
    graph.DeclaresAlike other := by
  have hrow : ∀ key, (other.row key).unannotated = (graph.row key).unannotated := by
    intro key
    rw [← row_unannotated, h.rest, row_unannotated]
  have hsize := congrArg (fun graph => graph.rows.size) h.rest
  rw [unannotated, unannotated, Array.size_map, Array.size_map] at hsize
  have houtline : ∀ key, (other.row key).unannotated.outline = (graph.row key).unannotated.outline :=
    fun key => congrArg Row.outline (hrow key)
  refine declaresAlike_of_outline_eq hsize houtline fun key => ?_
  have hmethods := (h.methods key).imp fun method changed hmethod =>
    And.intro (congrArg MethodRow.dropped hmethod.rest) hmethod.decl_eq
  rw [Row.level, Row.level, map_decl_eq_of_forall₂ hmethods]
  -- The other members are not looked at when annotations are taken away.
  exact congrArg (fun row : Row => Level.mk (genericParameterNames row.genericParameters)
    (row.fields.map (·.decl)) (row.properties.map (·.decl)) _) (hrow key)

namespace Graph

/-- Annotations only annotate. Every method is read as its row says: it has exactly the parameters of its
signature, in order and with their types, and each of them has the name and the default value that the
first row of its number gives. So is every method that a type lists. A graph without annotations lists
the same methods from the same places with the same types, or fails with the same fault, and describes
every handle alike but for names and default values of parameters. Annotations that come to the same
change no listing and no description: only rows that count no parameter differ, or rows of different
numbers stand in another order, or there are further rows of a number behind the first one. -/
theorem annotations_only_annotate (graph : Graph) :
    (∀ (owner : Nat) (row : MethodRow) (method : Member.Method (MemberType Nat)),
      row.decl.read (graph.methodScope owner row) = .ok method ↔
        row.ListedAs (graph.methodScope owner row) method) ∧
    (∀ key methods, graph.methods key = .ok methods →
      ∃ listed, listSourced graph.spelling? graph.resolve (graph.levels key) = .ok listed ∧
        methods = listed.map Sourced.method ∧
        ∀ source ∈ listed, ∃ owner row, (graph.lineage key)[source.level]? = some owner ∧
          ((graph.row owner).methods.filter (!·.dropped))[source.position]? = some row ∧
          row.ListedAs (graph.methodScope owner row) source.method) ∧
    (∀ key, listSourced graph.unannotated.spelling? graph.unannotated.resolve
          (graph.unannotated.levels key)
        = (listSourced graph.spelling? graph.resolve (graph.levels key)).map
            (List.map Sourced.unannotated) ∧
      graph.unannotated.methods key
        = (graph.methods key).map (List.map Member.Method.unannotated)) ∧
    (∀ handle, (graph.unannotated.view handle).describe
      = (graph.view handle).describe.map Description.unannotated) ∧
    ∀ other, graph.ReannotatedTo other →
      (∀ key, other.methods key = graph.methods key) ∧
      ∀ handle, (other.view handle).describe = (graph.view handle).describe := by
  have hsame := graph.agrees_unannotated
  refine ⟨fun _ _ _ => MethodRow.read_decl_eq_ok_iff, fun key found h => ?_,
    fun key => ⟨?_, graph.methods_unannotated key⟩, fun handle => ?_, fun other hother => ?_⟩
  · rw [methods, listMethods_eq_map_listSourced] at h
    obtain ⟨listed, hlisted, rfl⟩ := map_eq_ok_iff.1 h
    refine ⟨listed, hlisted, rfl, fun source hsource => ?_⟩
    obtain ⟨owner, row, howner, hrow, hread⟩ :=
      exists_row_of_isSource (isSource_of_mem_listSourced hlisted hsource)
    exact ⟨owner, row, howner, hrow, MethodRow.read_decl_eq_ok_iff.1 hread⟩
  · rw [levels_unannotated, hsame.spelling?, hsame.resolve, listSourced_unannotated]
  · rw [view_unannotated, TypeView.describe_unannotated]
  · have hdeclares := hother.declaresAlike
    refine ⟨hdeclares.methods, fun handle => ?_⟩
    rw [hdeclares.view]

end Graph

namespace ScatteredAnnotations

/-- A public method that fills a slot with a text, so many times. -/
def fill (annotations : List ParameterRow) : MethodRow :=
  ⟨"fill", 0x06, ⟨.builtIn .void, false⟩,
    [⟨.builtIn .int32, true⟩, ⟨.builtIn .string, false⟩, ⟨.builtIn .int32, false⟩], [], annotations,
    false⟩

/-- A class with the method. -/
def graphWith (annotations : List ParameterRow) : Graph :=
  ⟨#[⟨⟨0x02000002⟩, "Lib", "Holder", 0, false, none, [], [], [], [], [], [fill annotations], false,
    true⟩]⟩

/-- The last parameter is annotated first, the result and a parameter that is not there are annotated as
well, the first parameter is annotated twice and the second one not at all. -/
def scattered : List ParameterRow :=
  [⟨3, some "count", 0, true⟩, ⟨0, some "result", 0x1000, true⟩, ⟨1, some "slot", 0x1002, false⟩,
    ⟨9, some "far", 0, false⟩, ⟨1, some "again", 0, false⟩]

/-- Two parameters are annotated, in order. -/
def tidy : List ParameterRow := [⟨1, some "slot", 0x1002, false⟩, ⟨3, some "count", 0, true⟩]

theorem sameAnnotations : SameAnnotations 3 scattered tidy := by
  have hcounted : SameAnnotations 3 scattered
      ([⟨3, some "count", 0, true⟩, ⟨1, some "slot", 0x1002, false⟩]
        ++ ⟨1, some "again", 0, false⟩ :: []) := .uncounted (by decide)
  exact (hcounted.trans (.repeated (by decide))).trans (.permuted (by decide) (.swap ..))

theorem reannotatedTo : (graphWith scattered).ReannotatedTo (graphWith tidy) where
  rest := by simp [Graph.unannotated, graphWith, Row.unannotated, MethodRow.unannotated, fill]
  methods
    | 0 => .cons ⟨rfl, sameAnnotations⟩ .nil
    | _ + 1 => .nil

/-- The names and default values that the parameters of a method are listed with. -/
def shown (method : Member.Method (MemberType Nat)) : String × List (String × Bool) :=
  (method.name, method.parameters.map fun parameter => (parameter.name, parameter.hasDefault))

theorem exists_methods :
    ∃ methods, (graphWith scattered).methods 0 = .ok methods ∧
      methods.map shown = [("fill", [("slot", true), ("", false), ("count", true)])] := by
  apply exists_ok_of_toOption_map
  decide +kernel

end ScatteredAnnotations

open ScatteredAnnotations in
/-- The method is listed with its three parameters. Each has the name and the default value of its first
row, whichever rows stand around it, and without annotations the same parameters are listed. -/
theorem scattered_annotations_are_listed_in_place :
    (graphWith scattered).ReannotatedTo (graphWith tidy) ∧
      ∃ method, (graphWith scattered).methods 0 = .ok [method] ∧
        (graphWith tidy).methods 0 = .ok [method] ∧
        (graphWith scattered).unannotated.methods 0 = .ok [method.unannotated] ∧
        (fill scattered).ListedAs ((graphWith scattered).methodScope 0 (fill scattered)) method ∧
        shown method = ("fill", [("slot", true), ("", false), ("count", true)]) := by
  obtain ⟨-, hlists, hbare, -, hothers⟩ := Graph.annotations_only_annotate (graphWith scattered)
  obtain ⟨methods, hmethods, hshown⟩ := exists_methods
  obtain ⟨method, rfl⟩ : ∃ method, methods = [method] := by
    have hlength := congrArg List.length hshown
    exact List.length_eq_one_iff.1 (by simpa using hlength)
  obtain ⟨listed, -, hlisted, hsources⟩ := hlists 0 _ hmethods
  obtain ⟨source, rfl⟩ : ∃ source, listed = [source] := by
    have hlength := congrArg List.length hlisted
    exact List.length_eq_one_iff.1 (by simpa using hlength.symm)
  obtain rfl : method = source.method := List.head_eq_of_cons_eq hlisted
  obtain ⟨owner, row, howner, hrow, hlistedAs⟩ := hsources source List.mem_cons_self
  have hlineage : (graphWith scattered).lineage 0 = [0] := by decide +kernel
  obtain rfl : owner = 0 := by
    rw [hlineage] at howner
    exact List.mem_singleton.1 (List.mem_of_getElem? howner)
  obtain rfl : row = fill scattered := List.mem_singleton.1 (List.mem_of_getElem? hrow)
  have htidy := (hothers _ reannotatedTo).1 0
  have hunannotated := (hbare 0).2
  rw [hmethods] at htidy hunannotated
  exact ⟨reannotatedTo, source.method, hmethods, htidy, hunannotated, hlistedAs,
    List.head_eq_of_cons_eq hshown⟩

end TypeSurface.Metadata
