import TypeSurface.Proofs.FirstFaults
import TypeSurface.Proofs.Offences

/-!
# Marks of managed references

A type is passed by reference where its signature has a node that says so, or where the position of the
method that holds the signature is marked. Both come to the same handle as long as the node does not
take a part of the signature to the limit of nesting (`interpret_byReference`). The marks of all
parameters of listed methods are kept, the mark of a result is not: a marked result is listed like one
without a mark (`marks_are_lost_on_results_only`), and only where there is no type nothing is lost.
-/

set_option autoImplicit false

namespace TypeSurface.Metadata

variable {κ : Type} {scope : Scope κ}

/-! ## The node of a reference -/

/-- All nodes of the signature lie above the limit of nesting. -/
def Signature.Nests (signature : Signature) : Prop :=
  ∀ visit ∈ signature.visits 0, visit.depth < nestingLimit

namespace Scope

variable {signature : Signature} {handle : Handle κ} {visit : Visit}

theorem agreeOn_self (scope : Scope κ) (node : Signature) : scope.AgreeOn scope node := by
  cases node with
  | classType token | valueType token | typeParameter index | methodParameter index => rfl
  | _ => trivial

theorem offence?_eq_none_of_interpret (h : scope.interpret signature = .ok (some handle)) :
    ∀ visit ∈ signature.visits 0, scope.offence? visit = none := by
  rw [← List.findSome?_eq_none_iff, ← of?_interpretAt scope (Nat.zero_le nestingLimit)]
  exact Offence.of?_eq_none_iff.2 ⟨handle, h⟩

theorem depth_ne_of_offence?_eq_none (h : scope.offence? visit = none) :
    visit.depth ≠ nestingLimit := by
  intro hlimit
  rw [offence?, if_pos hlimit] at h
  exact absurd h (Option.some_ne_none _)

/-- A node that does not offend offends one step deeper exactly when it comes to the limit of
nesting. -/
theorem offence?_deeper (h : scope.offence? visit = none) :
    scope.offence? visit.deeper
      = if visit.depth + 1 = nestingLimit then some (.faulty (.nestingLimit nestingLimit))
        else none := by
  have hdepth := depth_ne_of_offence?_eq_none h
  rw [offence?, if_neg hdepth] at h
  by_cases hlimit : visit.depth + 1 = nestingLimit
  · rw [if_pos hlimit]
    exact if_pos hlimit
  · rw [if_neg hlimit, ← h]
    exact if_neg hlimit

/-- One step deeper, the first offence among nodes that do not offend is that one of them comes to the
limit of nesting. -/
theorem findSome?_offence?_deeper {visits : List Visit}
    (hnone : ∀ visit ∈ visits, scope.offence? visit = none) (hvisit : visit ∈ visits)
    (hlimit : visit.depth + 1 = nestingLimit) :
    (visits.map Visit.deeper).findSome? scope.offence?
      = some (.faulty (.nestingLimit nestingLimit)) := by
  cases hfirst : (visits.map Visit.deeper).findSome? scope.offence? with
  | none =>
      have hdeeper := List.findSome?_eq_none_iff.1 hfirst _ (List.mem_map_of_mem hvisit)
      rw [offence?_deeper (hnone visit hvisit), if_pos hlimit] at hdeeper
      exact absurd hdeeper (Option.some_ne_none _)
  | some offence =>
      obtain ⟨deeper, hdeeper, hoffence⟩ := List.exists_of_findSome?_eq_some hfirst
      obtain ⟨other, hother, rfl⟩ := List.mem_map.1 hdeeper
      rw [offence?_deeper (hnone other hother)] at hoffence
      by_cases hother : other.depth + 1 = nestingLimit
      · rw [if_pos hother] at hoffence
        exact hoffence.symm
      · rw [if_neg hother] at hoffence
        exact absurd hoffence.symm (Option.some_ne_none _)

theorem interpret_byReference_eq (scope : Scope κ) (signature : Signature) :
    scope.interpret (.byReference signature)
      = (scope.interpretAt 1 signature).map (·.map .byReference) := by
  rw [interpret, interpretAt.eq_def, if_neg (by decide)]

/-- The nodes behind a node of a reference are those of the signature, one step deeper. -/
theorem nests_byReference_iff :
    (Signature.byReference signature).Nests ↔
      ∀ visit ∈ signature.visits 0, visit.depth + 1 < nestingLimit := by
  have hvisits : (Signature.byReference signature).visits 0
      = ⟨0, .byReference signature⟩ :: (signature.visits 0).map Visit.deeper := by
    rw [Signature.visits, Signature.visits_succ]
  have hroot : 0 < nestingLimit := by decide
  rw [Signature.Nests, hvisits, List.forall_mem_cons, List.forall_mem_map]
  exact and_iff_right hroot

/-- In front of a signature that stands for a handle, a node of a reference comes to the handle with
its mark, unless it takes a part of the signature to the limit of nesting. -/
theorem interpret_byReference (h : scope.interpret signature = .ok (some handle)) :
    ((Signature.byReference signature).Nests →
      scope.interpret (.byReference signature) = .ok (some handle.byReference)) ∧
    (¬(Signature.byReference signature).Nests →
      scope.interpret (.byReference signature) = .error (.nestingLimit nestingLimit)) := by
  have hnone := offence?_eq_none_of_interpret h
  have hlower := Signature.depth_lt_of_ne (Nat.zero_le nestingLimit)
    fun visit hvisit => depth_ne_of_offence?_eq_none (hnone visit hvisit)
  rw [nests_byReference_iff, interpret_byReference_eq]
  constructor
  · intro hnests
    -- No node comes to the limit, so the signature stands for the same one step deeper.
    have hlimit : ∀ visit ∈ signature.visits 0,
        nestingLimit ≤ visit.depth + 1 ↔ nestingLimit ≤ visit.depth := by
      intro visit hvisit
      have hlt := hnests visit hvisit
      omega
    have hdeeper : scope.interpretAt (0 + 1) signature = scope.interpretAt 0 signature :=
      interpretAt_congr (fun visit _ => scope.agreeOn_self visit.node) hlimit
    rw [← Nat.zero_add 1, hdeeper]
    exact congrArg (Except.map _) h
  · intro hdeep
    -- Some node comes to the limit, and nothing else can be the first offence.
    simp only [Classical.not_forall, exists_prop] at hdeep
    obtain ⟨visit, hvisit, hdepth⟩ := hdeep
    have hlimit : visit.depth + 1 = nestingLimit := by
      have hlt := hlower visit hvisit
      omega
    have hone : 1 ≤ nestingLimit := by decide
    have hends : Offence.of? (scope.interpretAt 1 signature)
        = some (.faulty (.nestingLimit nestingLimit)) := by
      rw [of?_interpretAt scope hone, Signature.visits_succ,
        findSome?_offence?_deeper hnone hvisit hlimit]
    rw [Offence.of?_eq_some_iff.1 hends]
    rfl

end Scope

/-! ## The marks of a method -/

namespace SignatureParameter

variable {position : SignatureParameter} {type : MemberType κ}

/-- The position is listed with what its signature stands for; if it is marked, with the type of the
same namespace whose name is followed by `&`. -/
def ListedAs (scope : Scope κ) (position : SignatureParameter) (type : MemberType κ) : Prop :=
  ∃ converted, scope.interpret position.signature = .ok converted ∧
    type = if position.byReference then
      converted.map fun handle => .named ⟨handle.id.ns, handle.id.name ++ "&"⟩ [] else converted

theorem listedAs_of_read {annotations : List ParameterRow} {index : Nat}
    {parameter : Member.Parameter (MemberType κ)}
    (h : (position.decl annotations index).read scope = .ok parameter) :
    position.ListedAs scope parameter.type := by
  obtain ⟨converted, hconverted, rfl⟩ := ParameterDecl.read_eq_ok_iff.1 h
  exact ⟨converted, hconverted, rfl⟩

/-- What is listed without looking at the mark is right where there is no mark or no type. -/
theorem listedAs_iff_of_interpret (h : scope.interpret position.signature = .ok type) :
    position.ListedAs scope type ↔ position.byReference = false ∨ type = none := by
  constructor
  · rintro ⟨converted, hconverted, htype⟩
    obtain rfl : type = converted := Except.ok.inj (h.symm.trans hconverted)
    cases hmark : position.byReference with
    | false => exact Or.inl rfl
    | true =>
        refine Or.inr ?_
        rw [hmark, if_pos rfl] at htype
        cases type with
        | none => rfl
        | some handle =>
            -- A name is not followed by `&` when it is the name itself.
            have hname := congrArg (fun type => type.map fun handle => handle.id.name.length) htype
            simp [Handle.id] at hname
  · rintro (hmark | rfl)
    · exact ⟨type, h, by rw [hmark, if_neg Bool.false_ne_true]⟩
    · exact ⟨none, h, by rw [Option.map_none, ite_self]⟩

end SignatureParameter

/-- The parameters of a method are listed one by one, each with its mark. -/
def MethodRow.ParametersListedAs (scope : Scope κ) (row : MethodRow)
    (parameters : List (Member.Parameter (MemberType κ))) : Prop :=
  parameters.length = row.parameters.length ∧
    ∀ (place : Nat) (position : SignatureParameter) (parameter : Member.Parameter (MemberType κ)),
      row.parameters[place]? = some position → parameters[place]? = some parameter →
        position.ListedAs scope parameter.type

/-- In a method that can be read every parameter is listed with its mark, and the result without. -/
theorem MethodRow.listedAs_of_read {row : MethodRow} {method : Member.Method (MemberType κ)}
    (h : row.decl.read scope = .ok method) :
    scope.interpret row.result.signature = .ok method.result ∧
      row.ParametersListedAs scope method.parameters := by
  obtain ⟨-, hresult, hparameters⟩ := MethodDecl.read_eq_ok_iff.1 h
  refine ⟨hresult, ?_, fun place position parameter hposition hparameter => ?_⟩
  · rw [length_of_mapM_eq_ok hparameters]
    exact List.length_mapIdx
  · obtain ⟨decl, hdecl, hread⟩ := (getElem?_of_mapM_eq_ok hparameters place parameter).1 hparameter
    rw [MethodRow.decl, List.getElem?_mapIdx, hposition] at hdecl
    obtain rfl : position.decl row.annotations place = decl := Option.some.inj hdecl
    exact SignatureParameter.listedAs_of_read hread

/-! ## The marks of a graph -/

namespace Graph

variable {graph : Graph} {key : Nat}

/-- A source of a type is a method that some type of its chain declares. -/
theorem exists_row_of_isSource {source : Sourced Nat}
    (h : IsSource graph.resolve (graph.levels key) source) :
    ∃ owner row, (graph.lineage key)[source.level]? = some owner ∧
      ((graph.row owner).methods.filter (!·.dropped))[source.position]? = some row ∧
      row.decl.read (graph.methodScope owner row) = .ok source.method := by
  obtain ⟨level, hlevel, hposition, hread⟩ := h.exists_level
  rw [levels, List.getElem?_map] at hlevel
  obtain ⟨owner, howner, rfl⟩ := Option.map_eq_some_iff.1 hlevel
  rw [Row.level, List.getElem?_map] at hposition
  obtain ⟨row, hrow, hdecl⟩ := Option.map_eq_some_iff.1 hposition
  rw [← hdecl] at hread
  exact ⟨owner, row, howner, hrow, hread⟩

/-- Listed methods keep the marks of all their parameters: each is listed with what its signature
stands for, decorated if the parameter is marked. A result is listed with what its signature stands for
whether or not it is marked, which is right for a marked one only where there is no type. The
decoration is what a node of a reference comes to, unless that takes the signature to the limit of
nesting. -/
theorem marks_are_lost_on_results_only (graph : Graph) (key : Nat)
    {methods : List (Member.Method (MemberType Nat))} (h : graph.methods key = .ok methods) :
    ∃ listed, listSourced graph.spelling? graph.resolve (graph.levels key) = .ok listed ∧
      methods = listed.map Sourced.method ∧
      ∀ source ∈ listed, ∃ owner row, (graph.lineage key)[source.level]? = some owner ∧
        ((graph.row owner).methods.filter (!·.dropped))[source.position]? = some row ∧
        row.ParametersListedAs (graph.methodScope owner row) source.method.parameters ∧
        (graph.methodScope owner row).interpret row.result.signature = .ok source.method.result ∧
        (row.result.ListedAs (graph.methodScope owner row) source.method.result ↔
          row.result.byReference = false ∨ source.method.result = none) ∧
        ∀ position ∈ row.result :: row.parameters, ∀ handle,
          (graph.methodScope owner row).interpret position.signature = .ok (some handle) →
          ((Signature.byReference position.signature).Nests →
            (graph.methodScope owner row).interpret (.byReference position.signature)
              = .ok (some (.named ⟨handle.id.ns, handle.id.name ++ "&"⟩ []))) ∧
          (¬(Signature.byReference position.signature).Nests →
            (graph.methodScope owner row).interpret (.byReference position.signature)
              = .error (.nestingLimit nestingLimit)) := by
  rw [Graph.methods, listMethods_eq_map_listSourced] at h
  obtain ⟨listed, hlisted, rfl⟩ := map_eq_ok_iff.1 h
  refine ⟨listed, hlisted, rfl, fun source hsource => ?_⟩
  obtain ⟨owner, row, howner, hrow, hread⟩ :=
    exists_row_of_isSource (isSource_of_mem_listSourced hlisted hsource)
  obtain ⟨hresult, hparameters⟩ := MethodRow.listedAs_of_read hread
  exact ⟨owner, row, howner, hrow, hparameters, hresult,
    SignatureParameter.listedAs_iff_of_interpret hresult,
    fun position _ handle hhandle => Scope.interpret_byReference hhandle⟩

end Graph

namespace MarkedResults

/-- A whole number that is passed by reference. -/
def slot : SignatureParameter := ⟨.builtIn .int32, true⟩

/-- A method that takes a reference and returns one. -/
def pick : MethodRow := ⟨"Pick", 0x06, slot, [slot], [], [⟨1, "slot", 0, false⟩], false⟩

/-- A class with the method. -/
def graph : Graph :=
  ⟨#[⟨⟨0x02000002⟩, "Lib", "Holder", 0, false, none, [], [], [], [], [], [pick], false, true⟩]⟩

/-- The identities of the types that a method is listed with. -/
def mentioned (method : Member.Method (MemberType Nat)) : Option TypeId × List (Option TypeId) :=
  (method.result.map Handle.id, method.parameters.map fun parameter => parameter.type.map Handle.id)

theorem exists_methods :
    ∃ methods, graph.methods 0 = .ok methods ∧ methods.map mentioned
      = [(some ⟨some "System", "Int32"⟩, [some ⟨some "System", "Int32&"⟩])] := by
  apply exists_ok_of_toOption_map
  decide +kernel

end MarkedResults

open MarkedResults in
/-- A method that takes a reference and returns one keeps the mark of the parameter and loses that of
the result. -/
theorem marked_result_is_listed_without_mark :
    ∃ method parameter, (∃ methods, graph.methods 0 = .ok methods ∧ method ∈ methods) ∧
      method.parameters = [parameter] ∧
      slot.ListedAs (graph.methodScope 0 pick) parameter.type ∧
      ¬slot.ListedAs (graph.methodScope 0 pick) method.result := by
  obtain ⟨methods, hmethods, hmentioned⟩ := exists_methods
  obtain ⟨listed, -, rfl, hlisted⟩ := Graph.marks_are_lost_on_results_only graph 0 hmethods
  obtain ⟨source, rfl⟩ : ∃ source, listed = [source] := by
    have hlength := congrArg List.length hmentioned
    exact List.length_eq_one_iff.1 (by simpa using hlength)
  obtain ⟨owner, row, howner, hrow, ⟨hlength, hparameters⟩, -, hresult, -⟩ :=
    hlisted source List.mem_cons_self
  have hlineage : graph.lineage 0 = [0] := by decide +kernel
  obtain rfl : owner = 0 := by
    rw [hlineage] at howner
    exact List.mem_singleton.1 (List.mem_of_getElem? howner)
  obtain rfl : row = pick := List.mem_singleton.1 (List.mem_of_getElem? hrow)
  obtain ⟨parameter, hparameter⟩ := List.length_eq_one_iff.1 hlength
  have hfirst : source.method.parameters[0]? = some parameter := by rw [hparameter]; rfl
  have hlistedAs := hparameters 0 slot parameter rfl hfirst
  refine ⟨source.method, parameter, ⟨_, hmethods, List.mem_cons_self⟩, hparameter, hlistedAs, ?_⟩
  intro hkept
  have hmarks := List.cons.inj hmentioned
  rcases hresult.1 hkept with hmark | hnone
  · exact absurd hmark (by decide)
  · have htype := congrArg Prod.fst hmarks.1
    simp [mentioned, hnone] at htype

end TypeSurface.Metadata
