import TypeSurface.Metadata.View
import TypeSurface.Proofs.MethodSources

/-!
# Overloads of base types

An inherited method is left out of a listing exactly when a listed method of a more derived level
overrides it (`absent_iff_listed_override`): both have one name, equally many parameters, and types
that are spelled alike. Spellings say less than signatures. They show neither the rank of an array
nor the arguments behind a reference or a pointer, nor how a reference is written, and generic
parameters of the method itself are not compared, so overloads that differ in nothing else are lost
(`structural_overloads_are_lost`).
-/

set_option autoImplicit false

namespace TypeSurface.Metadata

variable {κ ν : Type}

/-- What hiding compares: names, numbers of parameters, and the spelled types of results and
parameters, each read where it is declared. -/
structure Overrides (spell : MemberType κ → ν) (hider hidden : Sourced κ) : Prop where
  name : hider.decl.name = hidden.decl.name
  count : hider.decl.parameters.length = hidden.decl.parameters.length
  result : spell hider.method.result = spell hidden.method.result
  parameters : hider.method.parameters.map (fun parameter => spell parameter.type)
    = hidden.method.parameters.map fun parameter => spell parameter.type

theorem read_shape {scope : Scope κ} {decl : MethodDecl} {method : Member.Method (MemberType κ)}
    (h : decl.read scope = .ok method) :
    method.name = decl.name ∧ method.parameters.length = decl.parameters.length := by
  obtain ⟨hname, -, hparameters⟩ := MethodDecl.read_eq_ok_iff.1 h
  exact ⟨hname, length_of_mapM_eq_ok hparameters⟩

/-- Sources with one key override each other, and only those do. -/
theorem overrides_iff_methodKey_eq {spell : MemberType κ → ν}
    {resolve : Token → Option (Handle κ)} {levels : List Level} {hider hidden : Sourced κ}
    (hhider : IsSource resolve levels hider) (hhidden : IsSource resolve levels hidden) :
    Overrides spell hider hidden ↔
      methodKey spell hider.method = methodKey spell hidden.method := by
  obtain ⟨level, -, -, hread⟩ := hhider.exists_level
  obtain ⟨level', -, -, hread'⟩ := hhidden.exists_level
  obtain ⟨hname, hcount⟩ := read_shape hread
  obtain ⟨hname', hcount'⟩ := read_shape hread'
  rw [methodKey, methodKey, MethodKey.mk.injEq]
  constructor
  · intro h
    exact ⟨by rw [hname, hname', h.name], h.result, h.parameters⟩
  · rintro ⟨hnames, hresult, hparameters⟩
    refine ⟨by rw [← hname, ← hname', hnames], ?_, hresult, hparameters⟩
    -- Lists of spelled types that are equal are equally long.
    have hlength := congrArg List.length hparameters
    rw [List.length_map, List.length_map] at hlength
    rw [← hcount, ← hcount', hlength]

/-- A source is left out of a listing exactly when a listed method of a more derived level overrides
it. -/
theorem place_not_mem_iff [DecidableEq ν] {spell : MemberType κ → ν}
    {resolve : Token → Option (Handle κ)} {levels : List Level} {listed : List (Sourced κ)}
    (h : listSourced spell resolve levels = .ok listed) {source : Sourced κ}
    (hsource : IsSource resolve levels source) :
    source.place ∉ listed.map Sourced.place ↔
      ∃ hider ∈ listed, hider.level < source.level ∧ Overrides spell hider source := by
  have hplace : source.place ∈ listed.map Sourced.place ↔ source ∈ listed := by
    constructor
    · intro hmem
      obtain ⟨other, hother, hsame⟩ := List.mem_map.1 hmem
      exact (isSource_of_mem_listSourced h hother).eq_of_place hsource hsame ▸ hother
    · exact List.mem_map_of_mem
  rw [hplace, mem_listSourced_iff h hsource]
  constructor
  · intro hhidden
    simp only [Classical.not_forall, Classical.not_not, exists_prop] at hhidden
    obtain ⟨other, hother, hlevel, hkey⟩ := hhidden
    -- The key of the method that hides is listed, maybe from a level that is more derived still.
    obtain ⟨hider, hhider, hle, hsame⟩ := exists_mem_listSourced h hother
    refine ⟨hider, hhider, by omega, ?_⟩
    exact (overrides_iff_methodKey_eq (isSource_of_mem_listSourced h hhider) hsource).2
      (hsame.trans hkey)
  · rintro ⟨hider, hhider, hlevel, hoverrides⟩ hfree
    have hsourceHider := isSource_of_mem_listSourced h hhider
    exact hfree hider hsourceHider hlevel
      ((overrides_iff_methodKey_eq hsourceHider hsource).1 hoverrides)

/-- In a listing of a chain, a public method of an instance that a base level declares and that is
no constructor is absent exactly when a listed method of a more derived level overrides it. -/
theorem absent_iff_listed_override [DecidableEq ν] {spell : MemberType κ → ν}
    {resolve : Token → Option (Handle κ)} {levels : List Level}
    {methods : List (Member.Method (MemberType κ))}
    (h : listMethods spell resolve levels = .ok methods) :
    ∃ listed, listSourced spell resolve levels = .ok listed ∧
      methods = listed.map Sourced.method ∧
      (∀ source ∈ listed, IsSource resolve levels source) ∧
      ∀ number position level decl, levels[number]? = some level →
        level.methods[position]? = some decl → 0 < number → decl.isPublic = true →
        decl.isStatic = false → decl.isConstructor = false →
        ∃ method, IsSource resolve levels ⟨number, position, decl, method⟩ ∧
          ((number, position) ∉ listed.map Sourced.place ↔
            ∃ hider ∈ listed, hider.level < number ∧
              Overrides spell hider ⟨number, position, decl, method⟩) := by
  rw [listMethods_eq_map_listSourced] at h
  obtain ⟨listed, hlisted, rfl⟩ := map_eq_ok_iff.1 h
  refine ⟨listed, hlisted, rfl, fun source => isSource_of_mem_listSourced hlisted, ?_⟩
  intro number position level decl hlevel hposition hnumber hpublic hstatic hconstructor
  obtain ⟨eligible, heligible, -⟩ := exists_eligible_of_listSourced hlisted
  have hdecl : decl.isEligible (.ofLevel number) = true := by
    simp [MethodDecl.isEligible, hpublic, hstatic, hconstructor]
  obtain ⟨method, hsource⟩ := exists_isSource heligible hlevel hposition hdecl
  exact ⟨method, hsource, place_not_mem_iff hlisted hsource⟩

/-! ## Overloads that differ in structure only -/

/-- Both declare equally many generic parameters. -/
def SameArity (a b : MethodDecl) : Prop := a.genericParameters.length = b.genericParameters.length

/-- Both mark the same parameters as passed by reference. -/
def SameMarks (a b : MethodDecl) : Prop :=
  a.parameters.map (·.byReference) = b.parameters.map (·.byReference)

/-- Both have one result signature. -/
def SameResult (a b : MethodDecl) : Prop := a.result = b.result

/-- Both have the same signatures of parameters. -/
def SameParameters (a b : MethodDecl) : Prop :=
  a.parameters.map (·.signature) = b.parameters.map (·.signature)

/-- Both agree in all that a signature holds. -/
def SameStructure (a b : MethodDecl) : Prop :=
  SameArity a b ∧ SameMarks a b ∧ SameResult a b ∧ SameParameters a b

/-- No overload of a base level is lost: whatever is absent from a listing of the chain is hidden by
a listed method of a more derived level that has the same name and is otherwise the same. -/
def OverloadsKept [DecidableEq ν] (same : MethodDecl → MethodDecl → Prop)
    (spell : MemberType κ → ν) (resolve : Token → Option (Handle κ)) (levels : List Level) : Prop :=
  ∀ listed, listSourced spell resolve levels = .ok listed →
    ∀ source, IsSource resolve levels source → 0 < source.level →
      source.place ∉ listed.map Sourced.place →
      ∃ hider ∈ listed, hider.level < source.level ∧ hider.decl.name = source.decl.name ∧
        same hider.decl source.decl

namespace LostOverloads

/-- A list of a signature. -/
def listOf (argument : Signature) : Signature := .instantiation (.classType ⟨0x01000001⟩) [argument]

/-- A public method of an instance. -/
def declare (name : String) (genericParameters : List String) (result : Signature)
    (parameters : List ParameterDecl) : MethodDecl :=
  ⟨name, true, false, genericParameters, result, parameters⟩

/-- The methods of the derived type. -/
def own : List MethodDecl :=
  [declare "Sum" [] (.builtIn .int32) [⟨"vector", .vector (.builtIn .int32), false, false⟩],
    declare "Read" [] (.builtIn .void)
      [⟨"numbers", .pointer (listOf (.builtIn .int32)), false, false⟩],
    declare "Swap" [] (.builtIn .void) [⟨"node", .byReference (.builtIn .int32), false, false⟩],
    declare "Rows" [] (.vector (.builtIn .int32)) [],
    declare "Make" [] (.builtIn .object) []]

/-- Overloads of them in the base type: another rank, other arguments behind a pointer, a mark in
place of a reference, another rank of a result, and a generic parameter. -/
def base : List MethodDecl :=
  [declare "Sum" [] (.builtIn .int32) [⟨"matrix", .array (.builtIn .int32) 2, false, false⟩],
    declare "Read" [] (.builtIn .void)
      [⟨"texts", .pointer (listOf (.builtIn .string)), false, false⟩],
    declare "Swap" [] (.builtIn .void) [⟨"marked", .builtIn .int32, true, false⟩],
    declare "Rows" [] (.array (.builtIn .int32) 2) [],
    declare "Make" ["T"] (.builtIn .object) []]

/-- The chain of both types. -/
def levels : List Level := [⟨[], [], [], own⟩, ⟨[], [], [], base⟩]

/-- The one foreign type they mention. -/
def resolve (token : Token) : Option (Handle Nat) :=
  if token = ⟨0x01000001⟩ then some (.named ⟨some "System.Collections.Generic", "List`1"⟩ [])
  else none

/-- The spelling of a type, with no definitions to look into. -/
def spell : MemberType Nat → Option String := Graph.spelling? ⟨#[]⟩

theorem exists_listed :
    ∃ listed, listSourced spell resolve levels = .ok listed ∧
      listed.map Sourced.place = [(0, 0), (0, 1), (0, 2), (0, 3), (0, 4)] := by
  apply exists_ok_of_toOption_map
  decide +kernel

/-- A method of the base type is lost if no method of the derived type that has its name is
otherwise the same. -/
theorem not_overloadsKept {same : MethodDecl → MethodDecl → Prop} (position : Nat)
    {decl : MethodDecl} (hdecl : base[position]? = some decl)
    (hlegible : decl.isEligible .inherited = true)
    (hdiffer : ∀ other ∈ own, other.name = decl.name → ¬same other decl) :
    ¬OverloadsKept same spell resolve levels := by
  intro hkept
  obtain ⟨listed, hlisted, hplaces⟩ := exists_listed
  obtain ⟨eligible, heligible, -⟩ := exists_eligible_of_listSourced hlisted
  have hbase : levels[1]? = some ⟨[], [], [], base⟩ := rfl
  obtain ⟨method, hsource⟩ := exists_isSource heligible hbase hdecl hlegible
  have habsent : (1, position) ∉ listed.map Sourced.place := by simp [hplaces]
  obtain ⟨hider, hhider, hlevel, hname, hsame⟩ :=
    hkept listed hlisted _ hsource Nat.one_pos habsent
  obtain ⟨level, hzero, hposition, -⟩ := (isSource_of_mem_listSourced hlisted hhider).exists_level
  obtain rfl : ⟨[], [], [], own⟩ = level := by
    rw [Nat.lt_one_iff.1 hlevel] at hzero
    exact Option.some.inj hzero
  exact hdiffer hider.decl (List.mem_of_getElem? hposition) hname hsame

end LostOverloads

open LostOverloads in
/-- Hiding by spelled types loses overloads. In one listing, methods of the base type are absent
although every listed method of that name differs from them in the number of generic parameters, in
the marks of parameters that are passed by reference, in the result, or in a parameter. -/
theorem structural_overloads_are_lost :
    ¬OverloadsKept SameArity spell resolve levels ∧ ¬OverloadsKept SameMarks spell resolve levels ∧
      ¬OverloadsKept SameResult spell resolve levels ∧
      ¬OverloadsKept SameParameters spell resolve levels ∧
      ¬OverloadsKept SameStructure spell resolve levels := by
  have harity : ¬OverloadsKept SameArity spell resolve levels :=
    not_overloadsKept 4 rfl rfl (by simp [own, declare, SameArity])
  have hmarks : ¬OverloadsKept SameMarks spell resolve levels :=
    not_overloadsKept 2 rfl rfl (by simp [own, declare, SameMarks])
  have hresult : ¬OverloadsKept SameResult spell resolve levels :=
    not_overloadsKept 3 rfl rfl (by simp [own, declare, SameResult])
  have hparameters : ¬OverloadsKept SameParameters spell resolve levels :=
    not_overloadsKept 0 rfl rfl (by simp [own, declare, SameParameters])
  refine ⟨harity, hmarks, hresult, hparameters, ?_⟩
  exact not_overloadsKept 1 rfl rfl
    (by simp [own, declare, SameStructure, SameParameters, listOf])

open LostOverloads in
/-- The overload over a matrix is absent, so a listed method overrides it: the one over a vector. -/
theorem matrix_overload_is_overridden :
    ∃ (listed : List (Sourced Nat)) (method : Member.Method (MemberType Nat)),
      listMethods spell resolve levels = .ok (listed.map Sourced.method) ∧
      ∃ hider ∈ listed, hider.level < 1 ∧
        Overrides spell hider ⟨1, 0, declare "Sum" [] (.builtIn .int32)
          [⟨"matrix", .array (.builtIn .int32) 2, false, false⟩], method⟩ := by
  obtain ⟨listed, hlisted, hplaces⟩ := exists_listed
  have hmethods : listMethods spell resolve levels = .ok (listed.map Sourced.method) := by
    rw [listMethods_eq_map_listSourced, hlisted]
    rfl
  obtain ⟨listed', hlisted', -, -, habsent⟩ := absent_iff_listed_override hmethods
  obtain rfl : listed = listed' := Except.ok.inj (hlisted.symm.trans hlisted')
  have hbase : levels[1]? = some ⟨[], [], [], base⟩ := rfl
  obtain ⟨method, -, hiff⟩ := habsent 1 0 _ _ hbase rfl Nat.one_pos rfl rfl rfl
  exact ⟨listed, method, hmethods, hiff.1 (by simp [hplaces])⟩

end TypeSurface.Metadata
