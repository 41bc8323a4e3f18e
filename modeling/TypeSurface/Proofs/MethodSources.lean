import TypeSurface.Metadata.Listing
import TypeSurface.Proofs.Hiding
import TypeSurface.Proofs.Traversal

/-!
# Listed methods and their declarations

A listing of methods forgets where each method was declared. `listSourced` lists the same methods
with the number of their level, their place in it and their declaration
(`listMethods_eq_map_listSourced`). A declaration is read part by part (`MethodDecl.read_eq_ok_iff`).
`IsSource` says which declarations a listing can draw on, and `mem_listSourced_iff` which of them it
lists.
-/

set_option autoImplicit false

namespace TypeSurface.Metadata

variable {κ ν : Type}

/-- A method together with its declaration: the `position`-th of the level numbered `level`. -/
structure Sourced (κ : Type) where
  level : Nat
  position : Nat
  decl : MethodDecl
  method : Member.Method (MemberType κ)

/-- Where a method is declared: the number of its level and its place there. -/
def Sourced.place (source : Sourced κ) : Nat × Nat := (source.level, source.position)

/-- The level numbered zero declares, every further one hands down. -/
def Origin.ofLevel : Nat → Origin
  | 0 => .declared
  | _ + 1 => .inherited

/-- The eligible methods of a level with their declarations. -/
def Level.sourcedMethods (resolve : Token → Option (Handle κ)) (number : Nat) (level : Level) :
    Except Fault (List (Sourced κ)) :=
  (level.methods.zipIdx.filter fun entry => entry.1.isEligible (.ofLevel number)).mapM fun entry =>
    (entry.1.read (level.methodScope resolve entry.1)).map fun method =>
      ⟨number, entry.2, entry.1, method⟩

/-- The public methods of a chain with their declarations. -/
def listSourced [DecidableEq ν] (spell : MemberType κ → ν) (resolve : Token → Option (Handle κ))
    (levels : List Level) : Except Fault (List (Sourced κ)) := do
  let eligible ← (levels.mapIdx (Level.sourcedMethods resolve)).mapM id
  return mostDerived (fun source => methodKey spell source.method) eligible

/-- A declaration that a listing of a chain can draw on: it is eligible at its level, and it is read
as the method. -/
structure IsSource (resolve : Token → Option (Handle κ)) (levels : List Level)
    (source : Sourced κ) : Prop where
  exists_level : ∃ level, levels[source.level]? = some level ∧
    level.methods[source.position]? = some source.decl ∧
    source.decl.read (level.methodScope resolve source.decl) = .ok source.method
  eligible : source.decl.isEligible (.ofLevel source.level) = true

/-! ## Reading declarations -/

/-- A parameter is read with its name and default value, and with the type that its signature stands
for, which says whether the parameter is passed by reference. -/
theorem ParameterDecl.read_eq_ok_iff {scope : Scope κ} {decl : ParameterDecl}
    {parameter : Member.Parameter (MemberType κ)} :
    decl.read scope = .ok parameter ↔ ∃ type, scope.interpret decl.signature = .ok type ∧
      parameter = ⟨decl.name, if decl.byReference then type.map .byReference else type,
        decl.hasDefault⟩ := by
  rw [read, bind_eq_ok_iff]
  constructor
  · rintro ⟨type, htype, hparameter⟩
    exact ⟨type, htype, (Except.ok.inj hparameter).symm⟩
  · rintro ⟨type, htype, rfl⟩
    exact ⟨type, htype, rfl⟩

/-- A method is read with its name, with the type of its result and with all its parameters. -/
theorem MethodDecl.read_eq_ok_iff {scope : Scope κ} {decl : MethodDecl}
    {method : Member.Method (MemberType κ)} :
    decl.read scope = .ok method ↔ method.name = decl.name ∧
      scope.interpret decl.result = .ok method.result ∧
      decl.parameters.mapM (·.read scope) = .ok method.parameters := by
  rw [read, bind_eq_ok_iff]
  constructor
  · rintro ⟨result, hresult, hrest⟩
    obtain ⟨parameters, hparameters, hmethod⟩ := bind_eq_ok_iff.1 hrest
    obtain rfl := Except.ok.inj hmethod
    exact ⟨rfl, hresult, hparameters⟩
  · rintro ⟨hname, hresult, hparameters⟩
    refine ⟨method.result, hresult, bind_eq_ok_iff.2 ⟨method.parameters, hparameters, ?_⟩⟩
    cases method with
    | mk name result parameters =>
        obtain rfl : name = decl.name := hname
        rfl

/-! ## Forgetting the declarations -/

/-- Levels are treated by their numbers: the first declares and all others are inherited. -/
theorem eachLevel_eq_mapIdx {α β : Type} (rule : Origin → α → β) (levels : List α) :
    eachLevel rule levels = levels.mapIdx fun number level => rule (.ofLevel number) level := by
  cases levels with
  | nil => rfl
  | cons own bases =>
      rw [eachLevel, List.mapIdx_cons]
      -- Levels behind the first have numbers above zero, so they are inherited.
      refine congrArg (_ :: ·) (List.ext_getElem? fun place => ?_)
      simp [Origin.ofLevel]

/-- The eligible methods of a level are those with declarations, the declarations forgotten. -/
theorem eligibleMethods_eq_map_sourcedMethods (resolve : Token → Option (Handle κ)) (number : Nat)
    (level : Level) :
    level.eligibleMethods resolve (.ofLevel number)
      = (level.sourcedMethods resolve number).map (List.map Sourced.method) := by
  -- Eligibility looks at the declaration only, not at its position.
  have hfilter : level.methods.filter (·.isEligible (.ofLevel number))
      = (level.methods.zipIdx.filter fun entry => entry.1.isEligible (.ofLevel number)).map
          Prod.fst := by
    have hfst : level.methods = level.methods.zipIdx.map Prod.fst :=
      (List.zipIdx_map_fst 0 level.methods).symm
    calc
      _ = (level.methods.zipIdx.map Prod.fst).filter (·.isEligible (.ofLevel number)) := by
        rw [← hfst]
      _ = _ := List.filter_map
  rw [Level.eligibleMethods, hfilter, List.mapM_map, Level.sourcedMethods, ← mapM_map_result]
  refine congrArg (fun read => List.mapM read _) (funext fun entry => ?_)
  cases h : entry.1.read (level.methodScope resolve entry.1) with
  | error fault => simp [h, Except.map]
  | ok method => simp [h, Except.map]

/-- A listing is the listing with declarations, the declarations forgotten. -/
theorem listMethods_eq_map_listSourced [DecidableEq ν] (spell : MemberType κ → ν)
    (resolve : Token → Option (Handle κ)) (levels : List Level) :
    listMethods spell resolve levels
      = (listSourced spell resolve levels).map (List.map Sourced.method) := by
  have hlevels : eachLevel (Level.eligibleMethods resolve) levels
      = (levels.mapIdx (Level.sourcedMethods resolve)).map
          (Except.map (List.map Sourced.method)) := by
    rw [eachLevel_eq_mapIdx, List.mapIdx_eq_iff]
    intro number
    simp only [List.getElem?_map, List.getElem?_mapIdx, Option.map_map]
    refine congrArg (fun rule => levels[number]?.map rule) (funext fun level => ?_)
    exact (eligibleMethods_eq_map_sourcedMethods resolve number level).symm
  have heligible : (eachLevel (Level.eligibleMethods resolve) levels).mapM id
      = ((levels.mapIdx (Level.sourcedMethods resolve)).mapM id).map
          (List.map (List.map Sourced.method)) := by
    rw [hlevels, List.mapM_map]
    exact mapM_map_result id (List.map Sourced.method) _
  rw [listMethods, heligible, listSourced]
  cases (levels.mapIdx (Level.sourcedMethods resolve)).mapM id with
  | error fault => rfl
  | ok eligible =>
      exact congrArg Except.ok (mostDerivedFrom_map Sourced.method (methodKey spell) [] eligible)

/-! ## What a listing draws on -/

/-- The methods of a level with declarations are its eligible declarations as they are read. -/
theorem mem_sourcedMethods_iff {resolve : Token → Option (Handle κ)} {number : Nat} {level : Level}
    {sources : List (Sourced κ)} (h : level.sourcedMethods resolve number = .ok sources)
    (source : Sourced κ) :
    source ∈ sources ↔ source.level = number ∧ level.methods[source.position]? = some source.decl ∧
      source.decl.isEligible (.ofLevel number) = true ∧
      source.decl.read (level.methodScope resolve source.decl) = .ok source.method := by
  rw [mem_of_mapM_eq_ok h source]
  constructor
  · rintro ⟨⟨decl, position⟩, hentry, hread⟩
    obtain ⟨hzip, heligible⟩ := List.mem_filter.1 hentry
    obtain ⟨method, hmethod, rfl⟩ := map_eq_ok_iff.1 hread
    exact ⟨rfl, List.mem_zipIdx_iff_getElem?.1 hzip, heligible, hmethod⟩
  · rintro ⟨rfl, hposition, heligible, hread⟩
    refine ⟨(source.decl, source.position), ?_, map_eq_ok_iff.2 ⟨source.method, hread, rfl⟩⟩
    exact List.mem_filter.2 ⟨List.mem_zipIdx_iff_getElem?.2 hposition, heligible⟩

section Listing

variable {resolve : Token → Option (Handle κ)} {levels : List Level}
  {eligible : List (List (Sourced κ))}
  (heligible : (levels.mapIdx (Level.sourcedMethods resolve)).mapM id = .ok eligible)

include heligible

/-- The eligible methods at a place are those of the level at that place. -/
theorem getElem?_eligible {number : Nat} {sources : List (Sourced κ)} :
    eligible[number]? = some sources ↔
      ∃ level, levels[number]? = some level ∧
        level.sourcedMethods resolve number = .ok sources := by
  rw [getElem?_of_mapM_eq_ok heligible]
  simp only [List.getElem?_mapIdx, Option.map_eq_some_iff, id]
  constructor
  · rintro ⟨read, ⟨level, hlevel, rfl⟩, hread⟩
    exact ⟨level, hlevel, hread⟩
  · rintro ⟨level, hlevel, hread⟩
    exact ⟨_, ⟨level, hlevel, rfl⟩, hread⟩

/-- What a level offers to a listing are its sources. -/
theorem mem_eligible_iff {number : Nat} {sources : List (Sourced κ)}
    (hsources : eligible[number]? = some sources) (source : Sourced κ) :
    source ∈ sources ↔ IsSource resolve levels source ∧ source.level = number := by
  obtain ⟨level, hlevel, hread⟩ := (getElem?_eligible heligible).1 hsources
  rw [mem_sourcedMethods_iff hread]
  constructor
  · rintro ⟨rfl, hposition, helig, hmethod⟩
    exact ⟨⟨⟨level, hlevel, hposition, hmethod⟩, helig⟩, rfl⟩
  · rintro ⟨⟨⟨other, hother, hposition, hmethod⟩, helig⟩, rfl⟩
    obtain rfl : level = other := Option.some.inj (hlevel.symm.trans hother)
    exact ⟨rfl, hposition, helig, hmethod⟩

theorem exists_eligible {number : Nat} {level : Level} (hlevel : levels[number]? = some level) :
    ∃ sources, eligible[number]? = some sources ∧
      level.sourcedMethods resolve number = .ok sources := by
  have hread : (levels.mapIdx (Level.sourcedMethods resolve))[number]?
      = some (level.sourcedMethods resolve number) := by
    rw [List.getElem?_mapIdx, hlevel, Option.map_some]
  exact exists_result_of_mapM_eq_ok heligible hread

theorem exists_sources_of_isSource {source : Sourced κ} (h : IsSource resolve levels source) :
    ∃ sources, eligible[source.level]? = some sources ∧ source ∈ sources := by
  obtain ⟨level, hlevel, -, -⟩ := h.exists_level
  obtain ⟨sources, hsources, -⟩ := exists_eligible heligible hlevel
  exact ⟨sources, hsources, (mem_eligible_iff heligible hsources source).2 ⟨h, rfl⟩⟩

/-- Every eligible declaration of a listed chain is read, so it is a source. -/
theorem exists_isSource {number position : Nat} {level : Level} {decl : MethodDecl}
    (hlevel : levels[number]? = some level) (hposition : level.methods[position]? = some decl)
    (hdecl : decl.isEligible (.ofLevel number) = true) :
    ∃ method, IsSource resolve levels ⟨number, position, decl, method⟩ := by
  obtain ⟨sources, -, hsources⟩ := exists_eligible heligible hlevel
  -- The level is read as a whole, so each of its eligible declarations is.
  have hentry : (decl, position) ∈
      level.methods.zipIdx.filter fun entry => entry.1.isEligible (.ofLevel number) :=
    List.mem_filter.2 ⟨List.mem_zipIdx_iff_getElem?.2 hposition, hdecl⟩
  obtain ⟨place, hplace⟩ := List.mem_iff_getElem?.1 hentry
  obtain ⟨source, -, hread⟩ := exists_result_of_mapM_eq_ok hsources hplace
  obtain ⟨method, hmethod, -⟩ := map_eq_ok_iff.1 hread
  exact ⟨method, ⟨level, hlevel, hposition, hmethod⟩, hdecl⟩

end Listing

/-- Level and place tell sources apart. -/
theorem IsSource.eq_of_place {resolve : Token → Option (Handle κ)} {levels : List Level}
    {a b : Sourced κ} (ha : IsSource resolve levels a) (hb : IsSource resolve levels b)
    (h : a.place = b.place) : a = b := by
  obtain ⟨number, position, decl, method⟩ := a
  obtain ⟨number', position', decl', method'⟩ := b
  obtain ⟨rfl, rfl⟩ : number = number' ∧ position = position' := by simpa [Sourced.place] using h
  obtain ⟨level, hlevel, hdecl, hread⟩ := ha.exists_level
  obtain ⟨level', hlevel', hdecl', hread'⟩ := hb.exists_level
  simp only at hlevel hlevel' hdecl hdecl' hread hread'
  obtain rfl : level = level' := Option.some.inj (hlevel.symm.trans hlevel')
  obtain rfl : decl = decl' := Option.some.inj (hdecl.symm.trans hdecl')
  obtain rfl : method = method' := Except.ok.inj (hread.symm.trans hread')
  rfl

section Listed

variable [DecidableEq ν] {spell : MemberType κ → ν} {resolve : Token → Option (Handle κ)}
  {levels : List Level} {listed : List (Sourced κ)}

theorem exists_eligible_of_listSourced (h : listSourced spell resolve levels = .ok listed) :
    ∃ eligible, (levels.mapIdx (Level.sourcedMethods resolve)).mapM id = .ok eligible ∧
      listed = mostDerived (fun source => methodKey spell source.method) eligible := by
  obtain ⟨eligible, heligible, hlisted⟩ := bind_eq_ok_iff.1 h
  exact ⟨eligible, heligible, (Except.ok.inj hlisted).symm⟩

theorem isSource_of_mem_listSourced (h : listSourced spell resolve levels = .ok listed)
    {source : Sourced κ} (hsource : source ∈ listed) : IsSource resolve levels source := by
  obtain ⟨eligible, heligible, rfl⟩ := exists_eligible_of_listSourced h
  obtain ⟨number, sources, hsources, hmem, -⟩ := mem_mostDerived_iff.1 hsource
  exact ((mem_eligible_iff heligible hsources source).1 hmem).1

/-- A source is listed when no source of a more derived level has its key. -/
theorem mem_listSourced_iff (h : listSourced spell resolve levels = .ok listed)
    {source : Sourced κ} (hsource : IsSource resolve levels source) :
    source ∈ listed ↔ ∀ other, IsSource resolve levels other → other.level < source.level →
      methodKey spell other.method ≠ methodKey spell source.method := by
  obtain ⟨eligible, heligible, rfl⟩ := exists_eligible_of_listSourced h
  obtain ⟨sources, hsources, hmem⟩ := exists_sources_of_isSource heligible hsource
  constructor
  · intro hlisted other hother hlevel hkey
    obtain ⟨number, sources', hsources', hmem', hfree⟩ := mem_mostDerived_iff.1 hlisted
    -- The level that lists the source is its own, so `other` lies before it.
    obtain ⟨-, rfl⟩ := (mem_eligible_iff heligible hsources' source).1 hmem'
    obtain ⟨others, hothers, hin⟩ := exists_sources_of_isSource heligible hother
    obtain ⟨hlength, rfl⟩ := List.getElem?_eq_some_iff.1 hothers
    have htake : eligible[other.level] ∈ eligible.take source.level :=
      List.mem_take_iff_getElem.2 ⟨other.level, by omega, rfl⟩
    exact hfree _ htake (List.mem_map.2 ⟨other, hin, hkey⟩)
  · intro hfree
    refine mem_mostDerived_iff.2 ⟨source.level, sources, hsources, hmem, ?_⟩
    intro others hothers hkey
    obtain ⟨number, hnumber, rfl⟩ := List.mem_take_iff_getElem.1 hothers
    obtain ⟨other, hin, hsame⟩ := List.mem_map.1 hkey
    have hlength : number < eligible.length := by omega
    have hplace := List.getElem?_eq_getElem hlength
    obtain ⟨hother, rfl⟩ := (mem_eligible_iff heligible hplace other).1 hin
    exact hfree other hother (by omega) hsame

/-- The key of a source is listed, from its own level or from a more derived one. -/
theorem exists_mem_listSourced (h : listSourced spell resolve levels = .ok listed)
    {source : Sourced κ} (hsource : IsSource resolve levels source) :
    ∃ found ∈ listed, found.level ≤ source.level ∧
      methodKey spell found.method = methodKey spell source.method := by
  obtain ⟨eligible, heligible, rfl⟩ := exists_eligible_of_listSourced h
  obtain ⟨sources, hsources, hmem⟩ := exists_sources_of_isSource heligible hsource
  obtain ⟨found, hfound, hkey, number, hnumber, others, hothers, hin⟩ :=
    exists_listed_of_key (fun source => methodKey spell source.method) hsources hmem
  obtain ⟨-, hlevel⟩ := (mem_eligible_iff heligible hothers found).1 hin
  exact ⟨found, hfound, by omega, hkey⟩

end Listed

end TypeSurface.Metadata
