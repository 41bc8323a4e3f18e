import TypeSurface.Proofs.MostDerived
import TypeSurface.Proofs.Offences

/-!
# Names of generic parameters

Hiding compares types as they are spelled, and a generic parameter is spelled by its name. Two chains
that differ in nothing but the names of the methods' own generic parameters fail alike, since a fault
tells how many parameters there are and not how they are called (`fault?_listMethods_congr`). When both
are listed, their methods come from the same places exactly when the same methods are hidden in both
(`places_eq_iff`), and whether one method hides another can change only where one of the two mentions a
parameter that is renamed (`unrenamed_methods_hide_alike`). There it does change: an override that
calls its parameter otherwise than the base method is listed beside it, and a parameter that is called
like a type hides an overload over that type (`renamed_override_is_listed_beside_base`).
-/

set_option autoImplicit false

namespace TypeSurface.Metadata

variable {κ ν : Type}

/-! ## Chains up to names -/

/-- A method without the names of its generic parameters. -/
def MethodDecl.anonymous (decl : MethodDecl) : MethodDecl :=
  { decl with genericParameters := decl.genericParameters.map fun _ => "" }

@[simp] theorem MethodDecl.signatures_anonymous (decl : MethodDecl) :
    decl.anonymous.signatures = decl.signatures := rfl

@[simp] theorem MethodDecl.isEligible_anonymous (decl : MethodDecl) (origin : Origin) :
    decl.anonymous.isEligible origin = decl.isEligible origin := rfl

@[simp] theorem MethodDecl.read_anonymous (scope : Scope κ) (decl : MethodDecl) :
    decl.anonymous.read scope = decl.read scope := rfl

/-- A level without the names of the generic parameters of its methods. -/
def Level.anonymous (level : Level) : Level :=
  { level with methods := level.methods.map MethodDecl.anonymous }

/-- A candidate without the names of its generic parameters. -/
def Candidate.anonymous (candidate : Candidate) : Candidate :=
  ⟨candidate.level, candidate.position, candidate.owner.anonymous, candidate.decl.anonymous⟩

/-- Two chains differ in nothing but the names of the generic parameters of methods. -/
def SameUpToNames (levels others : List Level) : Prop :=
  levels.map Level.anonymous = others.map Level.anonymous

/-- The chain declares the method at a place. -/
def Declares (levels : List Level) (place : Nat × Nat) (decl : MethodDecl) : Prop :=
  ∃ level, levels[place.1]? = some level ∧ level.methods[place.2]? = some decl

/-- A signature of the method holds the generic parameter of the method with an index. -/
def MethodDecl.Mentions (decl : MethodDecl) (index : Nat) : Prop :=
  ∃ signature ∈ decl.signatures, ∃ visit ∈ signature.visits 0, visit.node = .methodParameter index

/-- The method at a place mentions a generic parameter of its own that the chains call by different
names. -/
def ShowsRenaming (levels others : List Level) (place : Nat × Nat) : Prop :=
  ∃ decl other index, Declares levels place decl ∧ Declares others place other ∧
    decl.Mentions index ∧ decl.genericParameters[index]? ≠ other.genericParameters[index]?

theorem exists_getElem?_of_map_eq {α β : Type} {change : α → β} {list others : List α}
    (h : list.map change = others.map change) {place : Nat} {a : α} (ha : list[place]? = some a) :
    ∃ b, others[place]? = some b ∧ change b = change a := by
  have hplace := congrArg (fun results => results[place]?) h
  simp only [List.getElem?_map, ha, Option.map_some] at hplace
  exact Option.map_eq_some_iff.1 hplace.symm

/-- Chains that are the same up to names have corresponding levels with corresponding methods. -/
theorem SameUpToNames.exists_level {levels others : List Level} (h : SameUpToNames levels others)
    {number position : Nat} {level : Level} {decl : MethodDecl}
    (hlevel : levels[number]? = some level) (hposition : level.methods[position]? = some decl) :
    ∃ otherLevel other, others[number]? = some otherLevel ∧
      otherLevel.methods[position]? = some other ∧ otherLevel.anonymous = level.anonymous ∧
      other.anonymous = decl.anonymous := by
  obtain ⟨otherLevel, hotherLevel, hsame⟩ := exists_getElem?_of_map_eq h hlevel
  have hmethods := congrArg Level.methods hsame.symm
  obtain ⟨other, hother, hanonymous⟩ := exists_getElem?_of_map_eq hmethods hposition
  exact ⟨otherLevel, other, hotherLevel, hother, hsame, hanonymous⟩

theorem SameUpToNames.exists_declares {levels others : List Level} {place : Nat × Nat}
    {decl : MethodDecl} (h : SameUpToNames levels others) (hdecl : Declares levels place decl) :
    ∃ other, Declares others place other ∧ other.anonymous = decl.anonymous := by
  obtain ⟨level, hlevel, hposition⟩ := hdecl
  obtain ⟨otherLevel, other, hotherLevel, hother, -, hanonymous⟩ := h.exists_level hlevel hposition
  exact ⟨other, ⟨otherLevel, hotherLevel, hother⟩, hanonymous⟩

theorem Declares.unique {levels : List Level} {place : Nat × Nat} {decl other : MethodDecl}
    (hdecl : Declares levels place decl) (hother : Declares levels place other) : decl = other := by
  obtain ⟨level, hlevel, hposition⟩ := hdecl
  obtain ⟨level', hlevel', hposition'⟩ := hother
  obtain rfl : level = level' := Option.some.inj (hlevel.symm.trans hlevel')
  exact Option.some.inj (hposition.symm.trans hposition')

theorem signatures_eq_of_anonymous_eq {decl other : MethodDecl}
    (h : other.anonymous = decl.anonymous) : other.signatures = decl.signatures := by
  rw [← decl.signatures_anonymous, ← h, other.signatures_anonymous]

theorem ShowsRenaming.symm {levels others : List Level} {place : Nat × Nat}
    (h : SameUpToNames levels others) (hshows : ShowsRenaming levels others place) :
    ShowsRenaming others levels place := by
  obtain ⟨decl, other, index, hdecl, hother, ⟨signature, hsignature, hmention⟩, hnames⟩ := hshows
  obtain ⟨same, hsame, hanonymous⟩ := h.exists_declares hdecl
  obtain rfl := hother.unique hsame
  rw [← signatures_eq_of_anonymous_eq hanonymous] at hsignature
  exact ⟨other, decl, index, hother, hdecl, ⟨signature, hsignature, hmention⟩, hnames.symm⟩

/-! ## Faults -/

/-- The fault of an offence, if it is one. -/
def Offence.fault? : Offence → Option Fault
  | .faulty fault => some fault
  | .untyped => none

theorem bind_fault?_of? {α : Type} (computed : Except Fault (Option α)) :
    (Offence.of? computed).bind Offence.fault? = fault? computed := by
  rcases computed with fault | _ | value <;> rfl

namespace Scope

variable {scope other : Scope κ}

/-- Scopes that know the same tokens and have equally many generic parameters find the same
offences. -/
theorem offence?_congr (hresolve : other.resolve = scope.resolve)
    (hcount : ∀ owner, (other.parametersOf owner).length = (scope.parametersOf owner).length) :
    other.offence? = scope.offence? := by
  have hindex : other.indexOffence? = scope.indexOffence? := by
    funext owner index
    simp only [indexOffence?, hcount]
  have htoken : other.tokenOffence? = scope.tokenOffence? := by
    funext token
    simp only [tokenOffence?, hresolve]
  funext visit
  simp only [offence?, hindex, htoken]

/-- The fault of an interpretation does not depend on the names of generic parameters. -/
theorem fault?_interpret_congr (other scope : Scope κ) (hresolve : other.resolve = scope.resolve)
    (hcount : ∀ owner, (other.parametersOf owner).length = (scope.parametersOf owner).length)
    (signature : Signature) :
    fault? (other.interpret signature) = fault? (scope.interpret signature) := by
  have hoffence : Offence.of? (other.interpret signature)
      = Offence.of? (scope.interpret signature) := by
    rw [interpret, interpret, of?_interpretAt other (Nat.zero_le nestingLimit),
      of?_interpretAt scope (Nat.zero_le nestingLimit), offence?_congr hresolve hcount]
  rw [← bind_fault?_of?, hoffence, bind_fault?_of?]

end Scope

/-- A candidate without names has the fault of the candidate. -/
theorem fault?_read_anonymous (resolve : Token → Option (Handle κ)) (candidate : Candidate) :
    fault? (candidate.anonymous.read resolve) = fault? (candidate.read resolve) := by
  have hcount : ∀ owner, ((candidate.anonymous.scope resolve).parametersOf owner).length
      = ((candidate.scope resolve).parametersOf owner).length := by
    intro owner
    cases owner with
    | type => rfl
    | method => exact List.length_map _
  rw [Candidate.fault?_read, Candidate.fault?_read]
  refine congrArg (List.findSome? · candidate.decl.signatures) (funext fun signature => ?_)
  exact Scope.fault?_interpret_congr (candidate.anonymous.scope resolve) (candidate.scope resolve)
    rfl hcount signature

theorem candidates_level_anonymous (number : Nat) (level : Level) :
    level.anonymous.candidates number
      = (level.candidates number).map Candidate.anonymous := by
  rw [Level.candidates, Level.candidates, Level.anonymous, List.zipIdx_map, List.filter_map,
    List.map_map, List.map_map]
  rfl

/-- A chain without names has the candidates of the chain without names. -/
theorem candidates_anonymous (levels : List Level) :
    candidates (levels.map Level.anonymous) = (candidates levels).map Candidate.anonymous := by
  rw [candidates, candidates, List.map_flatten, map_mapIdx]
  congr 1
  apply List.ext_getElem?
  intro number
  rw [List.getElem?_mapIdx, List.getElem?_mapIdx, List.getElem?_map, Option.map_map]
  refine congrArg (fun change => Option.map change levels[number]?) (funext fun level => ?_)
  exact candidates_level_anonymous number level

section Chains

variable [DecidableEq ν] {spell : MemberType κ → ν} {resolve : Token → Option (Handle κ)}
  {levels others : List Level}

/-- Chains that are the same up to names fail alike. -/
theorem fault?_listMethods_congr (h : SameUpToNames levels others) :
    fault? (listMethods spell resolve levels) = fault? (listMethods spell resolve others) := by
  -- Both fail like the chain that they become without the names.
  have hnameless : ∀ chain : List Level, fault? (listMethods spell resolve chain)
      = (candidates (chain.map Level.anonymous)).findSome? fun candidate =>
          fault? (candidate.read resolve) := by
    intro chain
    rw [fault?_listMethods, candidates_anonymous, List.findSome?_map]
    refine congrArg (List.findSome? · (candidates chain)) (funext fun candidate => ?_)
    exact (fault?_read_anonymous resolve candidate).symm
  rw [hnameless, hnameless, h]

end Chains

/-! ## Hiding -/

/-- In a chain the method at one place hides the one at another: it is of a more derived level and has
the same key. -/
def HidesAt (spell : MemberType κ → ν) (resolve : Token → Option (Handle κ)) (levels : List Level)
    (hider hidden : Nat × Nat) : Prop :=
  ∃ a b, IsSource resolve levels a ∧ IsSource resolve levels b ∧ a.place = hider ∧
    b.place = hidden ∧ a.level < b.level ∧ a.key spell = b.key spell

/-- In a chain some method hides the one at the place. -/
def IsHidden (spell : MemberType κ → ν) (resolve : Token → Option (Handle κ)) (levels : List Level)
    (hidden : Nat × Nat) : Prop :=
  ∃ hider, HidesAt spell resolve levels hider hidden

section Hiding

variable {spell : MemberType κ → ν} {resolve : Token → Option (Handle κ)}
  {levels others : List Level} {sources : List (Sourced κ)}

/-- Among the sources of a chain those win that no method hides. -/
theorem unhidden_iff_not_isHidden
    (hsources : (candidates levels).mapM (Candidate.read resolve) = .ok sources)
    {source : Sourced κ} (hsource : source ∈ sources) :
    Unhidden (Sourced.key spell) Sourced.level sources source ↔
      ¬IsHidden spell resolve levels source.place := by
  constructor
  · rintro hfree ⟨hider, a, b, ha, hb, -, hplace, hlower, hkey⟩
    obtain rfl := hb.eq_of_place ((mem_sources_iff hsources).1 hsource) hplace
    exact hfree a ((mem_sources_iff hsources).2 ha) hlower hkey
  · intro hfree other hother hlower hkey
    exact hfree ⟨other.place, other, source, (mem_sources_iff hsources).1 hother,
      (mem_sources_iff hsources).1 hsource, rfl, rfl, hlower, hkey⟩

theorem IsHidden.mem_places
    (hsources : (candidates levels).mapM (Candidate.read resolve) = .ok sources)
    {place : Nat × Nat} (h : IsHidden spell resolve levels place) :
    place ∈ sources.map Sourced.place := by
  obtain ⟨hider, a, b, -, hb, -, rfl, -, -⟩ := h
  exact List.mem_map_of_mem ((mem_sources_iff hsources).2 hb)

open Classical in
/-- A listing has the places of the sources that are not hidden, in order. -/
theorem map_place_winners [DecidableEq ν]
    (hsources : (candidates levels).mapM (Candidate.read resolve) = .ok sources) :
    (winners (Sourced.key spell) Sourced.level sources).map Sourced.place
      = (sources.map Sourced.place).filter fun place =>
          decide (¬IsHidden spell resolve levels place) := by
  rw [winners, List.filter_map]
  congr 1
  apply List.filter_congr
  intro source hsource
  exact decide_eq_decide.2 (unhidden_iff_not_isHidden hsources hsource)

theorem map_place_candidates_congr (h : SameUpToNames levels others) :
    (candidates levels).map Candidate.place = (candidates others).map Candidate.place := by
  have hnameless : ∀ chain : List Level, (candidates chain).map Candidate.place
      = (candidates (chain.map Level.anonymous)).map Candidate.place := by
    intro chain
    rw [candidates_anonymous, List.map_map]
    rfl
  rw [hnameless, hnameless others, h]

/-- Chains that are the same up to names list methods of the same places exactly when the same methods
are hidden in both. -/
theorem places_eq_iff [DecidableEq ν] (h : SameUpToNames levels others)
    {listed otherListed : List (Sourced κ)} (hlisted : listSourced spell resolve levels = .ok listed)
    (hother : listSourced spell resolve others = .ok otherListed) :
    listed.map Sourced.place = otherListed.map Sourced.place ↔
      ∀ place, IsHidden spell resolve levels place ↔ IsHidden spell resolve others place := by
  classical
  rw [listSourced_eq_map_winners] at hlisted hother
  obtain ⟨sources, hsources, rfl⟩ := map_eq_ok_iff.1 hlisted
  obtain ⟨otherSources, hotherSources, rfl⟩ := map_eq_ok_iff.1 hother
  have hplaces : sources.map Sourced.place = otherSources.map Sourced.place := by
    rw [map_place_sources hsources, map_place_sources hotherSources, map_place_candidates_congr h]
  rw [map_place_winners hsources, map_place_winners hotherSources, ← hplaces]
  constructor
  · intro hsame place
    -- Only sources are hidden, so elsewhere there is nothing to compare.
    by_cases hmem : place ∈ sources.map Sourced.place
    · have hkept := congrArg (place ∈ ·) hsame
      simpa [hmem, not_iff_not] using hkept
    · refine iff_of_false (fun hhidden => hmem (hhidden.mem_places hsources)) fun hhidden => hmem ?_
      rw [hplaces]
      exact hhidden.mem_places hotherSources
  · intro hsame
    apply List.filter_congr
    intro place _
    exact decide_eq_decide.2 (not_congr (hsame place))

end Hiding

/-! ## Methods that do not show the renaming -/

/-- A method is read alike in scopes that interpret its signatures alike. -/
theorem MethodDecl.read_congr {scope other : Scope κ} {decl : MethodDecl}
    (h : ∀ signature ∈ decl.signatures, other.interpret signature = scope.interpret signature) :
    decl.read other = decl.read scope := by
  have hparameters : decl.parameters.mapM (·.read other) = decl.parameters.mapM (·.read scope) := by
    apply mapM_congr
    intro parameter hparameter
    have hsignature : parameter.signature ∈ decl.signatures :=
      List.mem_cons_of_mem _ (List.mem_map_of_mem hparameter)
    rw [ParameterDecl.read, ParameterDecl.read, h _ hsignature]
  rw [read, read, h decl.result List.mem_cons_self, hparameters]

section Unrenamed

variable {spell : MemberType κ → ν} {resolve : Token → Option (Handle κ)}
  {levels others : List Level}

/-- Methods that are the same up to names are read alike on levels that are the same up to names, when
the parameters that they mention have the same names. -/
theorem read_eq_of_names_eq {level otherLevel : Level} {decl other : MethodDecl}
    (hlevel : otherLevel.anonymous = level.anonymous) (hdecl : other.anonymous = decl.anonymous)
    (hnames : ∀ index, decl.Mentions index →
      other.genericParameters[index]? = decl.genericParameters[index]?) :
    other.read (otherLevel.methodScope resolve other)
      = decl.read (level.methodScope resolve decl) := by
  rw [← other.read_anonymous, hdecl, decl.read_anonymous]
  apply MethodDecl.read_congr
  intro signature hsignature
  apply Scope.interpret_congr
  intro visit hvisit
  -- Only generic parameters look at names, and those of the method only where they are mentioned.
  cases hnode : visit.node with
  | typeParameter index =>
      have htypes : otherLevel.anonymous.genericParameters = level.anonymous.genericParameters :=
        congrArg Level.genericParameters hlevel
      apply Scope.parameter_congr
      · exact congrArg (·[index]?) htypes
      · exact congrArg List.length htypes
  | methodParameter index =>
      have hcount := congrArg (fun decl => decl.genericParameters.length) hdecl
      rw [MethodDecl.anonymous, MethodDecl.anonymous, List.length_map, List.length_map] at hcount
      apply Scope.parameter_congr
      · exact hnames index ⟨signature, hsignature, visit, hvisit, hnode⟩
      · exact hcount
  | _ => trivial

/-- A source that does not show the renaming is a source of the other chain as well, and is read there
as the same method. -/
theorem IsSource.of_unrenamed (h : SameUpToNames levels others) {source : Sourced κ}
    (hsource : IsSource resolve levels source)
    (hshows : ¬ShowsRenaming levels others source.place) :
    ∃ decl, IsSource resolve others ⟨source.level, source.position, decl, source.method⟩ := by
  obtain ⟨level, hlevel, hposition, hread⟩ := hsource.exists_level
  obtain ⟨otherLevel, other, hotherLevel, hotherPosition, hsame, hanonymous⟩ :=
    h.exists_level hlevel hposition
  have hnames : ∀ index, source.decl.Mentions index →
      other.genericParameters[index]? = source.decl.genericParameters[index]? := by
    intro index hmentions
    by_contra hrenamed
    exact hshows ⟨source.decl, other, index, ⟨level, hlevel, hposition⟩,
      ⟨otherLevel, hotherLevel, hotherPosition⟩, hmentions, Ne.symm hrenamed⟩
  have heligible : other.isEligible (.ofLevel source.level) = true := by
    rw [← other.isEligible_anonymous, hanonymous, source.decl.isEligible_anonymous]
    exact hsource.eligible
  refine ⟨other, ⟨otherLevel, hotherLevel, hotherPosition, ?_⟩, heligible⟩
  rw [← hread]
  exact read_eq_of_names_eq hsame hanonymous hnames

theorem HidesAt.of_unrenamed (h : SameUpToNames levels others) {hider hidden : Nat × Nat}
    (hhides : HidesAt spell resolve levels hider hidden)
    (hhider : ¬ShowsRenaming levels others hider) (hhidden : ¬ShowsRenaming levels others hidden) :
    HidesAt spell resolve others hider hidden := by
  obtain ⟨a, b, ha, hb, rfl, rfl, hlower, hkey⟩ := hhides
  obtain ⟨decl, hdecl⟩ := ha.of_unrenamed h hhider
  obtain ⟨other, hother⟩ := hb.of_unrenamed h hhidden
  exact ⟨_, _, hdecl, hother, rfl, rfl, hlower, hkey⟩

/-- Whether one method hides another can differ only where one of them shows the renaming. -/
theorem unrenamed_methods_hide_alike (h : SameUpToNames levels others) (hider hidden : Nat × Nat) :
    (HidesAt spell resolve levels hider hidden ↔ HidesAt spell resolve others hider hidden) ∨
      ShowsRenaming levels others hider ∨ ShowsRenaming levels others hidden := by
  by_cases hhider : ShowsRenaming levels others hider
  · exact Or.inr (Or.inl hhider)
  by_cases hhidden : ShowsRenaming levels others hidden
  · exact Or.inr (Or.inr hhidden)
  refine Or.inl ⟨fun hhides => hhides.of_unrenamed h hhider hhidden, fun hhides => ?_⟩
  exact hhides.of_unrenamed h.symm (fun hshows => hhider (hshows.symm h.symm))
    fun hshows => hhidden (hshows.symm h.symm)

/-- Two chains that differ in nothing but the names of the generic parameters of methods fail alike.
When they do not fail, their methods come from the same places exactly when the same methods are
hidden in both, and whether one method hides another is the same in both unless one of the two mentions
a parameter that is renamed. -/
theorem renaming_matters_where_mentioned [DecidableEq ν] (spell : MemberType κ → ν)
    (resolve : Token → Option (Handle κ)) (h : SameUpToNames levels others) :
    (∀ fault, listMethods spell resolve levels = .error fault ↔
      listMethods spell resolve others = .error fault) ∧
    ∀ methods otherMethods, listMethods spell resolve levels = .ok methods →
      listMethods spell resolve others = .ok otherMethods →
      ∃ listed otherListed, listSourced spell resolve levels = .ok listed ∧
        listSourced spell resolve others = .ok otherListed ∧
        methods = listed.map Sourced.method ∧ otherMethods = otherListed.map Sourced.method ∧
        (listed.map Sourced.place = otherListed.map Sourced.place ↔
          ∀ place, IsHidden spell resolve levels place ↔ IsHidden spell resolve others place) ∧
        ∀ hider hidden,
          (HidesAt spell resolve levels hider hidden ↔ HidesAt spell resolve others hider hidden) ∨
            ShowsRenaming levels others hider ∨ ShowsRenaming levels others hidden := by
  constructor
  · intro fault
    rw [← fault?_eq_some_iff, ← fault?_eq_some_iff, fault?_listMethods_congr h]
  · intro methods otherMethods hmethods hother
    rw [listMethods_eq_map_listSourced] at hmethods hother
    obtain ⟨listed, hlisted, rfl⟩ := map_eq_ok_iff.1 hmethods
    obtain ⟨otherListed, hotherListed, rfl⟩ := map_eq_ok_iff.1 hother
    exact ⟨listed, otherListed, hlisted, hotherListed, rfl, rfl,
      places_eq_iff h hlisted hotherListed, unrenamed_methods_hide_alike h⟩

end Unrenamed

namespace RenamedOverrides

open DrawnLevels (level resolve spell)

/-- A public generic method that takes a value of its own parameter. -/
def make (parameter : String) : MethodDecl :=
  ⟨"Make", true, false, [parameter], .builtIn .void, [⟨"value", .methodParameter 0, false, false⟩]⟩

/-- An overload over whole numbers. -/
def makeNumber : MethodDecl :=
  ⟨"Make", true, false, [], .builtIn .void, [⟨"value", .builtIn .int32, false, false⟩]⟩

/-- A chain of a derived type and its base, each with one method. -/
def chain (own base : MethodDecl) : List Level := [level [own], level [base]]

/-- The places of the methods that are listed for a chain. -/
def listedPlaces (levels : List Level) : Option (List (Nat × Nat)) :=
  (listSourced spell resolve levels).toOption.map (List.map Sourced.place)

end RenamedOverrides

open DrawnLevels (resolve spell) in
open RenamedOverrides in
/-- An override that calls its parameter otherwise than the base method does not hide it any more, and
one whose parameter is called like a type begins to hide an overload over the type. -/
theorem renamed_override_is_listed_beside_base :
    (SameUpToNames (chain (make "T") (make "T")) (chain (make "U") (make "T")) ∧
      listedPlaces (chain (make "T") (make "T")) = some [(0, 0)] ∧
      listedPlaces (chain (make "U") (make "T")) = some [(0, 0), (1, 0)] ∧
      ∃ place, ¬(IsHidden spell resolve (chain (make "T") (make "T")) place ↔
        IsHidden spell resolve (chain (make "U") (make "T")) place)) ∧
    SameUpToNames (chain (make "T") makeNumber) (chain (make "Int") makeNumber) ∧
      listedPlaces (chain (make "T") makeNumber) = some [(0, 0), (1, 0)] ∧
      listedPlaces (chain (make "Int") makeNumber) = some [(0, 0)] ∧
      ∃ place, ¬(IsHidden spell resolve (chain (make "T") makeNumber) place ↔
        IsHidden spell resolve (chain (make "Int") makeNumber) place) := by
  -- Places that differ are hidden differently.
  have hdiffer : ∀ levels others places otherPlaces, SameUpToNames levels others →
      listedPlaces levels = some places → listedPlaces others = some otherPlaces →
      places ≠ otherPlaces → ∃ place,
        ¬(IsHidden spell resolve levels place ↔ IsHidden spell resolve others place) := by
    intro levels others places otherPlaces hsame hplaces hotherPlaces hne
    obtain ⟨listed, hlisted, rfl⟩ := exists_ok_of_toOption_map hplaces
    obtain ⟨otherListed, hotherListed, rfl⟩ := exists_ok_of_toOption_map hotherPlaces
    have hmethods := listMethods_eq_map_listSourced spell resolve levels
    have hotherMethods := listMethods_eq_map_listSourced spell resolve others
    rw [hlisted] at hmethods
    rw [hotherListed] at hotherMethods
    obtain ⟨a, b, ha, hb, -, -, hiff, -⟩ :=
      (renaming_matters_where_mentioned spell resolve hsame).2 _ _ hmethods hotherMethods
    obtain rfl := Except.ok.inj (hlisted.symm.trans ha)
    obtain rfl := Except.ok.inj (hotherListed.symm.trans hb)
    exact Classical.not_forall.1 fun hall => hne (hiff.2 hall)
  have hown : listedPlaces (chain (make "T") (make "T")) = some [(0, 0)] := by decide +kernel
  have hrenamed : listedPlaces (chain (make "U") (make "T")) = some [(0, 0), (1, 0)] := by
    decide +kernel
  have hoverload : listedPlaces (chain (make "T") makeNumber) = some [(0, 0), (1, 0)] := by
    decide +kernel
  have hclash : listedPlaces (chain (make "Int") makeNumber) = some [(0, 0)] := by decide +kernel
  exact ⟨⟨rfl, hown, hrenamed, hdiffer _ _ _ _ rfl hown hrenamed (by decide)⟩,
    rfl, hoverload, hclash, hdiffer _ _ _ _ rfl hoverload hclash (by decide)⟩

end TypeSurface.Metadata
