import TypeSurface.Proofs.FirstFaults

/-!
# The most derived level wins

A listing goes level by level and remembers the keys it has listed. Declared at once, its rule is a
filter over all members in order: a member stays when no member of a more derived level has its key,
listed or not (`mostDerived_eq_winners`). For methods the members are the eligible ones of all levels,
each read in the scope of its own level. When all of them can be read, the listing is what the rule
leaves of them (`listSourced_eq_map_winners`), and otherwise it fails with the fault of the first that
cannot be read, whether or not the rule would have left it (`fault?_listMethods`).
-/

set_option autoImplicit false

namespace TypeSurface.Metadata

/-! ## The rule -/

section Rule

variable {α ν : Type} {key : α → ν} {rank : α → Nat} {members : List α} {a b : α}

/-- No member of a lower rank has the key of the member. -/
def Unhidden (key : α → ν) (rank : α → Nat) (members : List α) (member : α) : Prop :=
  ∀ other ∈ members, rank other < rank member → key other ≠ key member

instance [DecidableEq ν] (key : α → ν) (rank : α → Nat) (members : List α) :
    DecidablePred (Unhidden key rank members) :=
  fun member => inferInstanceAs (Decidable (∀ other ∈ members, rank other < rank member →
    key other ≠ key member))

theorem unhidden_of_lowest (h : ∀ other ∈ members, rank a ≤ rank other) :
    Unhidden key rank members a :=
  fun other hother hlower => absurd (h other hother) (Nat.not_le.2 hlower)

/-- Behind members of lower ranks a member is not hidden when none of them has its key and it is not
hidden by the others. -/
theorem unhidden_append_iff {before : List α} (h : ∀ other ∈ before, rank other < rank a) :
    Unhidden key rank (before ++ members) a ↔
      key a ∉ before.map key ∧ Unhidden key rank members a := by
  constructor
  · intro hfree
    refine ⟨fun hkey => ?_, fun other hother => hfree other (List.mem_append_right before hother)⟩
    obtain ⟨other, hother, hsame⟩ := List.mem_map.1 hkey
    exact hfree other (List.mem_append_left members hother) (h other hother) hsame
  · rintro ⟨hkey, hfree⟩ other hother hlower
    rcases List.mem_append.1 hother with hother | hother
    · exact fun hsame => hkey (List.mem_map.2 ⟨other, hother, hsame⟩)
    · exact hfree other hother hlower

variable [DecidableEq ν]

/-- The members whose keys no member of a lower rank has, in order. -/
def winners (key : α → ν) (rank : α → Nat) (members : List α) : List α :=
  members.filter fun member => decide (Unhidden key rank members member)

theorem mem_winners_iff :
    a ∈ winners key rank members ↔ a ∈ members ∧ Unhidden key rank members a := by
  rw [winners, List.mem_filter, decide_eq_true_iff]

theorem mem_winners_of_same (ha : a ∈ winners key rank members) (hb : b ∈ members)
    (hrank : rank b = rank a) (hkey : key b = key a) : b ∈ winners key rank members := by
  rw [mem_winners_iff] at ha ⊢
  refine ⟨hb, fun other hother hlower => ?_⟩
  rw [hkey]
  exact ha.2 other hother (hrank ▸ hlower)

theorem rank_eq_of_mem_winners (ha : a ∈ winners key rank members)
    (hb : b ∈ winners key rank members) (hkey : key a = key b) : rank a = rank b := by
  obtain ⟨ha, hfreeA⟩ := mem_winners_iff.1 ha
  obtain ⟨hb, hfreeB⟩ := mem_winners_iff.1 hb
  rcases Nat.lt_trichotomy (rank a) (rank b) with hlt | heq | hgt
  · exact absurd hkey (hfreeB a ha hlt)
  · exact heq
  · exact absurd hkey.symm (hfreeA b hb hgt)

/-- Every key has a winner. -/
theorem exists_winner (key : α → ν) (rank : α → Nat) (ha : a ∈ members) :
    ∃ winner ∈ winners key rank members, rank winner ≤ rank a ∧ key winner = key a := by
  induction hrank : rank a using Nat.strongRecOn generalizing a with
  | ind number ih =>
      subst hrank
      by_cases hfree : Unhidden key rank members a
      · exact ⟨a, mem_winners_iff.2 ⟨ha, hfree⟩, Nat.le_refl _, rfl⟩
      · -- Some member of a lower rank has the key: go on from there.
        simp only [Unhidden, Classical.not_forall, Classical.not_not, exists_prop] at hfree
        obtain ⟨other, hother, hlower, hkey⟩ := hfree
        obtain ⟨winner, hwinner, hle, hsame⟩ := ih (rank other) hlower hother rfl
        exact ⟨winner, hwinner, by omega, hsame.trans hkey⟩

/-- Members that are changed win as they did before, if they keep their ranks and share their keys as
before. -/
theorem winners_map {β μ : Type} [DecidableEq μ] {change : β → α} {key' : β → μ} {rank' : β → Nat}
    {members : List β} (hrank : ∀ b, rank (change b) = rank' b)
    (hkey : ∀ a ∈ members, ∀ b ∈ members, key (change a) = key (change b) ↔ key' a = key' b) :
    winners key rank (members.map change) = (winners key' rank' members).map change := by
  rw [winners, winners, List.filter_map]
  congr 1
  apply List.filter_congr
  intro member hmember
  apply decide_eq_decide.2
  simp only [Unhidden, List.forall_mem_map, hrank]
  apply forall₂_congr
  intro other hother
  rw [ne_eq, ne_eq, hkey other hother member hmember]

/-- With keys taken beforehand, a listing of levels numbered from `first` leaves the members whose
keys are neither taken nor those of a more derived level. -/
theorem mostDerivedFrom_eq_filter (key : α → ν) (rank : α → Nat) (first : Nat) (taken : List ν)
    (levels : List (List α))
    (hrank : ∀ number level, levels[number]? = some level → ∀ member ∈ level,
      rank member = first + number) :
    mostDerivedFrom key taken levels = levels.flatten.filter fun member =>
      decide (key member ∉ taken ∧ Unhidden key rank levels.flatten member) := by
  induction levels generalizing first taken with
  | nil => rfl
  | cons level rest ih =>
      have hlevel : ∀ member ∈ level, rank member = first := hrank 0 level rfl
      have hrest : ∀ member ∈ rest.flatten, first < rank member := by
        intro member hmember
        obtain ⟨later, hlater, hmember⟩ := List.mem_flatten.1 hmember
        obtain ⟨number, hnumber⟩ := List.mem_iff_getElem?.1 hlater
        rw [hrank (number + 1) later hnumber member hmember]
        omega
      have hnext : ∀ number later, rest[number]? = some later → ∀ member ∈ later,
          rank member = first + 1 + number := by
        intro number later hlater member hmember
        rw [hrank (number + 1) later hlater member hmember]
        omega
      rw [mostDerivedFrom_cons, ih (first + 1) _ hnext, List.flatten_cons, List.filter_append]
      congr 1
      · apply List.filter_congr
        intro member hmember
        have hfree : Unhidden key rank (level ++ rest.flatten) member := by
          apply unhidden_of_lowest
          intro other hother
          rw [hlevel member hmember]
          rcases List.mem_append.1 hother with hother | hother
          · exact Nat.le_of_eq (hlevel other hother).symm
          · exact Nat.le_of_lt (hrest other hother)
        simp [hfree]
      · -- Behind the first level its keys count as taken.
        apply List.filter_congr
        intro member hmember
        have hlower : ∀ other ∈ level, rank other < rank member := by
          intro other hother
          rw [hlevel other hother]
          exact hrest member hmember
        apply decide_eq_decide.2
        rw [unhidden_append_iff hlower, List.mem_append, not_or, and_assoc]

/-- A listing leaves the winners among the members of all levels, ranked by their levels. -/
theorem mostDerived_eq_winners (key : α → ν) (rank : α → Nat) (levels : List (List α))
    (hrank : ∀ number level, levels[number]? = some level → ∀ member ∈ level,
      rank member = number) :
    mostDerived key levels = winners key rank levels.flatten := by
  have hfrom : ∀ number level, levels[number]? = some level → ∀ member ∈ level,
      rank member = 0 + number := by
    intro number level hlevel member hmember
    rw [hrank number level hlevel member hmember, Nat.zero_add]
  rw [mostDerived, mostDerivedFrom_eq_filter key rank 0 [] levels hfrom, winners]
  apply List.filter_congr
  intro member _
  simp

end Rule

/-! ## Candidates of a listing -/

/-- The method can be listed from the level of a number: it is public, it is no constructor, and it is
not static where it is inherited. -/
def MethodDecl.EligibleAt (decl : MethodDecl) (number : Nat) : Prop :=
  decl.isPublic = true ∧ decl.name ∉ [".ctor", ".cctor"] ∧ (number = 0 ∨ decl.isStatic = false)

instance (decl : MethodDecl) (number : Nat) : Decidable (decl.EligibleAt number) :=
  inferInstanceAs (Decidable (_ ∧ _ ∧ (_ ∨ _)))

/-- A method can be listed from a level exactly when it can be listed by the origin that the number of
the level stands for. -/
theorem MethodDecl.isEligible_ofLevel_iff {decl : MethodDecl} {number : Nat} :
    decl.isEligible (.ofLevel number) = true ↔ decl.EligibleAt number := by
  cases number with
  | zero => simp [isEligible, EligibleAt, isConstructor, Origin.ofLevel]
  | succ number => simp [isEligible, EligibleAt, isConstructor, Origin.ofLevel, and_assoc]

/-- A method that a listing can draw on: the level that declares it, the number of the level, and its
position there. -/
structure Candidate where
  level : Nat
  position : Nat
  owner : Level
  decl : MethodDecl

/-- The methods of a level that can be listed, in order. -/
def Level.candidates (number : Nat) (level : Level) : List Candidate :=
  (level.methods.zipIdx.filter fun entry => decide (entry.1.EligibleAt number)).map fun entry =>
    ⟨number, entry.2, level, entry.1⟩

/-- The methods of a chain that can be listed, in the order of levels and declarations. -/
def candidates (levels : List Level) : List Candidate := (levels.mapIdx Level.candidates).flatten

namespace Candidate

variable {κ : Type}

/-- The scope in which the signatures of a candidate are read. -/
def scope (resolve : Token → Option (Handle κ)) (candidate : Candidate) : Scope κ :=
  candidate.owner.methodScope resolve candidate.decl

/-- Where a candidate is declared. -/
def place (candidate : Candidate) : Nat × Nat := (candidate.level, candidate.position)

/-- The method of a candidate, together with its declaration. -/
def read (resolve : Token → Option (Handle κ)) (candidate : Candidate) :
    Except Fault (Sourced κ) :=
  (candidate.decl.read (candidate.scope resolve)).map fun method =>
    ⟨candidate.level, candidate.position, candidate.decl, method⟩

end Candidate

variable {κ ν : Type}

/-- A level with declarations consists of its candidates as they are read. -/
theorem sourcedMethods_eq_mapM (resolve : Token → Option (Handle κ)) (number : Nat)
    (level : Level) :
    level.sourcedMethods resolve number = (level.candidates number).mapM (·.read resolve) := by
  have hfilter : (fun entry : MethodDecl × Nat => entry.1.isEligible (.ofLevel number))
      = fun entry => decide (entry.1.EligibleAt number) := by
    funext entry
    rw [Bool.eq_iff_iff, MethodDecl.isEligible_ofLevel_iff, decide_eq_true_iff]
  rw [Level.sourcedMethods, Level.candidates, hfilter, List.mapM_map]
  rfl

/-- The levels of a chain are read like one list of candidates. -/
theorem mapM_sourcedMethods (resolve : Token → Option (Handle κ)) (levels : List Level) :
    ((levels.mapIdx (Level.sourcedMethods resolve)).mapM id).map List.flatten
      = (candidates levels).mapM (·.read resolve) := by
  have hlevels : levels.mapIdx (Level.sourcedMethods resolve)
      = (levels.mapIdx Level.candidates).map (List.mapM (Candidate.read resolve)) := by
    rw [map_mapIdx]
    congr 1
    funext number level
    exact sourcedMethods_eq_mapM resolve number level
  rw [hlevels, List.mapM_map, candidates]
  exact mapM_flatten _ _

section Sources

variable {resolve : Token → Option (Handle κ)} {levels : List Level} {sources : List (Sourced κ)}
  (hsources : (candidates levels).mapM (Candidate.read resolve) = .ok sources)

include hsources

/-- The candidates of a chain are read as its sources. -/
theorem mem_sources_iff {source : Sourced κ} :
    source ∈ sources ↔ IsSource resolve levels source := by
  rw [← mapM_sourcedMethods] at hsources
  obtain ⟨eligible, heligible, rfl⟩ := map_eq_ok_iff.1 hsources
  rw [List.mem_flatten]
  constructor
  · rintro ⟨offered, hoffered, hsource⟩
    obtain ⟨number, hnumber⟩ := List.mem_iff_getElem?.1 hoffered
    exact ((mem_eligible_iff heligible hnumber source).1 hsource).1
  · intro hsource
    obtain ⟨offered, hoffered, hmem⟩ := exists_sources_of_isSource heligible hsource
    exact ⟨offered, List.mem_of_getElem? hoffered, hmem⟩

/-- A source has the place of its candidate. -/
theorem map_place_sources : sources.map Sourced.place = (candidates levels).map Candidate.place := by
  have hplaces := forall₂_of_mapM_eq_ok hsources
  clear hsources
  generalize candidates levels = list at hplaces ⊢
  induction hplaces with
  | nil => rfl
  | cons hread _ ih =>
      obtain ⟨method, -, rfl⟩ := map_eq_ok_iff.1 hread
      rw [List.map_cons, List.map_cons, ih]
      rfl

end Sources

/-- The key of a method with its declaration. -/
def Sourced.key (spell : MemberType κ → ν) (source : Sourced κ) : MethodKey ν :=
  methodKey spell source.method

section Listing

variable [DecidableEq ν] (spell : MemberType κ → ν) (resolve : Token → Option (Handle κ))
  (levels : List Level)

/-- A listing with declarations leaves the winners among all candidates as they are read. -/
theorem listSourced_eq_map_winners :
    listSourced spell resolve levels = ((candidates levels).mapM (Candidate.read resolve)).map
      (winners (Sourced.key spell) Sourced.level) := by
  rw [← mapM_sourcedMethods, listSourced]
  cases heligible : (levels.mapIdx (Level.sourcedMethods resolve)).mapM id with
  | error fault => rfl
  | ok eligible =>
      have hrank : ∀ number (sources : List (Sourced κ)), eligible[number]? = some sources →
          ∀ source ∈ sources, source.level = number := by
        intro number sources hsources source hsource
        exact ((mem_eligible_iff heligible hsources source).1 hsource).2
      exact congrArg Except.ok (mostDerived_eq_winners _ Sourced.level eligible hrank)

/-- A listing fails with the fault of the first candidate that fails. -/
theorem fault?_listMethods :
    fault? (listMethods spell resolve levels)
      = (candidates levels).findSome? fun candidate => fault? (candidate.read resolve) := by
  rw [listMethods_eq_map_listSourced, fault?_map, listSourced_eq_map_winners, fault?_map,
    fault?_mapM]

end Listing

/-! ## Candidates that cannot be read -/

namespace Candidate

variable {resolve : Token → Option (Handle κ)} {candidate : Candidate} {fault : Fault}

/-- All signatures of a candidate can be read. -/
def IsRead (resolve : Token → Option (Handle κ)) (candidate : Candidate) : Prop :=
  ∀ signature ∈ candidate.decl.signatures, ∃ type,
    (candidate.scope resolve).interpret signature = .ok type

/-- The fault is that of the first signature of a candidate that cannot be read: of its result, or
else of its parameters from left to right. -/
def FailsWith (resolve : Token → Option (Handle κ)) (fault : Fault) (candidate : Candidate) : Prop :=
  ∃ before signature after, candidate.decl.signatures = before ++ signature :: after ∧
    (candidate.scope resolve).interpret signature = .error fault ∧
    ∀ earlier ∈ before, ∃ type, (candidate.scope resolve).interpret earlier = .ok type

theorem fault?_read (resolve : Token → Option (Handle κ)) (candidate : Candidate) :
    fault? (candidate.read resolve) = candidate.decl.signatures.findSome? fun signature =>
      fault? ((candidate.scope resolve).interpret signature) := by
  rw [read, fault?_map, MethodDecl.fault?_read]

theorem fault?_read_eq_none_iff :
    fault? (candidate.read resolve) = none ↔ candidate.IsRead resolve := by
  rw [fault?_read, List.findSome?_eq_none_iff]
  simp only [fault?_eq_none_iff, IsRead]

theorem isRead_iff :
    candidate.IsRead resolve ↔ ∃ source, candidate.read resolve = .ok source := by
  rw [← fault?_read_eq_none_iff, fault?_eq_none_iff]

theorem fault?_read_eq_some_iff :
    fault? (candidate.read resolve) = some fault ↔ candidate.FailsWith resolve fault := by
  rw [fault?_read, List.findSome?_eq_some_iff]
  simp only [fault?_eq_none_iff, fault?_eq_some_iff, FailsWith]

theorem level_of_read {source : Sourced κ} (h : candidate.read resolve = .ok source) :
    source.level = candidate.level := by
  obtain ⟨method, -, rfl⟩ := map_eq_ok_iff.1 h
  rfl

end Candidate

/-- Of candidates that cannot all be read there is a first one, with the fault of its first signature
that cannot be read. -/
theorem exists_first_failing {resolve : Token → Option (Handle κ)} {levels : List Level}
    (hnot : ¬∀ candidate ∈ candidates levels, candidate.IsRead resolve) :
    ∃ before candidate after fault, candidates levels = before ++ candidate :: after ∧
      (∀ earlier ∈ before, earlier.IsRead resolve) ∧ candidate.FailsWith resolve fault := by
  cases hfirst : (candidates levels).findSome? fun candidate => fault? (candidate.read resolve) with
  | none =>
      rw [List.findSome?_eq_none_iff] at hfirst
      exact absurd
        (fun candidate hmem => Candidate.fault?_read_eq_none_iff.1 (hfirst candidate hmem)) hnot
  | some fault =>
      obtain ⟨before, candidate, after, hcandidates, hcandidate, hbefore⟩ :=
        List.findSome?_eq_some_iff.1 hfirst
      exact ⟨before, candidate, after, fault, hcandidates,
        fun earlier hearlier => Candidate.fault?_read_eq_none_iff.1 (hbefore earlier hearlier),
        Candidate.fault?_read_eq_some_iff.1 hcandidate⟩

namespace DrawnLevels

/-- A level that declares methods. -/
def level (methods : List MethodDecl) : Level := ⟨[], [], [], methods⟩

/-- No token is known. -/
def resolve (_ : Token) : Option (Handle Nat) := none

/-- The spelling of a type, with no definitions to look into. -/
def spell : MemberType Nat → Option String := Graph.spelling? ⟨#[]⟩

end DrawnLevels

end TypeSurface.Metadata
