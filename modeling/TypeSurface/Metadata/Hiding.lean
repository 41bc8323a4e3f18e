/-!
# Hiding

Of members that share a key, those of the most derived level win. A level is compared with the levels
before it only, so members of one level never hide each other. Only the keys of listed members are
remembered; `mostDerivedFrom_cons` says that remembering all keys of a level comes to the same.
-/

set_option autoImplicit false

namespace TypeSurface.Metadata

variable {α ν : Type} [BEq ν]

/-- Lists the members of each level whose keys are not taken, and takes the keys it lists. -/
def mostDerivedFrom (key : α → ν) (taken : List ν) : List (List α) → List α
  | [] => []
  | level :: rest =>
      let kept := level.filter fun member => !taken.contains (key member)
      kept ++ mostDerivedFrom key (taken ++ kept.map key) rest

/-- Lists the members of all levels, most derived first, without those that a more derived level
hides. -/
def mostDerived (key : α → ν) (levels : List (List α)) : List α := mostDerivedFrom key [] levels

/-- Of the keys taken only their presence counts, not their order or number. -/
theorem mostDerivedFrom_congr [LawfulBEq ν] {key : α → ν} {taken others : List ν}
    (h : ∀ k, k ∈ taken ↔ k ∈ others) (levels : List (List α)) :
    mostDerivedFrom key taken levels = mostDerivedFrom key others levels := by
  induction levels generalizing taken others with
  | nil => rfl
  | cons level rest ih =>
      have hkept : (level.filter fun member => !taken.contains (key member))
          = level.filter fun member => !others.contains (key member) := by
        apply List.filter_congr
        intro member _
        simp [h]
      simp only [mostDerivedFrom, hkept]
      rw [ih]
      intro k
      simp [h]

/-- A level takes the keys of all its members, also of those it does not list. -/
theorem mostDerivedFrom_cons [LawfulBEq ν] (key : α → ν) (taken : List ν) (level : List α)
    (rest : List (List α)) :
    mostDerivedFrom key taken (level :: rest)
      = (level.filter fun member => !taken.contains (key member))
        ++ mostDerivedFrom key (taken ++ level.map key) rest := by
  rw [mostDerivedFrom]
  refine congrArg _ (mostDerivedFrom_congr (fun k => ?_) rest)
  simp only [List.mem_append, List.mem_map, List.mem_filter]
  constructor
  · rintro (htaken | ⟨member, ⟨hmember, _⟩, rfl⟩)
    · exact Or.inl htaken
    · exact Or.inr ⟨member, hmember, rfl⟩
  · rintro (htaken | ⟨member, hmember, rfl⟩)
    · exact Or.inl htaken
    · by_cases h : key member ∈ taken
      · exact Or.inl h
      · exact Or.inr ⟨member, ⟨hmember, by simpa using h⟩, rfl⟩

theorem mostDerived_cons [LawfulBEq ν] (key : α → ν) (level : List α) (rest : List (List α)) :
    mostDerived key (level :: rest) = level ++ mostDerivedFrom key (level.map key) rest := by
  simp [mostDerived, mostDerivedFrom_cons]

end TypeSurface.Metadata
