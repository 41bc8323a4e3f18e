import TypeSurface.Metadata.Hiding

/-!
# Who hides whom

A member is listed when no more derived level has its key (`mem_mostDerivedFrom_iff`), and a key
that occurs anywhere is listed from the most derived level that has it (`exists_listed_of_key`).
Keys that are taken beforehand only thin out a listing (`mostDerivedFrom_append`).
-/

set_option autoImplicit false

namespace TypeSurface.Metadata

variable {α β ν : Type} [BEq ν] [LawfulBEq ν]

/-- Keys taken beforehand leave out the members that have them and change nothing else. -/
theorem mostDerivedFrom_append (key : α → ν) (new taken : List ν) (levels : List (List α)) :
    mostDerivedFrom key (new ++ taken) levels
      = (mostDerivedFrom key taken levels).filter fun member => !new.contains (key member) := by
  induction levels generalizing taken with
  | nil => rfl
  | cons level rest ih =>
      have hlevel : (level.filter fun member => !(new ++ taken).contains (key member))
          = (level.filter fun member => !taken.contains (key member)).filter
              fun member => !new.contains (key member) := by
        rw [List.filter_filter]
        apply List.filter_congr
        intro member _
        simp
      -- The level takes its keys on top of `taken` in both listings, so the induction goes on
      -- with more keys taken.
      rw [mostDerivedFrom_cons, mostDerivedFrom_cons, List.filter_append, hlevel,
        List.append_assoc, ih]

/-- Members that are changed after the listing hide as they did before. -/
theorem mostDerivedFrom_map (change : α → β) (key : β → ν) (taken : List ν)
    (levels : List (List α)) :
    mostDerivedFrom key taken (levels.map (List.map change))
      = (mostDerivedFrom (fun member => key (change member)) taken levels).map change := by
  induction levels generalizing taken with
  | nil => rfl
  | cons level rest ih =>
      rw [List.map_cons, mostDerivedFrom_cons, mostDerivedFrom_cons, List.map_append, ih,
        List.filter_map, List.map_map]
      rfl

/-- A member is listed when its key is not taken and no more derived level has it. -/
theorem mem_mostDerivedFrom_iff {key : α → ν} {taken : List ν} {levels : List (List α)}
    {member : α} :
    member ∈ mostDerivedFrom key taken levels ↔
      key member ∉ taken ∧ ∃ number level, levels[number]? = some level ∧ member ∈ level ∧
        ∀ other ∈ levels.take number, key member ∉ other.map key := by
  induction levels generalizing taken with
  | nil => simp [mostDerivedFrom]
  | cons first rest ih =>
      -- A member of the first level stands at number zero, any other one number further on.
      rw [mostDerivedFrom_cons, List.mem_append, ih, List.mem_append, not_or]
      constructor
      · rintro (hfirst | ⟨⟨htaken, hkey⟩, number, level, hlevel, hmember, hfree⟩)
        · rw [List.mem_filter] at hfirst
          exact ⟨by simpa using hfirst.2, 0, first, rfl, hfirst.1, by simp⟩
        · refine ⟨htaken, number + 1, level, hlevel, hmember, ?_⟩
          rw [List.take_succ_cons]
          exact List.forall_mem_cons.2 ⟨hkey, hfree⟩
      · rintro ⟨htaken, number, level, hlevel, hmember, hfree⟩
        cases number with
        | zero =>
            obtain rfl : first = level := Option.some.inj hlevel
            exact Or.inl (List.mem_filter.2 ⟨hmember, by simpa using htaken⟩)
        | succ number =>
            rw [List.take_succ_cons] at hfree
            obtain ⟨hkey, hrest⟩ := List.forall_mem_cons.1 hfree
            exact Or.inr ⟨⟨htaken, hkey⟩, number, level, hlevel, hmember, hrest⟩

theorem mem_mostDerived_iff {key : α → ν} {levels : List (List α)} {member : α} :
    member ∈ mostDerived key levels ↔
      ∃ number level, levels[number]? = some level ∧ member ∈ level ∧
        ∀ other ∈ levels.take number, key member ∉ other.map key := by
  rw [mostDerived, mem_mostDerivedFrom_iff]
  simp

/-- A key that occurs in a level is listed, from that level or from a more derived one. -/
theorem exists_listed_of_key (key : α → ν) {levels : List (List α)} {number : Nat}
    {level : List α} {member : α} (hlevel : levels[number]? = some level)
    (hmember : member ∈ level) :
    ∃ found ∈ mostDerived key levels, key found = key member ∧
      ∃ earlier ≤ number, ∃ other, levels[earlier]? = some other ∧ found ∈ other := by
  induction number using Nat.strongRecOn generalizing level member with
  | ind number ih =>
      by_cases hfree : ∀ other ∈ levels.take number, key member ∉ other.map key
      · refine ⟨member, ?_, rfl, number, Nat.le_refl number, level, hlevel, hmember⟩
        exact mem_mostDerived_iff.2 ⟨number, level, hlevel, hmember, hfree⟩
      · -- Some more derived level has the key: go on from there.
        simp only [Classical.not_forall, Classical.not_not, exists_prop] at hfree
        obtain ⟨other, hother, hkey⟩ := hfree
        obtain ⟨earlier, hearlier, rfl⟩ := List.mem_take_iff_getElem.1 hother
        obtain ⟨hider, hhider, hsame⟩ := List.mem_map.1 hkey
        obtain ⟨found, hfound, hfoundKey, place, hplace, holder⟩ :=
          ih earlier (by omega) (List.getElem?_eq_getElem (by omega)) hhider
        exact ⟨found, hfound, hfoundKey.trans hsame, place, by omega, holder⟩

/-- A base level whose keys are those of its static and of its instance members hides more than its
instance members do: `inherited` is what the instance members let through. -/
theorem exists_inherited (key : α → ν) (own : List α) {base inst static : List α}
    (above : List (List α))
    (hbase : ∀ k, k ∈ base.map key ↔ k ∈ static.map key ∨ k ∈ inst.map key) :
    ∃ inherited,
      mostDerived key (inst :: above) = inst ++ inherited ∧
      mostDerived key (base :: above)
        = base ++ inherited.filter (fun member => !(static.map key).contains (key member)) ∧
      mostDerived key (own :: inst :: above)
        = own ++ (inst ++ inherited).filter fun member => !(own.map key).contains (key member) := by
  refine ⟨mostDerivedFrom key (inst.map key) above, mostDerived_cons key inst above, ?_, ?_⟩
  · have hkeys : ∀ k, k ∈ base.map key ↔ k ∈ static.map key ++ inst.map key := by
      intro k
      rw [hbase k, List.mem_append]
    rw [mostDerived_cons, mostDerivedFrom_congr hkeys, mostDerivedFrom_append]
  · rw [mostDerived_cons, ← mostDerived_cons key inst above, mostDerived,
      ← mostDerivedFrom_append, List.append_nil]

end TypeSurface.Metadata
