import TypeSurface.Naming.Arity

/-!
# Flattened names

Flattening touches one character of a name at most: the accent of an arity mark becomes an
underscore. So a flattened name ends in no arity mark (`not_hasArityMark_flattenArityChars`), and
every other character is in it exactly when it is in the name (`mem_flattenArityChars_iff`). To
flatten a flattened name does nothing, and two names are flattened alike only when one is what the
other is flattened to (`flattenArity_is_projection`).
-/

set_option autoImplicit false

namespace TypeSurface.Naming

theorem flattenArityChars_cases (name : List Char) :
    (∃ base digits, isArity digits = true ∧ name = base ++ arityMark :: digits ∧
      flattenArityChars name = base ++ '_' :: digits) ∨
    (¬HasArityMark name ∧ flattenArityChars name = name) := by
  by_cases h : HasArityMark name
  · obtain ⟨base, digits, rfl, hdigits⟩ := h
    exact Or.inl ⟨base, digits, hdigits, rfl, flattenArityChars_marked base hdigits⟩
  · exact Or.inr ⟨h, flattenArityChars_unmarked h⟩

theorem underscore_not_mem_of_isArity {digits : List Char} (h : isArity digits = true) :
    '_' ∉ digits := by
  intro hmem
  simp only [isArity, Bool.and_eq_true, List.all_eq_true] at h
  exact absurd (h.2 _ hmem) (by decide)

/-- Digits behind an underscore are no arity. -/
theorem not_hasArityMark_append_underscore (base : List Char) {digits : List Char}
    (h : isArity digits = true) : ¬HasArityMark (base ++ '_' :: digits) := by
  rintro ⟨base', digits', hname, hdigits'⟩
  -- The accent of a mark would stand behind the underscore, among the digits, or before it, and
  -- then the underscore would stand among the digits of the mark.
  rcases List.append_eq_append_iff.1 hname with ⟨between, -, htail⟩ | ⟨between, -, htail⟩
  · cases between with
    | nil => exact absurd (List.cons.inj htail).1 (by decide)
    | cons c between =>
        have hmem : arityMark ∈ digits := by
          rw [(List.cons.inj htail).2]
          exact List.mem_append_right between List.mem_cons_self
        exact arityMark_not_mem_of_isArity h hmem
  · cases between with
    | nil => exact absurd (List.cons.inj htail).1 (by decide)
    | cons c between =>
        have hmem : '_' ∈ digits' := by
          rw [(List.cons.inj htail).2]
          exact List.mem_append_right between List.mem_cons_self
        exact underscore_not_mem_of_isArity hdigits' hmem

/-- A flattened name ends in no arity mark. -/
theorem not_hasArityMark_flattenArityChars (name : List Char) :
    ¬HasArityMark (flattenArityChars name) := by
  rcases flattenArityChars_cases name with ⟨base, digits, hdigits, -, hflat⟩ | ⟨hplain, hflat⟩
  · rw [hflat]
    exact not_hasArityMark_append_underscore base hdigits
  · rw [hflat]
    exact hplain

/-- Flattening neither makes nor removes any other character than the accent and the underscore. -/
theorem mem_flattenArityChars_iff {c : Char} (hmark : c ≠ arityMark) (hunderscore : c ≠ '_')
    {name : List Char} : c ∈ flattenArityChars name ↔ c ∈ name := by
  rcases flattenArityChars_cases name with ⟨base, digits, -, rfl, hflat⟩ | ⟨-, hflat⟩
  · rw [hflat, List.mem_append, List.mem_append, List.mem_cons, List.mem_cons]
    simp only [hmark, hunderscore, false_or]
  · rw [hflat]

/-! ## Names that are flattened alike -/

/-- The first name is a base and an arity with an accent between them, and the second is the same base
and the same arity with an underscore between them. -/
def Flattens (marked flat : List Char) : Prop :=
  ∃ base digits, isArity digits = true ∧ marked = base ++ arityMark :: digits ∧
    flat = base ++ '_' :: digits

namespace Flattens

variable {marked other flat : List Char}

theorem flattenArityChars_eq (h : Flattens marked flat) :
    flattenArityChars marked = flat ∧ flattenArityChars flat = flat := by
  obtain ⟨base, digits, hdigits, rfl, rfl⟩ := h
  exact ⟨flattenArityChars_marked base hdigits,
    flattenArityChars_unmarked (not_hasArityMark_append_underscore base hdigits)⟩

/-- A flat form comes from one marked name. -/
theorem unique (h : Flattens marked flat) (hother : Flattens other flat) : marked = other := by
  obtain ⟨base, digits, hdigits, rfl, rfl⟩ := h
  obtain ⟨base', digits', hdigits', rfl, hflat⟩ := hother
  -- An arity holds no underscore, so both forms are cut at the same one, the last.
  have hcut := congrArg (Text.splitLast '_') hflat
  rw [Text.splitLast_append base (underscore_not_mem_of_isArity hdigits),
    Text.splitLast_append base' (underscore_not_mem_of_isArity hdigits'), Option.some.injEq,
    Prod.mk.injEq] at hcut
  rw [hcut.1, hcut.2]

end Flattens

theorem flattenArityChars_eq_self_iff {name : List Char} :
    flattenArityChars name = name ↔ ¬HasArityMark name := by
  refine ⟨fun h => ?_, flattenArityChars_unmarked⟩
  rw [← h]
  exact not_hasArityMark_flattenArityChars name

/-- Two names are flattened alike when they are the same, or when one of them is the flat form of the
other. -/
theorem flattenArityChars_eq_iff {name other : List Char} :
    flattenArityChars name = flattenArityChars other ↔
      name = other ∨ Flattens name other ∨ Flattens other name := by
  constructor
  · intro h
    have hname : Flattens name (flattenArityChars name) ∨ _ := flattenArityChars_cases name
    have hother : Flattens other (flattenArityChars other) ∨ _ := flattenArityChars_cases other
    rcases hname with hname | ⟨-, hname⟩ <;> rcases hother with hother | ⟨-, hother⟩
    · exact Or.inl (hname.unique (h ▸ hother))
    · exact Or.inr (Or.inl (hother ▸ h ▸ hname))
    · exact Or.inr (Or.inr (hname ▸ h ▸ hother))
    · exact Or.inl (hname.symm.trans (h.trans hother))
  · rintro (rfl | h | h)
    · rfl
    · exact h.flattenArityChars_eq.1.trans h.flattenArityChars_eq.2.symm
    · exact h.flattenArityChars_eq.2.trans h.flattenArityChars_eq.1.symm

theorem flattenArity_eq_flattenArity_iff {name other : String} :
    flattenArity name = flattenArity other ↔
      flattenArityChars name.toList = flattenArityChars other.toList := by
  rw [← String.toList_inj, toList_flattenArity, toList_flattenArity]

/-- To flatten a flattened name does nothing: no flattened name ends in an arity mark, and the names that
end in none are those that stay as they are. Two names are flattened alike exactly when they are the
same, or when one is a base and an arity with an accent between them and the other has an underscore
in the place of the accent. -/
theorem flattenArity_is_projection (name other : String) :
    flattenArity (flattenArity name) = flattenArity name ∧
    ¬HasArityMark (flattenArity name).toList ∧
    (flattenArity name = name ↔ ¬HasArityMark name.toList) ∧
    (flattenArity name = flattenArity other ↔
      name = other ∨ Flattens name.toList other.toList ∨ Flattens other.toList name.toList) := by
  have hflat : ¬HasArityMark (flattenArity name).toList := by
    rw [toList_flattenArity]
    exact not_hasArityMark_flattenArityChars name.toList
  have hself : ∀ name : String, flattenArity name = name ↔ ¬HasArityMark name.toList := by
    intro name
    rw [← flattenArityChars_eq_self_iff, ← String.toList_inj, toList_flattenArity]
  refine ⟨(hself _).2 hflat, hflat, hself name, ?_⟩
  rw [flattenArity_eq_flattenArity_iff, flattenArityChars_eq_iff, String.toList_inj]

/-- Of two arities only the last one is flattened, and the other no longer ends the name. -/
example : flattenArity "Outer\x601\x602" = "Outer\x601_2" := by decide +kernel

end TypeSurface.Naming
