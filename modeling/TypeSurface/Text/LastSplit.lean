/-!
# Splitting at the last occurrence

Cuts a text at the last occurrence of a character. `splitLast_eq_some_iff` says that the cut is the
only one whose second part is free of the character, and `splitLast_eq_none_iff` that it exists
exactly when the character occurs.
-/

set_option autoImplicit false

namespace TypeSurface.Text

/-- The parts before and after the last occurrence of a character. -/
def splitLast (mark : Char) : List Char → Option (List Char × List Char)
  | [] => none
  | c :: rest =>
      match splitLast mark rest with
      | some (before, after) => some (c :: before, after)
      | none => if c = mark then some ([], rest) else none

theorem splitLast_of_not_mem {mark : Char} {cs : List Char} (h : mark ∉ cs) :
    splitLast mark cs = none := by
  induction cs with
  | nil => rfl
  | cons c rest ih =>
      simp only [List.mem_cons, not_or] at h
      simp [splitLast, ih h.2, Ne.symm h.1]

theorem splitLast_append {mark : Char} (before : List Char) {after : List Char}
    (h : mark ∉ after) : splitLast mark (before ++ mark :: after) = some (before, after) := by
  induction before with
  | nil => simp [splitLast, splitLast_of_not_mem h]
  | cons c before ih => simp [splitLast, ih]

/-- A character that occurs has a last occurrence. -/
theorem exists_last_occurrence {mark : Char} {cs : List Char} (h : mark ∈ cs) :
    ∃ before after, cs = before ++ mark :: after ∧ mark ∉ after := by
  induction cs with
  | nil => simp at h
  | cons c rest ih =>
      by_cases hrest : mark ∈ rest
      · obtain ⟨before, after, rfl, hfree⟩ := ih hrest
        exact ⟨c :: before, after, rfl, hfree⟩
      · have hc : mark = c := by simpa [hrest] using h
        exact ⟨[], rest, by simp [hc], hrest⟩

/-- There is nothing to cut at exactly when the character does not occur. -/
theorem splitLast_eq_none_iff {mark : Char} {cs : List Char} :
    splitLast mark cs = none ↔ mark ∉ cs := by
  refine ⟨fun h hmem => ?_, splitLast_of_not_mem⟩
  obtain ⟨before, after, rfl, hfree⟩ := exists_last_occurrence hmem
  simp [splitLast_append before hfree] at h

/-- The cut gives the text back, and its second part is free of the character; no other cut does. -/
theorem splitLast_eq_some_iff {mark : Char} {cs before after : List Char} :
    splitLast mark cs = some (before, after) ↔ cs = before ++ mark :: after ∧ mark ∉ after := by
  constructor
  · intro h
    by_cases hmem : mark ∈ cs
    · obtain ⟨b, a, rfl, hfree⟩ := exists_last_occurrence hmem
      rw [splitLast_append b hfree] at h
      simp only [Option.some.injEq, Prod.mk.injEq] at h
      exact ⟨by rw [h.1, h.2], h.2 ▸ hfree⟩
    · simp [splitLast_of_not_mem hmem] at h
  · rintro ⟨rfl, hfree⟩
    exact splitLast_append before hfree

end TypeSurface.Text
