import TypeSurface.Naming.TypeRef
import TypeSurface.Proofs.SmallLetters

/-!
# Accents in names

Where the accent of an arity mark can come from and where it goes. No step of naming makes an
accent: a package holds one only if its namespace does (`holdsAccent_of_packagePath`), and aliases
hold none. Flattening removes the accent of a name that ends in an arity mark, and
`holdsAccent_flattenArity_iff` says which names keep it: those with decorations behind their mark.
-/

set_option autoImplicit false

namespace TypeSurface

namespace Naming

/-- The text holds an accent. -/
def HoldsAccent (text : String) : Prop := arityMark ∈ text.toList

instance (text : String) : Decidable (HoldsAccent text) :=
  inferInstanceAs (Decidable (arityMark ∈ text.toList))

@[simp] theorem holdsAccent_append {first second : String} :
    HoldsAccent (first ++ second) ↔ HoldsAccent first ∨ HoldsAccent second := by
  simp [HoldsAccent]

/-- A package holds an accent only if its namespace does. -/
theorem holdsAccent_of_packagePath {ns : String} (h : HoldsAccent (packagePath ns)) :
    HoldsAccent ns := by
  unfold packagePath at h
  split at h
  · exact absurd h (by decide)
  · simp only [holdsAccent_append] at h
    rcases h with (hroot | hdot) | hns
    · exact absurd hroot (by decide)
    · exact absurd hdot (by decide)
    · -- An accent has no case, so lowercasing a namespace makes none.
      rw [HoldsAccent, Text.toList_lowercase, Text.mem_lowercaseChars_iff (by decide)] at hns
      exact hns

/-! ## Names with and without marks -/

/-- A name as the runtime gives it to a type: without accents, or a base without accents and an
arity mark. -/
def IsTypeName (name : String) : Prop :=
  ¬HoldsAccent name ∨ ∃ base digits,
    name.toList = base ++ arityMark :: digits ∧ arityMark ∉ base ∧ isArity digits = true

/-- The characters that decorate the names of managed references, pointers and arrays. -/
def decorations : List Char := ['&', '*', '[', ']']

/-- Decorations and nothing else. -/
def AreDecorations (suffix : List Char) : Prop := ∀ c ∈ suffix, c ∈ decorations

theorem areDecorations_of_all {suffix : List Char} (h : suffix.all decorations.contains = true) :
    AreDecorations suffix := by
  intro c hc
  exact List.contains_iff_mem.1 (List.all_eq_true.1 h c hc)

/-- A type name with decorations behind it. -/
def IsDecorated (name : String) : Prop :=
  ∃ stem suffix : String, IsTypeName stem ∧ AreDecorations suffix.toList ∧ name = stem ++ suffix

/-- Decorations stand behind the arity mark of the name. -/
def BuriesMark (name : String) : Prop :=
  ∃ base digits suffix, name.toList = base ++ arityMark :: (digits ++ suffix) ∧
    isArity digits = true ∧ suffix ≠ [] ∧ AreDecorations suffix

theorem IsTypeName.isDecorated {name : String} (h : IsTypeName name) : IsDecorated name :=
  ⟨name, "", h, areDecorations_of_all (by decide), by simp⟩

theorem isDecorated_of_not_holdsAccent {name : String} (h : ¬HoldsAccent name) : IsDecorated name :=
  IsTypeName.isDecorated (Or.inl h)

theorem IsDecorated.append {name suffix : String} (h : IsDecorated name)
    (hsuffix : AreDecorations suffix.toList) : IsDecorated (name ++ suffix) := by
  obtain ⟨stem, before, hstem, hbefore, rfl⟩ := h
  refine ⟨stem, before ++ suffix, hstem, fun c hc => ?_, String.append_assoc⟩
  rw [String.toList_append, List.mem_append] at hc
  exact hc.elim (hbefore c) (hsuffix c)

theorem arityMark_not_mem_of_decorations {suffix : List Char} (h : AreDecorations suffix) :
    arityMark ∉ suffix :=
  fun hmem => absurd (h arityMark hmem) (by decide)

theorem isArity_append_decorations {digits suffix : List Char} (hne : suffix ≠ [])
    (h : AreDecorations suffix) : isArity (digits ++ suffix) = false := by
  obtain ⟨c, rest, rfl⟩ := List.exists_cons_of_ne_nil hne
  have hdigits : decorations.all (!·.isDigit) = true := by decide
  have hc : c.isDigit = false := by
    simpa using List.all_eq_true.1 hdigits c (h c List.mem_cons_self)
  simp [isArity, hc]

/-- A name with a buried mark is not flattened. -/
theorem BuriesMark.flattenArity_eq {name : String} (h : BuriesMark name) :
    flattenArity name = name := by
  obtain ⟨base, digits, suffix, hname, hdigits, hne, hsuffix⟩ := h
  -- The accent of the mark is the last one of the name, and what follows it is no arity.
  have hfree : arityMark ∉ digits ++ suffix := by
    rw [List.mem_append, not_or]
    exact ⟨arityMark_not_mem_of_isArity hdigits, arityMark_not_mem_of_decorations hsuffix⟩
  rw [flattenArity, flattenArityChars, hname, Text.splitLast_append base hfree]
  simp only [isArity_append_decorations hne hsuffix, Bool.false_eq_true, if_false]
  rw [← hname, String.ofList_toList]

theorem BuriesMark.holdsAccent {name : String} (h : BuriesMark name) : HoldsAccent name := by
  obtain ⟨base, digits, suffix, hname, -, -, -⟩ := h
  rw [HoldsAccent, hname]
  exact List.mem_append_right base List.mem_cons_self

/-- A type name has no accent when it is flattened. -/
theorem IsTypeName.not_holdsAccent_flattenArity {name : String} (h : IsTypeName name) :
    ¬HoldsAccent (flattenArity name) := by
  rw [HoldsAccent, toList_flattenArity]
  rcases h with hplain | ⟨base, digits, hname, hbase, hdigits⟩
  · have hunmarked : ¬HasArityMark name.toList := by
      rintro ⟨base, digits, hname, -⟩
      exact hplain (by rw [HoldsAccent, hname]; exact List.mem_append_right base List.mem_cons_self)
    rw [flattenArityChars_unmarked hunmarked]
    exact hplain
  · rw [hname, flattenArityChars_marked base hdigits, List.mem_append, List.mem_cons, not_or,
      not_or]
    exact ⟨hbase, by decide, arityMark_not_mem_of_isArity hdigits⟩

theorem IsTypeName.buriesMark_append {stem suffix : String} (hstem : IsTypeName stem)
    (haccent : HoldsAccent stem) (hne : suffix ≠ "") (hsuffix : AreDecorations suffix.toList) :
    BuriesMark (stem ++ suffix) := by
  rcases hstem with hplain | ⟨base, digits, hstem, -, hdigits⟩
  · exact absurd haccent hplain
  · refine ⟨base, digits, suffix.toList, ?_, hdigits, by simpa using hne, hsuffix⟩
    rw [String.toList_append, hstem, List.append_assoc, List.cons_append]

/-- A flattened name keeps an accent exactly when its mark is buried. -/
theorem holdsAccent_flattenArity_iff {name : String} (h : IsDecorated name) :
    HoldsAccent (flattenArity name) ↔ BuriesMark name := by
  constructor
  · intro haccent
    obtain ⟨stem, suffix, hstem, hsuffix, rfl⟩ := h
    by_cases hempty : suffix = ""
    · rw [hempty, String.append_empty] at haccent
      exact absurd haccent hstem.not_holdsAccent_flattenArity
    · by_cases hmark : HoldsAccent stem
      · exact hstem.buriesMark_append hmark hempty hsuffix
      · have hname : ¬HoldsAccent (stem ++ suffix) := by
          rw [holdsAccent_append, not_or]
          exact ⟨hmark, arityMark_not_mem_of_decorations hsuffix⟩
        exact absurd haccent (IsTypeName.not_holdsAccent_flattenArity (Or.inl hname))
  · intro hburied
    rw [hburied.flattenArity_eq]
    exact hburied.holdsAccent

end Naming

open Naming

/-! ## Identities -/

namespace TypeId

/-- The namespace holds no accent, and the name at most that of an arity mark. -/
structure WellNamed (id : TypeId) : Prop where
  ns : ¬HoldsAccent id.nsText
  name : IsDecorated id.name

theorem WellNamed.suffixed {id : TypeId} (h : id.WellNamed) {suffix : String}
    (hsuffix : AreDecorations suffix.toList) : (id.suffixed suffix).WellNamed :=
  ⟨h.ns, h.name.append hsuffix⟩

end TypeId

/-! ## Spellings -/

theorem Alias.not_holdsAccent (short : Alias) :
    ¬HoldsAccent short.runtimeName ∧ ¬HoldsAccent short.text := by
  cases short <;> decide

namespace TypeRef

/-- Texts between separators hold an accent when one of them does. -/
theorem holdsAccent_intercalate_iff {separator : String} (hseparator : ¬HoldsAccent separator)
    (texts : List String) :
    HoldsAccent (String.intercalate separator texts) ↔ ∃ text ∈ texts, HoldsAccent text := by
  induction texts with
  | nil => simp [HoldsAccent]
  | cons first rest ih =>
      cases rest with
      | nil => simp
      | cons second rest =>
          rw [String.intercalate_cons_cons, holdsAccent_append, holdsAccent_append, ih]
          simp [hseparator]

/-- A list of arguments holds an accent when one of them does. -/
theorem holdsAccent_argumentList_iff (arguments : List String) :
    HoldsAccent (argumentList arguments) ↔ ∃ argument ∈ arguments, HoldsAccent argument := by
  cases arguments with
  | nil => simp [argumentList, HoldsAccent]
  | cons first rest =>
      have hopening : ¬HoldsAccent "<" := by decide
      have hclosing : ¬HoldsAccent ">" := by decide
      rw [argumentList, holdsAccent_append, holdsAccent_append,
        holdsAccent_intercalate_iff (by decide)]
      · simp only [hopening, hclosing, false_or, or_false]
      · exact List.cons_ne_nil first rest

/-- In the text of a named type an accent is part of its flattened name or of an argument. -/
theorem holdsAccent_qualified_iff {id : TypeId} (hns : ¬HoldsAccent id.nsText)
    (arguments : List String) :
    HoldsAccent (qualified id arguments) ↔
      HoldsAccent (flattenArity id.name) ∨ ∃ argument ∈ arguments, HoldsAccent argument := by
  have hpackage : ¬HoldsAccent (packagePath id.nsText) :=
    fun h => hns (holdsAccent_of_packagePath h)
  have hdot : ¬HoldsAccent "." := by decide
  rw [qualified, holdsAccent_append, holdsAccent_append, holdsAccent_append,
    holdsAccent_argumentList_iff]
  simp only [hpackage, hdot, false_or]

theorem holdsAccent_spelling_array (element : TypeRef) :
    HoldsAccent (array element).spelling ↔ HoldsAccent element.spelling := by
  have hopening : ¬HoldsAccent "Array<" := by decide
  have hclosing : ¬HoldsAccent ">" := by decide
  simp only [spelling, holdsAccent_append, hopening, hclosing, false_or, or_false]

theorem not_holdsAccent_spelling_of_alias {id : TypeId} (h : (Alias.ofId? id).isSome = true)
    (arguments : List TypeRef) : ¬HoldsAccent (named id arguments).spelling := by
  obtain ⟨short, hshort⟩ := Option.isSome_iff_exists.1 h
  simp only [spelling, hshort]
  exact short.not_holdsAccent.2

/-- In the text of a type without an alias an accent is part of its flattened name or of an
argument. -/
theorem holdsAccent_spelling_named_iff {id : TypeId} (hns : ¬HoldsAccent id.nsText)
    (h : Alias.ofId? id = none) (arguments : List TypeRef) :
    HoldsAccent (named id arguments).spelling ↔
      HoldsAccent (flattenArity id.name) ∨
        ∃ argument ∈ arguments, HoldsAccent argument.spelling := by
  simp only [spelling, h]
  rw [holdsAccent_qualified_iff hns, spellings_eq_map]
  refine or_congr_right ⟨?_, ?_⟩
  · rintro ⟨text, htext, haccent⟩
    obtain ⟨argument, hargument, rfl⟩ := List.mem_map.1 htext
    exact ⟨argument, hargument, haccent⟩
  · rintro ⟨argument, hargument, haccent⟩
    exact ⟨argument.spelling, List.mem_map_of_mem hargument, haccent⟩

end TypeRef

end TypeSurface
