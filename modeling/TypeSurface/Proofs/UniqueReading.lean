import TypeSurface.Naming.TypeRef
import TypeSurface.Proofs.FlattenedNames
import TypeSurface.Proofs.SmallLetters

/-!
# Unique reading of spellings

A spelling tells everything about a reference that the output dialect keeps: its normal form. Two
references whose names hold none of the separators are spelled alike exactly when their normal forms
are the same (`spelling_eq_iff_normalForm_eq`). Every normal form is written as a head without
brackets and a list of arguments in brackets, an array included, so what is proved by induction is
that a text can be read off the front of any rest that closes it (`text_append_inj`).
-/

set_option autoImplicit false

namespace TypeSurface

/-! ## Normal forms -/

/-- What the spelling of a reference tells: the namespace in small letters, empty for the global
one, and the flattened name of a type that has no alias. -/
inductive NormalForm where
  | parameter (name : String)
  | array (element : NormalForm)
  | aliased (short : Alias)
  | named (ns name : String) (arguments : List NormalForm)
deriving Repr

namespace TypeRef

mutual

/-- The normal form of a reference. -/
def normalForm : TypeRef → NormalForm
  | .parameter name => .parameter name
  | .array element => .array element.normalForm
  | .named id arguments =>
      match Alias.ofId? id with
      | some short => .aliased short
      | none =>
          .named (Text.lowercase id.nsText) (Naming.flattenArity id.name) (normalForms arguments)

/-- The normal forms of several references, in order. -/
def normalForms : List TypeRef → List NormalForm
  | [] => []
  | ref :: rest => ref.normalForm :: normalForms rest

end

theorem normalForms_eq_map (refs : List TypeRef) : normalForms refs = refs.map normalForm := by
  induction refs with
  | nil => rfl
  | cons ref rest ih => rw [normalForms, List.map_cons, ih]

end TypeRef

namespace NormalForm

/-- The package of a namespace that is given in small letters. -/
def package (ns : String) : String :=
  if ns = "" then Naming.rootPackage else Naming.rootPackage ++ "." ++ ns

mutual

/-- The text that stands for a normal form. -/
def text : NormalForm → String
  | .parameter name => name
  | .array element => "Array<" ++ element.text ++ ">"
  | .aliased short => short.text
  | .named ns name arguments =>
      package ns ++ "." ++ name ++ TypeRef.argumentList (texts arguments)

/-- The texts of several normal forms, in order. -/
def texts : List NormalForm → List String
  | [] => []
  | form :: rest => form.text :: texts rest

end

theorem texts_eq_map (forms : List NormalForm) : texts forms = forms.map text := by
  induction forms with
  | nil => rfl
  | cons form rest ih => rw [texts, List.map_cons, ih]

theorem package_lowercase (ns : String) : package (Text.lowercase ns) = Naming.packagePath ns := by
  unfold package Naming.packagePath
  simp only [Text.lowercase_eq_empty_iff]

end NormalForm

mutual

/-- The spelling of a reference is the text of its normal form. -/
theorem TypeRef.text_normalForm (ref : TypeRef) : ref.normalForm.text = ref.spelling := by
  cases ref with
  | parameter name => rfl
  | array element => rw [normalForm, NormalForm.text, spelling, element.text_normalForm]
  | named id arguments =>
      rw [normalForm, spelling]
      cases Alias.ofId? id with
      | some short => rfl
      | none =>
          simp only [NormalForm.text, qualified, NormalForm.package_lowercase]
          rw [texts_normalForms arguments]

theorem TypeRef.texts_normalForms (refs : List TypeRef) :
    NormalForm.texts (normalForms refs) = spellings refs := by
  cases refs with
  | nil => rfl
  | cons ref rest =>
      rw [normalForms, NormalForm.texts, spellings, ref.text_normalForm, texts_normalForms rest]

end

/-! ## Names without separators -/

/-- The characters that part a list of arguments from what stands around it and in it. -/
def brackets : List Char := ['<', '>', ',']

/-- None of the characters is in the text. -/
def Lacks (marks : List Char) (text : String) : Prop := ∀ mark ∈ marks, mark ∉ text.toList

instance (marks : List Char) (text : String) : Decidable (Lacks marks text) :=
  List.decidableBAll (fun mark => mark ∉ text.toList) marks

theorem lacks_append_iff {marks : List Char} {first second : String} :
    Lacks marks (first ++ second) ↔ Lacks marks first ∧ Lacks marks second := by
  simp only [Lacks, String.toList_append, List.mem_append, not_or, forall_and]

theorem Lacks.subset {marks others : List Char} {text : String} (h : Lacks marks text)
    (hsub : others ⊆ marks) : Lacks others text :=
  fun mark hmark => h mark (hsub hmark)

/-- Names of types and generic parameters hold neither dots nor brackets nor commas, namespaces no
brackets and no commas, and no generic parameter is named like an alias. A parameter without a name
does no harm. -/
inductive TypeRef.Delimited : TypeRef → Prop where
  | parameter {name : String} : Lacks ['.', '<', '>', ','] name →
      name ∉ ["Void", "Int", "Float", "Bool"] → Delimited (.parameter name)
  | array {element : TypeRef} : Delimited element → Delimited (.array element)
  | named {id : TypeId} {arguments : List TypeRef} : Lacks ['.', '<', '>', ','] id.name →
      Lacks ['<', '>', ','] id.nsText → (∀ argument ∈ arguments, Delimited argument) →
      Delimited (.named id arguments)

namespace NormalForm

/-- The same of a normal form. -/
inductive Delimited : NormalForm → Prop where
  | parameter {name : String} : Lacks ('.' :: brackets) name →
      name ∉ Alias.all.map Alias.text → Delimited (.parameter name)
  | array {element : NormalForm} : Delimited element → Delimited (.array element)
  | aliased (short : Alias) : Delimited (.aliased short)
  | named {ns name : String} {arguments : List NormalForm} : Lacks ('.' :: brackets) name →
      Lacks brackets ns → (∀ argument ∈ arguments, Delimited argument) →
      Delimited (.named ns name arguments)

end NormalForm

/-- References without separators in their names have such normal forms. -/
theorem TypeRef.Delimited.normalForm {ref : TypeRef} (h : ref.Delimited) :
    ref.normalForm.Delimited := by
  induction h with
  | parameter hname halias => exact .parameter hname halias
  | array _ ih => exact .array ih
  | @named id arguments hname hns _ ih =>
      rw [TypeRef.normalForm]
      cases Alias.ofId? id with
      | some short => exact .aliased short
      | none =>
          refine .named ?_ ?_ ?_
          · -- Flattening writes an underscore, which is no separator, and removes an accent.
            have hmarks : ∀ mark ∈ '.' :: brackets, mark ≠ Naming.arityMark ∧ mark ≠ '_' := by
              simp [brackets, Naming.arityMark]
            intro mark hmark
            rw [Naming.toList_flattenArity,
              Naming.mem_flattenArityChars_iff (hmarks mark hmark).1 (hmarks mark hmark).2]
            exact hname mark hmark
          · have hmarks : ∀ mark ∈ brackets, Text.IsMark mark := by
              simp [brackets, Text.IsMark]
            intro mark hmark
            rw [Text.toList_lowercase, Text.mem_lowercaseChars_iff (hmarks mark hmark)]
            exact hns mark hmark
          · intro form hform
            rw [TypeRef.normalForms_eq_map] at hform
            obtain ⟨argument, hargument, rfl⟩ := List.mem_map.1 hform
            exact ih argument hargument

namespace NormalForm

/-! ## Heads and arguments -/

/-- What stands in front of the brackets. -/
def head : NormalForm → String
  | .parameter name => name
  | .array _ => "Array"
  | .aliased short => short.text
  | .named ns name _ => package ns ++ "." ++ name

/-- What stands between the brackets. -/
def arguments : NormalForm → List NormalForm
  | .parameter _ => []
  | .array element => [element]
  | .aliased _ => []
  | .named _ _ arguments => arguments

/-- A property of all normal forms is shown for a form whose arguments have it. -/
theorem inductionOnArguments {property : NormalForm → Prop}
    (step : ∀ form, (∀ argument ∈ form.arguments, property argument) → property form)
    (form : NormalForm) : property form := by
  refine @NormalForm.rec property (fun forms => ∀ argument ∈ forms, property argument)
    ?_ ?_ ?_ ?_ ?_ ?_ form
  · exact fun name => step (.parameter name) fun _ hargument => nomatch hargument
  · exact fun element ih => step (.array element) (by simpa [arguments] using ih)
  · exact fun short => step (.aliased short) fun _ hargument => nomatch hargument
  · exact fun ns name arguments ih => step (.named ns name arguments) ih
  · exact fun _ hargument => nomatch hargument
  · exact fun first rest hfirst hrest => List.forall_mem_cons.2 ⟨hfirst, hrest⟩

/-- Every text is a head with a list of arguments. -/
theorem text_eq (form : NormalForm) :
    form.text = form.head ++ TypeRef.argumentList (form.arguments.map text) := by
  cases form with
  | parameter name => exact (String.append_empty).symm
  | array element =>
      simp [text, head, arguments, TypeRef.argumentList, ← String.append_assoc]
  | aliased short => exact (String.append_empty).symm
  | named ns name arguments =>
      rw [text, texts_eq_map]
      rfl

/-- What follows the first argument: the others, the closing bracket and a rest. -/
def afterFirst : List NormalForm → List Char → List Char
  | [], rest => '>' :: rest
  | form :: others, rest => ',' :: ' ' :: (form.text.toList ++ afterFirst others rest)

/-- What follows a head: its arguments, if there are any, and a rest. -/
def afterHead : List NormalForm → List Char → List Char
  | [], rest => rest
  | form :: others, rest => '<' :: (form.text.toList ++ afterFirst others rest)

/-- Arguments between separators are the first one and what follows it. -/
theorem toList_intercalate_append (form : NormalForm) (others : List NormalForm)
    (rest : List Char) :
    (String.intercalate ", " ((form :: others).map text)).toList ++ '>' :: rest
      = form.text.toList ++ afterFirst others rest := by
  induction others generalizing form with
  | nil => simp [afterFirst]
  | cons second others ih =>
      rw [List.map_cons, List.map_cons, String.intercalate_cons_cons, ← List.map_cons,
        String.toList_append, String.toList_append, List.append_assoc, List.append_assoc, ih]
      rfl

/-- A text in front of a rest is a head and what follows it. -/
theorem toList_text_append (form : NormalForm) (rest : List Char) :
    form.text.toList ++ rest = form.head.toList ++ afterHead form.arguments rest := by
  rw [text_eq, String.toList_append, List.append_assoc]
  refine congrArg _ ?_
  cases form.arguments with
  | nil => rfl
  | cons first others =>
      have hinner := toList_intercalate_append first others rest
      rw [List.map_cons] at hinner
      simp only [List.map_cons, TypeRef.argumentList, String.toList_append, List.append_assoc,
        afterHead, ← hinner]
      rfl

/-! ## Reading heads -/

/-- The rest is empty or starts with a bracket or a comma. -/
def Stops (rest : List Char) : Prop := ∀ c ∈ rest.head?, c ∈ brackets

/-- The rest is empty or closes or separates arguments. -/
def Closes (rest : List Char) : Prop := ∀ c ∈ rest.head?, c = '>' ∨ c = ','

/-- Characters up to the first bracket or comma are what stands in front of it. -/
theorem takeWhile_append_of_stops {first rest : List Char} (hfirst : ∀ c ∈ brackets, c ∉ first)
    (hrest : Stops rest) : (first ++ rest).takeWhile (· ∉ brackets) = first := by
  have hfree : ∀ c ∈ first, decide (c ∉ brackets) = true := by
    intro c hc
    rw [decide_eq_true_iff]
    exact fun hbracket => hfirst c hbracket hc
  rw [List.takeWhile_append_of_pos hfree]
  cases rest with
  | nil => simp
  | cons c rest =>
      have hc : c ∈ brackets := hrest c rfl
      rw [List.takeWhile_cons_of_neg (by simpa using hc), List.append_nil]

theorem head_append_inj {first second rest others : List Char} (hfirst : ∀ c ∈ brackets, c ∉ first)
    (hsecond : ∀ c ∈ brackets, c ∉ second) (hrest : Stops rest) (hothers : Stops others)
    (h : first ++ rest = second ++ others) : first = second ∧ rest = others := by
  have hheads := congrArg (List.takeWhile (· ∉ brackets)) h
  rw [takeWhile_append_of_stops hfirst hrest, takeWhile_append_of_stops hsecond hothers] at hheads
  subst hheads
  exact ⟨rfl, List.append_cancel_left h⟩

theorem Closes.stops {rest : List Char} (h : Closes rest) : Stops rest := by
  intro c hc
  rcases h c hc with rfl | rfl <;> decide

theorem closes_afterFirst (others : List NormalForm) (rest : List Char) :
    Closes (afterFirst others rest) := by
  intro c hc
  cases others with
  | nil => exact Or.inl (Option.some.inj hc).symm
  | cons form others => exact Or.inr (Option.some.inj hc).symm

theorem stops_afterHead (arguments : List NormalForm) {rest : List Char} (h : Closes rest) :
    Stops (afterHead arguments rest) := by
  cases arguments with
  | nil => exact h.stops
  | cons form others =>
      intro c hc
      rw [← Option.some.inj hc]
      decide

theorem lacks_package {ns : String} (h : Lacks brackets ns) : Lacks brackets (package ns) := by
  unfold package
  split
  · decide
  · rw [lacks_append_iff, lacks_append_iff]
    exact ⟨⟨by decide, by decide⟩, h⟩

/-- No head holds a bracket or a comma. -/
theorem Delimited.lacks_head {form : NormalForm} (h : form.Delimited) :
    Lacks brackets form.head := by
  have hsub : brackets ⊆ '.' :: brackets := List.subset_cons_self _ _
  cases h with
  | parameter hname _ => exact hname.subset hsub
  | array _ =>
      show Lacks brackets "Array"
      decide
  | aliased short => cases short <;> decide
  | named hname hns _ =>
      rw [head, lacks_append_iff, lacks_append_iff]
      exact ⟨⟨lacks_package hns, by decide⟩, hname.subset hsub⟩

/-- The arguments of a form without separators in its names are such forms. -/
theorem Delimited.of_mem_arguments {form : NormalForm} (h : form.Delimited) :
    ∀ argument ∈ form.arguments, argument.Delimited := by
  cases h with
  | parameter _ _ => exact fun _ hargument => nomatch hargument
  | array helement =>
      intro argument hargument
      rw [List.mem_singleton.1 hargument]
      exact helement
  | aliased _ => exact fun _ hargument => nomatch hargument
  | named _ _ harguments => exact harguments

/-! ## What a head tells -/

/-- The package tells the namespace. -/
theorem package_inj {ns other : String} (h : package ns = package other) : ns = other := by
  unfold package Naming.rootPackage at h
  -- The root package alone is shorter than any package with a namespace.
  have hne : ∀ s : String, "cs" ≠ "cs" ++ "." ++ s := by
    intro s hs
    have hlength := congrArg (fun text => text.toList.length) hs
    simp at hlength
  split at h
  · rename_i hns
    split at h
    · rename_i hother
      rw [hns, hother]
    · exact absurd h (hne other)
  · split at h
    · exact absurd h.symm (hne ns)
    · exact String.toList_inj.1 (List.append_cancel_left
        (by simpa only [String.toList_append] using congrArg String.toList h))

/-- The head of a named type tells its namespace and name, as the name holds no dot. -/
theorem named_head_inj {ns other name otherName : String} (hname : '.' ∉ name.toList)
    (hother : '.' ∉ otherName.toList)
    (h : package ns ++ "." ++ name = package other ++ "." ++ otherName) :
    ns = other ∧ name = otherName := by
  -- Both heads are cut at their last dot, and that is the one in front of the name.
  have hcut := congrArg (fun text => Text.splitLast '.' text.toList) h
  have hdot : ".".toList = ['.'] := rfl
  simp only [String.toList_append, hdot, List.append_assoc, List.singleton_append,
    Text.splitLast_append _ hname, Text.splitLast_append _ hother, Option.some.injEq,
    Prod.mk.injEq, String.toList_inj] at hcut
  exact ⟨package_inj hcut.1, hcut.2⟩

theorem Delimited.dot_mem_head_iff {form : NormalForm} (h : form.Delimited) :
    '.' ∈ form.head.toList ↔ ∃ ns name arguments, form = .named ns name arguments := by
  cases h with
  | parameter hname _ => simpa [head] using hname '.' List.mem_cons_self
  | array _ => simp [head]
  | aliased short => cases short <;> simp [head, Alias.text]
  | named _ _ _ => simp [head]

theorem alias_text_inj {short other : Alias} (h : short.text = other.text) : short = other := by
  cases short <;> cases other <;> first | rfl | exact absurd h (by decide)

/-- A form is told by its head and its arguments. -/
theorem Delimited.eq_of_head_of_arguments {form other : NormalForm} (hform : form.Delimited)
    (hother : other.Delimited) (hhead : form.head = other.head)
    (harguments : form.arguments = other.arguments) : form = other := by
  -- The dot of the head parts named types from all others, the arguments part arrays from
  -- parameters and aliases, and these two differ because no parameter is named like an alias.
  have hdot := hform.dot_mem_head_iff
  rw [hhead, hother.dot_mem_head_iff] at hdot
  cases hform with
  | parameter _ halias =>
      cases hother with
      | parameter _ _ => exact congrArg NormalForm.parameter hhead
      | array _ => exact nomatch harguments
      | aliased short =>
          exact absurd (List.mem_map.2 ⟨short, by cases short <;> decide, hhead.symm⟩) halias
      | named _ _ _ => exact nomatch hdot.1 ⟨_, _, _, rfl⟩
  | array _ =>
      cases hother with
      | parameter _ _ => exact nomatch harguments
      | array _ => exact congrArg NormalForm.array (List.cons.inj harguments).1
      | aliased _ => exact nomatch harguments
      | named _ _ _ => exact nomatch hdot.1 ⟨_, _, _, rfl⟩
  | aliased short =>
      cases hother with
      | parameter _ halias =>
          exact absurd (List.mem_map.2 ⟨short, by cases short <;> decide, hhead⟩) halias
      | array _ => exact nomatch harguments
      | aliased _ => exact congrArg NormalForm.aliased (alias_text_inj hhead)
      | named _ _ _ => exact nomatch hdot.1 ⟨_, _, _, rfl⟩
  | named hname _ _ =>
      cases hother with
      | parameter _ _ => exact nomatch hdot.2 ⟨_, _, _, rfl⟩
      | array _ => exact nomatch hdot.2 ⟨_, _, _, rfl⟩
      | aliased _ => exact nomatch hdot.2 ⟨_, _, _, rfl⟩
      | named hotherName _ _ =>
          obtain ⟨rfl, rfl⟩ := named_head_inj (hname '.' List.mem_cons_self)
            (hotherName '.' List.mem_cons_self) hhead
          exact congrArg (NormalForm.named _ _) harguments

/-! ## Reading texts -/

/-- The form is read off the front of any rest that closes it. -/
def ReadsBack (form : NormalForm) : Prop :=
  form.Delimited → ∀ (other : NormalForm) (rest others : List Char), other.Delimited →
    Closes rest → Closes others → form.text.toList ++ rest = other.text.toList ++ others →
    form = other ∧ rest = others

/-- Arguments that are read back one by one are read back in a row. -/
theorem afterFirst_inj {forms others : List NormalForm} {rest rest' : List Char}
    (hback : ∀ form ∈ forms, form.ReadsBack) (hforms : ∀ form ∈ forms, form.Delimited)
    (hothers : ∀ form ∈ others, form.Delimited)
    (h : afterFirst forms rest = afterFirst others rest') :
    forms = others ∧ rest = rest' := by
  induction forms generalizing others with
  | nil =>
      cases others with
      | nil => exact ⟨rfl, (List.cons.inj h).2⟩
      | cons other others => exact absurd (List.cons.inj h).1 (by decide)
  | cons form forms ih =>
      cases others with
      | nil => exact absurd (List.cons.inj h).1 (by decide)
      | cons other others =>
          obtain ⟨hfirstBack, hrestBack⟩ := List.forall_mem_cons.1 hback
          obtain ⟨hform, hformRest⟩ := List.forall_mem_cons.1 hforms
          obtain ⟨hother, hotherRest⟩ := List.forall_mem_cons.1 hothers
          have htexts := (List.cons.inj (List.cons.inj h).2).2
          obtain ⟨hsame, hafter⟩ := hfirstBack hform other _ _ hother
            (closes_afterFirst forms rest) (closes_afterFirst others rest') htexts
          obtain ⟨hsameRest, hrest⟩ := ih hrestBack hformRest hotherRest hafter
          exact ⟨by rw [hsame, hsameRest], hrest⟩

/-- Arguments that are read back one by one are read back behind a head. -/
theorem afterHead_inj {forms others : List NormalForm} {rest rest' : List Char}
    (hback : ∀ form ∈ forms, form.ReadsBack) (hforms : ∀ form ∈ forms, form.Delimited)
    (hothers : ∀ form ∈ others, form.Delimited) (hrest : Closes rest) (hrest' : Closes rest')
    (h : afterHead forms rest = afterHead others rest') : forms = others ∧ rest = rest' := by
  have hopen : ∀ {rest inner : List Char}, Closes rest → rest ≠ '<' :: inner := by
    rintro _ inner hcloses rfl
    rcases hcloses '<' rfl with hc | hc <;> exact absurd hc (by decide)
  cases forms with
  | nil =>
      cases others with
      | nil => exact ⟨rfl, h⟩
      | cons other others => exact absurd h (hopen hrest)
  | cons form forms =>
      cases others with
      | nil => exact absurd h.symm (hopen hrest')
      | cons other others =>
          -- Behind the opening bracket the arguments stand as they do behind a comma.
          have hinner : afterFirst (form :: forms) rest = afterFirst (other :: others) rest' := by
            rw [afterFirst, afterFirst, (List.cons.inj h).2]
          exact afterFirst_inj hback hforms hothers hinner

/-- The text of a form without separators in its names is read off the front of any rest that
closes it. -/
theorem text_append_inj (form : NormalForm) : form.ReadsBack := by
  induction form using inductionOnArguments with
  | step form ih =>
      -- The other form is arbitrary: only one of the two is taken apart by the induction.
      intro hform other rest rest' hother hrest hrest' h
      rw [toList_text_append, toList_text_append] at h
      obtain ⟨hhead, htail⟩ := head_append_inj hform.lacks_head hother.lacks_head
        (stops_afterHead form.arguments hrest) (stops_afterHead other.arguments hrest') h
      obtain ⟨harguments, hrests⟩ := afterHead_inj ih hform.of_mem_arguments
        hother.of_mem_arguments hrest hrest' htail
      exact ⟨hform.eq_of_head_of_arguments hother (String.toList_inj.1 hhead) harguments, hrests⟩

theorem Delimited.text_inj {form other : NormalForm} (hform : form.Delimited)
    (hother : other.Delimited) (h : form.text = other.text) : form = other := by
  have hend : Closes [] := fun _ hc => nomatch hc
  exact (text_append_inj form hform other [] [] hother hend hend (by rw [h])).1

end NormalForm

namespace TypeRef

/-- Two references without separators in their names are spelled alike exactly when they have the
same normal form. -/
theorem spelling_eq_iff_normalForm_eq {ref other : TypeRef} (href : ref.Delimited)
    (hother : other.Delimited) :
    ref.spelling = other.spelling ↔ ref.normalForm = other.normalForm := by
  rw [← ref.text_normalForm, ← other.text_normalForm]
  exact ⟨href.normalForm.text_inj hother.normalForm, congrArg NormalForm.text⟩

/-- A dot in a name is read as the end of a namespace. -/
example :
    (named ⟨some "lib", "io.File"⟩ []).spelling = (named ⟨some "lib.io", "File"⟩ []).spelling := by
  decide +kernel

namespace Dictionaries

/-- A dictionary of a collection namespace that is spelled in one case or another. -/
def dictionary (ns name : String) (value : TypeRef) : TypeRef :=
  named ⟨some ns, name⟩ [named ⟨some "SYSTEM", "Int32"⟩ [parameter "T"], array value]

theorem delimited_dictionary {ns name : String} {value : TypeRef}
    (hname : Lacks ['.', '<', '>', ','] name) (hns : Lacks ['<', '>', ','] ns)
    (hvalue : value.Delimited) : (dictionary ns name value).Delimited := by
  have hparameter : (parameter "T").Delimited := .parameter (by decide) (by decide)
  refine .named hname hns (List.forall_mem_cons.2 ⟨?_, List.forall_mem_singleton.2 (.array hvalue)⟩)
  exact .named (by decide) (by decide) (List.forall_mem_singleton.2 hparameter)

end Dictionaries

open Dictionaries in
/-- Two dictionaries have one normal form whatever the case of their namespaces and the marks of
their names, and another one when their values are of another type. -/
theorem dictionaries_told_apart_by_values :
    let marked := dictionary "System.Collections" "Dictionary`2" (parameter "T")
    let flattened := dictionary "SYSTEM.collections" "Dictionary_2" (parameter "T")
    let nested := dictionary "System.Collections" "Dictionary`2" (array (parameter "T"))
    marked.Delimited ∧ flattened.Delimited ∧ nested.Delimited ∧ marked ≠ flattened ∧
      marked.normalForm = flattened.normalForm ∧ marked.normalForm ≠ nested.normalForm := by
  intro marked flattened nested
  have hparameter : (parameter "T").Delimited := .parameter (by decide) (by decide)
  have hmarked : marked.Delimited := delimited_dictionary (by decide) (by decide) hparameter
  have hflattened : flattened.Delimited := delimited_dictionary (by decide) (by decide) hparameter
  have hnested : nested.Delimited :=
    delimited_dictionary (by decide) (by decide) (.array hparameter)
  refine ⟨hmarked, hflattened, hnested, by simp [marked, flattened, dictionary], ?_, ?_⟩
  · exact (spelling_eq_iff_normalForm_eq hmarked hflattened).1 (by decide +kernel)
  · intro hsame
    have hspelling := (spelling_eq_iff_normalForm_eq hmarked hnested).2 hsame
    exact absurd hspelling (by decide +kernel)

end TypeRef

end TypeSurface
