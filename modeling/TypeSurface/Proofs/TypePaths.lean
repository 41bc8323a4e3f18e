import TypeSurface.Naming.TypeRef
import TypeSurface.Proofs.Answers
import TypeSurface.Proofs.FlattenedNames
import TypeSurface.Proofs.SmallLetters
import TypeSurface.Source.Catalog

/-!
# Paths back to types

Every name that is handed out leads back to its type. A path is cut at its last dot (`IsCut`), so a
type is named by some path exactly when its simple name holds no dot (`exists_names_iff`). Such a type
is found under the text of its own path, and that text is what its spelling holds behind the root
package (`qualified_eq`) and what the first lines of its description make (`ofHeader_eq`).
-/

set_option autoImplicit false

namespace TypeSurface.TypePath

/-! ## Cutting paths -/

/-- A path is cut at its last dot into a namespace and a name. A path without dots is all name. -/
def IsCut (path ns name : String) : Prop :=
  '.' ∉ name.toList ∧ (path = ns ++ "." ++ name ∨ ns = "" ∧ path = name)

theorem toList_dotted (ns name : String) :
    (ns ++ "." ++ name).toList = ns.toList ++ '.' :: name.toList := by
  rw [String.toList_append, String.toList_append, List.append_assoc]
  rfl

/-- Every path can be cut. -/
theorem exists_isCut (path : String) : ∃ ns name, IsCut path ns name := by
  by_cases hdot : '.' ∈ path.toList
  · obtain ⟨before, after, hpath, hafter⟩ := Text.exists_last_occurrence hdot
    refine ⟨String.ofList before, String.ofList after, ?_, Or.inl ?_⟩
    · rw [String.toList_ofList]
      exact hafter
    · apply String.toList_inj.1
      rw [toList_dotted, String.toList_ofList, String.toList_ofList]
      exact hpath
  · exact ⟨"", path, hdot, Or.inr ⟨rfl, rfl⟩⟩

/-- What is read from a path is its name and its namespace in small letters. -/
theorem IsCut.parse_eq {path ns name : String} (h : IsCut path ns name) :
    parse path = ⟨Text.lowercase ns, name⟩ := by
  obtain ⟨hname, rfl | ⟨rfl, rfl⟩⟩ := h
  · unfold parse
    rw [toList_dotted, Text.splitLast_append ns.toList hname]
    show TypePath.mk (Text.lowercase ns) (String.ofList name.toList) = ⟨Text.lowercase ns, name⟩
    rw [String.ofList_toList]
  · unfold parse
    rw [Text.splitLast_of_not_mem hname]
    rfl

/-- A path names the types whose namespace is the same in small letters and whose flattened name is
the name of the path. -/
theorem IsCut.names_iff {path ns name : String} (h : IsCut path ns name) (id : TypeId) :
    (parse path).names id = true ↔
      Text.lowercase id.nsText = Text.lowercase ns ∧ Naming.flattenArity id.name = name := by
  rw [h.parse_eq, names, decide_eq_true_iff, ofId, TypePath.mk.injEq]

/-! ## Texts of paths -/

/-- The text of a path: no dot for a type of the global namespace. -/
def text (path : TypePath) : String :=
  if path.ns = "" then path.name else path.ns ++ "." ++ path.name

theorem isCut_text {path : TypePath} (h : '.' ∉ path.name.toList) :
    IsCut path.text path.ns path.name := by
  unfold text
  by_cases hns : path.ns = ""
  · rw [if_pos hns]
    exact ⟨h, Or.inr ⟨hns, rfl⟩⟩
  · rw [if_neg hns]
    exact ⟨h, Or.inl rfl⟩

theorem dot_mem_name_ofId_iff {id : TypeId} :
    '.' ∈ (ofId id).name.toList ↔ '.' ∈ id.name.toList := by
  rw [ofId, Naming.toList_flattenArity]
  exact Naming.mem_flattenArityChars_iff (by decide) (by decide)

theorem names_text_ofId {id : TypeId} (h : '.' ∉ id.name.toList) :
    (parse (ofId id).text).names id = true := by
  have hcut : IsCut (ofId id).text (ofId id).ns (ofId id).name :=
    isCut_text fun hdot => h (dot_mem_name_ofId_iff.1 hdot)
  -- The namespace of the path is in small letters already, so reading it changes nothing.
  exact (hcut.names_iff id).2 ⟨(Text.lowercase_lowercase id.nsText).symm, rfl⟩

/-- A type is named by some path exactly when its simple name holds no dot. -/
theorem exists_names_iff {id : TypeId} :
    (∃ path, (parse path).names id = true) ↔ '.' ∉ id.name.toList := by
  constructor
  · rintro ⟨path, hnames⟩ hdot
    obtain ⟨ns, name, hcut⟩ := exists_isCut path
    obtain ⟨-, rfl⟩ := (hcut.names_iff id).1 hnames
    exact hcut.1 (dot_mem_name_ofId_iff.2 hdot)
  · intro hdot
    exact ⟨(ofId id).text, names_text_ofId hdot⟩

/-! ## Where paths are handed out -/

/-- A name behind its package is the text of the path behind the root package. -/
theorem packagePath_dotted (id : TypeId) :
    Naming.packagePath id.nsText ++ "." ++ Naming.flattenArity id.name
      = "cs." ++ (ofId id).text := by
  unfold Naming.packagePath text ofId
  by_cases hns : id.nsText = ""
  · rw [if_pos hns, if_pos (Text.lowercase_eq_empty_iff.2 hns)]
    rfl
  · rw [if_neg hns, if_neg (mt Text.lowercase_eq_empty_iff.1 hns)]
    simp only [Naming.rootPackage, String.append_assoc]
    rfl

/-- The spelling of a named type holds the text of its path between the root package and its
arguments. -/
theorem qualified_eq (id : TypeId) (arguments : List String) :
    TypeRef.qualified id arguments
      = "cs." ++ (ofId id).text ++ TypeRef.argumentList arguments := by
  rw [TypeRef.qualified, packagePath_dotted]

/-- The path that the line of the name and the line of the package make. -/
def ofHeader (name package : String) : String :=
  if package = "cs" then name else String.ofList (package.toList.drop 3) ++ "." ++ name

/-- The first lines of a description make the text of the path of its type. -/
theorem ofHeader_eq (id : TypeId) :
    ofHeader (Naming.flattenArity id.name) (Naming.packagePath id.nsText) = (ofId id).text := by
  unfold ofHeader Naming.packagePath text ofId
  by_cases hns : id.nsText = ""
  · rw [if_pos hns, if_pos (show Naming.rootPackage = "cs" from rfl),
      if_pos (Text.lowercase_eq_empty_iff.2 hns)]
  · have hdotted : (Naming.rootPackage ++ "." ++ Text.lowercase id.nsText).toList
        = 'c' :: 's' :: '.' :: (Text.lowercase id.nsText).toList := by
      rw [toList_dotted]
      rfl
    have hlong : Naming.rootPackage ++ "." ++ Text.lowercase id.nsText ≠ "cs" := by
      intro hroot
      rw [hroot] at hdotted
      exact absurd hdotted (by simp)
    rw [if_neg hns, if_neg hlong, if_neg (mt Text.lowercase_eq_empty_iff.1 hns), hdotted]
    show String.ofList (Text.lowercase id.nsText).toList ++ "." ++ _ = _
    rw [String.ofList_toList]

/-- A type is named by some path exactly when its simple name holds no dot. If it holds none, the type
is named by what its spelling holds between the root package and its arguments, unless it has an
alias, and by the path that the first lines of its description make. -/
theorem emitted_names_lead_back {η : Type} [Viewable η] (type : η) :
    ((∃ path, (parse path).names (Viewable.id type) = true) ↔
      '.' ∉ (Viewable.id type).name.toList) ∧
    ('.' ∉ (Viewable.id type).name.toList →
      (Alias.ofId? (Viewable.id type) = none →
        ∃ path, (parse path).names (Viewable.id type) = true ∧
          ∀ arguments, (TypeRef.named (Viewable.id type) arguments).spelling
            = "cs." ++ path ++ TypeRef.argumentList (arguments.map TypeRef.spelling)) ∧
      ∀ description, (Viewable.view type).describe = .ok description →
        ∃ name flag package rest, description.lines = name :: flag :: package :: rest ∧
          (parse (ofHeader name package)).names (Viewable.id type) = true) := by
  refine ⟨exists_names_iff, fun hdot => ⟨fun halias => ?_, fun description hdescribe => ?_⟩⟩
  · refine ⟨(ofId (Viewable.id type)).text, names_text_ofId hdot, fun arguments => ?_⟩
    rw [TypeRef.spelling, halias, ← TypeRef.spellings_eq_map]
    exact qualified_eq (Viewable.id type) (TypeRef.spellings arguments)
  · obtain ⟨flag, rest, hlines⟩ := TypeView.exists_header_of_describe hdescribe
    rw [Viewable.id_view] at hlines
    refine ⟨_, flag, _, rest, hlines, ?_⟩
    rw [ofHeader_eq]
    exact names_text_ofId hdot

/-- The generic list is found under what is read off its spelling and off its description. -/
theorem list_is_found_under_its_names :
    let type : TypeView := .bare ⟨some "System.Collections.Generic", "List\x601"⟩
    '.' ∉ type.id.name.toList ∧ Alias.ofId? type.id = none ∧
      (∃ path, (parse path).names type.id = true ∧
        (TypeRef.named type.id [.parameter "T"]).spelling = "cs." ++ path ++ "<T>") ∧
      ∃ description name flag package rest, type.describe = .ok description ∧
        description.lines = name :: flag :: package :: rest ∧
        (parse (ofHeader name package)).names type.id = true := by
  intro type
  have hdot : '.' ∉ type.id.name.toList := by decide
  have halias : Alias.ofId? type.id = none := by decide +kernel
  obtain ⟨-, hback⟩ := emitted_names_lead_back type
  obtain ⟨hspelled, hdescribed⟩ := hback hdot
  obtain ⟨path, hnames, hspelling⟩ := hspelled halias
  obtain ⟨name, flag, package, rest, hlines, hheader⟩ := hdescribed _ rfl
  exact ⟨hdot, halias, ⟨path, hnames, hspelling [.parameter "T"]⟩, _, name, flag, package, rest, rfl,
    hlines, hheader⟩

end TypeSurface.TypePath
