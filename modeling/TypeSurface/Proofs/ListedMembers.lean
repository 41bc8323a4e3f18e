import TypeSurface.Proofs.MostDerived

/-!
# Listed fields and properties

Two listings can be declared without going through levels. All declarations of a chain stand in one
list, each with the level it comes from (`placed`). The fields listed are those that the rule
`FieldDecl.ListedAt` admits, and no field hides another. The properties listed are the winners among
those that `PropertyDecl.EligibleAt` admits, so only an admitted property of a more derived level hides
one of its name (`fields_and_properties_follow_rules`). Both rules are read off the words of flags of a
binary in `FieldRow.listedAt_decl_iff` and `PropertyRow.eligibleAt_decl_iff`.
-/

set_option autoImplicit false

namespace TypeSurface.Metadata

variable {δ β κ : Type}

/-! ## Declarations of a chain -/

/-- A declaration of a chain, with the level that declares it and the number of that level. -/
structure Placed (δ : Type) where
  level : Nat
  owner : Level
  decl : δ

/-- The declarations of a level of a number. -/
def Level.placed (select : Level → List δ) (number : Nat) (level : Level) : List (Placed δ) :=
  (select level).map (Placed.mk number level)

/-- The declarations of a chain in the order of levels and declarations. -/
def placed (select : Level → List δ) (levels : List Level) : List (Placed δ) :=
  (levels.mapIdx (Level.placed select)).flatten

/-- The declarations of a chain that a rule admits, level by level. -/
def admitted (select : Level → List δ) (rule : Placed δ → Bool) (levels : List Level) :
    List (List (Placed δ)) :=
  levels.mapIdx fun number level => (level.placed select number).filter rule

theorem flatten_admitted (select : Level → List δ) (rule : Placed δ → Bool) (levels : List Level) :
    (admitted select rule levels).flatten = (placed select levels).filter rule := by
  rw [admitted, placed, List.filter_flatten, map_mapIdx]

theorem level_of_mem_admitted {select : Level → List δ} {rule : Placed δ → Bool}
    {levels : List Level} {number : Nat} {level : List (Placed δ)}
    (hlevel : (admitted select rule levels)[number]? = some level) {member : Placed δ}
    (hmember : member ∈ level) : member.level = number := by
  rw [admitted, List.getElem?_mapIdx] at hlevel
  obtain ⟨owner, -, rfl⟩ := Option.map_eq_some_iff.1 hlevel
  obtain ⟨decl, -, rfl⟩ := List.mem_map.1 (List.mem_of_mem_filter hmember)
  rfl

/-- A listing that admits declarations by their origins and reads them in their levels lists the
admitted declarations of the chain as they are read. -/
theorem eachLevel_eq_map_admitted (select : Level → List δ) (rule : Origin → δ → Bool)
    (entry : Level → δ → β) (levels : List Level) :
    eachLevel (fun origin level => ((select level).filter (rule origin)).map (entry level)) levels
      = (admitted select (fun member => rule (.ofLevel member.level) member.decl) levels).map
          (List.map fun member => entry member.owner member.decl) := by
  -- A rule by origins is one by numbers, so both sides are lists over numbered levels.
  rw [eachLevel_eq_mapIdx, admitted, map_mapIdx]
  congr 1
  funext number level
  rw [Level.placed, List.filter_map, List.map_map]
  rfl

/-! ## The rules -/

/-- The field is listed from the level of a number: it is public, and it is not static where it is
inherited. -/
def FieldDecl.ListedAt (field : FieldDecl) (number : Nat) : Prop :=
  field.isPublic = true ∧ (number = 0 ∨ field.isStatic = false)

instance (field : FieldDecl) (number : Nat) : Decidable (field.ListedAt number) :=
  inferInstanceAs (Decidable (_ ∧ (_ ∨ _)))

/-- The property can be listed from the level of a number: one of its accessors is public, and where it
is inherited not all of them are static. -/
def PropertyDecl.EligibleAt (property : PropertyDecl) (number : Nat) : Prop :=
  (∃ accessor ∈ property.accessors, accessor.isPublic = true) ∧
    (number = 0 ∨ ¬∀ accessor ∈ property.accessors, accessor.isStatic = true)

instance (property : PropertyDecl) (number : Nat) : Decidable (property.EligibleAt number) :=
  inferInstanceAs (Decidable ((∃ _ ∈ _, _) ∧ (_ ∨ ¬∀ _ ∈ _, _)))

/-- A field is listed from a level exactly when it is listed by the origin that the number of the level
stands for. -/
theorem FieldDecl.isListed_ofLevel {field : FieldDecl} {number : Nat} :
    field.isListed (.ofLevel number) = decide (field.ListedAt number) := by
  rw [Bool.eq_iff_iff, decide_eq_true_iff]
  cases number <;> simp [isListed, ListedAt, Origin.ofLevel]

/-- A property can be listed from a level exactly when it can be listed by the origin that the number
of the level stands for. -/
theorem PropertyDecl.isEligible_ofLevel {property : PropertyDecl} {number : Nat} :
    property.isEligible (.ofLevel number) = decide (property.EligibleAt number) := by
  rw [Bool.eq_iff_iff, decide_eq_true_iff]
  cases number <;> simp [isEligible, EligibleAt, Origin.ofLevel]

/-! ## The rules in words of flags -/

/-- A field of a binary is listed by its access bits and its static bit. -/
theorem FieldRow.listedAt_decl_iff {row : FieldRow} {number : Nat} :
    row.decl.ListedAt number ↔
      row.flags &&& 0x0007 = 0x0006 ∧ (number = 0 ∨ row.flags &&& 0x0010 = 0) := by
  rw [FieldDecl.ListedAt, decl, Flags.isPublic_iff, Flags.isStatic_eq_false_iff]

namespace PropertyRow

/-- The accessors of a property that are still there. -/
def present (row : PropertyRow) : List AccessorRow :=
  (row.getter.toList ++ row.setter.toList).filter (!·.dropped)

/-- A property is declared with the accessors that are still there. -/
theorem accessors_decl (row : PropertyRow) :
    row.decl.accessors = row.present.map fun accessor =>
      ⟨accessor.flags.isPublic, accessor.flags.isStatic⟩ := by
  -- Getter and setter are read alike.
  have hone : ∀ found : Option AccessorRow, (found.bind (·.accessor?)).toList
      = (found.toList.filter (!·.dropped)).map fun accessor =>
          ⟨accessor.flags.isPublic, accessor.flags.isStatic⟩ := by
    rintro (_ | accessor)
    · rfl
    · cases hdropped : accessor.dropped <;> simp [AccessorRow.accessor?, hdropped]
  rw [PropertyDecl.accessors, present, List.filter_append, List.map_append, ← hone, ← hone]
  rfl

/-- A property of a binary can be listed by the access bits and the static bits of the accessors that
are still there. -/
theorem eligibleAt_decl_iff {row : PropertyRow} {number : Nat} :
    row.decl.EligibleAt number ↔
      (∃ accessor ∈ row.present, accessor.flags &&& 0x0007 = 0x0006) ∧
        (number = 0 ∨ ∃ accessor ∈ row.present, accessor.flags &&& 0x0010 = 0) := by
  simp only [PropertyDecl.EligibleAt, accessors_decl, List.mem_map, exists_exists_and_eq_and,
    forall_exists_index, and_imp, forall_apply_eq_imp_iff₂, Flags.isPublic_iff, not_forall,
    Bool.not_eq_true, Flags.isStatic_eq_false_iff, exists_prop]

end PropertyRow

/-! ## The listings -/

namespace Placed

variable (resolve : Token → Option (Handle κ))

/-- The type of a signature by the generic parameters of the declaring level, or nothing where it
cannot be read. -/
def type (member : Placed δ) (signature : Signature) : MemberType κ :=
  match (Scope.mk resolve member.owner.genericParameters []).interpret signature with
  | .ok type => type
  | .error _ => none

/-- The entry of a field. -/
def field (member : Placed FieldDecl) : Member.Field (MemberType κ) :=
  ⟨member.decl.name, member.type resolve member.decl.signature⟩

/-- The entry of a property, which says whether its accessors are there, public or not. -/
def property (member : Placed PropertyDecl) : Member.Property (MemberType κ) :=
  ⟨member.decl.name, member.type resolve member.decl.signature, member.decl.getter.isSome,
    member.decl.setter.isSome⟩

end Placed

/-- A listing of fields is that of the declared fields its rule admits. -/
theorem listFields_eq (resolve : Token → Option (Handle κ)) (levels : List Level) :
    listFields resolve levels
      = ((placed Level.fields levels).filter fun member =>
          decide (member.decl.ListedAt member.level)).map (Placed.field resolve) := by
  have hlevels := eachLevel_eq_map_admitted Level.fields (fun origin field => field.isListed origin)
    (fun level field => (⟨field.name, (level.scope resolve).interpretOrNone field.signature⟩ :
      Member.Field (MemberType κ))) levels
  simp only [FieldDecl.isListed_ofLevel] at hlevels
  rw [listFields, ← flatten_admitted, List.map_flatten]
  exact congrArg List.flatten hlevels

/-- A listing of properties is that of the winners among the declared properties its rule admits. -/
theorem listProperties_eq (resolve : Token → Option (Handle κ)) (levels : List Level) :
    listProperties resolve levels
      = (winners (·.decl.name) Placed.level ((placed Level.properties levels).filter fun member =>
          decide (member.decl.EligibleAt member.level))).map (Placed.property resolve) := by
  have hlevels := eachLevel_eq_map_admitted Level.properties
    (fun origin property => property.isEligible origin)
    (fun level property => (⟨property.name,
      (level.scope resolve).interpretOrNone property.signature, property.getter.isSome,
      property.setter.isSome⟩ : Member.Property (MemberType κ))) levels
  simp only [PropertyDecl.isEligible_ofLevel] at hlevels
  -- An entry has the name of its declaration, so the names hide before the entries are made.
  calc
    _ = mostDerived (·.name) ((admitted Level.properties
          (fun member => decide (member.decl.EligibleAt member.level)) levels).map
            (List.map (Placed.property resolve))) := congrArg (mostDerived _) hlevels
    _ = (mostDerived (·.decl.name) (admitted Level.properties
          (fun member => decide (member.decl.EligibleAt member.level)) levels)).map
            (Placed.property resolve) :=
        mostDerivedFrom_map (Placed.property resolve) (·.name) [] _
    _ = _ := by
        rw [mostDerived_eq_winners _ Placed.level _ fun _ _ hlevel _ => level_of_mem_admitted hlevel,
          flatten_admitted]

/-- The listed fields of a chain are its public fields, without the static ones of its bases, and none
hides another. The listed properties are those with a public accessor, without the ones of its bases
whose accessors are all static, as far as none of a more derived level has the name. The order is that
of levels and declarations. -/
theorem fields_and_properties_follow_rules (resolve : Token → Option (Handle κ))
    (levels : List Level) :
    listFields resolve levels
      = ((placed Level.fields levels).filter fun member =>
          decide (member.decl.ListedAt member.level)).map (Placed.field resolve) ∧
    listProperties resolve levels
      = (winners (·.decl.name) Placed.level ((placed Level.properties levels).filter fun member =>
          decide (member.decl.EligibleAt member.level))).map (Placed.property resolve) ∧
    (∀ (row : FieldRow) (number : Nat), row.decl.ListedAt number ↔
      row.flags &&& 0x0007 = 0x0006 ∧ (number = 0 ∨ row.flags &&& 0x0010 = 0)) ∧
    ∀ (row : PropertyRow) (number : Nat), row.decl.EligibleAt number ↔
      (∃ accessor ∈ row.present, accessor.flags &&& 0x0007 = 0x0006) ∧
        (number = 0 ∨ ∃ accessor ∈ row.present, accessor.flags &&& 0x0010 = 0) :=
  ⟨listFields_eq resolve levels, listProperties_eq resolve levels,
    fun _ _ => FieldRow.listedAt_decl_iff, fun _ _ => PropertyRow.eligibleAt_decl_iff⟩

namespace CoveredSizes

/-- A property of integers that can be read. -/
def readOnly (name : String) (isPublic isStatic : Bool) : PropertyDecl :=
  ⟨name, .builtIn .int32, some ⟨isPublic, isStatic⟩, none⟩

/-- A level that declares properties. -/
def level (properties : List PropertyDecl) : Level := ⟨[], [], properties, []⟩

/-- Three levels. Neither the property of the first that is not public nor the static one of the second
is listed, so they hide nothing. The second declares one name twice and hides it in the third. -/
def levels : List Level :=
  [level [readOnly "Size" false false],
    level [readOnly "Mark" true true, readOnly "Size" true false, readOnly "Size" true false],
    level [readOnly "Size" true false, readOnly "Mark" true false]]

example :
    (listProperties (κ := Nat) (fun _ => none) levels).map (·.name) = ["Size", "Size", "Mark"] := by
  decide +kernel

end CoveredSizes

end TypeSurface.Metadata
