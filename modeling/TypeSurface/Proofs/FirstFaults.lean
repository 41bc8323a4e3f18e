import TypeSurface.Metadata.View
import TypeSurface.Proofs.MethodSources

/-!
# The first fault of a listing

A traversal that fails does so with the fault of the first element that fails (`fault?_mapM`). Reading
a method is a traversal of its signatures, a level one of its methods, and a listing one of the levels
of a chain, so the fault of a listing is the first in the order of levels and declarations
(`methods_eq_error_iff`).
-/

set_option autoImplicit false

namespace TypeSurface

variable {ε α β γ : Type}

/-! ## Faults of traversals -/

/-- The fault of a computation that fails. -/
def fault? : Except ε α → Option ε
  | .error fault => some fault
  | .ok _ => none

theorem fault?_eq_some_iff {computed : Except ε α} {fault : ε} :
    fault? computed = some fault ↔ computed = .error fault := by
  cases computed with
  | error other => simp [fault?]
  | ok value => simp [fault?]

theorem fault?_eq_none_iff {computed : Except ε α} :
    fault? computed = none ↔ ∃ value, computed = .ok value := by
  cases computed with
  | error other => simp [fault?]
  | ok value => simp [fault?]

/-- When the fault of the next step does not depend on the value it is given, the fault of both steps
is that of the first one, or else that of the next. -/
theorem fault?_bind {first : Except ε α} {next : α → Except ε β} (rest : Option ε)
    (h : ∀ value, fault? (next value) = rest) :
    fault? (first >>= next) = (fault? first).or rest := by
  cases first with
  | error fault => rfl
  | ok value => exact h value

theorem fault?_bind_pure (first : Except ε α) (change : α → β) :
    fault? (first >>= fun value => pure (change value)) = fault? first := by
  rw [fault?_bind none fun _ => rfl, Option.or_none]

theorem fault?_map (computed : Except ε α) (change : α → β) :
    fault? (computed.map change) = fault? computed := by
  cases computed <;> rfl

/-- A traversal fails with the fault of the first element that fails. -/
theorem fault?_mapM (f : α → Except ε β) (list : List α) :
    fault? (list.mapM f) = list.findSome? fun a => fault? (f a) := by
  induction list with
  | nil => rfl
  | cons first rest ih =>
      rw [List.mapM_cons, List.findSome?_cons]
      cases f first with
      | error fault => rfl
      | ok result =>
          rw [← ih]
          cases rest.mapM f with
          | error fault => rfl
          | ok results => rfl

/-- In a part of a list only the elements of the part are looked at. -/
theorem findSome?_filter (keep : α → Bool) (f : α → Option β) (list : List α) :
    (list.filter keep).findSome? f = list.findSome? fun a => if keep a then f a else none := by
  induction list with
  | nil => rfl
  | cons first rest ih =>
      rw [List.filter_cons, List.findSome?_cons]
      cases keep first with
      | true =>
          rw [if_pos rfl, List.findSome?_cons, ih]
          rfl
      | false =>
          rw [if_neg Bool.false_ne_true, ih]
          rfl

theorem map_mapIdx (change : β → γ) (f : Nat → α → β) (list : List α) :
    (list.mapIdx f).map change = list.mapIdx fun number a => change (f number a) := by
  apply List.ext_getElem?
  intro number
  rw [List.getElem?_map, List.getElem?_mapIdx, List.getElem?_mapIdx, Option.map_map]
  rfl

/-- What is found first in a numbered list is found in front of an element behind elements where
nothing is found. -/
theorem findSome?_mapIdx_eq_some_iff {f : Nat → α → Option β} {list : List α} {b : β} :
    (list.mapIdx f).findSome? id = some b ↔
      ∃ before a after, list = before ++ a :: after ∧ f before.length a = some b ∧
        ∀ number other, before[number]? = some other → f number other = none := by
  rw [List.findSome?_eq_some_iff]
  constructor
  · rintro ⟨first, result, rest, hlist, hresult, hfirst⟩
    obtain ⟨before, behind, rfl, rfl, hbehind⟩ := List.mapIdx_eq_append_iff.1 hlist
    obtain ⟨a, after, rfl, ha, -⟩ := List.mapIdx_eq_cons_iff.1 hbehind
    refine ⟨before, a, after, rfl, ?_, fun number other hother => ?_⟩
    · rw [Nat.zero_add] at ha
      rw [ha]
      exact hresult
    · apply hfirst
      apply List.mem_of_getElem? (i := number)
      rw [List.getElem?_mapIdx, hother]
      rfl
  · rintro ⟨before, a, after, rfl, ha, hbefore⟩
    rw [List.mapIdx_append, List.mapIdx_cons, Nat.zero_add]
    refine ⟨_, _, _, rfl, ha, fun result hresult => ?_⟩
    obtain ⟨number, hnumber, rfl⟩ := List.mem_mapIdx.1 hresult
    exact hbefore number before[number] (List.getElem?_eq_getElem hnumber)

namespace Metadata

/-! ## Faults of methods -/

/-- The signatures of a method as declared, in the order in which they are read. -/
def MethodDecl.signatures (method : MethodDecl) : List Signature :=
  method.result :: method.parameters.map (·.signature)

/-- Reading a method fails with the fault of the first of its signatures that cannot be read. -/
theorem MethodDecl.fault?_read {κ : Type} (scope : Scope κ) (method : MethodDecl) :
    fault? (method.read scope)
      = method.signatures.findSome? fun signature => fault? (scope.interpret signature) := by
  have hparameter : ∀ parameter : ParameterDecl,
      fault? (parameter.read scope) = fault? (scope.interpret parameter.signature) := by
    intro parameter
    exact fault?_bind_pure (scope.interpret parameter.signature) _
  have hrest : fault? (method.parameters.mapM (·.read scope))
      = (method.parameters.map (·.signature)).findSome? fun signature =>
          fault? (scope.interpret signature) := by
    rw [fault?_mapM, List.findSome?_map]
    exact congrArg (List.findSome? · _) (funext hparameter)
  -- The result is read before the parameters.
  rw [MethodDecl.read, fault?_bind _ fun _ => fault?_bind_pure _ _, hrest, signatures,
    List.findSome?_cons]
  cases fault? (scope.interpret method.result) with
  | none => rfl
  | some fault => rfl

namespace MethodRow

/-- The method can be listed from a level: it is there, it is public, it is no constructor, and it is
not static where it is inherited. -/
def IsEligible (number : Nat) (method : MethodRow) : Prop :=
  method.dropped = false ∧ method.flags.isPublic = true ∧ method.name ∉ [".ctor", ".cctor"] ∧
    (number ≠ 0 → method.flags.isStatic = false)

instance (number : Nat) (method : MethodRow) : Decidable (method.IsEligible number) :=
  inferInstanceAs (Decidable (_ ∧ _ ∧ _ ∧ (_ → _)))

/-- The signatures of a method, in the order in which they are read. -/
def signatures (method : MethodRow) : List Signature :=
  method.result.signature :: method.parameters.map (·.signature)

theorem isEligible_iff {number : Nat} {method : MethodRow} :
    method.IsEligible number ↔
      method.dropped = false ∧ method.decl.isEligible (.ofLevel number) = true := by
  cases number with
  | zero => simp [IsEligible, MethodDecl.isEligible, MethodDecl.isConstructor, decl, Origin.ofLevel]
  | succ number =>
      simp [IsEligible, MethodDecl.isEligible, MethodDecl.isConstructor, decl, Origin.ofLevel,
        and_assoc]

theorem signatures_decl (method : MethodRow) : method.decl.signatures = method.signatures := by
  apply congrArg (method.result.signature :: ·)
  apply List.ext_getElem?
  intro place
  simp [decl, SignatureParameter.decl, Function.comp_def]

theorem fault?_read {κ : Type} (scope : Scope κ) (method : MethodRow) :
    fault? (method.decl.read scope)
      = method.signatures.findSome? fun signature => fault? (scope.interpret signature) := by
  rw [MethodDecl.fault?_read, signatures_decl]

end MethodRow

namespace Graph

/-- The scope of the signatures of a method that a type declares. -/
def methodScope (graph : Graph) (owner : Nat) (method : MethodRow) : Scope Nat :=
  ⟨graph.resolve, genericParameterNames (graph.row owner).genericParameters,
    genericParameterNames method.genericParameters⟩

/-- The fault of the first signature of a method that cannot be read. -/
def methodFault? (graph : Graph) (owner : Nat) (method : MethodRow) : Option Fault :=
  method.signatures.findSome? fun signature =>
    fault? ((graph.methodScope owner method).interpret signature)

/-- The fault of the first method of a type that can be listed and cannot be read. -/
def levelFault? (graph : Graph) (number owner : Nat) : Option Fault :=
  (graph.row owner).methods.findSome? fun method =>
    if method.IsEligible number then graph.methodFault? owner method else none

variable {graph : Graph} {key : Nat} {fault : Fault}

/-- The methods of a level fail with the fault of the first one that can be listed and cannot be
read. -/
theorem fault?_eligibleMethods (graph : Graph) (number owner : Nat) :
    fault? ((graph.row owner).level.eligibleMethods graph.resolve (.ofLevel number))
      = graph.levelFault? number owner := by
  unfold Level.eligibleMethods levelFault?
  rw [fault?_mapM, findSome?_filter, Row.level, List.findSome?_map, findSome?_filter]
  refine congrArg (List.findSome? · _) (funext fun method => ?_)
  -- A method that was dropped is no part of the level, one that cannot be listed is not read.
  cases hdropped : method.dropped with
  | true =>
      have hnot : ¬method.IsEligible number := by
        intro h
        rw [h.1] at hdropped
        exact nomatch hdropped
      rw [if_neg hnot]
      rfl
  | false =>
      cases heligible : method.decl.isEligible (.ofLevel number) with
      | true =>
          rw [if_pos (MethodRow.isEligible_iff.2 ⟨hdropped, heligible⟩), methodFault?]
          simp only [Function.comp_apply, heligible]
          exact method.fault?_read (graph.methodScope owner method)
      | false =>
          have hnot : ¬method.IsEligible number := by
            intro h
            rw [(MethodRow.isEligible_iff.1 h).2] at heligible
            exact nomatch heligible
          rw [if_neg hnot]
          simp only [Function.comp_apply, heligible]
          rfl

/-- The levels of a type are treated by their numbers. -/
theorem eachLevel_levels {β : Type} (graph : Graph) (rule : Origin → Level → β) (key : Nat) :
    eachLevel rule (graph.levels key)
      = (graph.lineage key).mapIdx fun number owner =>
          rule (.ofLevel number) (graph.row owner).level := by
  rw [eachLevel_eq_mapIdx, levels]
  apply List.ext_getElem?
  intro number
  rw [List.getElem?_mapIdx, List.getElem?_map, List.getElem?_mapIdx]
  cases (graph.lineage key)[number]? with
  | none => rfl
  | some owner => rfl

/-- The methods of a type fail with the fault of the first level that fails. -/
theorem fault?_methods (graph : Graph) (key : Nat) :
    fault? (graph.methods key)
      = ((graph.lineage key).mapIdx graph.levelFault?).findSome? id := by
  have hlevels : graph.levelFault? = fun number owner =>
      fault? ((graph.row owner).level.eligibleMethods graph.resolve (.ofLevel number)) := by
    funext number owner
    exact (graph.fault?_eligibleMethods number owner).symm
  -- Methods hide each other once all levels are read, and that cannot fail.
  rw [methods, listMethods, fault?_bind_pure, fault?_mapM, eachLevel_levels, hlevels,
    ← map_mapIdx fault?, List.findSome?_map]
  rfl

/-- A level fails exactly when a method of it can be listed and cannot be read, with the fault of the
first such method. -/
theorem levelFault?_eq_some_iff {number owner : Nat} :
    graph.levelFault? number owner = some fault ↔
      ∃ before method after, (graph.row owner).methods = before ++ method :: after ∧
        method.IsEligible number ∧ graph.methodFault? owner method = some fault ∧
        ∀ other ∈ before, other.IsEligible number → graph.methodFault? owner other = none := by
  unfold levelFault?
  rw [List.findSome?_eq_some_iff]
  constructor
  · rintro ⟨before, method, after, hmethods, hfault, hbefore⟩
    by_cases heligible : method.IsEligible number
    · rw [if_pos heligible] at hfault
      refine ⟨before, method, after, hmethods, heligible, hfault, fun other hmem hother => ?_⟩
      have hnone := hbefore other hmem
      rw [if_pos hother] at hnone
      exact hnone
    · rw [if_neg heligible] at hfault
      exact nomatch hfault
  · rintro ⟨before, method, after, hmethods, heligible, hfault, hbefore⟩
    refine ⟨before, method, after, hmethods, ?_, fun other hmem => ?_⟩
    · rw [if_pos heligible]
      exact hfault
    · by_cases hother : other.IsEligible number
      · rw [if_pos hother]
        exact hbefore other hmem hother
      · exact if_neg hother

/-- A level does not fail exactly when all methods of it that can be listed can be read. -/
theorem levelFault?_eq_none_iff {number owner : Nat} :
    graph.levelFault? number owner = none ↔
      ∀ method ∈ (graph.row owner).methods, method.IsEligible number →
        graph.methodFault? owner method = none := by
  unfold levelFault?
  rw [List.findSome?_eq_none_iff]
  apply forall_congr'
  intro method
  apply imp_congr_right
  intro _
  by_cases heligible : method.IsEligible number
  · rw [if_pos heligible]
    exact ⟨fun h _ => h, fun h => h heligible⟩
  · rw [if_neg heligible]
    exact ⟨fun _ h => absurd h heligible, fun _ => rfl⟩

/-- The fault is that of the first method, in the order of levels and declarations, that can be listed
for a type and cannot be read. -/
def IsFirstFault (graph : Graph) (key : Nat) (fault : Fault) : Prop :=
  ∃ nearer owner further before method after,
    graph.lineage key = nearer ++ owner :: further ∧
    (graph.row owner).methods = before ++ method :: after ∧
    method.IsEligible nearer.length ∧ graph.methodFault? owner method = some fault ∧
    (∀ number other, nearer[number]? = some other → ∀ earlier ∈ (graph.row other).methods,
      earlier.IsEligible number → graph.methodFault? other earlier = none) ∧
    ∀ earlier ∈ before, earlier.IsEligible nearer.length → graph.methodFault? owner earlier = none

/-- The methods of a type fail exactly with the fault of the first one that can be listed and cannot
be read. -/
theorem methods_eq_error_iff :
    graph.methods key = .error fault ↔ graph.IsFirstFault key fault := by
  rw [← fault?_eq_some_iff, fault?_methods, findSome?_mapIdx_eq_some_iff]
  simp only [levelFault?_eq_some_iff, levelFault?_eq_none_iff]
  constructor
  · rintro ⟨nearer, owner, further, hlineage, ⟨before, method, after, hmethods, heligible, hfault,
      hbefore⟩, hnearer⟩
    exact ⟨nearer, owner, further, before, method, after, hlineage, hmethods, heligible, hfault,
      hnearer, hbefore⟩
  · rintro ⟨nearer, owner, further, before, method, after, hlineage, hmethods, heligible, hfault,
      hnearer, hbefore⟩
    exact ⟨nearer, owner, further, hlineage, ⟨before, method, after, hmethods, heligible, hfault,
      hbefore⟩, hnearer⟩

theorem exists_methodFault?_iff {owner : Nat} {method : MethodRow} :
    (∃ fault, graph.methodFault? owner method = some fault) ↔
      ∃ signature ∈ method.signatures, ∃ fault,
        (graph.methodScope owner method).interpret signature = .error fault := by
  simp only [methodFault?, ← Option.isSome_iff_exists, List.findSome?_isSome_iff]
  simp only [Option.isSome_iff_exists, fault?_eq_some_iff]

/-- The methods of a type fail exactly when a method of its chain can be listed and has a signature
that cannot be read. -/
theorem exists_methods_eq_error_iff :
    (∃ fault, graph.methods key = .error fault) ↔
      ∃ number owner, (graph.lineage key)[number]? = some owner ∧
        ∃ method ∈ (graph.row owner).methods, method.IsEligible number ∧
          ∃ signature ∈ method.signatures, ∃ fault,
            (graph.methodScope owner method).interpret signature = .error fault := by
  simp only [← exists_methodFault?_iff]
  constructor
  · rintro ⟨fault, h⟩
    obtain ⟨nearer, owner, further, before, method, after, hlineage, hmethods, heligible, hfault,
      -, -⟩ := methods_eq_error_iff.1 h
    refine ⟨nearer.length, owner, ?_, method, ?_, heligible, fault, hfault⟩
    · rw [hlineage]
      simp
    · rw [hmethods]
      exact List.mem_append_right before List.mem_cons_self
  · rintro ⟨number, owner, howner, method, hmethod, heligible, fault, hfault⟩
    cases hlisted : graph.methods key with
    | error other => exact ⟨other, rfl⟩
    | ok listed =>
        -- A listing that succeeds has no level that fails.
        have hnone := fault?_eq_none_iff.2 ⟨listed, hlisted⟩
        rw [fault?_methods, List.findSome?_eq_none_iff] at hnone
        have hmem : graph.levelFault? number owner ∈
            (graph.lineage key).mapIdx graph.levelFault? := by
          apply List.mem_of_getElem? (i := number)
          rw [List.getElem?_mapIdx, howner]
          rfl
        have hlevel := levelFault?_eq_none_iff.1 (hnone _ hmem) method hmethod heligible
        rw [hfault] at hlevel
        exact nomatch hlevel

end Graph

end Metadata

end TypeSurface
