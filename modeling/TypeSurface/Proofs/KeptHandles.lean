import TypeSurface.Proofs.MethodSources

/-!
# What interpretation keeps

A handle that a scope makes of a signature is built from the handles of its tokens, from built-in types
and from generic parameters. So a property that these have, and that decorations, arrays and generic
instances keep, is a property of every handle the scope makes (`Scope.Keeps.of_interpretAt`), and of every
type of a method that is read in the scope (`Scope.Keeps.of_read`).
-/

set_option autoImplicit false

namespace TypeSurface

/-- The types of a method: that of its result, then those of its parameters. -/
def Member.Method.types {α : Type} (method : Member.Method α) : List α :=
  method.result :: method.parameters.map (·.type)

namespace Metadata

variable {κ : Type}

/-- The handles from which a scope starts have the property, and what is built of handles with the
property has it. -/
structure Scope.Keeps (scope : Scope κ) (property : Handle κ → Prop) : Prop where
  resolve : ∀ token handle, scope.resolve token = some handle → property handle
  builtIn : ∀ type : BuiltIn, property (.system type.systemName)
  parameter : ∀ owner, ∀ name ∈ scope.parametersOf owner, property (.parameter name)
  array : ∀ element, property element → property (.array element)
  pointer : ∀ target, property target → property target.pointer
  byReference : ∀ target, property target → property target.byReference
  named : ∀ base arguments, property base → (∀ argument ∈ arguments, property argument) →
    property (.named base.id arguments)

namespace Scope.Keeps

variable {scope : Scope κ} {property : Handle κ → Prop}

theorem of_map {part : Except Fault (Option (Handle κ))} {make : Handle κ → Handle κ}
    {handle : Handle κ} (h : part.map (Option.map make) = .ok (some handle))
    (hpart : ∀ inner, part = .ok (some inner) → property inner)
    (hmake : ∀ inner, property inner → property (make inner)) : property handle := by
  obtain ⟨found, hfound, hmap⟩ := map_eq_ok_iff.1 h
  obtain ⟨inner, rfl, rfl⟩ := Option.map_eq_some_iff.1 hmap
  exact hmake inner (hpart inner hfound)

theorem of_parameter (hkeeps : scope.Keeps property) {owner : ParameterOwner} {index : Nat}
    {handle : Handle κ} (h : scope.parameter owner index = .ok (some handle)) : property handle := by
  unfold Scope.parameter at h
  split at h
  · rename_i name hname
    obtain rfl := Option.some.inj (Except.ok.inj h)
    exact hkeeps.parameter owner name (List.mem_of_getElem? hname)
  · exact nomatch h

mutual

/-- The handle of a signature has the property. -/
theorem of_interpretAt (hkeeps : scope.Keeps property) (signature : Signature) {depth : Nat}
    {handle : Handle κ} (h : scope.interpretAt depth signature = .ok (some handle)) :
    property handle := by
  unfold interpretAt at h
  split at h
  · exact nomatch h
  · cases signature with
    | builtIn type =>
        obtain rfl := Option.some.inj (Except.ok.inj h)
        exact hkeeps.builtIn type
    | classType token => exact hkeeps.resolve token handle (Except.ok.inj h)
    | valueType token => exact hkeeps.resolve token handle (Except.ok.inj h)
    | typeParameter index => exact hkeeps.of_parameter h
    | methodParameter index => exact hkeeps.of_parameter h
    | vector element => exact of_map h (fun _ => hkeeps.of_interpretAt element) hkeeps.array
    | array element rank => exact of_map h (fun _ => hkeeps.of_interpretAt element) hkeeps.array
    | pointer target => exact of_map h (fun _ => hkeeps.of_interpretAt target) hkeeps.pointer
    | byReference target => exact of_map h (fun _ => hkeeps.of_interpretAt target) hkeeps.byReference
    | pinned target => exact hkeeps.of_interpretAt target h
    | instantiation base arguments =>
        simp only at h
        split at h
        · exact nomatch h
        · exact nomatch h
        · rename_i found hfound
          obtain ⟨handles, hhandles, hmap⟩ := map_eq_ok_iff.1 h
          obtain ⟨inner, rfl, rfl⟩ := Option.map_eq_some_iff.1 hmap
          exact hkeeps.named found inner (hkeeps.of_interpretAt base hfound)
            (hkeeps.of_interpretAllAt arguments hhandles)
    | functionPointer result parameters => exact nomatch h
    | unnamed element => exact nomatch h

/-- The handles of signatures side by side have the property. -/
theorem of_interpretAllAt (hkeeps : scope.Keeps property) (signatures : List Signature)
    {depth : Nat} {handles : List (Handle κ)}
    (h : scope.interpretAllAt depth signatures = .ok (some handles)) :
    ∀ handle ∈ handles, property handle := by
  cases signatures with
  | nil =>
      obtain rfl : [] = handles := Option.some.inj (Except.ok.inj h)
      exact fun handle hhandle => nomatch hhandle
  | cons signature rest =>
      unfold interpretAllAt at h
      split at h
      · exact nomatch h
      · exact nomatch h
      · rename_i first hfirst
        obtain ⟨others, hothers, hmap⟩ := map_eq_ok_iff.1 h
        obtain ⟨rest', rfl, rfl⟩ := Option.map_eq_some_iff.1 hmap
        exact List.forall_mem_cons.2 ⟨hkeeps.of_interpretAt signature hfirst,
          hkeeps.of_interpretAllAt rest hothers⟩

end

/-- The type of a parameter has the property, also behind the mark of one that is passed by
reference. -/
theorem of_readParameter (hkeeps : scope.Keeps property) {decl : ParameterDecl}
    {parameter : Member.Parameter (MemberType κ)} (h : decl.read scope = .ok parameter) :
    ∀ handle ∈ parameter.type, property handle := by
  obtain ⟨type, htype, rfl⟩ := ParameterDecl.read_eq_ok_iff.1 h
  have hinner : ∀ inner ∈ type, property inner := by
    rintro inner rfl
    exact hkeeps.of_interpretAt decl.signature htype
  intro handle hhandle
  cases hmark : decl.byReference with
  | true =>
      simp only [hmark, if_true] at hhandle
      obtain ⟨inner, hmem, rfl⟩ := Option.map_eq_some_iff.1 hhandle
      exact hkeeps.byReference inner (hinner inner hmem)
  | false =>
      simp only [hmark, Bool.false_eq_true, if_false] at hhandle
      exact hinner handle hhandle

/-- All types of a method that is read in the scope have the property. -/
theorem of_read (hkeeps : scope.Keeps property) {decl : MethodDecl}
    {method : Member.Method (MemberType κ)} (h : decl.read scope = .ok method) :
    ∀ type ∈ method.types, ∀ handle ∈ type, property handle := by
  obtain ⟨-, hresult, hparameters⟩ := MethodDecl.read_eq_ok_iff.1 h
  refine List.forall_mem_cons.2 ⟨fun handle hhandle => ?_, fun type htype => ?_⟩
  · rw [hhandle] at hresult
    exact hkeeps.of_interpretAt decl.result hresult
  · obtain ⟨parameter, hparameter, rfl⟩ := List.mem_map.1 htype
    obtain ⟨declared, -, hread⟩ := (mem_of_mapM_eq_ok hparameters parameter).1 hparameter
    exact hkeeps.of_readParameter hread

end Scope.Keeps

end Metadata

end TypeSurface
