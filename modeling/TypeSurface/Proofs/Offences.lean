import TypeSurface.Proofs.SignatureNodes

/-!
# The first offence of a signature

Interpretation gives up at the first node of a signature that it cannot take. `Scope.offence?` says
what is wrong with a node, from the node and its depth alone. Faults and nodes without a type compete
only by the order in which they are met: an interpretation comes to a handle exactly when no node
offends, and otherwise its outcome is that of the first offence (`interpret_ends_at_first_offence`).
Depth counts along one way from the root, so it says nothing about the size of a signature.
-/

set_option autoImplicit false

namespace TypeSurface.Metadata

variable {κ : Type}

/-- What keeps a signature from standing for a type. -/
inductive Offence where
  /-- A node is at fault. -/
  | faulty (fault : Fault)
  /-- A node stands for no known type. -/
  | untyped
deriving DecidableEq, Repr

namespace Offence

/-- How an interpretation ends at an offence. -/
def outcome : Offence → Except Fault (Option (Handle κ))
  | .faulty fault => .error fault
  | .untyped => .ok none

/-- The offence at which a computation ended, if it came to no result. -/
def of? {α : Type} : Except Fault (Option α) → Option Offence
  | .error fault => some (.faulty fault)
  | .ok none => some .untyped
  | .ok (some _) => none

variable {α β : Type}

theorem of?_eq_some_iff {computed : Except Fault (Option (Handle κ))} {offence : Offence} :
    of? computed = some offence ↔ computed = offence.outcome := by
  cases offence with
  | faulty fault => rcases computed with _ | _ | _ <;> simp [of?, outcome]
  | untyped => rcases computed with _ | _ | _ <;> simp [of?, outcome]

theorem of?_eq_none_iff {computed : Except Fault (Option α)} :
    of? computed = none ↔ ∃ value, computed = .ok (some value) := by
  rcases computed with _ | _ | _ <;> simp [of?]

theorem of?_map (change : α → β) (computed : Except Fault (Option α)) :
    of? (computed.map (·.map change)) = of? computed := by
  rcases computed with _ | _ | _ <;> rfl

end Offence

namespace Scope

/-- The offence of an index: its owner declares no generic parameter that it counts. -/
def indexOffence? (scope : Scope κ) (owner : ParameterOwner) (index : Nat) : Option Offence :=
  if index < (scope.parametersOf owner).length then none
  else some (.faulty (.parameterOutOfRange owner index (scope.parametersOf owner).length))

/-- The offence of a token: it is not known. -/
def tokenOffence? (scope : Scope κ) (token : Token) : Option Offence :=
  if (scope.resolve token).isSome then none else some .untyped

/-- The offence of a node. At the limit of nesting every node offends, whatever it is. Elsewhere an
index that counts no generic parameter, a token that is not known, and an element without a type. -/
def offence? (scope : Scope κ) (visit : Visit) : Option Offence :=
  if visit.depth = nestingLimit then some (.faulty (.nestingLimit nestingLimit))
  else
    match visit.node with
    | .typeParameter index => scope.indexOffence? .type index
    | .methodParameter index => scope.indexOffence? .method index
    | .classType token => scope.tokenOffence? token
    | .valueType token => scope.tokenOffence? token
    | .functionPointer _ _ => some .untyped
    | .unnamed _ => some .untyped
    | _ => none

variable {scope : Scope κ} {depth : Nat} {signature : Signature}

/-- Looking up an index ends at its offence. -/
theorem of?_parameter (scope : Scope κ) (owner : ParameterOwner) (index : Nat) :
    Offence.of? (scope.parameter owner index) = scope.indexOffence? owner index := by
  unfold parameter indexOffence?
  cases h : (scope.parametersOf owner)[index]? with
  | none =>
      rw [if_neg (Nat.not_lt.2 (List.getElem?_eq_none_iff.1 h))]
      rfl
  | some name =>
      rw [if_pos (List.getElem?_eq_some_iff.1 h).1]
      rfl

theorem of?_resolve (scope : Scope κ) (token : Token) :
    Offence.of? (.ok (scope.resolve token)) = scope.tokenOffence? token := by
  unfold tokenOffence?
  cases scope.resolve token <;> rfl

/-- Signatures that lie side by side are given up at the first offence among their nodes. -/
theorem of?_interpretAllAt {signatures : List Signature}
    (h : ∀ signature ∈ signatures, Offence.of? (scope.interpretAt depth signature)
      = (signature.visits depth).findSome? scope.offence?) :
    Offence.of? (scope.interpretAllAt depth signatures)
      = (signatures.flatMap (Signature.visits depth)).findSome? scope.offence? := by
  induction signatures with
  | nil => rfl
  | cons first rest ih =>
      have hfirst := h first List.mem_cons_self
      have hrest := ih fun signature hmem => h signature (List.mem_cons_of_mem first hmem)
      rw [interpretAllAt, List.flatMap_cons, List.findSome?_append, ← hfirst, ← hrest]
      rcases scope.interpretAt depth first with fault | _ | handle
      · rfl
      · rfl
      · exact Offence.of?_map _ _

theorem of?_interpretAt_limit (scope : Scope κ) (signature : Signature) :
    Offence.of? (scope.interpretAt nestingLimit signature)
      = (signature.visits nestingLimit).findSome? scope.offence? := by
  rw [interpretAt.eq_def, if_pos (Nat.le_refl nestingLimit), Signature.visits_eq_cons,
    List.findSome?_cons, offence?, if_pos rfl]
  rfl

/-- A signature is given up at the first offence among its nodes. -/
theorem of?_interpretAt (scope : Scope κ) (hdepth : depth ≤ nestingLimit) (signature : Signature) :
    Offence.of? (scope.interpretAt depth signature)
      = (signature.visits depth).findSome? scope.offence? := by
  induction signature using Signature.inductionOnParts generalizing depth with
  | step signature ih =>
      rcases Nat.eq_or_lt_of_le hdepth with rfl | hlt
      · exact of?_interpretAt_limit scope signature
      -- A root above the limit either offends and has no parts, or leaves the matter to its parts.
      · have hparts : Offence.of? (scope.interpretAllAt (depth + 1) signature.parts)
            = (signature.parts.flatMap (Signature.visits (depth + 1))).findSome? scope.offence? :=
          of?_interpretAllAt fun part hpart => ih part hpart hlt
        rw [Signature.visits_eq_cons, List.findSome?_cons, ← hparts, offence?,
          if_neg (Nat.ne_of_lt hlt), interpretAt.eq_def, if_neg (Nat.not_le.2 hlt)]
        cases signature with
        | builtIn type => rfl
        | classType token | valueType token =>
            simp only [of?_resolve]
            cases scope.tokenOffence? token <;> rfl
        | typeParameter index | methodParameter index =>
            simp only [of?_parameter]
            cases scope.indexOffence? _ index <;> rfl
        | vector inner | array inner | pointer inner | byReference inner | pinned inner =>
            simp only [Signature.parts, interpretAllAt]
            rcases scope.interpretAt (depth + 1) inner with fault | _ | handle <;> rfl
        | instantiation base arguments =>
            simp only [Signature.parts, interpretAllAt]
            rcases scope.interpretAt (depth + 1) base with fault | _ | handle
            · rfl
            · rfl
            · simp only [Offence.of?_map]
        | functionPointer result parameters => rfl
        | unnamed element => rfl

/-- An interpretation comes to a handle exactly when no node of the signature offends, and otherwise
its outcome is that of the first node that offends. -/
theorem interpret_ends_at_first_offence (scope : Scope κ) (signature : Signature) :
    ((∃ handle, scope.interpret signature = .ok (some handle)) ↔
      ∀ visit ∈ signature.visits 0, scope.offence? visit = none) ∧
    ∀ offence : Offence, scope.interpret signature = offence.outcome ↔
      ∃ before visit after, signature.visits 0 = before ++ visit :: after ∧
        scope.offence? visit = some offence ∧
        ∀ earlier ∈ before, scope.offence? earlier = none := by
  have hends := of?_interpretAt scope (Nat.zero_le nestingLimit) signature
  constructor
  · rw [interpret, ← Offence.of?_eq_none_iff, hends, List.findSome?_eq_none_iff]
  · intro offence
    rw [interpret, ← Offence.of?_eq_some_iff, hends, List.findSome?_eq_some_iff]

namespace OffendingParts

/-- A scope of a type with one generic parameter that knows no token. -/
def boxScope : Scope Nat := ⟨fun _ => none, ["T"], []⟩

/-- An instance of `System.Object` with two arguments. -/
def pair (first second : Signature) : Signature :=
  .instantiation (.builtIn .object) [first, second]

/-- A token that is not known. -/
def unknown : Signature := .classType ⟨0x01000001⟩

/-- A generic parameter that is not declared. -/
def undeclared : Signature := .typeParameter 1

/-- A built-in type behind a number of pointers. -/
def behind (pointers : Nat) : Signature := pointers.repeat .pointer (.builtIn .int32)

end OffendingParts

open OffendingParts in
/-- Of two arguments that offend the left one decides, and forty-nine pointers are few enough while
fifty are one too many. -/
theorem left_offence_decides :
    boxScope.interpret (pair unknown undeclared) = .ok none ∧
      boxScope.interpret (pair undeclared unknown) = .error (.parameterOutOfRange .type 1 1) ∧
      (∃ handle, boxScope.interpret (behind 49) = .ok (some handle)) ∧
      boxScope.interpret (behind 50) = .error (.nestingLimit 50) := by
  have hends : ∀ signature offence,
      (signature.visits 0).findSome? boxScope.offence? = some offence →
        boxScope.interpret signature = offence.outcome := by
    intro signature offence h
    exact ((interpret_ends_at_first_offence boxScope signature).2 offence).2
      (List.findSome?_eq_some_iff.1 h)
  refine ⟨?_, ?_, ?_, ?_⟩
  · exact hends (pair unknown undeclared) .untyped (by decide +kernel)
  · exact hends (pair undeclared unknown) (.faulty (.parameterOutOfRange .type 1 1))
      (by decide +kernel)
  · exact (interpret_ends_at_first_offence boxScope (behind 49)).1.2 (by decide +kernel)
  · exact hends (behind 50) (.faulty (.nestingLimit 50)) (by decide +kernel)

end Scope

end TypeSurface.Metadata
