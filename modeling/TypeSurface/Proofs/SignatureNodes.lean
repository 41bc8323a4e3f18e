import TypeSurface.Metadata.Scope

/-!
# The nodes of a signature

Interpretation goes through a signature from its root. `Signature.visits` lists the nodes with their
depths in the order in which they are met: each one in front of its parts, the parts from left to
right. Nothing else of a signature is looked at, so two scopes that give every node the same meaning
interpret the signature alike, also further down, as long as every node stays on its side of the limit
of nesting (`interpretAt_congr`).
-/

set_option autoImplicit false

namespace TypeSurface.Metadata

/-- A node of a signature with its depth. -/
structure Visit where
  depth : Nat
  node : Signature
deriving Repr

/-- The same node one step deeper. -/
def Visit.deeper (visit : Visit) : Visit := ⟨visit.depth + 1, visit.node⟩

namespace Signature

/-- The signatures that interpretation goes into from a signature, in order. A pointer to a method is
not gone into. -/
def parts : Signature → List Signature
  | .vector element => [element]
  | .array element _ => [element]
  | .pointer target => [target]
  | .byReference target => [target]
  | .pinned target => [target]
  | .instantiation base arguments => base :: arguments
  | _ => []

mutual

/-- The nodes of a signature that lies at a depth, each one in front of the nodes of its parts. -/
def visits (depth : Nat) : Signature → List Visit
  | .vector element => ⟨depth, .vector element⟩ :: element.visits (depth + 1)
  | .array element rank => ⟨depth, .array element rank⟩ :: element.visits (depth + 1)
  | .pointer target => ⟨depth, .pointer target⟩ :: target.visits (depth + 1)
  | .byReference target => ⟨depth, .byReference target⟩ :: target.visits (depth + 1)
  | .pinned target => ⟨depth, .pinned target⟩ :: target.visits (depth + 1)
  | .instantiation base arguments =>
      ⟨depth, .instantiation base arguments⟩
        :: (base.visits (depth + 1) ++ allVisits (depth + 1) arguments)
  | leaf => [⟨depth, leaf⟩]

/-- The nodes of signatures that lie side by side at a depth. -/
def allVisits (depth : Nat) : List Signature → List Visit
  | [] => []
  | signature :: rest => signature.visits depth ++ allVisits depth rest

end

theorem allVisits_eq_flatMap (depth : Nat) (signatures : List Signature) :
    allVisits depth signatures = signatures.flatMap (visits depth) := by
  induction signatures with
  | nil => rfl
  | cons signature rest ih => rw [allVisits, ih, List.flatMap_cons]

theorem visits_eq_cons (depth : Nat) (signature : Signature) :
    signature.visits depth = ⟨depth, signature⟩ :: signature.parts.flatMap (visits (depth + 1)) := by
  cases signature with
  | instantiation base arguments =>
      rw [visits, parts, List.flatMap_cons, allVisits_eq_flatMap]
  | _ => simp [visits, parts]

theorem root_mem_visits (depth : Nat) (signature : Signature) :
    ⟨depth, signature⟩ ∈ signature.visits depth := by
  rw [visits_eq_cons]
  exact List.mem_cons_self

theorem mem_visits_of_part {depth : Nat} {part signature : Signature} {visit : Visit}
    (hpart : part ∈ signature.parts) (hvisit : visit ∈ part.visits (depth + 1)) :
    visit ∈ signature.visits depth := by
  rw [visits_eq_cons]
  exact List.mem_cons_of_mem _ (List.mem_flatMap.2 ⟨part, hpart, hvisit⟩)

/-- The parts of a signature are smaller than the signature. -/
theorem sizeOf_lt_of_mem_parts {part signature : Signature} (h : part ∈ signature.parts) :
    sizeOf part < sizeOf signature := by
  cases signature with
  | instantiation base arguments =>
      rw [instantiation.sizeOf_spec]
      rcases List.mem_cons.1 h with rfl | hargument
      · omega
      · have hlt := List.sizeOf_lt_of_mem hargument
        omega
  | vector inner | array inner | pointer inner | byReference inner | pinned inner =>
      obtain rfl := List.mem_singleton.1 h
      simp only [vector.sizeOf_spec, array.sizeOf_spec, pointer.sizeOf_spec,
        byReference.sizeOf_spec, pinned.sizeOf_spec]
      omega
  | _ => exact absurd h List.not_mem_nil

theorem inductionOnParts {property : Signature → Prop}
    (step : ∀ signature, (∀ part ∈ signature.parts, property part) → property signature)
    (signature : Signature) : property signature :=
  step signature fun part _ => inductionOnParts step part
termination_by sizeOf signature
decreasing_by exact sizeOf_lt_of_mem_parts (by assumption)

/-- A signature that lies one step deeper has its nodes one step deeper. -/
theorem visits_succ (depth : Nat) (signature : Signature) :
    signature.visits (depth + 1) = (signature.visits depth).map Visit.deeper := by
  induction signature using inductionOnParts generalizing depth with
  | step signature ih =>
      rw [visits_eq_cons, visits_eq_cons, List.map_cons, List.map_flatMap, List.flatMap_def,
        List.flatMap_def]
      congr 2
      apply List.map_congr_left
      intro part hpart
      exact ih part hpart (depth + 1)

/-- Depths grow by one from a node to its parts, so a signature above a limit of which no node lies at
the limit lies above it as a whole. -/
theorem depth_lt_of_ne {limit depth : Nat} {signature : Signature} (hdepth : depth ≤ limit)
    (h : ∀ visit ∈ signature.visits depth, visit.depth ≠ limit) :
    ∀ visit ∈ signature.visits depth, visit.depth < limit := by
  induction signature using inductionOnParts generalizing depth with
  | step signature ih =>
      have hroot : depth < limit :=
        Nat.lt_of_le_of_ne hdepth (h _ (root_mem_visits depth signature))
      intro visit hvisit
      rw [visits_eq_cons] at hvisit
      rcases List.mem_cons.1 hvisit with rfl | hvisit
      · exact hroot
      · obtain ⟨part, hpart, hvisit⟩ := List.mem_flatMap.1 hvisit
        exact ih part hpart hroot (fun other hother => h other (mem_visits_of_part hpart hother))
          visit hvisit

end Signature

namespace Scope

variable {κ : Type} {scope other : Scope κ} {depth shift : Nat} {signature : Signature}

theorem parameter_congr {owner : ParameterOwner} {index : Nat}
    (hname : (other.parametersOf owner)[index]? = (scope.parametersOf owner)[index]?)
    (hcount : (other.parametersOf owner).length = (scope.parametersOf owner).length) :
    other.parameter owner index = scope.parameter owner index := by
  rw [parameter, parameter, hname, hcount]

/-- Two scopes give a node the same meaning: a token has the same handle, an index the same generic
parameter. -/
def AgreeOn (scope other : Scope κ) : Signature → Prop
  | .classType token => other.resolve token = scope.resolve token
  | .valueType token => other.resolve token = scope.resolve token
  | .typeParameter index => other.parameter .type index = scope.parameter .type index
  | .methodParameter index => other.parameter .method index = scope.parameter .method index
  | _ => True

/-- Signatures that lie side by side are interpreted alike when each of them is. -/
theorem interpretAllAt_congr {signatures : List Signature}
    (h : ∀ signature ∈ signatures, other.interpretAt (depth + shift) signature
      = scope.interpretAt depth signature) :
    other.interpretAllAt (depth + shift) signatures = scope.interpretAllAt depth signatures := by
  induction signatures with
  | nil => rw [interpretAllAt, interpretAllAt]
  | cons first rest ih =>
      rw [interpretAllAt, interpretAllAt, h first List.mem_cons_self,
        ih fun signature hmem => h signature (List.mem_cons_of_mem first hmem)]

/-- An interpretation depends on the meanings of the nodes of its signature only, and on which of them
lie at the limit of nesting or beyond. -/
theorem interpretAt_congr
    (hmeaning : ∀ visit ∈ signature.visits depth, scope.AgreeOn other visit.node)
    (hlimit : ∀ visit ∈ signature.visits depth,
      nestingLimit ≤ visit.depth + shift ↔ nestingLimit ≤ visit.depth) :
    other.interpretAt (depth + shift) signature = scope.interpretAt depth signature := by
  induction signature using Signature.inductionOnParts generalizing depth with
  | step signature ih =>
      have hroot := hmeaning _ (Signature.root_mem_visits depth signature)
      have hrootLimit := hlimit _ (Signature.root_mem_visits depth signature)
      have hpart : ∀ part ∈ signature.parts, other.interpretAt (depth + shift + 1) part
          = scope.interpretAt (depth + 1) part := by
        intro part hpart
        rw [Nat.add_right_comm]
        exact ih part hpart
          (fun visit hvisit => hmeaning visit (Signature.mem_visits_of_part hpart hvisit))
          (fun visit hvisit => hlimit visit (Signature.mem_visits_of_part hpart hvisit))
      rw [interpretAt.eq_def, interpretAt.eq_def]
      by_cases hdepth : nestingLimit ≤ depth
      · rw [if_pos hdepth, if_pos (hrootLimit.2 hdepth)]
      · rw [if_neg hdepth, if_neg fun h => hdepth (hrootLimit.1 h)]
        cases signature with
        | builtIn type => rfl
        | classType token | valueType token => exact congrArg Except.ok hroot
        | typeParameter index | methodParameter index => exact hroot
        | vector inner | array inner | pointer inner | byReference inner =>
            exact congrArg (Except.map _) (hpart inner List.mem_cons_self)
        | pinned target => exact hpart target List.mem_cons_self
        | instantiation base arguments =>
            have hall : other.interpretAllAt (depth + shift + 1) arguments
                = scope.interpretAllAt (depth + 1) arguments := by
              rw [Nat.add_right_comm]
              apply interpretAllAt_congr
              intro argument hargument
              rw [← hpart argument (List.mem_cons_of_mem base hargument), Nat.add_right_comm]
            simp only [hpart base List.mem_cons_self, hall]
        | functionPointer result parameters => rfl
        | unnamed element => rfl

theorem interpret_congr (h : ∀ visit ∈ signature.visits 0, scope.AgreeOn other visit.node) :
    other.interpret signature = scope.interpret signature := by
  have hlimit : ∀ visit ∈ signature.visits 0,
      nestingLimit ≤ visit.depth + 0 ↔ nestingLimit ≤ visit.depth := fun _ _ => Iff.rfl
  exact interpretAt_congr h hlimit

end Scope

end TypeSurface.Metadata
