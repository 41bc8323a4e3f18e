import Mathlib.Logic.Function.Iterate
import TypeSurface.Proofs.Lineage
import TypeSurface.Proofs.References

/-!
# The longest chain of bases

A chain of bases begins with a type, goes on from each type to its base as long as the base resolves
and is defined by the binary, and holds no token twice. All chains of a type are first parts of one
(`IsBaseChain.isPrefix_lineage`), and this one is its lineage. What ends the walk along it are the
tokens it has met and not the graph, so it ends whatever cycles there are: each round of `Walk.round`
adds a base or is the last, and as many rounds as the lineage has types are enough (`iterate_round`).
-/

set_option autoImplicit false

namespace TypeSurface.Metadata

namespace Graph

variable {graph : Graph} {seen : List Token} {key base : Nat}

/-- The first type goes on to the second: its base is that one, resolves, and is defined by the binary.
-/
def Climbs (graph : Graph) (key base : Nat) : Prop :=
  graph.base? key = some base ∧ (graph.token base).isDefinition = true

/-- The types form a chain of bases of the first one, and no two of them have the same token. -/
structure IsBaseChain (graph : Graph) (key : Nat) (chain : List Nat) : Prop where
  starts : chain.head? = some key
  climbs : chain.IsChain graph.Climbs
  nodup : (chain.map graph.token).Nodup

/-- Nothing can be added to the chain: its last type has no base that resolves, or one that the binary
does not define, or one whose token is in the chain. -/
def CannotGrow (graph : Graph) (chain : List Nat) : Prop :=
  ∀ last ∈ chain.getLast?, graph.base? last = none ∨
    ∃ base, graph.base? last = some base ∧
      ((graph.token base).isDefinition = false ∨ graph.token base ∈ chain.map graph.token)

/-! ## What a walk meets -/

/-- A walk goes on from each type to its base. -/
theorem isChain_basesFrom (graph : Graph) (seen : List Token) (key : Nat) :
    (key :: graph.basesFrom seen key).IsChain graph.Climbs := by
  induction seen, key using Graph.basesFrom.induct graph with
  | case1 seen key hnone =>
      rw [basesFrom_of_none hnone]
      exact List.IsChain.singleton key
  | case2 seen key base hnext ih =>
      obtain ⟨hbase, hdefined, -⟩ := nextBase?_eq_some_iff.1 hnext
      rw [basesFrom_of_some hnext]
      exact List.isChain_cons_cons.2 ⟨⟨hbase, hdefined⟩, ih⟩

/-- A walk meets no token that it has seen. -/
theorem token_not_mem_of_mem_basesFrom {met : Nat} (h : met ∈ graph.basesFrom seen key) :
    graph.token met ∉ seen := by
  induction seen, key using Graph.basesFrom.induct graph with
  | case1 seen key hnone =>
      rw [basesFrom_of_none hnone] at h
      exact absurd h List.not_mem_nil
  | case2 seen key base hnext ih =>
      rw [basesFrom_of_some hnext] at h
      rcases List.mem_cons.1 h with rfl | h
      · exact (nextBase?_eq_some_iff.1 hnext).2.2
      · exact fun hseen => ih h (List.mem_cons_of_mem _ hseen)

/-- A walk meets no token twice. -/
theorem nodup_map_token_basesFrom (graph : Graph) (seen : List Token) (key : Nat) :
    ((graph.basesFrom seen key).map graph.token).Nodup := by
  induction seen, key using Graph.basesFrom.induct graph with
  | case1 seen key hnone =>
      rw [basesFrom_of_none hnone]
      exact List.nodup_nil
  | case2 seen key base hnext ih =>
      rw [basesFrom_of_some hnext, List.map_cons, List.nodup_cons]
      refine ⟨fun hmem => ?_, ih⟩
      obtain ⟨met, hmet, htoken⟩ := List.mem_map.1 hmem
      exact token_not_mem_of_mem_basesFrom hmet (htoken ▸ List.mem_cons_self)

/-- Every base that a walk meets resolves. -/
theorem isLive_of_mem_basesFrom {met : Nat} (h : met ∈ graph.basesFrom seen key) :
    graph.isLive met = true := by
  induction seen, key using Graph.basesFrom.induct graph with
  | case1 seen key hnone =>
      rw [basesFrom_of_none hnone] at h
      exact absurd h List.not_mem_nil
  | case2 seen key base hnext ih =>
      rw [basesFrom_of_some hnext] at h
      rcases List.mem_cons.1 h with rfl | h
      · exact (Option.filter_eq_some_iff.1 (nextBase?_eq_some_iff.1 hnext).1).2
      · exact ih h

/-- Where a walk ends, a base that resolves and is defined by the binary has a token that was seen from
the start or met on the way. -/
theorem token_mem_of_getLast?_basesFrom {last : Nat}
    (hlast : last ∈ (key :: graph.basesFrom seen key).getLast?) (hclimbs : graph.Climbs last base) :
    graph.token base ∈ (graph.basesFrom seen key).map graph.token ++ seen := by
  induction seen, key using Graph.basesFrom.induct graph with
  | case1 seen key hnone =>
      rw [basesFrom_of_none hnone] at hlast ⊢
      obtain rfl : key = last := Option.some.inj hlast
      by_contra hnew
      -- The walk would have gone on to a base whose token is new.
      have hnext := nextBase?_eq_some_iff.2 ⟨hclimbs.1, hclimbs.2, hnew⟩
      exact absurd (hnone.symm.trans hnext) (by simp)
  | case2 seen key next hnext ih =>
      rw [basesFrom_of_some hnext] at hlast ⊢
      rw [List.getLast?_cons_cons] at hlast
      have hmem := ih hlast
      rw [List.mem_append, List.mem_cons] at hmem
      rw [List.map_cons, List.cons_append, List.mem_cons, List.mem_append]
      exact or_left_comm.1 hmem

/-- What goes on from a type to bases with new tokens is a first part of the walk. -/
theorem isPrefix_basesFrom {bases : List Nat} (hclimbs : (key :: bases).IsChain graph.Climbs)
    (hnodup : (bases.map graph.token).Nodup) (hnew : ∀ met ∈ bases, graph.token met ∉ seen) :
    bases <+: graph.basesFrom seen key := by
  induction bases generalizing seen key with
  | nil => exact List.nil_prefix
  | cons base rest ih =>
      obtain ⟨⟨hbase, hdefined⟩, hrest⟩ := List.isChain_cons_cons.1 hclimbs
      rw [List.map_cons, List.nodup_cons] at hnodup
      have hnext : graph.nextBase? seen key = some base :=
        nextBase?_eq_some_iff.2 ⟨hbase, hdefined, hnew base List.mem_cons_self⟩
      rw [basesFrom_of_some hnext, List.prefix_cons_inj]
      apply ih hrest hnodup.2
      intro met hmet hseen
      rcases List.mem_cons.1 hseen with htoken | hseen
      · exact hnodup.1 (htoken ▸ List.mem_map_of_mem hmet)
      · exact hnew met (List.mem_cons_of_mem base hmet) hseen

/-! ## Lineages -/

/-- The lineage of a type is a chain of its bases. -/
theorem isBaseChain_lineage (graph : Graph) (key : Nat) :
    graph.IsBaseChain key (graph.lineage key) where
  starts := rfl
  climbs := isChain_basesFrom graph [graph.token key] key
  nodup := by
    rw [lineage, List.map_cons, List.nodup_cons]
    refine ⟨fun hmem => ?_, nodup_map_token_basesFrom graph _ key⟩
    obtain ⟨met, hmet, htoken⟩ := List.mem_map.1 hmem
    exact token_not_mem_of_mem_basesFrom hmet (List.mem_singleton.2 htoken)

/-- Nothing can be added to a lineage. -/
theorem cannotGrow_lineage (graph : Graph) (key : Nat) : graph.CannotGrow (graph.lineage key) := by
  intro last hlast
  cases hbase : graph.base? last with
  | none => exact Or.inl rfl
  | some base =>
      refine Or.inr ⟨base, rfl, ?_⟩
      cases hdefined : (graph.token base).isDefinition with
      | false => exact Or.inl rfl
      | true =>
          have hmem := token_mem_of_getLast?_basesFrom hlast ⟨hbase, hdefined⟩
          rw [List.mem_append, List.mem_singleton] at hmem
          rw [lineage, List.map_cons, List.mem_cons]
          exact Or.inr hmem.symm

/-- Every chain of bases of a type is a first part of its lineage. -/
theorem IsBaseChain.isPrefix_lineage {chain : List Nat} (h : graph.IsBaseChain key chain) :
    chain <+: graph.lineage key := by
  cases chain with
  | nil => exact List.nil_prefix
  | cons first bases =>
      obtain rfl : first = key := Option.some.inj h.starts
      have hnodup := h.nodup
      rw [List.map_cons, List.nodup_cons] at hnodup
      rw [lineage, List.prefix_cons_inj]
      apply isPrefix_basesFrom h.climbs hnodup.2
      intro met hmet hseen
      exact hnodup.1 (List.mem_singleton.1 hseen ▸ List.mem_map_of_mem hmet)

/-- A lineage holds no more types than there are rows. -/
theorem length_lineage_le (hkey : key < graph.rows.size) :
    (graph.lineage key).length ≤ graph.rows.size := by
  have hrows : graph.lineage key ⊆ List.range graph.rows.size := by
    intro met hmet
    rcases List.mem_cons.1 hmet with rfl | hmet
    · exact List.mem_range.2 hkey
    · exact List.mem_range.2 (lt_of_isLive (isLive_of_mem_basesFrom hmet))
  have hnodup := List.Nodup.of_map graph.token (isBaseChain_lineage graph key).nodup
  have hlength := hnodup.length_le_of_subset hrows
  rwa [List.length_range] at hlength

/-! ## Rounds -/

/-- A walk on its way: the chain so far, and the base that is looked at next, if the walk goes on. -/
structure Walk where
  chain : List Nat
  next : Option Nat

/-- One round: a base that the binary defines and whose token the chain does not hold is added, and its
own base is the next one. Any other base ends the walk, and a walk that has ended stays as it is. -/
def Walk.round (graph : Graph) (walk : Walk) : Walk :=
  match walk.next with
  | none => walk
  | some base =>
      if !(graph.token base).isDefinition || (walk.chain.map graph.token).contains (graph.token base)
      then ⟨walk.chain, none⟩
      else ⟨walk.chain ++ [base], graph.base? base⟩

/-- A round with no next base is the last. -/
theorem round_of_none {chain : List Nat} (hseen : ∀ token, token ∈ seen ↔ token ∈ chain.map graph.token)
    (h : graph.nextBase? seen key = none) :
    Walk.round graph ⟨chain, graph.base? key⟩ = ⟨chain, none⟩ := by
  cases hbase : graph.base? key with
  | none => rfl
  | some base =>
      have hends : (!(graph.token base).isDefinition
          || (chain.map graph.token).contains (graph.token base)) = true := by
        by_contra hgoes
        rw [Bool.or_eq_true, not_or, Bool.not_eq_true', Bool.not_eq_false, List.contains_iff_mem,
          ← hseen] at hgoes
        have hnext := nextBase?_eq_some_iff.2 ⟨hbase, hgoes.1, hgoes.2⟩
        exact absurd (h.symm.trans hnext) (by simp)
      simp only [Walk.round, hends, if_true]

/-- A round with a next base adds it. -/
theorem round_of_some {chain : List Nat} (hseen : ∀ token, token ∈ seen ↔ token ∈ chain.map graph.token)
    (h : graph.nextBase? seen key = some base) :
    Walk.round graph ⟨chain, graph.base? key⟩ = ⟨chain ++ [base], graph.base? base⟩ := by
  obtain ⟨hbase, hdefined, hnew⟩ := nextBase?_eq_some_iff.1 h
  have hgoes : (!(graph.token base).isDefinition
      || (chain.map graph.token).contains (graph.token base)) = false := by
    rw [hseen] at hnew
    simp [hdefined, hnew]
  simp only [Walk.round, hbase, hgoes, Bool.false_eq_true, if_false]

/-- One round more than there are bases makes the chain, and then the walk has ended. -/
theorem iterate_round (graph : Graph) (seen : List Token) (key : Nat) (chain : List Nat)
    (hseen : ∀ token, token ∈ seen ↔ token ∈ chain.map graph.token) :
    (Walk.round graph)^[(graph.basesFrom seen key).length + 1] ⟨chain, graph.base? key⟩
      = ⟨chain ++ graph.basesFrom seen key, none⟩ := by
  induction seen, key using Graph.basesFrom.induct graph generalizing chain with
  | case1 seen key hnone =>
      rw [basesFrom_of_none hnone, List.append_nil]
      exact round_of_none hseen hnone
  | case2 seen key base hnext ih =>
      have hseenNext : ∀ token, token ∈ graph.token base :: seen
          ↔ token ∈ (chain ++ [base]).map graph.token := by
        intro token
        rw [List.mem_cons, hseen, List.map_append, List.mem_append, List.map_singleton,
          List.mem_singleton]
        exact Or.comm
      rw [basesFrom_of_some hnext, List.length_cons, Function.iterate_succ_apply,
        round_of_some hseen hnext, ih (chain ++ [base]) hseenNext, List.append_assoc,
        List.singleton_append]

/-- The lineage of a type is the longest chain of its bases: it begins with the type, each next type is
the base of the one before it, resolves and is defined by the binary, no token occurs twice, nothing can
be added, and every other such chain is a first part of it. The walk that makes it ends in as many rounds
as it has types, which are no more than there are rows. When the lineage of a base that the binary
defines does not come back to the token of the type, the lineage of the type is the type and then that
of the base. -/
theorem lineage_is_longest_base_chain (graph : Graph) (key : Nat) :
    graph.IsBaseChain key (graph.lineage key) ∧ graph.CannotGrow (graph.lineage key) ∧
    (∀ chain, graph.IsBaseChain key chain → chain <+: graph.lineage key) ∧
    (Walk.round graph)^[(graph.lineage key).length] ⟨[key], graph.base? key⟩
      = ⟨graph.lineage key, none⟩ ∧
    (key < graph.rows.size → (graph.lineage key).length ≤ graph.rows.size) ∧
    ∀ base, graph.base? key = some base → (graph.token base).isDefinition = true →
      graph.token key ∉ (graph.lineage base).map graph.token →
      graph.lineage key = key :: graph.lineage base := by
  refine ⟨isBaseChain_lineage graph key, cannotGrow_lineage graph key,
    fun _ hchain => hchain.isPrefix_lineage, ?_, length_lineage_le,
    fun _ hbase hdefined hacyclic => lineage_eq_cons hbase hdefined hacyclic⟩
  exact iterate_round graph [graph.token key] key [key] fun token => Iff.rfl

end Graph

namespace RingOfBases

/-- A type with its base. -/
def type (token : UInt32) (name : String) (base : Option Nat) (dropped : Bool) : Row :=
  ⟨⟨token⟩, "Lib", name, 0, false, base, [], [], [], [], [], [], dropped, true⟩

/-- A type that the binary does not define, with three bases that form a ring behind it, and a type
whose base is dropped. -/
def graph : Graph :=
  ⟨#[type 0x01000001 "Outside" (some 1) false, type 0x02000002 "First" (some 2) false,
    type 0x02000003 "Second" (some 3) false, type 0x02000004 "Third" (some 1) false,
    type 0x02000005 "Orphan" (some 5) false, type 0x02000006 "Gone" (some 1) true]⟩

end RingOfBases

open RingOfBases in
/-- The walk into the ring goes round once and ends, after four rounds. The chain behind the first type
does not come back to it, so its lineage is the type and the ring. -/
theorem walk_into_ring_ends :
    graph.lineage 0 = 0 :: graph.lineage 1 ∧ graph.lineage 0 = [0, 1, 2, 3] ∧
      graph.CannotGrow [0, 1, 2, 3] ∧ [0, 1] <+: graph.lineage 0 ∧
      (Graph.Walk.round graph)^[4] ⟨[0], some 1⟩ = ⟨[0, 1, 2, 3], none⟩ ∧
      (graph.lineage 4).length ≤ 6 ∧ graph.lineage 4 = [4] := by
  have hlineage : graph.lineage 0 = [0, 1, 2, 3] := by decide +kernel
  have hchain : graph.IsBaseChain 0 [0, 1] :=
    ⟨rfl, List.isChain_cons_cons.2 ⟨⟨rfl, rfl⟩, List.IsChain.singleton 1⟩, by decide +kernel⟩
  obtain ⟨-, hgrow, hprefix, hrounds, -, hcons⟩ := Graph.lineage_is_longest_base_chain graph 0
  obtain ⟨-, -, -, -, hlength, -⟩ := Graph.lineage_is_longest_base_chain graph 4
  rw [hlineage] at hgrow hrounds
  exact ⟨hcons 1 rfl rfl (by decide +kernel), hlineage, hgrow, hprefix _ hchain, hrounds,
    hlength (by decide), by decide +kernel⟩

end TypeSurface.Metadata
