import Mathlib.Data.List.Basic
import Mathlib.Logic.Function.Iterate
import TypeSurface.Proofs.References

/-!
# Interfaces in the order in which they are found

The list of interfaces grows while it is looked through: it starts with what the levels of a type
declare, and each element adds what it extends itself, tokens that are already there left out.
`Scan.look` is one round of this, and as many rounds as the finished list has elements make the list
(`iterate_look`). The finished list satisfies one equation (`interfaces_eq_firstSeen`): it is made of
the first occurrences among what the levels and then its own elements declare. Its order and its being
closed are read off this equation. That nothing else is in it is not, since a cycle of interfaces could
stand for itself: this comes from the rounds (`exists_reflTransGen_of_mem`). With different tokens for
different types the list is the closure of what the levels declare (`interfaces_are_closure`).
-/

set_option autoImplicit false

namespace TypeSurface.Metadata

namespace Graph

variable {graph : Graph} {seen others : List Token} {keys found : List Nat} {key : Nat}

/-- Different types that can be referred to have different tokens. -/
def TokensDistinct (graph : Graph) : Prop :=
  ∀ key other, graph.isLive key = true → graph.isLive other = true →
    graph.token key = graph.token other → key = other

/-- The first type declares the second as an interface, by a reference that resolves. -/
def Extends (graph : Graph) (key interface : Nat) : Prop :=
  interface ∈ graph.declaredInterfaces key

/-! ## What is seen for the first time -/

/-- Of the tokens seen only their presence counts. -/
theorem firstSeen_congr (h : ∀ token, token ∈ seen ↔ token ∈ others) (keys : List Nat) :
    graph.firstSeen seen keys = graph.firstSeen others keys := by
  induction keys generalizing seen others with
  | nil => rfl
  | cons key rest ih =>
      have hcontains : seen.contains (graph.token key) = others.contains (graph.token key) := by
        rw [Bool.eq_iff_iff, List.contains_iff_mem, List.contains_iff_mem]
        exact h _
      have hnext : graph.firstSeen (graph.token key :: seen) rest
          = graph.firstSeen (graph.token key :: others) rest := by
        apply ih
        intro token
        rw [List.mem_cons, List.mem_cons, h]
      rw [firstSeen, firstSeen, hcontains, ih h, hnext]

/-- Behind a first part of a list everything that the first part holds is seen. -/
theorem firstSeen_append (graph : Graph) (seen : List Token) (first second : List Nat) :
    graph.firstSeen seen (first ++ second) = graph.firstSeen seen first
      ++ graph.firstSeen ((graph.firstSeen seen first).map graph.token ++ seen) second := by
  induction first generalizing seen with
  | nil => rfl
  | cons key rest ih =>
      rw [List.cons_append, firstSeen, firstSeen]
      split
      · exact ih seen
      · rw [ih, List.cons_append]
        -- The token of the head is seen in either case, at another place.
        refine congrArg (fun behind => key :: (_ ++ behind)) (firstSeen_congr (fun token => ?_) second)
        rw [List.map_cons, List.cons_append, List.mem_append, List.mem_cons, List.mem_cons,
          List.mem_append]
        exact or_left_comm

/-- What is seen for the first time has different tokens. -/
theorem nodup_map_token_firstSeen (graph : Graph) (seen : List Token) (keys : List Nat) :
    ((graph.firstSeen seen keys).map graph.token).Nodup := by
  induction keys generalizing seen with
  | nil => exact List.nodup_nil
  | cons key rest ih =>
      rw [firstSeen]
      split
      · exact ih seen
      · rw [List.map_cons, List.nodup_cons]
        refine ⟨fun hmem => ?_, ih _⟩
        obtain ⟨other, hother, htoken⟩ := List.mem_map.1 hmem
        exact (mem_of_mem_firstSeen hother).2 (htoken ▸ List.mem_cons_self)

/-- What is seen for the first time stays in the order of its first occurrences. -/
theorem pairwise_firstSeen (graph : Graph) (seen : List Token) (keys : List Nat) :
    (graph.firstSeen seen keys).Pairwise fun a b => keys.idxOf a < keys.idxOf b := by
  -- No element behind the head is the head, so all first occurrences move by one.
  have hbehind : ∀ (seen : List Token) (key : Nat) (rest : List Nat), graph.token key ∈ seen →
      ∀ a ∈ graph.firstSeen seen rest, (key :: rest).idxOf a = rest.idxOf a + 1 := by
    intro seen key rest hkey a ha
    apply List.idxOf_cons_ne
    rintro rfl
    exact (mem_of_mem_firstSeen ha).2 hkey
  induction keys generalizing seen with
  | nil => exact List.Pairwise.nil
  | cons key rest ih =>
      rw [firstSeen]
      split
      · rename_i hseen
        refine (ih seen).imp_of_mem fun {a b} ha hb hlt => ?_
        have hmem : graph.token key ∈ seen := List.contains_iff_mem.1 hseen
        rw [hbehind seen key rest hmem a ha, hbehind seen key rest hmem b hb]
        exact Nat.succ_lt_succ hlt
      · have hmem : graph.token key ∈ graph.token key :: seen := List.mem_cons_self
        rw [List.pairwise_cons]
        constructor
        · intro b hb
          rw [hbehind _ key rest hmem b hb, List.idxOf_cons_self]
          exact Nat.succ_pos _
        · refine (ih _).imp_of_mem fun {a b} ha hb hlt => ?_
          rw [hbehind _ key rest hmem a ha, hbehind _ key rest hmem b hb]
          exact Nat.succ_lt_succ hlt

/-- Among types with different tokens, those seen for the first time are the first occurrences of those
whose tokens were not seen. -/
theorem firstSeen_eq_eraseDups
    (h : ∀ a ∈ keys, ∀ b ∈ keys, graph.token a = graph.token b → a = b) :
    graph.firstSeen seen keys = (keys.filter fun key => graph.token key ∉ seen).eraseDups := by
  induction keys generalizing seen with
  | nil => rfl
  | cons key rest ih =>
      have hrest : ∀ a ∈ rest, ∀ b ∈ rest, graph.token a = graph.token b → a = b :=
        fun a ha b hb => h a (List.mem_cons_of_mem key ha) b (List.mem_cons_of_mem key hb)
      by_cases hseen : graph.token key ∈ seen
      · rw [firstSeen, if_pos (List.contains_iff_mem.2 hseen), ih hrest, List.filter_cons_of_neg]
        simpa using hseen
      · rw [firstSeen, if_neg (fun hcontains => hseen (List.contains_iff_mem.1 hcontains)), ih hrest,
          List.filter_cons_of_pos (by simpa using hseen), List.eraseDups_cons, List.filter_filter]
        congr 2
        apply List.filter_congr
        intro other hother
        -- To have the token of the head is to be the head.
        have hsame : graph.token other = graph.token key ↔ other = key :=
          ⟨h other (List.mem_cons_of_mem key hother) key List.mem_cons_self, congrArg graph.token⟩
        simp only [List.mem_cons, hsame, not_or, Bool.decide_and, decide_not, beq_eq_decide]

/-! ## The finished list -/

/-- A list that is closed behind what was found first holds, behind it, the first occurrences of what its
own elements declare. -/
theorem closeInterfaces_eq_append (graph : Graph) (seen : List Token) (found : List Nat) :
    graph.closeInterfaces seen found = found ++ graph.firstSeen seen
      ((graph.closeInterfaces seen found).flatMap graph.declaredInterfaces) := by
  induction seen, found using Graph.closeInterfaces.induct graph with
  | case1 seen =>
      rw [closeInterfaces]
      rfl
  | case2 seen key rest new ih =>
      rw [closeInterfaces, List.flatMap_cons, firstSeen_append, List.cons_append, ← List.append_assoc]
      exact congrArg (key :: ·) ih

/-- What the levels of a type declare, level by level. -/
def declaredByLevels (graph : Graph) (key : Nat) : List Nat :=
  (graph.lineage key).flatMap graph.declaredInterfaces

/-- The interfaces of a type are those its levels declare and behind them those its interfaces declare,
each at its first occurrence. -/
theorem interfaces_eq_append (graph : Graph) (key : Nat) :
    graph.interfaces key = graph.firstSeen [] (graph.declaredByLevels key)
      ++ graph.firstSeen ((graph.firstSeen [] (graph.declaredByLevels key)).map graph.token)
        ((graph.interfaces key).flatMap graph.declaredInterfaces) :=
  closeInterfaces_eq_append graph _ _

/-- The interfaces of a type are the first occurrences among all that its levels and then its interfaces
declare. -/
theorem interfaces_eq_firstSeen (graph : Graph) (key : Nat) :
    graph.interfaces key = graph.firstSeen []
      ((graph.lineage key ++ graph.interfaces key).flatMap graph.declaredInterfaces) := by
  rw [List.flatMap_append, firstSeen_append, List.append_nil]
  exact interfaces_eq_append graph key

/-- A list that is closed holds nothing that what was found first does not lead to. -/
theorem exists_reflTransGen_of_mem {interface : Nat}
    (h : interface ∈ graph.closeInterfaces seen found) :
    ∃ start ∈ found, Relation.ReflTransGen graph.Extends start interface := by
  induction seen, found using Graph.closeInterfaces.induct graph with
  | case1 seen =>
      rw [closeInterfaces] at h
      exact absurd h List.not_mem_nil
  | case2 seen key rest new ih =>
      rw [closeInterfaces] at h
      rcases List.mem_cons.1 h with rfl | h
      · exact ⟨interface, List.mem_cons_self, Relation.ReflTransGen.refl⟩
      · obtain ⟨start, hstart, hway⟩ := ih h
        rcases List.mem_append.1 hstart with hrest | hnew
        · exact ⟨start, List.mem_cons_of_mem key hrest, hway⟩
        · have hextends : graph.Extends key start := (mem_of_mem_firstSeen hnew).1
          exact ⟨key, List.mem_cons_self, Relation.ReflTransGen.head hextends hway⟩

/-- Behind what was found first, every element of a closed list is declared by one in front of it. -/
theorem exists_earlier_of_closeInterfaces {before after : List Nat} {interface : Nat}
    (h : graph.closeInterfaces seen found = before ++ interface :: after)
    (hbehind : found.length ≤ before.length) :
    ∃ earlier ∈ before, graph.Extends earlier interface := by
  induction seen, found using Graph.closeInterfaces.induct graph generalizing before with
  | case1 seen =>
      rw [closeInterfaces] at h
      exact absurd h.symm (List.append_ne_nil_of_right_ne_nil _ (List.cons_ne_nil _ _))
  | case2 seen key rest new =>
      rename_i ih
      rw [closeInterfaces] at h
      cases before with
      | nil => exact absurd hbehind (Nat.not_succ_le_zero _)
      | cons first before =>
          obtain ⟨rfl, hrest⟩ := List.cons.inj h
          by_cases hnew : (rest ++ new).length ≤ before.length
          · obtain ⟨earlier, hearlier, hextends⟩ := ih hrest hnew
            exact ⟨earlier, List.mem_cons_of_mem key hearlier, hextends⟩
          · -- The element is one of those that the head adds.
            have hplace : (rest ++ new)[before.length]? = some interface := by
              rw [← List.getElem?_append_left (Nat.not_le.1 hnew), ← closeInterfaces_eq_append]
              exact (congrArg (·[before.length]?) hrest).trans (by simp)
            rw [List.getElem?_append_right (Nat.le_of_succ_le_succ hbehind)] at hplace
            exact ⟨key, List.mem_cons_self,
              (mem_of_mem_firstSeen (List.mem_of_getElem? hplace)).1⟩

/-! ## Order -/

/-- Of the elements of a list the first that declares one of two interfaces declares the one, and in
front of the other if it declares both. -/
def DeclaredBefore (graph : Graph) (found : List Nat) (interface other : Nat) : Prop :=
  ∃ before declarer after, found = before ++ declarer :: after ∧
    (∀ earlier ∈ before, ¬graph.Extends earlier interface ∧ ¬graph.Extends earlier other) ∧
    graph.Extends declarer interface ∧
    (graph.declaredInterfaces declarer).idxOf interface
      < (graph.declaredInterfaces declarer).idxOf other

/-- What occurs first among all declarations of a list is declared first. -/
theorem declaredBefore_of_idxOf_lt {interface other : Nat}
    (h : (found.flatMap graph.declaredInterfaces).idxOf interface
      < (found.flatMap graph.declaredInterfaces).idxOf other) :
    graph.DeclaredBefore found interface other := by
  induction found with
  | nil => exact absurd h (Nat.lt_irrefl 0)
  | cons declarer rest ih =>
      rw [List.flatMap_cons] at h
      by_cases hinterface : graph.Extends declarer interface
      · refine ⟨[], declarer, rest, rfl, List.forall_mem_nil _, hinterface, ?_⟩
        rw [List.idxOf_append_of_mem hinterface] at h
        by_cases hother : graph.Extends declarer other
        · rwa [List.idxOf_append_of_mem hother] at h
        · rw [List.idxOf_eq_length hother]
          exact List.idxOf_lt_length_iff.2 hinterface
      · rw [List.idxOf_append_of_notMem hinterface] at h
        by_cases hother : graph.Extends declarer other
        · rw [List.idxOf_append_of_mem hother] at h
          have hlt := List.idxOf_lt_length_iff.2 hother
          omega
        · rw [List.idxOf_append_of_notMem hother] at h
          obtain ⟨before, next, after, rfl, hbefore, hdeclared⟩ := ih (Nat.lt_of_add_lt_add_left h)
          exact ⟨declarer :: before, next, after, rfl,
            List.forall_mem_cons.2 ⟨⟨hinterface, hother⟩, hbefore⟩, hdeclared⟩

/-! ## Rounds -/

/-- A list that is being looked through: what is found, and how many elements were looked at. -/
structure Scan where
  found : List Nat
  next : Nat

/-- One round: the next element adds what it extends and what is not found yet. A list that was looked
through stays as it is. -/
def Scan.look (graph : Graph) (scan : Scan) : Scan :=
  match scan.found[scan.next]? with
  | none => scan
  | some key =>
      ⟨scan.found ++ graph.firstSeen (scan.found.map graph.token) (graph.declaredInterfaces key),
        scan.next + 1⟩

/-- As many rounds as elements are left make the closed list, and then all of it was looked at. -/
theorem iterate_look (graph : Graph) (seen : List Token) (done found : List Nat)
    (hseen : ∀ token, token ∈ seen ↔ token ∈ (done ++ found).map graph.token) :
    (Scan.look graph)^[(graph.closeInterfaces seen found).length] ⟨done ++ found, done.length⟩
      = ⟨done ++ graph.closeInterfaces seen found,
        (done ++ graph.closeInterfaces seen found).length⟩ := by
  induction seen, found using Graph.closeInterfaces.induct graph generalizing done with
  | case1 seen =>
      rw [closeInterfaces, List.append_nil]
      rfl
  | case2 seen key rest new ih =>
      have hnew : graph.firstSeen ((done ++ key :: rest).map graph.token)
          (graph.declaredInterfaces key) = new :=
        firstSeen_congr (fun token => (hseen token).symm) _
      -- The round moves the head to what is done and adds what is new behind the rest.
      have hround : Scan.look graph ⟨done ++ key :: rest, done.length⟩
          = ⟨(done ++ [key]) ++ (rest ++ new), (done ++ [key]).length⟩ := by
        have hhead : (done ++ key :: rest)[done.length]? = some key := by simp
        simp only [Scan.look, hhead, hnew]
        simp
      have hnext : ∀ token, token ∈ new.map graph.token ++ seen ↔
          token ∈ ((done ++ [key]) ++ (rest ++ new)).map graph.token := by
        intro token
        rw [List.mem_append, hseen]
        simp only [List.map_append, List.map_cons, List.map_nil, List.mem_append, List.mem_cons,
          List.not_mem_nil, or_false]
        tauto
      rw [closeInterfaces, List.length_cons, Function.iterate_succ_apply, hround]
      have hrest := ih (done ++ [key]) hnext
      rw [List.append_assoc done [key] (graph.closeInterfaces _ _)] at hrest
      exact hrest

/-! ## Closure -/

theorem isLive_of_mem_flatMap {interface : Nat}
    (h : interface ∈ keys.flatMap graph.declaredInterfaces) : graph.isLive interface = true := by
  obtain ⟨declarer, -, hextends⟩ := List.mem_flatMap.1 h
  exact (List.mem_filter.1 hextends).2

theorem nodup_map_token_interfaces (graph : Graph) (key : Nat) :
    ((graph.interfaces key).map graph.token).Nodup := by
  rw [interfaces_eq_firstSeen]
  exact nodup_map_token_firstSeen graph [] _

/-- There are no more interfaces of a type than rows. -/
theorem length_interfaces_le (graph : Graph) (key : Nat) :
    (graph.interfaces key).length ≤ graph.rows.size := by
  have hrows : graph.interfaces key ⊆ List.range graph.rows.size := by
    intro interface hmem
    rw [interfaces_eq_firstSeen] at hmem
    exact List.mem_range.2 (lt_of_isLive (isLive_of_mem_flatMap (mem_of_mem_firstSeen hmem).1))
  have hnodup := List.Nodup.of_map graph.token (nodup_map_token_interfaces graph key)
  have hlength := hnodup.length_le_of_subset hrows
  rwa [List.length_range] at hlength

namespace TokensDistinct

theorem firstSeen_flatMap (h : graph.TokensDistinct) (keys : List Nat) :
    graph.firstSeen [] (keys.flatMap graph.declaredInterfaces)
      = (keys.flatMap graph.declaredInterfaces).eraseDups := by
  have hsame : ∀ a ∈ keys.flatMap graph.declaredInterfaces,
      ∀ b ∈ keys.flatMap graph.declaredInterfaces, graph.token a = graph.token b → a = b :=
    fun a ha b hb => h a b (isLive_of_mem_flatMap ha) (isLive_of_mem_flatMap hb)
  rw [firstSeen_eq_eraseDups hsame]
  simp only [List.not_mem_nil, not_false_eq_true, decide_true, List.filter_true]

theorem mem_interfaces_iff (h : graph.TokensDistinct) {interface : Nat} :
    interface ∈ graph.interfaces key ↔
      ∃ declarer ∈ graph.lineage key ++ graph.interfaces key, graph.Extends declarer interface := by
  have hmem := congrArg (interface ∈ ·) (interfaces_eq_firstSeen graph key)
  rw [h.firstSeen_flatMap, List.mem_eraseDups, List.mem_flatMap] at hmem
  exact iff_of_eq hmem

/-- The interfaces of a type are all that a declaration of its levels leads to. -/
theorem mem_interfaces_iff_exists_way (h : graph.TokensDistinct) {interface : Nat} :
    interface ∈ graph.interfaces key ↔ ∃ level ∈ graph.lineage key, ∃ start,
      graph.Extends level start ∧ Relation.ReflTransGen graph.Extends start interface := by
  constructor
  · intro hmem
    obtain ⟨start, hstart, hway⟩ := exists_reflTransGen_of_mem hmem
    obtain ⟨level, hlevel, hextends⟩ := List.mem_flatMap.1 (mem_of_mem_firstSeen hstart).1
    exact ⟨level, hlevel, start, hextends, hway⟩
  · rintro ⟨level, hlevel, start, hextends, hway⟩
    induction hway with
    | refl => exact h.mem_interfaces_iff.2 ⟨level, List.mem_append_left _ hlevel, hextends⟩
    | tail _ hnext ih => exact h.mem_interfaces_iff.2 ⟨_, List.mem_append_right _ ih, hnext⟩

end TokensDistinct

/-- With different tokens for different types, the interfaces of a type are all that a declaration of its
levels leads to, each token once. The list begins with the first occurrences of what the levels declare.
Behind them every element is declared by one in front of it, and the elements stand in the order in which
the list declares them. The list is made in as many rounds as it has elements, which are no more than
there are rows. -/
theorem interfaces_are_closure (graph : Graph) (hdistinct : graph.TokensDistinct) (key : Nat) :
    ((graph.interfaces key).map graph.token).Nodup ∧
    (∀ interface, interface ∈ graph.interfaces key ↔ ∃ level ∈ graph.lineage key, ∃ start,
      graph.Extends level start ∧ Relation.ReflTransGen graph.Extends start interface) ∧
    (∃ later, graph.interfaces key = (graph.declaredByLevels key).eraseDups ++ later ∧
      (∀ before interface after, later = before ++ interface :: after →
        ∃ earlier ∈ (graph.declaredByLevels key).eraseDups ++ before,
          graph.Extends earlier interface) ∧
      later.Pairwise (graph.DeclaredBefore (graph.interfaces key))) ∧
    (graph.interfaces key).length ≤ graph.rows.size ∧
    (Scan.look graph)^[(graph.interfaces key).length] ⟨(graph.declaredByLevels key).eraseDups, 0⟩
      = ⟨graph.interfaces key, (graph.interfaces key).length⟩ := by
  have hstart : graph.firstSeen [] (graph.declaredByLevels key)
      = (graph.declaredByLevels key).eraseDups := hdistinct.firstSeen_flatMap (graph.lineage key)
  have hlist : graph.interfaces key = graph.closeInterfaces
      ((graph.declaredByLevels key).eraseDups.map graph.token)
      (graph.declaredByLevels key).eraseDups := by
    rw [← hstart]
    rfl
  have happend := interfaces_eq_append graph key
  rw [hstart] at happend
  refine ⟨nodup_map_token_interfaces graph key, fun _ => hdistinct.mem_interfaces_iff_exists_way,
    ⟨_, happend, ?_, ?_⟩, length_interfaces_le graph key, ?_⟩
  · intro before interface after hlater
    rw [hlater, ← List.append_assoc, hlist] at happend
    refine exists_earlier_of_closeInterfaces happend ?_
    rw [List.length_append]
    exact Nat.le_add_right _ _
  · exact (pairwise_firstSeen graph _ _).imp declaredBefore_of_idxOf_lt
  · rw [hlist]
    exact iterate_look graph _ [] _ fun token => Iff.rfl

end Graph

namespace Diamond

/-- A type with its base and its interfaces. -/
def type (token : UInt32) (name : String) (base : Option Nat) (interfaces : List Nat)
    (dropped : Bool) : Row :=
  ⟨⟨token⟩, "Lib", name, 0, false, base, interfaces, [], [], [], [], [], dropped, true⟩

/-- A derived class and its base with interfaces in a diamond, two of which extend each other. One
reference is to a type that is dropped. -/
def graph : Graph :=
  ⟨#[type 0x02000002 "Derived" (some 1) [3, 5] false, type 0x02000003 "Base" none [2, 3] false,
    type 0x02000004 "Left" none [4] false, type 0x02000005 "Right" none [6, 4] false,
    type 0x02000006 "Top" none [3] false, type 0x02000007 "Gone" none [0] true,
    type 0x02000008 "Side" none [] false]⟩

theorem tokensDistinct : graph.TokensDistinct := by
  have hall : ∀ key < 7, ∀ other < 7, graph.token key = graph.token other → key = other := by
    decide +kernel
  intro key other hkey hother
  exact hall key (Graph.lt_of_isLive hkey) other (Graph.lt_of_isLive hother)

end Diamond

open Diamond in
/-- The derived class implements four interfaces: the two that are declared, and behind them what the
first of the two extends, in the order in which it says so. The dropped one is left out. -/
theorem diamond_is_closed :
    graph.TokensDistinct ∧ graph.declaredByLevels 0 = [3, 2, 3] ∧
      (∃ later, graph.interfaces 0 = [3, 2] ++ later ∧ later = [6, 4] ∧
        later.Pairwise (graph.DeclaredBefore (graph.interfaces 0))) ∧
      ¬(∃ level ∈ graph.lineage 0, ∃ start,
        graph.Extends level start ∧ Relation.ReflTransGen graph.Extends start 5) ∧
      (Graph.Scan.look graph)^[4] ⟨[3, 2], 0⟩ = ⟨[3, 2, 6, 4], 4⟩ := by
  have hdeclared : graph.declaredByLevels 0 = [3, 2, 3] := by decide +kernel
  have hinterfaces : graph.interfaces 0 = [3, 2, 6, 4] := by cbv
  obtain ⟨-, hmem, ⟨later, happend, -, horder⟩, -, hrounds⟩ :=
    Graph.interfaces_are_closure graph tokensDistinct 0
  have hstart : (graph.declaredByLevels 0).eraseDups = [3, 2] := by rw [hdeclared]; decide
  rw [hstart] at happend hrounds
  rw [hinterfaces] at hrounds
  refine ⟨tokensDistinct, hdeclared, ⟨later, happend, ?_, horder⟩, ?_, hrounds⟩
  · rw [hinterfaces] at happend
    exact (List.append_cancel_left (show [3, 2] ++ [6, 4] = [3, 2] ++ later from happend)).symm
  · rw [← hmem 5, hinterfaces]
    decide

end TypeSurface.Metadata
