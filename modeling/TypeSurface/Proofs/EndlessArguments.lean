import TypeSurface.Proofs.BuriedMarks
import TypeSurface.Proofs.References

/-!
# Arguments without end

Spelling a handle is a recursion that nothing guards. An array asks for the text of its element, a
type without an alias for the texts of its generic arguments, and the arguments of a definition are
rows of the graph, which ask in turn. `spellWithin` is that recursion, given up at a depth. It comes
to an end exactly when it never comes back to a handle that it is just spelling, and for the handles
that are made over a graph the text is then the one that the graph spells (`spelling_ends_iff`).
Rows that open each other in a ring come back however many they are (`recurs_ring`), so they are
never spelled (`rings_are_never_spelled`).
-/

set_option autoImplicit false

namespace TypeSurface.Metadata

/-! ## Parts of handles -/

namespace Handle

variable {κ : Type}

/-- The handles that a handle is made of. -/
def parts : Handle κ → List (Handle κ)
  | .definition _ _ => []
  | .named _ arguments => arguments
  | .parameter _ => []
  | .array element => [element]

/-- A property of all handles is shown for a handle whose parts have it. -/
theorem inductionOnParts {property : Handle κ → Prop}
    (step : ∀ handle, (∀ part ∈ handle.parts, property part) → property handle)
    (handle : Handle κ) : property handle := by
  refine @Handle.rec κ property (fun handles => ∀ part ∈ handles, property part)
    ?_ ?_ ?_ ?_ ?_ ?_ handle
  · exact fun id key => step (.definition id key) fun _ hpart => absurd hpart List.not_mem_nil
  · exact fun id arguments ih => step (.named id arguments) ih
  · exact fun name => step (.parameter name) fun _ hpart => absurd hpart List.not_mem_nil
  · exact fun element ih => step (.array element) (List.forall_mem_singleton.2 ih)
  · exact fun _ hpart => absurd hpart List.not_mem_nil
  · exact fun first rest hfirst hrest => List.forall_mem_cons.2 ⟨hfirst, hrest⟩

end Handle

namespace Graph

variable {graph : Graph} {handle other : Handle Nat} {depth key : Nat} {text : String}

/-! ## The recursion -/

/-- The text of a handle, given up when spelling nests deeper than `depth`. -/
def spellWithin (graph : Graph) : Nat → Handle Nat → Option String
  | 0, _ => none
  | _ + 1, .parameter name => some name
  | depth + 1, .array element =>
      (graph.spellWithin depth element).map fun text => "Array<" ++ text ++ ">"
  | depth + 1, handle =>
      match Alias.ofId? handle.id with
      | some short => some short.text
      | none =>
          ((graph.argumentsOf handle).mapM (graph.spellWithin depth)).map
            (TypeRef.qualified handle.id)

/-- The handles whose texts are part of the text of a handle. -/
def asked (graph : Graph) : Handle Nat → List (Handle Nat)
  | .parameter _ => []
  | .array element => [element]
  | handle => if (Alias.ofId? handle.id).isSome then [] else graph.argumentsOf handle

/-- Spelling the first handle asks for the text of the second. -/
def Asks (graph : Graph) (handle other : Handle Nat) : Prop := other ∈ graph.asked handle

/-- Spelling a handle comes to a text, at some depth. -/
def Ends (graph : Graph) (handle : Handle Nat) : Prop :=
  ∃ depth text, graph.spellWithin depth handle = some text

/-- Spelling a handle comes back to a handle that is just being spelled. -/
def Recurs (graph : Graph) (handle : Handle Nat) : Prop :=
  ∃ met, Relation.ReflTransGen graph.Asks handle met ∧ Relation.TransGen graph.Asks met met

/-! ## One level -/

/-- A type with an alias has a text, and any other one has a text exactly when its arguments have. -/
theorem exists_qualified_iff {id : TypeId} {arguments : List (Handle Nat)} :
    (∃ text, (match Alias.ofId? id with
        | some short => some short.text
        | none => (arguments.mapM (graph.spellWithin depth)).map (TypeRef.qualified id))
          = some text) ↔
      ∀ other ∈ if (Alias.ofId? id).isSome then [] else arguments,
        ∃ text, graph.spellWithin depth other = some text := by
  cases Alias.ofId? id with
  | some short => simp
  | none =>
      simp only [Option.isSome_none, Bool.false_eq_true, if_false, ← exists_mapM_eq_some_iff,
        Option.map_eq_some_iff]
      constructor
      · rintro ⟨text, texts, htexts, -⟩
        exact ⟨texts, htexts⟩
      · rintro ⟨texts, htexts⟩
        exact ⟨_, texts, htexts, rfl⟩

/-- A handle has a text exactly when all it asks for have one at the next lower depth. -/
theorem exists_spellWithin_succ_iff :
    (∃ text, graph.spellWithin (depth + 1) handle = some text) ↔
      ∀ other, graph.Asks handle other → ∃ text, graph.spellWithin depth other = some text := by
  cases handle with
  | parameter name =>
      constructor
      · intro _ other hasks
        exact nomatch hasks
      · intro _
        exact ⟨name, rfl⟩
  | array element =>
      simp only [spellWithin, Option.map_eq_some_iff, Asks, asked, List.mem_singleton, forall_eq]
      constructor
      · rintro ⟨text, inner, hinner, -⟩
        exact ⟨inner, hinner⟩
      · rintro ⟨inner, hinner⟩
        exact ⟨_, inner, hinner, rfl⟩
  | definition id key => exact exists_qualified_iff
  | named id arguments => exact exists_qualified_iff

/-- A text stays the same at every greater depth. -/
theorem spellWithin_mono {deeper : Nat} (h : graph.spellWithin depth handle = some text)
    (hle : depth ≤ deeper) : graph.spellWithin deeper handle = some text := by
  induction depth generalizing handle text deeper with
  | zero => exact nomatch h
  | succ depth ih =>
      obtain ⟨deeper, rfl⟩ : ∃ less, deeper = less + 1 := ⟨deeper - 1, by omega⟩
      have hless : depth ≤ deeper := Nat.le_of_succ_le_succ hle
      -- Arguments keep their texts, so their list does.
      have hqualified : ∀ (id : TypeId) (arguments : List (Handle Nat)),
          (arguments.mapM (graph.spellWithin depth)).map (TypeRef.qualified id) = some text →
            (arguments.mapM (graph.spellWithin deeper)).map (TypeRef.qualified id) = some text := by
        intro id arguments hargs
        obtain ⟨texts, htexts, htext⟩ := Option.map_eq_some_iff.1 hargs
        have hsame : arguments.mapM (graph.spellWithin deeper)
            = some (texts.map fun text => text) :=
          mapM_eq_some_map htexts fun _ _ _ hargument => ih hargument hless
        rw [List.map_id'] at hsame
        exact Option.map_eq_some_iff.2 ⟨texts, hsame, htext⟩
      cases handle with
      | parameter name => exact h
      | array element =>
          obtain ⟨inner, hinner, htext⟩ := Option.map_eq_some_iff.1 h
          exact Option.map_eq_some_iff.2 ⟨inner, ih hinner hless, htext⟩
      | definition id key =>
          simp only [spellWithin] at h ⊢
          split at h
          · exact h
          · exact hqualified _ _ h
      | named id arguments =>
          simp only [spellWithin] at h ⊢
          split at h
          · exact h
          · exact hqualified _ _ h

theorem spellWithin_unique {deeper : Nat} {longer : String}
    (h : graph.spellWithin depth handle = some text)
    (hlonger : graph.spellWithin deeper handle = some longer) : text = longer := by
  have hleft := spellWithin_mono h (Nat.le_max_left depth deeper)
  have hright := spellWithin_mono hlonger (Nat.le_max_right depth deeper)
  exact Option.some.inj (hleft.symm.trans hright)

/-- What holds of each element of a list from some depth on holds of all at one depth. -/
theorem exists_common_depth {α : Type} {property : Nat → α → Prop}
    (hmono : ∀ {depth deeper a}, depth ≤ deeper → property depth a → property deeper a)
    {list : List α} (h : ∀ a ∈ list, ∃ depth, property depth a) :
    ∃ depth, ∀ a ∈ list, property depth a := by
  induction list with
  | nil => exact ⟨0, fun _ hmem => nomatch hmem⟩
  | cons first rest ih =>
      obtain ⟨depth, hfirst⟩ := h first List.mem_cons_self
      obtain ⟨others, hrest⟩ := ih fun a ha => h a (List.mem_cons_of_mem first ha)
      refine ⟨max depth others, List.forall_mem_cons.2 ⟨?_, fun a ha => ?_⟩⟩
      · exact hmono (Nat.le_max_left depth others) hfirst
      · exact hmono (Nat.le_max_right depth others) (hrest a ha)

theorem exists_depth_of_ends {handles : List (Handle Nat)}
    (h : ∀ handle ∈ handles, graph.Ends handle) :
    ∃ depth, ∀ handle ∈ handles, ∃ text, graph.spellWithin depth handle = some text :=
  exists_common_depth (fun hle ⟨text, htext⟩ => ⟨text, spellWithin_mono htext hle⟩) h

/-- Spelling a handle ends exactly when it ends for all the handle asks for. -/
theorem ends_iff : graph.Ends handle ↔ ∀ other, graph.Asks handle other → graph.Ends other := by
  constructor
  · rintro ⟨depth, text, htext⟩ other hasks
    cases depth with
    | zero => exact nomatch htext
    | succ depth => exact ⟨depth, exists_spellWithin_succ_iff.1 ⟨text, htext⟩ other hasks⟩
  · intro h
    obtain ⟨depth, hdepth⟩ := exists_depth_of_ends h
    exact ⟨depth + 1, exists_spellWithin_succ_iff.2 hdepth⟩

/-! ## Ways that come back -/

/-- A handle that has a text does not ask for itself, at any depth. -/
theorem not_transGen_of_spellWithin (h : graph.spellWithin depth handle = some text) :
    ¬Relation.TransGen graph.Asks handle handle := by
  intro hloop
  induction depth generalizing handle text with
  | zero => exact nomatch h
  | succ depth ih =>
      -- The loop leads through a handle that is asked for, and this one lies on a loop of its own.
      obtain ⟨next, hasks, hback⟩ := Relation.TransGen.head'_iff.1 hloop
      obtain ⟨inner, hinner⟩ := exists_spellWithin_succ_iff.1 ⟨text, h⟩ next hasks
      exact ih hinner (Relation.TransGen.tail' hback hasks)

theorem Ends.of_way (h : graph.Ends handle) (hway : Relation.ReflTransGen graph.Asks handle other) :
    graph.Ends other := by
  induction hway with
  | refl => exact h
  | tail _ hasks ih => exact ends_iff.1 ih _ hasks

theorem Ends.not_recurs (h : graph.Ends handle) : ¬graph.Recurs handle := by
  rintro ⟨met, hway, hloop⟩
  obtain ⟨depth, text, htext⟩ := h.of_way hway
  exact not_transGen_of_spellWithin htext hloop

theorem Recurs.of_asks (hasks : graph.Asks handle other) (h : graph.Recurs other) :
    graph.Recurs handle := by
  obtain ⟨met, hway, hloop⟩ := h
  exact ⟨met, Relation.ReflTransGen.head hasks hway, hloop⟩

/-! ## Rows -/

theorem asks_definition_iff {id : TypeId} (halias : Alias.ofId? id = none) :
    graph.Asks (.definition id key) other ↔
      ∃ argument ∈ graph.arguments key, graph.handle argument = other := by
  show other ∈ (if (Alias.ofId? id).isSome then [] else _) ↔ _
  rw [halias]
  exact List.mem_map

theorem handle_of_parameter (h : (graph.row key).isGenericParameter = true) :
    graph.handle key = .parameter (graph.row key).name := if_pos h

theorem handle_of_definition (h : (graph.row key).isGenericParameter = false) :
    graph.handle key = .definition (graph.row key).id key := by
  rw [handle, h]
  rfl

theorem Opens.asks {argument : Nat} (h : graph.Opens key argument) :
    graph.Asks (graph.handle key) (graph.handle argument) := by
  obtain ⟨hparameter, halias, hargument⟩ := h
  rw [handle_of_definition hparameter]
  exact (asks_definition_iff halias).2 ⟨argument, hargument, rfl⟩

theorem recurs_of_loop {met : Nat} (hway : Relation.ReflTransGen graph.Opens key met)
    (hloop : Relation.TransGen graph.Opens met met) : graph.Recurs (graph.handle key) := by
  have hasks : graph.Opens ≤ Function.onFun graph.Asks graph.handle :=
    fun _ _ hopens => hopens.asks
  exact ⟨graph.handle met, Relation.ReflTransGen.lift graph.handle hasks _ _ hway,
    Relation.TransGen.lift graph.handle hasks _ _ hloop⟩

theorem unfolds_of_not_recurs (h : ¬graph.Recurs (graph.handle key)) : graph.Unfolds key :=
  fun _ hway hloop => h (recurs_of_loop hway hloop)

theorem rowReference?_of_parameter (h : (graph.row key).isGenericParameter = true) :
    graph.rowReference? depth key = some (.parameter (graph.row key).name) := by
  unfold rowReference?
  exact if_pos h

theorem rowReference?_of_alias (hparameter : (graph.row key).isGenericParameter = false)
    (halias : (Alias.ofId? (graph.row key).id).isSome = true) :
    graph.rowReference? depth key = some (.named (graph.row key).id []) := by
  unfold rowReference?
  exact (if_neg (ne_true_of_eq_false hparameter)).trans (if_pos halias)

/-- The reference of any other row holds those of its arguments at the next lower depth. -/
theorem rowReference?_eq_some_iff (hparameter : (graph.row key).isGenericParameter = false)
    (halias : Alias.ofId? (graph.row key).id = none) {ref : TypeRef} :
    graph.rowReference? depth key = some ref ↔
      ∃ less refs, depth = less + 1 ∧
        (graph.arguments key).mapM (graph.rowReference? less) = some refs ∧
          TypeRef.named (graph.row key).id refs = ref := by
  cases depth with
  | zero => simp [rowReference?, hparameter, halias]
  | succ less => simp [rowReference?, hparameter, halias]

theorem reference?_handle (graph : Graph) (key : Nat) :
    graph.reference? (graph.handle key) = graph.rowReference? (graph.rows.size + 1) key := by
  cases hparameter : (graph.row key).isGenericParameter with
  | true =>
      rw [handle_of_parameter hparameter, reference?]
      exact (rowReference?_of_parameter hparameter).symm
  | false => rw [handle_of_definition hparameter, reference?]

theorem spellWithin_of_alias {id : TypeId} {short : Alias} (halias : Alias.ofId? id = some short) :
    graph.spellWithin (depth + 1) (.definition id key) = some short.text := by
  simp only [spellWithin, Handle.id, halias]

theorem spellWithin_of_arguments {id : TypeId} (halias : Alias.ofId? id = none) :
    graph.spellWithin (depth + 1) (.definition id key)
      = ((graph.arguments key).mapM fun argument =>
          graph.spellWithin depth (graph.handle argument)).map (TypeRef.qualified id) := by
  simp only [spellWithin, Handle.id, halias, argumentsOf, List.mapM_map]
  rfl

/-- The text of the reference of a row is reached one level deeper. -/
theorem spellWithin_of_rowReference? {ref : TypeRef}
    (h : graph.rowReference? depth key = some ref) :
    graph.spellWithin (depth + 1) (graph.handle key) = some ref.spelling := by
  induction depth using Nat.strong_induction_on generalizing key ref with
  | h depth ih =>
      cases hparameter : (graph.row key).isGenericParameter with
      | true =>
          obtain rfl := Option.some.inj ((rowReference?_of_parameter hparameter).symm.trans h)
          rw [handle_of_parameter hparameter, TypeRef.spelling]
          rfl
      | false =>
          rw [handle_of_definition hparameter]
          cases halias : Alias.ofId? (graph.row key).id with
          | some short =>
              rw [rowReference?_of_alias hparameter (Option.isSome_of_eq_some halias)] at h
              obtain rfl := Option.some.inj h
              rw [spellWithin_of_alias halias, TypeRef.spelling, halias]
          | none =>
              obtain ⟨less, refs, rfl, hrefs, rfl⟩ :=
                (rowReference?_eq_some_iff hparameter halias).1 h
              have htexts : (graph.arguments key).mapM (fun argument =>
                  graph.spellWithin (less + 1) (graph.handle argument))
                    = some (refs.map TypeRef.spelling) :=
                mapM_eq_some_map hrefs fun _ _ _ hargument =>
                  ih less (Nat.lt_succ_self less) hargument
              rw [spellWithin_of_arguments halias, htexts, TypeRef.spelling, halias,
                TypeRef.spellings_eq_map]
              rfl

theorem exists_reference?_handle (h : ¬graph.Recurs (graph.handle key)) :
    ∃ ref, graph.reference? (graph.handle key) = some ref := by
  rw [reference?_handle]
  exact exists_rowReference? (unfolds_of_not_recurs h)
    (Nat.lt_succ_of_le (graph.card_below_le key))

theorem ends_of_reference?_handle {ref : TypeRef}
    (h : graph.reference? (graph.handle key) = some ref) : graph.Ends (graph.handle key) := by
  rw [reference?_handle] at h
  exact ⟨_, _, spellWithin_of_rowReference? h⟩

/-! ## Handles -/

/-- What a handle asks for is a part of it or a row. -/
theorem Asks.part_or_row (h : graph.Asks handle other) :
    other ∈ handle.parts ∨ ∃ key, other = graph.handle key := by
  cases handle with
  | parameter name => exact nomatch h
  | array element => exact Or.inl h
  | named id arguments =>
      simp only [Asks, asked] at h
      split at h
      · exact nomatch h
      · exact Or.inl h
  | definition id key =>
      simp only [Asks, asked] at h
      split at h
      · exact nomatch h
      · obtain ⟨argument, -, rfl⟩ := List.mem_map.1 h
        exact Or.inr ⟨argument, rfl⟩

/-- Spelling a handle ends when it comes back to nothing. -/
theorem ends_of_not_recurs (h : ¬graph.Recurs handle) : graph.Ends handle := by
  induction handle using Handle.inductionOnParts with
  | step handle ih =>
      apply ends_iff.2
      intro other hasks
      have hother : ¬graph.Recurs other := fun hrecurs => h (hrecurs.of_asks hasks)
      rcases hasks.part_or_row with hpart | ⟨key, rfl⟩
      · exact ih other hpart hother
      · obtain ⟨ref, href⟩ := exists_reference?_handle hother
        exact ends_of_reference?_handle href

/-- The handles that are made over a graph: those of its rows and of generic parameters, and arrays
and generic instances of such handles. -/
inductive HandedOut (graph : Graph) : Handle Nat → Prop where
  | row (key : Nat) : graph.HandedOut (graph.handle key)
  | parameter (name : String) : graph.HandedOut (.parameter name)
  | array {element : Handle Nat} (helement : graph.HandedOut element) :
      graph.HandedOut (.array element)
  | named (id : TypeId) {arguments : List (Handle Nat)}
      (harguments : ∀ argument ∈ arguments, graph.HandedOut argument) :
      graph.HandedOut (.named id arguments)

/-- The text of the reference of a handle is reached at some depth. -/
theorem exists_spellWithin_of_reference? (hhandle : graph.HandedOut handle) {ref : TypeRef}
    (h : graph.reference? handle = some ref) :
    ∃ depth, graph.spellWithin depth handle = some ref.spelling := by
  induction hhandle generalizing ref with
  | row key =>
      rw [reference?_handle] at h
      exact ⟨_, spellWithin_of_rowReference? h⟩
  | parameter name =>
      obtain rfl := Option.some.inj h
      exact ⟨1, by rw [TypeRef.spelling]; rfl⟩
  | array _ ih =>
      obtain ⟨inner, hinner, rfl⟩ := Option.map_eq_some_iff.1 h
      obtain ⟨depth, hdepth⟩ := ih hinner
      refine ⟨depth + 1, ?_⟩
      rw [spellWithin, hdepth, TypeRef.spelling]
      rfl
  | @named id arguments _ ih =>
      rw [reference?] at h
      cases halias : Alias.ofId? id with
      | some short =>
          rw [halias] at h
          obtain rfl := Option.some.inj h
          exact ⟨1, by simp only [spellWithin, TypeRef.spelling, Handle.id, halias]⟩
      | none =>
          rw [halias] at h
          obtain ⟨refs, hrefs, rfl⟩ := Option.map_eq_some_iff.1 h
          rw [references?_eq_mapM] at hrefs
          -- One depth is enough for all arguments.
          obtain ⟨depth, hdepth⟩ : ∃ depth, ∀ argument ∈ arguments,
              ∃ text, graph.spellWithin depth argument = some text := by
            apply exists_depth_of_ends
            intro argument hargument
            obtain ⟨inner, -, hinner⟩ := (mem_of_mapM_eq_some hrefs).1 argument hargument
            obtain ⟨depth, htext⟩ := ih argument hargument hinner
            exact ⟨depth, _, htext⟩
          have htexts : arguments.mapM (graph.spellWithin depth)
              = some (refs.map TypeRef.spelling) := by
            apply mapM_eq_some_map hrefs
            intro argument hargument inner hinner
            obtain ⟨text, htext⟩ := hdepth argument hargument
            obtain ⟨deeper, hspelled⟩ := ih argument hargument hinner
            rw [htext, spellWithin_unique htext hspelled]
          refine ⟨depth + 1, ?_⟩
          simp only [spellWithin, TypeRef.spelling, Handle.id, halias, argumentsOf, htexts,
            Option.map_some, TypeRef.spellings_eq_map]

/-- A handle for which spelling ends has a reference. -/
theorem exists_reference?_of_ends (hhandle : graph.HandedOut handle) (h : graph.Ends handle) :
    ∃ ref, graph.reference? handle = some ref := by
  induction hhandle with
  | row key => exact exists_reference?_handle h.not_recurs
  | parameter name => exact ⟨.parameter name, rfl⟩
  | array _ ih =>
      obtain ⟨ref, href⟩ := ih (ends_iff.1 h _ List.mem_cons_self)
      exact ⟨.array ref, by rw [reference?, href]; rfl⟩
  | @named id arguments _ ih =>
      rw [reference?, references?_eq_mapM]
      cases halias : Alias.ofId? id with
      | some short => exact ⟨_, rfl⟩
      | none =>
          obtain ⟨refs, hrefs⟩ : ∃ refs, arguments.mapM graph.reference? = some refs := by
            apply exists_mapM_eq_some
            intro argument hargument
            have hasks : graph.Asks (.named id arguments) argument := by
              simp only [Asks, asked, Handle.id, halias]
              exact hargument
            exact ih argument hargument (ends_iff.1 h argument hasks)
          exact ⟨.named id refs, by rw [hrefs]; rfl⟩

/-- Spelling a handle ends exactly when it never comes back to a handle that is just being spelled,
and of a handle that is made over the graph it then gives the text that the graph spells. -/
theorem spelling_ends_iff (graph : Graph) (handle : Handle Nat) :
    (graph.Ends handle ↔ ¬graph.Recurs handle) ∧
      (graph.HandedOut handle → ∀ text,
        (∃ depth, graph.spellWithin depth handle = some text) ↔
          graph.spelling? (some handle) = some text) := by
  refine ⟨⟨Ends.not_recurs, ends_of_not_recurs⟩, fun hhandle text => ?_⟩
  constructor
  · rintro ⟨depth, htext⟩
    obtain ⟨ref, href⟩ := exists_reference?_of_ends hhandle ⟨depth, text, htext⟩
    obtain ⟨deeper, hspelled⟩ := exists_spellWithin_of_reference? hhandle href
    exact Option.map_eq_some_iff.2 ⟨ref, href, spellWithin_unique hspelled htext⟩
  · intro h
    obtain ⟨ref, href, rfl⟩ := Option.map_eq_some_iff.1 h
    exact exists_spellWithin_of_reference? hhandle href

/-! ## Rings -/

/-- A generic instance with one argument. -/
def instanceOf (argument : Nat) : Row :=
  { Row.missing with
    ns := "Lib", name := "Loop\x601", dropped := false, instantiations := [[argument]] }

theorem id_instanceOf (argument : Nat) :
    (instanceOf argument).id = ⟨some "Lib", "Loop\x601"⟩ := by
  have hns : ¬"Lib" = "" := by decide
  exact congrArg (TypeId.mk · "Loop\x601") (if_neg hns)

/-- Instances in a ring: the argument of each is the next one, and that of the last is the first. -/
def ring (size : Nat) : Graph :=
  ⟨Array.ofFn fun place : Fin size => instanceOf ((place + 1) % size)⟩

theorem row_ring {size : Nat} (h : key < size) :
    (ring size).row key = instanceOf ((key + 1) % size) := by
  rw [row, ring, Array.getElem?_ofFn, dif_pos h]
  rfl

/-- An instance in a ring is opened into the next one. -/
theorem opens_ring {size : Nat} (h : key < size) : (ring size).Opens key ((key + 1) % size) := by
  have hnext : (key + 1) % size < size := Nat.mod_lt _ (Nat.zero_lt_of_lt h)
  have hlive : (ring size).isLive ((key + 1) % size) = true := by
    rw [isLive, row_ring hnext]
    rfl
  refine ⟨?_, ?_, List.mem_filter.2 ⟨?_, hlive⟩⟩
  · rw [row_ring h]
    rfl
  · rw [row_ring h, id_instanceOf]
    decide
  · rw [row_ring h]
    exact List.mem_singleton.2 rfl

theorem opens_steps_ring {size : Nat} (h : key < size) (steps : Nat) :
    Relation.TransGen (ring size).Opens key ((key + (steps + 1)) % size) := by
  induction steps with
  | zero => exact Relation.TransGen.single (opens_ring h)
  | succ steps ih =>
      have hstep := opens_ring (Nat.mod_lt (key + (steps + 1)) (Nat.zero_lt_of_lt h))
      rw [Nat.mod_add_mod] at hstep
      exact ih.tail hstep

/-- Spelling an instance in a ring comes back to it. -/
theorem recurs_ring {size : Nat} (h : key < size) :
    (ring size).Recurs ((ring size).handle key) := by
  obtain ⟨less, rfl⟩ : ∃ less, size = less + 1 := ⟨size - 1, by omega⟩
  -- As many steps as there are instances lead back.
  have hloop := opens_steps_ring h less
  rw [Nat.add_mod_right, Nat.mod_eq_of_lt h] at hloop
  exact recurs_of_loop Relation.ReflTransGen.refl hloop

/-- An instance that is its own argument is never spelled, at whatever depth, and neither are
instances that are each other's arguments. -/
theorem rings_are_never_spelled :
    ¬(ring 1).Ends ((ring 1).handle 0) ∧ ¬(ring 3).Ends ((ring 3).handle 1) ∧
      (ring 1).spelling? (some ((ring 1).handle 0)) = none ∧
      (ring 3).spelling? (some ((ring 3).handle 1)) = none := by
  have hone : ¬(ring 1).Ends ((ring 1).handle 0) := fun hends =>
    (spelling_ends_iff (ring 1) ((ring 1).handle 0)).1.1 hends (recurs_ring (by decide))
  have hthree : ¬(ring 3).Ends ((ring 3).handle 1) := fun hends =>
    (spelling_ends_iff (ring 3) ((ring 3).handle 1)).1.1 hends (recurs_ring (by decide))
  refine ⟨hone, hthree, ?_, ?_⟩
  · apply Option.eq_none_iff_forall_ne_some.2
    intro text htext
    obtain ⟨depth, hdepth⟩ := ((spelling_ends_iff _ _).2 (.row 0) text).2 htext
    exact hone ⟨depth, text, hdepth⟩
  · apply Option.eq_none_iff_forall_ne_some.2
    intro text htext
    obtain ⟨depth, hdepth⟩ := ((spelling_ends_iff _ _).2 (.row 1) text).2 htext
    exact hthree ⟨depth, text, hdepth⟩

end Graph

end TypeSurface.Metadata
