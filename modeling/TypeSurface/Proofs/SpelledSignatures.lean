import TypeSurface.Proofs.EndlessArguments
import TypeSurface.Proofs.ReferenceMarks

/-!
# Rows and signatures that spell one type

Bases and interfaces of a type are rows, the types of its members are signatures. A generic instance can
come as either: as a row that lists its arguments over several instantiations, or as a signature with a
base and arguments side by side. `Graph.Spells` says when a row and a signature write down one type. Then
both have one text, although the handles differ (`row_and_signature_spelled_alike`): the text of an
instance depends on its namespace, its name and the texts of its arguments only
(`Graph.spelling?_congr`), so the arguments are compared one by one, down to the leaves of the signature.
-/

set_option autoImplicit false

namespace TypeSurface

/-- An alias depends on the name and on the text of the namespace only. -/
theorem Alias.ofId?_congr {id other : TypeId} (hns : id.nsText = other.nsText)
    (hname : id.name = other.name) : ofId? id = ofId? other := by
  -- The global namespace is absent or empty, and neither of the two holds an alias.
  have hempty : isSystem "" = false := by decide
  have hofId : ∀ id : TypeId, ofId? id
      = if isSystem id.nsText then all.find? (·.runtimeName == id.name) else none := by
    rintro ⟨_ | ns, name⟩
    · rw [TypeId.nsText, Option.getD_none, hempty]
      rfl
    · rfl
  rw [hofId, hofId, hns, hname]

namespace Metadata

/-! ## Texts of instances -/

namespace Graph

variable {graph : Graph} {depth deeper key : Nat} {handle other : Handle Nat} {ref : TypeRef}

/-- A reference stays the same at every greater depth. -/
theorem rowReference?_mono (h : graph.rowReference? depth key = some ref) (hle : depth ≤ deeper) :
    graph.rowReference? deeper key = some ref := by
  induction depth using Nat.strongRecOn generalizing key ref deeper with
  | ind depth ih =>
      cases hparameter : (graph.row key).isGenericParameter with
      | true =>
          rw [rowReference?_of_parameter hparameter] at h ⊢
          exact h
      | false =>
          cases halias : Alias.ofId? (graph.row key).id with
          | some short =>
              rw [rowReference?_of_alias hparameter (Option.isSome_of_eq_some halias)] at h ⊢
              exact h
          | none =>
              obtain ⟨less, refs, rfl, hrefs, rfl⟩ :=
                (rowReference?_eq_some_iff hparameter halias).1 h
              obtain ⟨deeper, rfl⟩ : ∃ less, deeper = less + 1 := ⟨deeper - 1, by omega⟩
              have hsame : (graph.arguments key).mapM (graph.rowReference? deeper)
                  = some (refs.map fun ref => ref) :=
                mapM_eq_some_map hrefs fun _ _ _ hargument =>
                  ih less (Nat.lt_succ_self less) hargument (Nat.le_of_succ_le_succ hle)
              rw [List.map_id'] at hsame
              exact (rowReference?_eq_some_iff hparameter halias).2 ⟨deeper, refs, rfl, hsame, rfl⟩

/-- Without cycles of arguments, an argument that is opened with a row has its reference one level less
deep. -/
theorem rowReference?_of_opens (hacyclic : graph.Acyclic) {argument : Nat}
    (h : graph.Opens key argument) :
    graph.rowReference? graph.rows.size argument = graph.reference? (graph.handle argument) := by
  have hcard := card_below_lt (hacyclic.unfolds key) h
  obtain ⟨ref, href⟩ := exists_rowReference? (hacyclic.unfolds argument)
    (Nat.lt_of_lt_of_le hcard (graph.card_below_le key))
  rw [reference?_handle, href, rowReference?_mono href (Nat.le_succ _)]

/-- The handles that are spelled by an identity and generic arguments: those of rows that are no generic
parameters, and types known by name. -/
inductive IsInstance (graph : Graph) : Handle Nat → Prop where
  | row {key : Nat} (hparameter : (graph.row key).isGenericParameter = false) :
      graph.IsInstance (graph.handle key)
  | named (id : TypeId) (arguments : List (Handle Nat)) : graph.IsInstance (.named id arguments)

namespace IsInstance

/-- The reference of an instance with an alias has no arguments. -/
theorem reference?_of_alias (h : graph.IsInstance handle)
    (halias : (Alias.ofId? handle.id).isSome = true) :
    graph.reference? handle = some (.named handle.id []) := by
  cases h with
  | row hparameter =>
      rw [reference?_handle]
      rw [handle_of_definition hparameter] at halias ⊢
      exact rowReference?_of_alias hparameter halias
  | named id arguments =>
      rw [reference?]
      exact if_pos halias

/-- Without cycles of arguments, the reference of any other instance holds those of its arguments. -/
theorem reference?_of_arguments (hacyclic : graph.Acyclic) (h : graph.IsInstance handle)
    (halias : Alias.ofId? handle.id = none) {refs : List TypeRef}
    (hrefs : (graph.argumentsOf handle).mapM graph.reference? = some refs) :
    graph.reference? handle = some (.named handle.id refs) := by
  cases h with
  | @row key hparameter =>
      rw [reference?_handle]
      rw [handle_of_definition hparameter] at halias hrefs ⊢
      rw [argumentsOf, List.mapM_map] at hrefs
      -- The row asks for its arguments one level less deep than their handles are asked.
      have hsame : (graph.arguments key).mapM (graph.rowReference? graph.rows.size)
          = some (refs.map fun ref => ref) :=
        mapM_eq_some_map hrefs fun argument hargument _ hinner =>
          (rowReference?_of_opens hacyclic ⟨hparameter, halias, hargument⟩).trans hinner
      rw [List.map_id'] at hsame
      exact (rowReference?_eq_some_iff hparameter halias).2 ⟨_, refs, rfl, hsame, rfl⟩
  | named id arguments =>
      rw [reference?, references?_eq_mapM]
      simp only [Handle.id] at halias ⊢
      rw [halias]
      exact congrArg (Option.map _) hrefs

/-- Without cycles of arguments, an instance is spelled by its alias, or else by its identity and the
texts of its arguments. -/
theorem spelling?_eq (hacyclic : graph.Acyclic) (h : graph.IsInstance handle) :
    graph.spelling? (some handle) =
      match Alias.ofId? handle.id with
      | some short => some short.text
      | none =>
          ((graph.argumentsOf handle).mapM fun argument => graph.spelling? (some argument)).map
            (TypeRef.qualified handle.id) := by
  cases halias : Alias.ofId? handle.id with
  | some short =>
      rw [spelling?, h.reference?_of_alias (Option.isSome_of_eq_some halias), Option.map_some,
        TypeRef.spelling, halias]
  | none =>
      obtain ⟨refs, hrefs⟩ := exists_references? hacyclic (graph.argumentsOf handle)
      rw [references?_eq_mapM] at hrefs
      have htexts : ((graph.argumentsOf handle).mapM fun argument =>
          graph.spelling? (some argument)) = some (refs.map TypeRef.spelling) := by
        simp only [spelling?]
        rw [mapM_map_some, hrefs, Option.map_some]
      rw [htexts, spelling?, h.reference?_of_arguments hacyclic halias hrefs, Option.map_some,
        Option.map_some, TypeRef.spelling, halias, TypeRef.spellings_eq_map]

/-- Without cycles of arguments, instances of one namespace and name are spelled alike when their
arguments are, one by one. -/
theorem spelling?_congr (hacyclic : graph.Acyclic) (h : graph.IsInstance handle)
    (hother : graph.IsInstance other) (hns : handle.id.nsText = other.id.nsText)
    (hname : handle.id.name = other.id.name)
    (harguments : ((graph.argumentsOf handle).map fun argument => graph.spelling? (some argument))
      = (graph.argumentsOf other).map fun argument => graph.spelling? (some argument)) :
    graph.spelling? (some handle) = graph.spelling? (some other) := by
  have hqualified : TypeRef.qualified handle.id = TypeRef.qualified other.id := by
    funext texts
    rw [TypeRef.qualified, TypeRef.qualified, hns, hname]
  have htexts : ((graph.argumentsOf handle).mapM fun argument => graph.spelling? (some argument))
      = (graph.argumentsOf other).mapM fun argument => graph.spelling? (some argument) := by
    have hmap := congrArg (List.mapM id) harguments
    rw [List.mapM_map, List.mapM_map] at hmap
    exact hmap
  rw [h.spelling?_eq hacyclic, hother.spelling?_eq hacyclic, Alias.ofId?_congr hns hname, htexts,
    hqualified]

end IsInstance

end Graph

/-! ## Interpretation of parts -/

theorem Signature.Nests.depth_succ_lt {signature part : Signature} (h : signature.Nests)
    (hpart : part ∈ signature.parts) :
    ∀ visit ∈ part.visits 0, visit.depth + 1 < nestingLimit := by
  intro visit hvisit
  apply h visit.deeper
  apply mem_visits_of_part hpart
  rw [visits_succ]
  exact List.mem_map_of_mem hvisit

theorem Signature.Nests.of_part {signature part : Signature} (h : signature.Nests)
    (hpart : part ∈ signature.parts) : part.Nests :=
  fun visit hvisit => Nat.lt_of_succ_lt (h.depth_succ_lt hpart visit hvisit)

namespace Scope

variable {κ : Type} {scope : Scope κ} {depth : Nat} {base signature : Signature}
  {arguments : List Signature} {handle : Handle κ} {handles : List (Handle κ)}

theorem interpret_token {token : Token}
    (h : signature = .classType token ∨ signature = .valueType token) :
    scope.interpret signature = .ok (scope.resolve token) := by
  rcases h with rfl | rfl <;> rw [interpret, interpretAt, if_neg (by decide)]

theorem interpretAt_part {part : Signature} (hnests : signature.Nests)
    (hpart : part ∈ signature.parts) : scope.interpretAt 1 part = scope.interpret part := by
  show scope.interpretAt (0 + 1) part = scope.interpretAt 0 part
  apply interpretAt_congr fun visit _ => scope.agreeOn_self visit.node
  intro visit hvisit
  have hdeeper := hnests.depth_succ_lt hpart visit hvisit
  omega

theorem interpretAllAt_eq_of_forall₂ (h : List.Forall₂ (fun argument handle =>
    scope.interpretAt depth argument = .ok (some handle)) arguments handles) :
    scope.interpretAllAt depth arguments = .ok (some handles) := by
  induction h with
  | nil => rw [interpretAllAt]
  | cons hfirst _ ih =>
      rw [interpretAllAt, hfirst, ih]
      rfl

/-- A generic instance above the limit of nesting has the identity of its base and the handles of its
arguments. -/
theorem interpret_instantiation (hnests : (Signature.instantiation base arguments).Nests)
    (hbase : scope.interpret base = .ok (some handle))
    (harguments : List.Forall₂ (fun argument handle =>
      scope.interpret argument = .ok (some handle)) arguments handles) :
    scope.interpret (.instantiation base arguments) = .ok (some (.named handle.id handles)) := by
  have hall : scope.interpretAllAt 1 arguments = .ok (some handles) := by
    apply interpretAllAt_eq_of_forall₂
    refine List.forall₂_iff_zip.2 ⟨harguments.length_eq, fun {argument handle} hpair => ?_⟩
    rw [interpretAt_part hnests (List.mem_cons_of_mem base (List.of_mem_zip hpair).1)]
    exact (List.forall₂_iff_zip.1 harguments).2 hpair
  rw [interpret, interpretAt, if_neg (by decide)]
  simp only [Nat.zero_add, interpretAt_part hnests List.mem_cons_self, hbase, hall]
  rfl

end Scope

/-! ## Rows that spell signatures -/

/-- A row writes down the type of a signature. A generic parameter has the name that its index counts.
A built-in type is the type of its name in the built-in namespace. A token stands for a row of the same
namespace and name whose arguments have the same texts. And a generic instance has a base of the row's
namespace and name, and its arguments are written down by those of the row, one by one. -/
inductive Graph.Spells (graph : Graph) (scope : Scope Nat) : Nat → Signature → Prop where
  | typeParameter {key index : Nat} (hparameter : (graph.row key).isGenericParameter = true)
      (hname : scope.typeParameters[index]? = some (graph.row key).name) :
      graph.Spells scope key (.typeParameter index)
  | methodParameter {key index : Nat} (hparameter : (graph.row key).isGenericParameter = true)
      (hname : scope.methodParameters[index]? = some (graph.row key).name) :
      graph.Spells scope key (.methodParameter index)
  | builtIn {key : Nat} {type : BuiltIn} (hparameter : (graph.row key).isGenericParameter = false)
      (hns : (graph.row key).ns = "System") (hname : (graph.row key).name = type.systemName)
      (harguments : graph.arguments key = []) : graph.Spells scope key (.builtIn type)
  | token {key found : Nat} {token : Token} {signature : Signature}
      (hsignature : signature = .classType token ∨ signature = .valueType token)
      (hresolve : scope.resolve token = some (graph.handle found))
      (hparameter : (graph.row key).isGenericParameter = false)
      (hfound : (graph.row found).isGenericParameter = false)
      (hns : (graph.row found).ns = (graph.row key).ns)
      (hname : (graph.row found).name = (graph.row key).name)
      (harguments : ((graph.arguments found).map fun argument =>
          graph.spelling? (some (graph.handle argument)))
        = (graph.arguments key).map fun argument =>
            graph.spelling? (some (graph.handle argument))) :
      graph.Spells scope key signature
  | instantiation {key : Nat} {base : Signature} {arguments : List Signature} {handle : Handle Nat}
      (hparameter : (graph.row key).isGenericParameter = false)
      (hbase : scope.interpret base = .ok (some handle))
      (hns : handle.id.nsText = (graph.row key).ns) (hname : handle.id.name = (graph.row key).name)
      (hlength : (graph.arguments key).length = arguments.length)
      (hspells : ∀ pair ∈ (graph.arguments key).zip arguments, graph.Spells scope pair.1 pair.2) :
      graph.Spells scope key (.instantiation base arguments)

namespace Graph

variable {graph : Graph} {scope : Scope Nat} {key : Nat} {signature : Signature}

theorem argumentsOf_handle (h : (graph.row key).isGenericParameter = false) :
    graph.argumentsOf (graph.handle key) = (graph.arguments key).map graph.handle := by
  rw [handle_of_definition h]
  rfl

theorem nsText_id_handle (h : (graph.row key).isGenericParameter = false) :
    (graph.handle key).id.nsText = (graph.row key).ns := by
  rw [handle_of_definition h]
  exact (graph.row key).nsText_id

theorem name_id_handle (graph : Graph) (key : Nat) :
    (graph.handle key).id.name = (graph.row key).name := by
  unfold handle
  split <;> rfl

/-- Handles that signatures stand for one by one, each with the text of a row, have the texts of the
rows. -/
theorem exists_handles {keys : List Nat} {arguments : List Signature}
    (h : List.Forall₂ (fun key argument => ∃ handle,
      scope.interpret argument = .ok (some handle) ∧
        graph.spelling? (some (graph.handle key)) = graph.spelling? (some handle)) keys arguments) :
    ∃ handles,
      List.Forall₂ (fun argument handle => scope.interpret argument = .ok (some handle))
        arguments handles ∧
      (keys.map fun key => graph.spelling? (some (graph.handle key)))
        = handles.map fun handle => graph.spelling? (some handle) := by
  induction h with
  | nil => exact ⟨[], .nil, rfl⟩
  | cons hfirst _ ih =>
      obtain ⟨handle, hhandle, htext⟩ := hfirst
      obtain ⟨handles, hhandles, htexts⟩ := ih
      refine ⟨handle :: handles, .cons hhandle hhandles, ?_⟩
      rw [List.map_cons, List.map_cons, htext, htexts]

/-- Without cycles of arguments, a signature that a row spells stands for a handle with the text of the
row. -/
theorem Spells.exists_handle (hacyclic : graph.Acyclic) (h : graph.Spells scope key signature)
    (hnests : signature.Nests) :
    ∃ handle, scope.interpret signature = .ok (some handle) ∧
      graph.spelling? (some (graph.handle key)) = graph.spelling? (some handle) := by
  induction h with
  | typeParameter hparameter hname | methodParameter hparameter hname =>
      refine ⟨.parameter _, ?_, congrArg _ (congrArg _ (handle_of_parameter hparameter))⟩
      rw [Scope.interpret, Scope.interpretAt, if_neg (by decide)]
      simp only [Scope.parameter, Scope.parametersOf, hname]
  | @builtIn key type hparameter hns hname harguments =>
      refine ⟨.system type.systemName, ?_, ?_⟩
      · rw [Scope.interpret, Scope.interpretAt, if_neg (by decide)]
      · apply (IsInstance.row hparameter).spelling?_congr hacyclic (.named _ _)
        · exact (nsText_id_handle hparameter).trans hns
        · exact (name_id_handle graph key).trans hname
        · -- Neither of the two has arguments.
          rw [argumentsOf_handle hparameter, harguments]
          rfl
  | @token key found token signature hsignature hresolve hparameter hfound hns hname harguments =>
      -- Both handles are those of rows, which may be different ones.
      refine ⟨graph.handle found, (Scope.interpret_token hsignature).trans (hresolve ▸ rfl), ?_⟩
      apply (IsInstance.row hparameter).spelling?_congr hacyclic (.row hfound)
      · rw [nsText_id_handle hparameter, nsText_id_handle hfound, hns]
      · rw [name_id_handle, name_id_handle, hname]
      · rw [argumentsOf_handle hparameter, argumentsOf_handle hfound, List.map_map, List.map_map]
        exact harguments.symm
  | @instantiation key base arguments handle hparameter hbase hns hname hlength _ ih =>
      -- The arguments stand for handles with the texts of the row's arguments.
      obtain ⟨handles, hhandles, htexts⟩ := exists_handles
        (List.forall₂_iff_zip.2 ⟨hlength, fun {argument part} hpair => ih (argument, part) hpair
          (hnests.of_part (List.mem_cons_of_mem base (List.of_mem_zip hpair).2))⟩)
      refine ⟨.named handle.id handles, Scope.interpret_instantiation hnests hbase hhandles, ?_⟩
      apply (IsInstance.row hparameter).spelling?_congr hacyclic (.named _ _)
      · exact (nsText_id_handle hparameter).trans hns.symm
      · exact (name_id_handle graph key).trans hname.symm
      · rw [argumentsOf_handle hparameter, List.map_map]
        exact htexts

/-- In a graph without cycles of arguments, a row and a signature that it spells have one text, as long as
no node of the signature comes to the limit of nesting. -/
theorem row_and_signature_spelled_alike (hacyclic : graph.Acyclic) (hnests : signature.Nests)
    (hspells : graph.Spells scope key signature) :
    ∃ handle text, scope.interpret signature = .ok (some handle) ∧
      graph.spelling? (some (graph.handle key)) = some text ∧
        graph.spelling? (some handle) = some text := by
  obtain ⟨handle, hhandle, hsame⟩ := hspells.exists_handle hacyclic hnests
  obtain ⟨ref, href⟩ := exists_reference? hacyclic handle
  have htext : graph.spelling? (some handle) = some ref.spelling := by
    rw [spelling?, href, Option.map_some]
  exact ⟨handle, ref.spelling, hhandle, hsame.trans htext, htext⟩

end Graph

namespace DictionaryOfLists

/-- A type with its instantiations. -/
def type (token : UInt32) (ns name : String) (isParameter : Bool) (instantiations : List (List Nat))
    (dropped : Bool) : Row :=
  ⟨⟨token⟩, ns, name, 0, isParameter, none, [], instantiations, [], [], [], [], dropped, true⟩

/-- Definitions and instances of two generic types. The dictionary has its arguments in two
instantiations, one of which also counts a type that is dropped. -/
def graph : Graph :=
  ⟨#[type 0x2a000001 "" "T" true [] false, type 0x01000001 "System" "Int32" false [] false,
    type 0x02000002 "Lib" "List\x601" false [] false,
    type 0x1b000001 "Lib" "List\x601" false [[0]] false,
    type 0x02000003 "Lib" "Dictionary\x602" false [] false,
    type 0x02000004 "Lib" "Gone" false [] true,
    type 0x1b000002 "Lib" "Dictionary\x602" false [[1, 5], [3]] false]⟩

/-- The scope of a type with one generic parameter. -/
def scope : Scope Nat := ⟨graph.resolve, ["T"], []⟩

/-- The list of the generic parameter. -/
def list : Signature := .instantiation (.valueType ⟨0x02000002⟩) [.typeParameter 0]

/-- The dictionary from integers to such lists. -/
def dictionary : Signature := .instantiation (.classType ⟨0x02000003⟩) [.builtIn .int32, list]

theorem acyclic_graph : graph.Acyclic := Graph.acyclic_of_lt (by decide +kernel)

theorem resolve_eq {token : Token} {key : Nat}
    (h : graph.rows.findIdx? (Graph.answersTo token) = some key) :
    scope.resolve token = some (graph.handle key) := congrArg (Option.map graph.handle) h

theorem spells_list : graph.Spells scope 3 list := by
  have hbase : scope.interpret (.valueType ⟨0x02000002⟩) = .ok (some (graph.handle 2)) :=
    (Scope.interpret_token (.inr rfl)).trans (congrArg Except.ok (resolve_eq (by decide +kernel)))
  refine .instantiation rfl hbase rfl rfl rfl fun pair hpair => ?_
  obtain rfl : pair = (0, .typeParameter 0) := List.mem_singleton.1 hpair
  exact .typeParameter rfl rfl

/-- The instance of the dictionary spells its signature. -/
theorem spells_dictionary : graph.Spells scope 6 dictionary := by
  have hbase : scope.interpret (.classType ⟨0x02000003⟩) = .ok (some (graph.handle 4)) :=
    (Scope.interpret_token (.inl rfl)).trans (congrArg Except.ok (resolve_eq (by decide +kernel)))
  refine .instantiation rfl hbase rfl rfl rfl fun pair hpair => ?_
  have hpairs : (graph.arguments 6).zip [.builtIn .int32, list] = [(1, .builtIn .int32), (3, list)] :=
    rfl
  rw [hpairs] at hpair
  rcases List.mem_cons.1 hpair with rfl | hpair
  · exact .builtIn rfl rfl rfl rfl
  · obtain rfl := List.mem_singleton.1 hpair
    exact spells_list

end DictionaryOfLists

open DictionaryOfLists in
/-- The dictionary is spelled alike as an instance and as a signature. -/
theorem dictionary_spelled_alike :
    graph.Acyclic ∧ dictionary.Nests ∧ graph.Spells scope 6 dictionary ∧
      ∃ handle, scope.interpret dictionary = .ok (some handle) ∧
        graph.spelling? (some (graph.handle 6)) = some "cs.lib.Dictionary_2<Int, cs.lib.List_1<T>>" ∧
        graph.spelling? (some handle) = some "cs.lib.Dictionary_2<Int, cs.lib.List_1<T>>" := by
  have hnests : dictionary.Nests := by
    intro visit hvisit
    have hall : ((dictionary.visits 0).all fun visit => decide (visit.depth < nestingLimit)) = true :=
      by decide +kernel
    exact of_decide_eq_true (List.all_eq_true.1 hall visit hvisit)
  obtain ⟨handle, text, hhandle, hrow, htext⟩ :=
    Graph.row_and_signature_spelled_alike acyclic_graph hnests spells_dictionary
  have hspelling : graph.spelling? (some (graph.handle 6))
      = some "cs.lib.Dictionary_2<Int, cs.lib.List_1<T>>" := by decide +kernel
  rw [hrow] at hspelling
  rw [hspelling] at hrow htext
  exact ⟨acyclic_graph, hnests, spells_dictionary, handle, hhandle, hrow, htext⟩

end Metadata

end TypeSurface
