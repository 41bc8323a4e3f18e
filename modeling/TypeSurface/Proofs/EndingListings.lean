import TypeSurface.Proofs.EndlessArguments
import TypeSurface.Proofs.MostDerived

/-!
# Listings that end

A listing spells the key of every method that it comes to, hidden or not, and nothing guards the
spelling. `listFrom` is the listing with the spelling of keys in it: level by level and method by
method, until one cannot be read or a type of it is given up. `Graph.ListsAs` says how it ends when
types are spelled to any depth, if it does.

It ends exactly when no method that it comes to mentions a type whose spelling comes back to itself,
and it comes to a method when all before it can be read. Where it ends, the most derived level wins
(`most_derived_methods_win`).
-/

set_option autoImplicit false

namespace TypeSurface

namespace Metadata

variable {κ ν : Type}

/-! ## The listing with its keys -/

/-- Why a listing stops before its end: a method cannot be read, or a type of it is given up. -/
inductive Halt where
  | fault (fault : Fault)
  | givenUp
deriving DecidableEq, Repr

theorem mapError_fault_injective {α : Type} {first second : Except Fault α}
    (h : first.mapError Halt.fault = second.mapError Halt.fault) : first = second := by
  cases first with
  | error fault =>
      cases second with
      | error other => rw [Halt.fault.inj (Except.error.inj h)]
      | ok value => exact nomatch h
  | ok value =>
      cases second with
      | error other => exact nomatch h
      | ok other => rw [Except.ok.inj h]

/-- The key of a method, unless one of its types is given up. -/
def methodKey? (spell : MemberType κ → Option ν) (method : Member.Method (MemberType κ)) :
    Option (MethodKey ν) := do
  let result ← spell method.result
  let parameters ← method.parameters.mapM fun parameter => spell parameter.type
  return ⟨method.name, result, parameters⟩

/-- A method with its declaration and its key. -/
structure Keyed (κ ν : Type) where
  source : Sourced κ
  key : MethodKey ν

namespace Keyed

/-- The number of the level that declares a method. -/
def level (keyed : Keyed κ ν) : Nat := keyed.source.level

/-- A method without its declaration and its key. -/
def method (keyed : Keyed κ ν) : Member.Method (MemberType κ) := keyed.source.method

end Keyed

/-- Reads a candidate and spells its key. -/
def Candidate.keyed (spell : MemberType κ → Option ν) (resolve : Token → Option (Handle κ))
    (candidate : Candidate) : Except Halt (Keyed κ ν) :=
  match candidate.read resolve with
  | .error fault => .error (.fault fault)
  | .ok source =>
      match methodKey? spell source.method with
      | none => .error .givenUp
      | some key => .ok ⟨source, key⟩

/-- Lists a chain from the level of a number on. The candidates of a level are read, and their keys are
spelled, one after the other; those whose keys are not taken are listed, and their keys are taken from
the levels behind. -/
def listFrom [DecidableEq ν] (spell : MemberType κ → Option ν)
    (resolve : Token → Option (Handle κ)) :
    Nat → List (MethodKey ν) → List Level → Except Halt (List (Keyed κ ν))
  | _, _, [] => .ok []
  | number, taken, level :: rest => do
      let offered ← (level.candidates number).mapM (Candidate.keyed spell resolve)
      let kept := offered.filter fun keyed => !taken.contains keyed.key
      let others ← listFrom spell resolve (number + 1) (taken ++ kept.map Keyed.key) rest
      return kept ++ others

/-! ## Keys -/

theorem MethodKey.map_some_inj {first second : MethodKey ν} :
    (⟨first.name, some first.result, first.parameters.map some⟩ : MethodKey (Option ν))
      = ⟨second.name, some second.result, second.parameters.map some⟩ ↔ first = second := by
  rcases first with ⟨name, result, parameters⟩
  rcases second with ⟨name', result', parameters'⟩
  rw [MethodKey.mk.injEq, MethodKey.mk.injEq, Option.some.injEq,
    List.map_inj_right fun _ _ => Option.some.inj]

section Keys

variable {spell : MemberType κ → Option ν} {method : Member.Method (MemberType κ)}
  {key : MethodKey ν}

theorem methodKey?_eq_some_iff :
    methodKey? spell method = some key ↔ key.name = method.name ∧
      spell method.result = some key.result ∧
      method.parameters.mapM (fun parameter => spell parameter.type) = some key.parameters := by
  simp only [methodKey?, Option.bind_eq_bind, Option.bind_eq_some_iff, Option.pure_def,
    Option.some.injEq]
  constructor
  · rintro ⟨result, hresult, parameters, hparameters, rfl⟩
    exact ⟨rfl, hresult, hparameters⟩
  · rintro ⟨hname, hresult, hparameters⟩
    exact ⟨key.result, hresult, key.parameters, hparameters, by rw [← hname]⟩

/-- A method has a key exactly when all its types are spelled. -/
theorem exists_methodKey?_iff :
    (∃ key, methodKey? spell method = some key) ↔
      ∀ type ∈ method.types, ∃ text, spell type = some text := by
  rw [Member.Method.types, List.forall_mem_cons, List.forall_mem_map]
  constructor
  · rintro ⟨key, hkey⟩
    obtain ⟨-, hresult, hparameters⟩ := methodKey?_eq_some_iff.1 hkey
    exact ⟨⟨_, hresult⟩, exists_mapM_eq_some_iff.1 ⟨_, hparameters⟩⟩
  · rintro ⟨⟨result, hresult⟩, hparameters⟩
    obtain ⟨parameters, hparameters⟩ := exists_mapM_eq_some_iff.2 hparameters
    exact ⟨⟨method.name, result, parameters⟩,
      methodKey?_eq_some_iff.2 ⟨rfl, hresult, hparameters⟩⟩

end Keys

/-! ## Candidates with their keys -/

section Candidates

variable {spell : MemberType κ → Option ν} {resolve : Token → Option (Handle κ)}
  {candidate : Candidate} {keyed : Keyed κ ν} {fault : Fault}

theorem Candidate.keyed_of_error (h : candidate.read resolve = .error fault) :
    candidate.keyed spell resolve = .error (.fault fault) := by
  rw [keyed, h]

theorem Candidate.keyed_of_none {source : Sourced κ} (hread : candidate.read resolve = .ok source)
    (hkey : methodKey? spell source.method = none) :
    candidate.keyed spell resolve = .error .givenUp := by
  simp only [keyed, hread, hkey]

theorem Candidate.keyed_of_some {source : Sourced κ} {key : MethodKey ν}
    (hread : candidate.read resolve = .ok source)
    (hkey : methodKey? spell source.method = some key) :
    candidate.keyed spell resolve = .ok ⟨source, key⟩ := by
  simp only [keyed, hread, hkey]

theorem Candidate.keyed_eq_ok_iff :
    candidate.keyed spell resolve = .ok keyed ↔ candidate.read resolve = .ok keyed.source ∧
      methodKey? spell keyed.source.method = some keyed.key := by
  constructor
  · intro h
    cases hread : candidate.read resolve with
    | error fault => exact nomatch (keyed_of_error hread).symm.trans h
    | ok source =>
        cases hkey : methodKey? spell source.method with
        | none => exact nomatch (keyed_of_none hread hkey).symm.trans h
        | some key =>
            obtain rfl := Except.ok.inj ((keyed_of_some hread hkey).symm.trans h)
            exact ⟨rfl, hkey⟩
  · rintro ⟨hread, hkey⟩
    exact keyed_of_some hread hkey

/-- A candidate that is not given up is read as it is read without its key. -/
theorem Candidate.read_eq_of_keyed_ne (h : candidate.keyed spell resolve ≠ .error .givenUp) :
    (candidate.keyed spell resolve).map Keyed.source
      = (candidate.read resolve).mapError Halt.fault := by
  cases hread : candidate.read resolve with
  | error fault => rw [keyed_of_error hread]; rfl
  | ok source =>
      cases hkey : methodKey? spell source.method with
      | none => exact absurd (keyed_of_none hread hkey) h
      | some key => rw [keyed_of_some hread hkey]; rfl

/-- Candidates none of which is given up are read as they are read without their keys. -/
theorem mapM_read_of_mapM_keyed {list : List Candidate}
    (h : list.mapM (Candidate.keyed spell resolve) ≠ .error .givenUp) :
    (list.mapM (Candidate.keyed spell resolve)).map (List.map Keyed.source)
      = (list.mapM (Candidate.read resolve)).mapError Halt.fault := by
  have hgivenUp : ∀ {α β : Type} {computed : Except Halt α} {change : α → β},
      computed.map change = .error .givenUp ↔ computed = .error .givenUp := by
    intro α β computed change
    cases computed with
    | error halt => simp [Except.map]
    | ok value => simp [Except.map]
  rw [← mapM_map_result, ← mapM_mapError]
  refine (mapM_eq_of_ne_error .givenUp (fun candidate _ hcandidate => ?_) ?_).symm
  · exact (candidate.read_eq_of_keyed_ne fun hkeyed => hcandidate (hgivenUp.2 hkeyed)).symm
  · rw [mapM_map_result]
    exact fun hkeyed => h (hgivenUp.1 hkeyed)

end Candidates

section Listing

variable [DecidableEq ν] (spell : MemberType κ → Option ν) (resolve : Token → Option (Handle κ))

/-- A listing reads all its candidates with their keys, and what it leaves of them does not depend on
the reading. -/
theorem listFrom_eq_map (number : Nat) (taken : List (MethodKey ν)) (levels : List Level) :
    listFrom spell resolve number taken levels
      = ((levels.mapIdx fun place level => level.candidates (number + place)).mapM
          (List.mapM (Candidate.keyed spell resolve))).map (mostDerivedFrom Keyed.key taken) := by
  induction levels generalizing number taken with
  | nil => rfl
  | cons level rest ih =>
      have hplaces : (fun place (level : Level) => level.candidates (number + (place + 1)))
          = fun place level => level.candidates (number + 1 + place) := by
        funext place level
        rw [Nat.add_assoc, Nat.add_comm 1 place]
      rw [listFrom, List.mapIdx_cons, hplaces, List.mapM_cons, Nat.add_zero]
      cases (level.candidates number).mapM (Candidate.keyed spell resolve) with
      | error halt => rfl
      | ok offered =>
          show (listFrom spell resolve (number + 1) _ rest >>= _) = _
          rw [ih]
          cases (rest.mapIdx fun place level => level.candidates (number + 1 + place)).mapM
              (List.mapM (Candidate.keyed spell resolve)) <;> rfl

/-- A listing leaves the winners among all candidates with their keys. -/
theorem listFrom_eq_map_winners (levels : List Level) :
    listFrom spell resolve 0 [] levels
      = ((candidates levels).mapM (Candidate.keyed spell resolve)).map
          (winners Keyed.key Keyed.level) := by
  have hzero : (fun place (level : Level) => level.candidates (0 + place)) = Level.candidates := by
    funext place level
    rw [Nat.zero_add]
  rw [listFrom_eq_map, hzero, candidates, ← mapM_flatten]
  cases hoffered : (levels.mapIdx Level.candidates).mapM
      (List.mapM (Candidate.keyed spell resolve)) with
  | error halt => rfl
  | ok offered =>
      have hrank : ∀ number keyeds, offered[number]? = some keyeds → ∀ keyed ∈ keyeds,
          Keyed.level keyed = number := by
        intro number keyeds hkeyeds keyed hkeyed
        obtain ⟨list, hlist, hread⟩ := (getElem?_of_mapM_eq_ok hoffered number keyeds).1 hkeyeds
        rw [List.getElem?_mapIdx, Option.map_eq_some_iff] at hlist
        obtain ⟨level, -, rfl⟩ := hlist
        obtain ⟨candidate, hcandidate, hresult⟩ := (mem_of_mapM_eq_ok hread keyed).1 hkeyed
        obtain ⟨entry, -, rfl⟩ := List.mem_map.1 hcandidate
        exact Candidate.level_of_read (Candidate.keyed_eq_ok_iff.1 hresult).1
      exact congrArg Except.ok (mostDerived_eq_winners Keyed.key Keyed.level offered hrank)

end Listing

/-! ## Listings over a graph -/

namespace Graph

/-- The text of a member type, given up when spelling nests deeper than `depth`. A type that is not
known has the empty text. -/
def spellTypeWithin (graph : Graph) (depth : Nat) : MemberType Nat → Option String
  | none => some ""
  | some handle => graph.spellWithin depth handle

/-- Spelling a member type comes to the text, at some depth. -/
def HasText (graph : Graph) (type : MemberType Nat) (text : String) : Prop :=
  ∃ depth, graph.spellTypeWithin depth type = some text

/-- The key of a method: its name, the text of its result, and the texts of its parameter types, from
left to right. -/
structure HasKey (graph : Graph) (method : Member.Method (MemberType Nat)) (key : MethodKey String) :
    Prop where
  name : key.name = method.name
  result : graph.HasText method.result key.result
  parameters : List.Forall₂ (fun parameter text => graph.HasText parameter.type text)
    method.parameters key.parameters

/-- The methods of a chain, given up when spelling a key nests deeper than `depth`. -/
def listWithin (graph : Graph) (depth : Nat) (resolve : Token → Option (Handle Nat))
    (levels : List Level) : Except Halt (List (Member.Method (MemberType Nat))) :=
  (listFrom (graph.spellTypeWithin depth) resolve 0 [] levels).map (List.map Keyed.method)

/-- Listing a chain ends with methods or a fault, at some depth. -/
def ListsAs (graph : Graph) (resolve : Token → Option (Handle Nat)) (levels : List Level)
    (outcome : Except Fault (List (Member.Method (MemberType Nat)))) : Prop :=
  ∃ depth, graph.listWithin depth resolve levels = outcome.mapError Halt.fault

/-- Of the methods that a listing comes to, none mentions a type whose spelling comes back to itself. A
listing comes to a method when all before it can be read. -/
def SpellsKeys (graph : Graph) (resolve : Token → Option (Handle Nat)) (levels : List Level) : Prop :=
  ∀ before candidate after source, candidates levels = before ++ candidate :: after →
    (∀ earlier ∈ before, earlier.IsRead resolve) → candidate.read resolve = .ok source →
      ∀ handle, some handle ∈ source.method.types → ¬graph.Recurs handle

variable {graph : Graph} {depth deeper : Nat} {type : MemberType Nat} {text : String}
  {method : Member.Method (MemberType Nat)} {key : MethodKey String}
  {resolve : Token → Option (Handle Nat)} {levels : List Level} {candidate : Candidate}

/-! ## Depths -/

theorem spellTypeWithin_mono (h : graph.spellTypeWithin depth type = some text)
    (hle : depth ≤ deeper) : graph.spellTypeWithin deeper type = some text := by
  cases type with
  | none => exact h
  | some handle => exact spellWithin_mono h hle

theorem methodKey?_mono (h : methodKey? (graph.spellTypeWithin depth) method = some key)
    (hle : depth ≤ deeper) : methodKey? (graph.spellTypeWithin deeper) method = some key := by
  obtain ⟨hname, hresult, hparameters⟩ := methodKey?_eq_some_iff.1 h
  have hdeeper : method.parameters.mapM (fun parameter => graph.spellTypeWithin deeper parameter.type)
      = some (key.parameters.map fun text => text) :=
    mapM_eq_some_map hparameters fun _ _ _ htext => spellTypeWithin_mono htext hle
  rw [List.map_id'] at hdeeper
  exact methodKey?_eq_some_iff.2 ⟨hname, spellTypeWithin_mono hresult hle, hdeeper⟩

/-- A candidate that is not given up stays the same at every greater depth. -/
theorem keyed_mono (hle : depth ≤ deeper)
    (h : candidate.keyed (graph.spellTypeWithin depth) resolve ≠ .error .givenUp) :
    candidate.keyed (graph.spellTypeWithin deeper) resolve
      = candidate.keyed (graph.spellTypeWithin depth) resolve := by
  cases hread : candidate.read resolve with
  | error fault => rw [Candidate.keyed_of_error hread, Candidate.keyed_of_error hread]
  | ok source =>
      cases hkey : methodKey? (graph.spellTypeWithin depth) source.method with
      | none => exact absurd (Candidate.keyed_of_none hread hkey) h
      | some key =>
          rw [Candidate.keyed_of_some hread hkey,
            Candidate.keyed_of_some hread (methodKey?_mono hkey hle)]

theorem listWithin_eq (graph : Graph) (depth : Nat) (resolve : Token → Option (Handle Nat))
    (levels : List Level) :
    graph.listWithin depth resolve levels
      = ((candidates levels).mapM (Candidate.keyed (graph.spellTypeWithin depth) resolve)).map
          fun keyed => (winners Keyed.key Keyed.level keyed).map Keyed.method := by
  rw [listWithin, listFrom_eq_map_winners]
  cases (candidates levels).mapM (Candidate.keyed (graph.spellTypeWithin depth) resolve) <;> rfl

theorem mapM_keyed_mono (hle : depth ≤ deeper) {list : List Candidate}
    (h : list.mapM (Candidate.keyed (graph.spellTypeWithin depth) resolve) ≠ .error .givenUp) :
    list.mapM (Candidate.keyed (graph.spellTypeWithin deeper) resolve)
      = list.mapM (Candidate.keyed (graph.spellTypeWithin depth) resolve) :=
  mapM_eq_of_ne_error .givenUp (fun _ _ hcandidate => keyed_mono hle hcandidate) h

/-! ## How a listing ends -/

variable {outcome other : Except Fault (List (Member.Method (MemberType Nat)))}

/-- A listing that ends reads its candidates, none of which is given up, and leaves the winners. -/
theorem ListsAs.exists_depth (h : graph.ListsAs resolve levels outcome) :
    ∃ depth, (candidates levels).mapM (Candidate.keyed (graph.spellTypeWithin depth) resolve)
        ≠ .error .givenUp ∧
      ((candidates levels).mapM (Candidate.keyed (graph.spellTypeWithin depth) resolve)).map
        (fun keyed => (winners Keyed.key Keyed.level keyed).map Keyed.method)
          = outcome.mapError Halt.fault := by
  obtain ⟨depth, hdepth⟩ := h
  rw [listWithin_eq] at hdepth
  refine ⟨depth, fun hgivenUp => ?_, hdepth⟩
  rw [hgivenUp] at hdepth
  cases outcome with
  | error fault => exact nomatch Except.error.inj hdepth
  | ok methods => exact nomatch hdepth

theorem ListsAs.unique (h : graph.ListsAs resolve levels outcome)
    (hother : graph.ListsAs resolve levels other) : other = outcome := by
  obtain ⟨depth, hne, hdepth⟩ := h.exists_depth
  obtain ⟨depth', hne', hdepth'⟩ := hother.exists_depth
  rw [← mapM_keyed_mono (Nat.le_max_left depth depth') hne] at hdepth
  rw [← mapM_keyed_mono (Nat.le_max_right depth depth') hne', hdepth] at hdepth'
  exact (mapError_fault_injective hdepth').symm

/-- A type has a text exactly when spelling it comes back to nothing. -/
theorem exists_hasText_iff :
    (∃ text, graph.HasText type text) ↔ ∀ handle, type = some handle → ¬graph.Recurs handle := by
  constructor
  · rintro ⟨text, depth, htext⟩ handle rfl
    exact Ends.not_recurs ⟨depth, text, htext⟩
  · intro h
    cases type with
    | none => exact ⟨"", 0, rfl⟩
    | some handle =>
        obtain ⟨depth, text, htext⟩ := ends_of_not_recurs (h handle rfl)
        exact ⟨text, depth, htext⟩

/-- A method has a key, at some depth, exactly when spelling its types comes back to nothing. -/
theorem exists_depth_methodKey?_iff :
    (∃ depth key, methodKey? (graph.spellTypeWithin depth) method = some key) ↔
      ∀ handle, some handle ∈ method.types → ¬graph.Recurs handle := by
  constructor
  · rintro ⟨depth, key, hkey⟩ handle hhandle
    obtain ⟨text, htext⟩ := exists_methodKey?_iff.1 ⟨key, hkey⟩ _ hhandle
    exact exists_hasText_iff.1 ⟨text, depth, htext⟩ handle rfl
  · intro h
    have htexts : ∀ type ∈ method.types,
        ∃ depth, ∃ text, graph.spellTypeWithin depth type = some text := by
      intro type htype
      obtain ⟨text, depth, htext⟩ : ∃ text, graph.HasText type text := by
        apply exists_hasText_iff.2
        rintro handle rfl
        exact h handle htype
      exact ⟨depth, text, htext⟩
    obtain ⟨depth, hdepth⟩ := exists_common_depth
      (fun hle ⟨text, htext⟩ => ⟨text, spellTypeWithin_mono htext hle⟩) htexts
    obtain ⟨key, hkey⟩ := exists_methodKey?_iff.2 hdepth
    exact ⟨depth, key, hkey⟩

/-- A listing that ends spells the keys of all methods that it comes to. -/
theorem ListsAs.spellsKeys (h : graph.ListsAs resolve levels outcome) :
    graph.SpellsKeys resolve levels := by
  obtain ⟨depth, hne, -⟩ := h.exists_depth
  intro before candidate after source hcandidates hbefore hread
  apply exists_depth_methodKey?_iff.1
  refine ⟨depth, Option.ne_none_iff_exists'.1 fun hnone => hne ?_⟩
  -- The candidate is given up, or else one that is read before it.
  have hgivenUp := Candidate.keyed_of_none hread hnone
  rw [← fault?_eq_some_iff, fault?_mapM, hcandidates, List.findSome?_append, List.findSome?_cons,
    hgivenUp]
  cases hfirst : before.findSome? fun earlier =>
      fault? (earlier.keyed (graph.spellTypeWithin depth) resolve) with
  | none => rfl
  | some halt =>
      obtain ⟨earlier, hearlier, hhalt⟩ := List.exists_of_findSome?_eq_some hfirst
      obtain ⟨source', hread'⟩ := Candidate.isRead_iff.1 (hbefore earlier hearlier)
      cases hkey : methodKey? (graph.spellTypeWithin depth) source'.method with
      | none =>
          rw [Candidate.keyed_of_none hread' hkey] at hhalt
          exact hhalt.symm
      | some key =>
          rw [Candidate.keyed_of_some hread' hkey] at hhalt
          exact nomatch hhalt

/-- The first candidates of a chain, if they can all be read, are read with their keys at one depth. -/
theorem SpellsKeys.exists_mapM_keyed (h : graph.SpellsKeys resolve levels)
    {first rest : List Candidate} (hcandidates : candidates levels = first ++ rest)
    (hread : ∀ candidate ∈ first, candidate.IsRead resolve) :
    ∃ depth keyed, first.mapM (Candidate.keyed (graph.spellTypeWithin depth) resolve) = .ok keyed := by
  have hkeyed : ∀ candidate ∈ first, ∃ depth, ∃ keyed,
      candidate.keyed (graph.spellTypeWithin depth) resolve = .ok keyed := by
    intro candidate hcandidate
    obtain ⟨before, after, rfl⟩ := List.append_of_mem hcandidate
    obtain ⟨source, hsource⟩ := Candidate.isRead_iff.1 (hread candidate hcandidate)
    have hbefore : ∀ earlier ∈ before, earlier.IsRead resolve :=
      fun earlier hearlier => hread earlier (List.mem_append_left _ hearlier)
    rw [List.append_assoc, List.cons_append] at hcandidates
    obtain ⟨depth, key, hkey⟩ := exists_depth_methodKey?_iff.2
      (h before candidate (after ++ rest) source hcandidates hbefore hsource)
    exact ⟨depth, ⟨source, key⟩, Candidate.keyed_of_some hsource hkey⟩
  obtain ⟨depth, hdepth⟩ := exists_common_depth (fun hle ⟨keyed, hkeyed⟩ =>
    ⟨keyed, (keyed_mono hle (by rw [hkeyed]; exact nofun)).trans hkeyed⟩) hkeyed
  refine ⟨depth, fault?_eq_none_iff.1 ?_⟩
  rw [fault?_mapM, List.findSome?_eq_none_iff]
  exact fun candidate hcandidate => fault?_eq_none_iff.2 (hdepth candidate hcandidate)

/-- When all candidates can be read and their keys are spelled, the winners among them are listed. -/
theorem SpellsKeys.exists_keyed (h : graph.SpellsKeys resolve levels)
    (hread : ∀ candidate ∈ candidates levels, candidate.IsRead resolve) :
    ∃ keyed, List.Forall₂ (fun candidate (keyed : Keyed Nat String) =>
        candidate.read resolve = .ok keyed.source ∧ graph.HasKey keyed.method keyed.key)
        (candidates levels) keyed ∧
      graph.ListsAs resolve levels
        (.ok ((winners Keyed.key Keyed.level keyed).map Keyed.method)) := by
  obtain ⟨depth, keyed, hkeyed⟩ := h.exists_mapM_keyed (List.append_nil _).symm hread
  refine ⟨keyed, (forall₂_of_mapM_eq_ok hkeyed).imp fun candidate keyed hcandidate => ?_,
    depth, ?_⟩
  · obtain ⟨hsource, hkey⟩ := Candidate.keyed_eq_ok_iff.1 hcandidate
    obtain ⟨hname, hresult, hparameters⟩ := methodKey?_eq_some_iff.1 hkey
    exact ⟨hsource, hname, ⟨depth, hresult⟩,
      (forall₂_of_mapM_eq_some hparameters).imp fun _ _ htext => ⟨depth, htext⟩⟩
  · rw [listWithin_eq, hkeyed]
    rfl

/-- When a candidate cannot be read and the keys before the first such one are spelled, its fault ends the
listing. -/
theorem SpellsKeys.exists_first_fault (h : graph.SpellsKeys resolve levels)
    (hnot : ¬∀ candidate ∈ candidates levels, candidate.IsRead resolve) :
    ∃ before candidate after fault, candidates levels = before ++ candidate :: after ∧
      (∀ earlier ∈ before, earlier.IsRead resolve) ∧ candidate.FailsWith resolve fault ∧
      graph.ListsAs resolve levels (.error fault) := by
  obtain ⟨before, candidate, after, fault, hcandidates, hbefore, hfails⟩ :=
    exists_first_failing hnot
  obtain ⟨depth, keyed, hkeyed⟩ := h.exists_mapM_keyed hcandidates hbefore
  refine ⟨before, candidate, after, fault, hcandidates, hbefore, hfails, depth, ?_⟩
  have hfault : candidate.keyed (graph.spellTypeWithin depth) resolve = .error (.fault fault) :=
    Candidate.keyed_of_error (fault?_eq_some_iff.1 (Candidate.fault?_read_eq_some_iff.2 hfails))
  rw [listWithin_eq, hcandidates, List.mapM_append, hkeyed, List.mapM_cons, hfault]
  rfl

/-! ## Handles that are made over the graph -/

/-- Scopes whose tokens stand for handles that are made over a graph make such handles only. -/
theorem handedOut_keeps {scope : Scope Nat}
    (hresolve : ∀ token handle, scope.resolve token = some handle → graph.HandedOut handle) :
    scope.Keeps graph.HandedOut where
  resolve := hresolve
  builtIn _ := .named _ nofun
  parameter _ name _ := .parameter name
  array _ := .array
  pointer _ _ := .named _ nofun
  byReference _ _ := .named _ nofun
  named _ _ _ := .named _

theorem HasText.spelling?_eq (hhanded : ∀ handle ∈ type, graph.HandedOut handle)
    (h : graph.HasText type text) : graph.spelling? type = some text := by
  obtain ⟨depth, htext⟩ := h
  cases type with
  | none => exact htext
  | some handle =>
      exact ((spelling_ends_iff graph handle).2 (hhanded handle rfl) text).1 ⟨depth, htext⟩

/-- The key of a method with such types is spelled with its texts. -/
theorem methodKey_spelling?_eq
    (hhanded : ∀ type ∈ method.types, ∀ handle ∈ type, graph.HandedOut handle)
    (h : methodKey? (graph.spellTypeWithin depth) method = some key) :
    methodKey graph.spelling? method = ⟨key.name, some key.result, key.parameters.map some⟩ := by
  obtain ⟨hresultHanded, hparametersHanded⟩ := List.forall_mem_cons.1 hhanded
  obtain ⟨hname, hresult, hparameters⟩ := methodKey?_eq_some_iff.1 h
  rw [List.forall_mem_map] at hparametersHanded
  have htexts : (method.parameters.map fun parameter => graph.spelling? parameter.type)
      = key.parameters.map some :=
    map_eq_map_some hparameters fun parameter hparameter _ htext =>
      HasText.spelling?_eq (hparametersHanded parameter hparameter) ⟨depth, htext⟩
  rw [methodKey, htexts, HasText.spelling?_eq hresultHanded ⟨depth, hresult⟩, ← hname]

/-- Where a listing over such handles ends, the listing by spelled keys ends alike. -/
theorem ListsAs.listMethods_eq
    (hresolve : ∀ token handle, resolve token = some handle → graph.HandedOut handle)
    (h : graph.ListsAs resolve levels outcome) :
    listMethods graph.spelling? resolve levels = outcome := by
  obtain ⟨depth, hne, hdepth⟩ := h.exists_depth
  have hread := mapM_read_of_mapM_keyed hne
  rw [listMethods_eq_map_listSourced, listSourced_eq_map_winners]
  cases hkeyed : (candidates levels).mapM
      (Candidate.keyed (graph.spellTypeWithin depth) resolve) with
  | error halt =>
      rw [hkeyed] at hread hdepth hne
      cases halt with
      | givenUp => exact absurd rfl hne
      | fault fault =>
          have hfails : (candidates levels).mapM (Candidate.read resolve) = .error fault :=
            mapError_fault_injective hread.symm
          have houtcome : outcome = .error fault := mapError_fault_injective hdepth.symm
          rw [hfails, houtcome]
          rfl
  | ok keyed =>
      rw [hkeyed] at hread hdepth
      have hsources : (candidates levels).mapM (Candidate.read resolve)
          = .ok (keyed.map Keyed.source) := mapError_fault_injective hread.symm
      have houtcome : outcome = .ok ((winners Keyed.key Keyed.level keyed).map Keyed.method) :=
        mapError_fault_injective hdepth.symm
      have hkey : ∀ entry ∈ keyed, entry.source.key graph.spelling?
          = ⟨entry.key.name, some entry.key.result, entry.key.parameters.map some⟩ := by
        intro entry hentry
        obtain ⟨candidate, -, hcandidate⟩ := (mem_of_mapM_eq_ok hkeyed entry).1 hentry
        obtain ⟨hsource, hentryKey⟩ := Candidate.keyed_eq_ok_iff.1 hcandidate
        obtain ⟨method, hmethod, hmade⟩ := map_eq_ok_iff.1 hsource
        have hscope : (candidate.scope resolve).Keeps graph.HandedOut := handedOut_keeps hresolve
        refine methodKey_spelling?_eq ?_ hentryKey
        rw [← hmade]
        exact hscope.of_read hmethod
      have hsame : ∀ a ∈ keyed, ∀ b ∈ keyed,
          a.source.key graph.spelling? = b.source.key graph.spelling? ↔ a.key = b.key := by
        intro a ha b hb
        rw [hkey a ha, hkey b hb]
        exact MethodKey.map_some_inj
      rw [hsources, houtcome]
      show Except.ok _ = Except.ok _
      rw [winners_map (fun _ => rfl) hsame, List.map_map]
      rfl

/-- A listing ends, in one way, exactly when it spells the keys of all methods that it comes to. If all
candidates of the chain can be read, it then lists the winners among them: those whose keys (name, text of
the result, texts of the parameter types) no candidate of a more derived level has, in the order of levels
and declarations. So duplicates of one level stay together, every key is listed, and from one level only.
Otherwise it fails with the fault of the first candidate that cannot be read, whether or not it would have
been hidden. Over handles that are made over the graph, `listMethods` ends as the listing does. -/
theorem most_derived_methods_win (graph : Graph) (resolve : Token → Option (Handle Nat))
    (levels : List Level) :
    ((∃ outcome, graph.ListsAs resolve levels outcome) ↔ graph.SpellsKeys resolve levels) ∧
    (∀ outcome other, graph.ListsAs resolve levels outcome → graph.ListsAs resolve levels other →
      other = outcome) ∧
    (graph.SpellsKeys resolve levels →
      (∀ candidate ∈ candidates levels, candidate.IsRead resolve) →
      ∃ keyed, List.Forall₂ (fun candidate (keyed : Keyed Nat String) =>
          candidate.read resolve = .ok keyed.source ∧ graph.HasKey keyed.method keyed.key)
          (candidates levels) keyed ∧
        graph.ListsAs resolve levels
          (.ok ((winners Keyed.key Keyed.level keyed).map Keyed.method)) ∧
        (∀ listed ∈ winners Keyed.key Keyed.level keyed, ∀ other ∈ keyed,
          other.level = listed.level → other.key = listed.key →
            other ∈ winners Keyed.key Keyed.level keyed) ∧
        (∀ other ∈ keyed, ∃ listed ∈ winners Keyed.key Keyed.level keyed,
          listed.key = other.key) ∧
        ∀ listed ∈ winners Keyed.key Keyed.level keyed,
          ∀ other ∈ winners Keyed.key Keyed.level keyed,
            listed.key = other.key → listed.level = other.level) ∧
    (graph.SpellsKeys resolve levels →
      (¬∀ candidate ∈ candidates levels, candidate.IsRead resolve) →
      ∃ before candidate after fault, candidates levels = before ++ candidate :: after ∧
        (∀ earlier ∈ before, earlier.IsRead resolve) ∧ candidate.FailsWith resolve fault ∧
        graph.ListsAs resolve levels (.error fault)) ∧
    ((∀ token handle, resolve token = some handle → graph.HandedOut handle) →
      ∀ outcome, graph.ListsAs resolve levels outcome →
        listMethods graph.spelling? resolve levels = outcome) := by
  refine ⟨⟨fun ⟨_, hlists⟩ => hlists.spellsKeys, fun hkeys => ?_⟩,
    fun _ _ hlists hother => hlists.unique hother, fun hkeys hread => ?_,
    fun hkeys hnot => hkeys.exists_first_fault hnot,
    fun hresolve _ hlists => hlists.listMethods_eq hresolve⟩
  · by_cases hread : ∀ candidate ∈ candidates levels, candidate.IsRead resolve
    · obtain ⟨keyed, -, hlists⟩ := hkeys.exists_keyed hread
      exact ⟨_, hlists⟩
    · obtain ⟨_, _, _, fault, -, -, -, hlists⟩ := hkeys.exists_first_fault hread
      exact ⟨.error fault, hlists⟩
  · obtain ⟨keyed, hkeyed, hlists⟩ := hkeys.exists_keyed hread
    refine ⟨keyed, hkeyed, hlists, ?_, ?_, ?_⟩
    · intro listed hlisted other hother hlevel hkey
      exact mem_winners_of_same hlisted hother hlevel hkey
    · intro other hother
      obtain ⟨listed, hlisted, -, hkey⟩ := exists_winner Keyed.key Keyed.level hother
      exact ⟨listed, hlisted, hkey⟩
    · intro listed hlisted other hother hkey
      exact rank_eq_of_mem_winners hlisted hother hkey

end Graph

namespace EndingChains

open DrawnLevels (level)

/-- A public method of an instance with one parameter, whose name tells it from the others. -/
def method (name mark : String) (result : BuiltIn) (type : Signature) : MethodDecl :=
  ⟨name, true, false, [], .builtIn result, [⟨mark, type, false, false⟩]⟩

/-- Three levels. The first declares one method twice, which hides one of the second; methods of another
result, of another name and of another parameter are not hidden by it. They hide two of the third. -/
def levels : List Level :=
  [level [method "Draw" "own" .void (.builtIn .int32), method "Draw" "again" .void (.builtIn .int32)],
    level [method "Draw" "hidden" .void (.builtIn .int32),
      method "Draw" "made" .object (.builtIn .int32), method "Fill" "filled" .void (.builtIn .int32),
      method "Draw" "base" .void (.builtIn .string)],
    level [method "Draw" "covered" .void (.builtIn .string),
      method "Fill" "full" .void (.builtIn .int32), method "Draw" "far" .void (.builtIn .object)]]

/-- A method whose parameter stands for no generic parameter. -/
def torn : MethodDecl := method "Draw" "torn" .void (.typeParameter 0)

/-- A method whose parameter is an instance that is its own argument. -/
def endless : MethodDecl := method "Draw" "endless" .void (.classType ⟨0x1b000001⟩)

/-- The instance that is its own argument. -/
def loop : Graph := Graph.ring 1

/-- The one token that is known is that of the instance. -/
def resolve (token : Token) : Option (Handle Nat) :=
  if token = ⟨0x1b000001⟩ then some (loop.handle 0) else none

/-- The name of a method with those of its parameters. -/
def names (method : Member.Method (MemberType Nat)) : String × List String :=
  (method.name, method.parameters.map (·.name))

theorem exists_listed : ∃ methods, loop.ListsAs resolve levels (.ok methods) ∧
    methods.map names = [("Draw", ["own"]), ("Draw", ["again"]), ("Draw", ["made"]),
      ("Fill", ["filled"]), ("Draw", ["base"]), ("Draw", ["far"])] := by
  obtain ⟨methods, hmethods, hnames⟩ : ∃ methods, loop.listWithin 2 resolve levels = .ok methods ∧
      methods.map names = [("Draw", ["own"]), ("Draw", ["again"]), ("Draw", ["made"]),
        ("Fill", ["filled"]), ("Draw", ["base"]), ("Draw", ["far"])] := by
    apply exists_ok_of_toOption_map
    decide +kernel
  exact ⟨methods, ⟨2, hmethods⟩, hnames⟩

/-- Two levels. The first declares a method that can be read and another one, the second a third. -/
def chain (second third : MethodDecl) : List Level :=
  [level [method "Draw" "own" .void (.builtIn .int32), second], level [third]]

theorem isRead_levels : ∀ candidate ∈ candidates levels, candidate.IsRead resolve := by
  intro candidate hcandidate
  have hall : ((candidates levels).all fun candidate =>
      (fault? (candidate.read resolve)).isNone) = true := by decide +kernel
  exact Candidate.fault?_read_eq_none_iff.1
    (Option.isNone_iff_eq_none.1 (List.all_eq_true.1 hall candidate hcandidate))

theorem listsAs_torn :
    loop.ListsAs resolve (chain torn endless) (.error (.parameterOutOfRange .type 0 0)) := by
  have hfault : fault? (loop.listWithin 2 resolve (chain torn endless))
      = some (.fault (.parameterOutOfRange .type 0 0)) := by decide +kernel
  exact ⟨2, fault?_eq_some_iff.1 hfault⟩

theorem not_isRead_torn : ¬∀ candidate ∈ candidates (chain torn endless), candidate.IsRead resolve := by
  intro hread
  obtain ⟨source, hsource⟩ := Candidate.isRead_iff.1
    (hread ⟨0, 1, level _, torn⟩ (List.mem_cons_of_mem _ List.mem_cons_self))
  exact nomatch hsource

theorem not_spellsKeys_endless : ¬loop.SpellsKeys resolve (chain endless torn) := by
  intro hkeys
  have hrecurs := hkeys [⟨0, 0, level _, method "Draw" "own" .void (.builtIn .int32)⟩]
    ⟨0, 1, level _, endless⟩ [⟨1, 0, level _, torn⟩] _ rfl
    (List.forall_mem_singleton.2 (Candidate.isRead_iff.2 ⟨_, rfl⟩)) rfl (loop.handle 0)
    (List.mem_cons_of_mem _ List.mem_cons_self)
  exact hrecurs (Graph.recurs_ring (by decide))

theorem handedOut_resolve (token : Token) (handle : Handle Nat) (h : resolve token = some handle) :
    loop.HandedOut handle := by
  unfold resolve at h
  split at h
  · obtain rfl := Option.some.inj h
    exact .row 0
  · exact nomatch h

end EndingChains

open EndingChains in
/-- Both declarations of the first level are listed, and of the others what no level before them has. A
method that cannot be read ends the listing, also in front of one whose key is never spelled; the other way
round the listing never ends. -/
theorem drawn_from_three_levels :
    (∃ methods, loop.ListsAs resolve levels (.ok methods) ∧
      methods.map names = [("Draw", ["own"]), ("Draw", ["again"]), ("Draw", ["made"]),
        ("Fill", ["filled"]), ("Draw", ["base"]), ("Draw", ["far"])] ∧
      listMethods loop.spelling? resolve levels = .ok methods ∧
      ∃ keyed, methods = (winners Keyed.key Keyed.level keyed).map Keyed.method ∧
        List.Forall₂ (fun candidate (keyed : Keyed Nat String) =>
          candidate.read resolve = .ok keyed.source ∧ loop.HasKey keyed.method keyed.key)
          (candidates levels) keyed) ∧
    (∃ before candidate after, candidates (chain torn endless) = before ++ candidate :: after ∧
      candidate.FailsWith resolve (.parameterOutOfRange .type 0 0) ∧
      loop.ListsAs resolve (chain torn endless) (.error (.parameterOutOfRange .type 0 0))) ∧
    ¬∃ outcome, loop.ListsAs resolve (chain endless torn) outcome := by
  refine ⟨?_, ?_, ?_⟩
  · obtain ⟨methods, hmethods, hnames⟩ := exists_listed
    obtain ⟨hends, hunique, hwinners, -, hspelled⟩ :=
      Graph.most_derived_methods_win loop resolve levels
    obtain ⟨keyed, hkeyed, hlists, -⟩ := hwinners (hends.1 ⟨_, hmethods⟩) isRead_levels
    exact ⟨methods, hmethods, hnames, hspelled handedOut_resolve _ hmethods, keyed,
      Except.ok.inj (hunique _ _ hlists hmethods), hkeyed⟩
  · obtain ⟨hends, hunique, -, hfails, -⟩ :=
      Graph.most_derived_methods_win loop resolve (chain torn endless)
    obtain ⟨before, candidate, after, fault, hcandidates, -, hfault, hlists⟩ :=
      hfails (hends.1 ⟨_, listsAs_torn⟩) not_isRead_torn
    obtain rfl := Except.error.inj (hunique _ _ hlists listsAs_torn)
    exact ⟨before, candidate, after, hcandidates, hfault, hlists⟩
  · intro hlists
    exact not_spellsKeys_endless
      ((Graph.most_derived_methods_win loop resolve (chain endless torn)).1.1 hlists)

end Metadata

end TypeSurface
