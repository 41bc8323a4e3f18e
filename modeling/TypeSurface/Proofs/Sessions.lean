import Mathlib.Data.List.Basic
import TypeSurface.Proofs.References
import TypeSurface.Session
import TypeSurface.Source.Assemblies
import TypeSurface.Source.Catalog

/-!
# Sessions that grow

What a session has loaded and what it shows only ever gets longer at the end. `AppendingSource` is
all that is asked of a source: a load that succeeds shows the types of its binary behind those shown
before. One load takes the paths before its first failing one (`loading`). What each binary that
loads preserves is preserved by a load, a step and a run (`load_preserves`, `step_preserves`,
`after_preserves`), so types stay visible at their places (`visible_after`). As a search takes the
first type it meets, it finds again what it has found once (`sessions_only_grow`).

A source of binaries shows their definitions: the registered types of the table of definitions,
without the pseudo type that holds module-level members (`mem_listed_iff`).
-/

set_option autoImplicit false

namespace TypeSurface

/-- A source that shows the types of a binary it loads behind all types it showed before. -/
class AppendingSource (σ : Type) (η : outParam Type) [Viewable η] [TypeSource σ η] : Prop where
  visible_load : ∀ {source next : σ} {path : String}, TypeSource.load source path = .ok next →
    TypeSource.visible source <+: TypeSource.visible next

namespace Catalog

theorem load_eq_ok_iff {catalog next : Catalog} {path : String} :
    catalog.load path = .ok next ↔
      ∃ types, catalog.content path = .ok types ∧
        next = { catalog with visible := catalog.visible ++ types } := by
  unfold load
  cases catalog.content path with
  | error cause => simp
  | ok types => simp [eq_comm]

end Catalog

instance : AppendingSource Catalog TypeView where
  visible_load := by
    intro source next path h
    obtain ⟨types, -, rfl⟩ := Catalog.load_eq_ok_iff.1 h
    exact List.prefix_append _ _

namespace AssemblyStore

theorem load_eq_ok_iff {store next : AssemblyStore} {path : String} :
    store.load path = .ok next ↔
      ∃ graph, store.files.lookup path = some graph ∧
        next = { store with loaded := store.loaded ++ [graph] } := by
  unfold load
  cases store.files.lookup path with
  | none => simp
  | some graph => simp [eq_comm]

end AssemblyStore

instance : AppendingSource AssemblyStore Metadata.GraphType where
  visible_load := by
    intro source next path h
    obtain ⟨graph, -, rfl⟩ := AssemblyStore.load_eq_ok_iff.1 h
    show source.visible <+: List.flatMap _ _
    rw [List.flatMap_append]
    exact List.prefix_append _ _

/-- The paths a step loads. -/
def SessionStep.paths : SessionStep → List String
  | .load paths => paths
  | .find _ | .lookup _ | .listVisible => []

namespace Session

variable {σ η : Type} [Viewable η] [TypeSource σ η]

/-! ## One load -/

/-- The paths before the first one that fails to load. -/
def taken (session : Session σ) : List String → List String
  | [] => []
  | path :: rest =>
      match TypeSource.load session.source path with
      | .error _ => []
      | .ok source => path :: taken ⟨source, session.loaded ++ [path]⟩ rest

/-- What loading several paths comes to. -/
structure Loading (session : Session σ) (paths : List String) : Prop where
  /-- The paths that are taken are the first ones. -/
  first : session.taken paths <+: paths
  /-- Alone they would load without failure, and to the same session. -/
  loads : session.load (session.taken paths) = (.ok (), (session.load paths).2)
  /-- The path behind them is at fault. -/
  fails : ∀ path rest, paths = session.taken paths ++ path :: rest →
    ∃ fault, TypeSource.load (session.load paths).2.source path = .error fault ∧
      (session.load paths).1 = .error fault
  /-- They are put on record. -/
  loaded : (session.load paths).2.loaded = session.loaded ++ session.taken paths

/-- One more binary that loads keeps the property. -/
def PreservedByBinaries (invariant : Session σ → Prop) : Prop :=
  ∀ {session : Session σ} {path : String} {source : σ}, invariant session →
    TypeSource.load session.source path = .ok source →
      invariant ⟨source, session.loaded ++ [path]⟩

variable {session : Session σ} {source : σ} {path : String} {rest : List String} {fault : Fault}

theorem load_of_error (h : TypeSource.load session.source path = .error fault) :
    session.load (path :: rest) = (.error fault, session) := by
  rw [load, h]

theorem load_of_ok (h : TypeSource.load session.source path = .ok source) :
    session.load (path :: rest) = (⟨source, session.loaded ++ [path]⟩ : Session σ).load rest := by
  rw [load, h]

theorem taken_of_error (h : TypeSource.load session.source path = .error fault) :
    session.taken (path :: rest) = [] := by
  rw [taken, h]

theorem taken_of_ok (h : TypeSource.load session.source path = .ok source) :
    session.taken (path :: rest)
      = path :: (⟨source, session.loaded ++ [path]⟩ : Session σ).taken rest := by
  rw [taken, h]

/-- Every load takes the paths before the first one that fails. -/
theorem loading (session : Session σ) (paths : List String) : session.Loading paths := by
  induction paths generalizing session with
  | nil =>
      refine ⟨List.prefix_rfl, rfl, ?_, (List.append_nil _).symm⟩
      intro path rest h
      exact absurd h (List.cons_ne_nil path rest).symm
  | cons path rest ih =>
      cases hload : TypeSource.load session.source path with
      | error fault =>
          constructor
          · rw [taken_of_error hload]
            exact List.nil_prefix
          · rw [taken_of_error hload, load_of_error hload]
            rfl
          · intro failing others h
            rw [taken_of_error hload, List.nil_append, List.cons.injEq] at h
            obtain ⟨rfl, -⟩ := h
            exact ⟨fault, by rw [load_of_error hload, hload], by rw [load_of_error hload]⟩
          · rw [taken_of_error hload, load_of_error hload, List.append_nil]
      | ok source =>
          have hrest := ih ⟨source, session.loaded ++ [path]⟩
          constructor
          · rw [taken_of_ok hload]
            exact List.cons_prefix_cons.2 ⟨rfl, hrest.first⟩
          · rw [taken_of_ok hload, load_of_ok hload, load_of_ok hload]
            exact hrest.loads
          · intro failing others h
            rw [taken_of_ok hload, List.cons_append, List.cons.injEq] at h
            rw [load_of_ok hload]
            exact hrest.fails failing others h.2
          · rw [taken_of_ok hload, load_of_ok hload, hrest.loaded]
            exact List.append_assoc _ _ _

/-- Paths load one list after the other when the first list loads without failure. -/
theorem load_append {front back : List String} (h : (session.load front).1 = .ok ()) :
    session.load (front ++ back) = (session.load front).2.load back := by
  induction front generalizing session with
  | nil => rfl
  | cons path rest ih =>
      cases hload : TypeSource.load session.source path with
      | error fault =>
          rw [load_of_error hload] at h
          exact nomatch h
      | ok source =>
          rw [load_of_ok hload] at h
          rw [List.cons_append, load_of_ok hload, load_of_ok hload]
          exact ih h

/-- What every single binary that loads keeps, loading several keeps. -/
theorem load_preserves {invariant : Session σ → Prop} (hone : PreservedByBinaries invariant)
    {session : Session σ} (h : invariant session) (paths : List String) :
    invariant (session.load paths).2 := by
  induction paths generalizing session with
  | nil => exact h
  | cons path rest ih =>
      cases hload : TypeSource.load session.source path with
      | error fault =>
          rw [load_of_error hload]
          exact h
      | ok source =>
          rw [load_of_ok hload]
          exact ih (hone h hload)

/-! ## One step -/

theorem loaded_step (session : Session σ) (step : SessionStep) :
    (session.step step).2.loaded = session.loaded ++ session.taken step.paths := by
  cases step with
  | load paths => exact (session.loading paths).loaded
  | find path => exact (List.append_nil _).symm
  | lookup path => exact (List.append_nil _).symm
  | listVisible => exact (List.append_nil _).symm

/-- What every single binary that loads keeps, a step keeps. -/
theorem step_preserves {invariant : Session σ → Prop} (hone : PreservedByBinaries invariant)
    {session : Session σ} (h : invariant session) (step : SessionStep) :
    invariant (session.step step).2 := by
  cases step with
  | load paths => exact load_preserves hone h paths
  | find path => exact h
  | lookup path => exact h
  | listVisible => exact h

/-! ## Runs -/

/-- The session after some steps. -/
def after (session : Session σ) (steps : List SessionStep) : Session σ :=
  steps.foldl (fun session step => (session.step step).2) session

/-- The paths that some steps take, one step after the other. -/
def takenBy (session : Session σ) : List SessionStep → List String
  | [] => []
  | step :: rest => session.taken step.paths ++ (session.step step).2.takenBy rest

/-- What a run comes to. -/
structure Grows (session : Session σ) (steps : List SessionStep) : Prop where
  /-- Each answer is that of the session between the steps. -/
  answers : ∀ place, (session.run steps)[place]?
    = steps[place]?.map (session.after (steps.take place)).step
  /-- What is on record are the paths before the first failing one of each step. -/
  loaded : (session.after steps).loaded = session.loaded ++ session.takenBy steps
  /-- A step that loads no paths, as a search or a look-up, changes nothing. -/
  looked : ∀ (place : Nat) (step : SessionStep), steps[place]? = some step → step.paths = [] →
    session.after (steps.take (place + 1)) = session.after (steps.take place)
  /-- All types stay visible, at their places. -/
  visible : session.visible <+: (session.after steps).visible
  /-- A type that was found under a path is found under this path ever after. -/
  found : ∀ (place later : Nat) (path : String) (type : η), place ≤ later →
    steps[place]? = some (.find path) → steps[later]? = some (.find path) →
      (session.run steps)[place]?.map Prod.fst = some (.found (some type)) →
        (session.run steps)[later]?.map Prod.fst = some (.found (some type))

/-- A step that loads no paths changes nothing. -/
theorem step_eq_of_paths_eq_nil {step : SessionStep} (h : step.paths = []) (session : Session σ) :
    (session.step step).2 = session := by
  cases step with
  | load paths =>
      obtain rfl : paths = [] := h
      rfl
  | find path => rfl
  | lookup path => rfl
  | listVisible => rfl

theorem after_take_succ {steps : List SessionStep} {place : Nat} {step : SessionStep}
    (h : steps[place]? = some step) (session : Session σ) :
    session.after (steps.take (place + 1)) = ((session.after (steps.take place)).step step).2 := by
  rw [List.take_add_one, h, after, List.foldl_append]
  rfl

theorem getElem?_run (session : Session σ) (steps : List SessionStep) (place : Nat) :
    (session.run steps)[place]? = steps[place]?.map (session.after (steps.take place)).step := by
  induction steps generalizing session place with
  | nil => rfl
  | cons step rest ih =>
      cases place with
      | zero => rfl
      | succ place => exact ih (session.step step).2 place

/-- A run puts on record what its steps load. -/
theorem loaded_after (session : Session σ) (steps : List SessionStep) :
    (session.after steps).loaded = session.loaded ++ session.takenBy steps := by
  induction steps generalizing session with
  | nil => exact (List.append_nil _).symm
  | cons step rest ih =>
      calc (session.after (step :: rest)).loaded
          = (session.step step).2.loaded ++ (session.step step).2.takenBy rest :=
            ih (session.step step).2
        _ = session.loaded ++ session.takenBy (step :: rest) := by
            rw [loaded_step, List.append_assoc, takenBy]

/-- What every single binary that loads keeps, a run keeps. -/
theorem after_preserves {invariant : Session σ → Prop} (hone : PreservedByBinaries invariant)
    {session : Session σ} (h : invariant session) (steps : List SessionStep) :
    invariant (session.after steps) := by
  induction steps generalizing session with
  | nil => exact h
  | cons step rest ih => exact ih (step_preserves hone h step)

/-- A run shows types behind those that were visible. -/
theorem visible_after [AppendingSource σ η] (session : Session σ) (steps : List SessionStep) :
    session.visible <+: (session.after steps).visible := by
  have hone : PreservedByBinaries fun later : Session σ => session.visible <+: later.visible := by
    intro later path source h hload
    exact h.trans (AppendingSource.visible_load hload)
  exact after_preserves hone List.prefix_rfl steps

theorem find?_after [AppendingSource σ η] {session : Session σ} {path : String} {type : η}
    (h : session.find? path = some type) (steps : List SessionStep) :
    (session.after steps).find? path = some type := by
  obtain ⟨more, hmore⟩ := session.visible_after steps
  rw [find?, TypePath.findIn?] at h ⊢
  rw [← hmore, List.find?_append, h]
  rfl

theorem answer_find {steps : List SessionStep} {place : Nat} {path : String}
    (h : steps[place]? = some (.find path)) :
    (session.run steps)[place]?.map Prod.fst
      = some (.found ((session.after (steps.take place)).find? path)) := by
  rw [getElem?_run, h]
  rfl

/-- Every run grows. -/
theorem grows [AppendingSource σ η] (session : Session σ) (steps : List SessionStep) :
    session.Grows steps := by
  refine ⟨session.getElem?_run steps, session.loaded_after steps, ?_,
    session.visible_after steps, ?_⟩
  · intro place step hplace hpaths
    rw [after_take_succ hplace, step_eq_of_paths_eq_nil hpaths]
  · intro place later path type hle hplace hlater hfound
    rw [answer_find hplace, Option.some.injEq, SessionAnswer.found.injEq] at hfound
    -- The later search comes after some more steps.
    obtain ⟨between, rfl⟩ := Nat.exists_eq_add_of_le hle
    have hsession : session.after (steps.take (place + between))
        = (session.after (steps.take place)).after ((steps.drop place).take between) := by
      rw [List.take_add, after, List.foldl_append]
      rfl
    rw [answer_find hlater, hsession, find?_after hfound]

end Session

/-! ## Definitions of binaries -/

namespace Metadata.Graph

/-- A row that a binary shows: it is registered, a definition and not the module pseudo type. -/
structure Shows (graph : Graph) (key : Nat) : Prop where
  live : graph.isLive key = true
  registered : (graph.row key).registered = true
  definition : (graph.token key).table = 0x02
  name : (graph.row key).name ≠ Assembly.moduleName

variable {graph : Graph} {key : Nat}

theorem isListed_iff (hlive : graph.isLive key = true) :
    graph.isListed key = true ↔ graph.Shows key := by
  rw [isListed, Bool.and_eq_true, Bool.and_eq_true, bne_iff_ne, Token.isDefinition, beq_iff_eq]
  constructor
  · rintro ⟨⟨hregistered, hdefinition⟩, hname⟩
    exact ⟨hlive, hregistered, hdefinition, hname⟩
  · rintro ⟨-, hregistered, hdefinition, hname⟩
    exact ⟨⟨hregistered, hdefinition⟩, hname⟩

theorem map_key_listed (graph : Graph) :
    graph.listed.map GraphType.key
      = ((List.range graph.rows.size).filter graph.isListed).filter graph.isLive := by
  rw [listed, typesAt, List.map_map]
  exact List.map_id _

/-- The types a binary lists are those of the rows that it shows. -/
theorem mem_listed_iff {type : GraphType} :
    type ∈ graph.listed ↔ type.graph = graph ∧ graph.Shows type.key := by
  rw [listed, typesAt, List.mem_map]
  constructor
  · rintro ⟨key, hkey, rfl⟩
    obtain ⟨hlisted, hlive⟩ := List.mem_filter.1 hkey
    exact ⟨rfl, (isListed_iff hlive).1 (List.mem_filter.1 hlisted).2⟩
  · rintro ⟨rfl, hshows⟩
    have hsize : type.key ∈ List.range type.graph.rows.size :=
      List.mem_range.2 (lt_of_isLive hshows.live)
    have hlisted := List.mem_filter.2 ⟨hsize, (isListed_iff hshows.live).2 hshows⟩
    exact ⟨type.key, List.mem_filter.2 ⟨hlisted, hshows.live⟩, rfl⟩

theorem pairwise_listed (graph : Graph) :
    (graph.listed.map GraphType.key).Pairwise (· < ·) := by
  rw [map_key_listed]
  exact (List.pairwise_lt_range.filter _).filter _

end Metadata.Graph

namespace AssemblyStore

open Metadata

/-- The types that the binary at a path shows. -/
def listedAt (files : List (String × Graph)) (path : String) : List GraphType :=
  (files.lookup path).elim [] Graph.listed

/-- A session that shows the binaries which it has on record. -/
structure Keeps (files : List (String × Graph)) (session : Session AssemblyStore) : Prop where
  source : session.source.files = files
  visible : session.visible = session.loaded.flatMap (listedAt files)

variable {files : List (String × Graph)} {session : Session AssemblyStore}

theorem keeps_start (files : List (String × Graph)) : Keeps files (.start ⟨files, []⟩) := ⟨rfl, rfl⟩

/-- One more binary that loads is shown behind the others. -/
theorem keeps_preserved (files : List (String × Graph)) :
    Session.PreservedByBinaries (Keeps files) := by
  intro session path next h hload
  obtain ⟨graph, hgraph, rfl⟩ := load_eq_ok_iff.1 hload
  refine ⟨h.source, ?_⟩
  have hlisted : listedAt files path = graph.listed := by
    rw [h.source] at hgraph
    rw [listedAt, hgraph]
    rfl
  calc (session.source.loaded ++ [graph]).flatMap Graph.listed
      = session.source.loaded.flatMap Graph.listed ++ graph.listed := by
        rw [List.flatMap_append, List.flatMap_singleton]
    _ = session.loaded.flatMap (listedAt files) ++ listedAt files path := by
        rw [hlisted, ← h.visible]
        rfl
    _ = (session.loaded ++ [path]).flatMap (listedAt files) := by
        rw [List.flatMap_append, List.flatMap_singleton]

/-- The paths of a load that are taken are the first ones with binaries behind them. -/
theorem Keeps.taken_eq (h : Keeps files session) (paths : List String) :
    session.taken paths = paths.takeWhile fun path => (files.lookup path).isSome := by
  induction paths generalizing session with
  | nil => rfl
  | cons path rest ih =>
      rw [List.takeWhile_cons, ← h.source]
      cases hgraph : session.source.files.lookup path with
      | none =>
          have hload : TypeSource.load session.source path = .error (.load path .absent) := by
            show AssemblyStore.load _ _ = _
            rw [AssemblyStore.load, hgraph]
          exact Session.taken_of_error hload
      | some graph =>
          have hload := load_eq_ok_iff.2 ⟨graph, hgraph, rfl⟩
          rw [Session.taken_of_ok hload, ih (keeps_preserved files h hload), h.source]
          rfl

theorem Keeps.takenBy_eq (h : Keeps files session) (steps : List SessionStep) :
    session.takenBy steps
      = steps.flatMap fun step => step.paths.takeWhile fun path => (files.lookup path).isSome := by
  induction steps generalizing session with
  | nil => rfl
  | cons step rest ih =>
      have hstep := Session.step_preserves (keeps_preserved files) h step
      rw [Session.takenBy, h.taken_eq, ih hstep, List.flatMap_cons]

/-- A type that is found in a session is shown by its binary. -/
theorem Keeps.shows_of_find (h : Keeps files session) {path : String} {type : GraphType}
    (hfound : session.find? path = some type) :
    type.graph.Shows type.key := by
  have hvisible : type ∈ session.visible := List.mem_of_find?_eq_some hfound
  rw [h.visible] at hvisible
  obtain ⟨binary, -, hlisted⟩ := List.mem_flatMap.1 hvisible
  cases hgraph : files.lookup binary with
  | none =>
      rw [listedAt, hgraph] at hlisted
      exact nomatch hlisted
  | some graph =>
      rw [listedAt, hgraph] at hlisted
      obtain ⟨rfl, hshows⟩ := Graph.mem_listed_iff.1 hlisted
      exact hshows

/-- What the steps of a session come to that starts with nothing loaded. -/
structure ShowsDefinitions (files : List (String × Graph)) (steps : List SessionStep)
    (session : Session AssemblyStore) : Prop where
  /-- Each step loads its first paths with binaries behind them. -/
  loaded : session.loaded
    = steps.flatMap fun step => step.paths.takeWhile fun path => (files.lookup path).isSome
  /-- The loaded binaries are shown one behind the other. -/
  visible : session.visible = session.loaded.flatMap (listedAt files)
  /-- What is found is a definition that its binary shows. -/
  found : ∀ path type, session.find? path = some type → type.graph.Shows type.key

theorem showsDefinitions (files : List (String × Graph)) (steps : List SessionStep) :
    ShowsDefinitions files steps ((Session.start ⟨files, []⟩).after steps) := by
  have hkeeps := Session.after_preserves (keeps_preserved files) (keeps_start files) steps
  refine ⟨?_, hkeeps.visible, fun path type hfound => hkeeps.shows_of_find hfound⟩
  rw [Session.loaded_after, (keeps_start files).takenBy_eq]
  rfl

end AssemblyStore

/-! ## All sessions -/

open Metadata in
/-- Over a source that appends, a load takes the paths before its first failing one and is the load
of its parts, and every run grows. Over binaries the types that are shown are exactly the
definitions of the loaded ones, in load order and in the order of their rows, so nothing else is
found. -/
theorem sessions_only_grow :
    (∀ {σ η : Type} [Viewable η] [TypeSource σ η] [AppendingSource σ η] (session : Session σ),
      (∀ paths, session.Loading paths) ∧
      (∀ front back, (session.load front).1 = .ok () →
        session.load (front ++ back) = (session.load front).2.load back) ∧
      ∀ steps, session.Grows steps) ∧
    (∀ (files : List (String × Graph)) (steps : List SessionStep),
      AssemblyStore.ShowsDefinitions files steps ((Session.start ⟨files, []⟩).after steps)) ∧
    ∀ graph : Graph,
      (∀ type, type ∈ graph.listed ↔ type.graph = graph ∧ graph.Shows type.key) ∧
        (graph.listed.map GraphType.key).Pairwise (· < ·) := by
  refine ⟨?_, AssemblyStore.showsDefinitions, fun graph => ⟨?_, graph.pairwise_listed⟩⟩
  · intro σ η _ _ _ session
    exact ⟨session.loading, fun front back h => Session.load_append h, session.grows⟩
  · exact fun type => Graph.mem_listed_iff

namespace RepeatedLoad

open Metadata

/-- A binary with the module pseudo type, a mention of a foreign list, a list and an instance of it.
-/
def lists : Graph :=
  ⟨#[Assembly.bareRow Assembly.moduleToken ⟨none, Assembly.moduleName⟩,
    Assembly.bareRow (Assembly.foreignToken 0) ⟨some "Lists", "List\x601"⟩,
    Assembly.bareRow (Assembly.typeToken 0) ⟨some "Lists", "List\x601"⟩,
    Assembly.bareRow ⟨0x1B000001⟩ ⟨some "Lists", "List\x601"⟩]⟩

/-- The binary is the only one there is. -/
def files : List (String × Graph) := [("lists", lists)]

/-- The binary is loaded three times, and some other path is tried once. -/
def steps : List SessionStep :=
  [.load ["lists", "torn", "lists"], .find "lists.List_1", .load ["lists", "lists"],
    .find "lists.List_1"]

end RepeatedLoad

open Metadata RepeatedLoad in
/-- The list is found before and after it is loaded again, and never the mention or the instance. -/
theorem list_stays_found :
    ((Session.start (AssemblyStore.mk files [])).after steps).loaded = ["lists", "lists", "lists"] ∧
      ((Session.start (AssemblyStore.mk files [])).run steps)[3]?.map Prod.fst
        = some (.found (some ⟨lists, 2⟩)) ∧
      lists.Shows 2 := by
  obtain ⟨hsessions, hbinaries, -⟩ := sessions_only_grow
  obtain ⟨-, -, hgrows⟩ := hsessions (Session.start (AssemblyStore.mk files []))
  have hfound := (hgrows steps).found 1 3 "lists.List_1" ⟨lists, 2⟩ (by decide) rfl rfl rfl
  have hdefinitions := hbinaries files steps
  refine ⟨hdefinitions.loaded, hfound, hdefinitions.found "lists.List_1" ⟨lists, 2⟩ ?_⟩
  rfl

end TypeSurface
