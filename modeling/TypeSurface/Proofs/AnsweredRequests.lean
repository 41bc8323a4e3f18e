import TypeSurface.Proofs.Delivery
import TypeSurface.Proofs.TypePaths
import TypeSurface.Run

/-!
# Answered requests

A run that ends without a fault answers the question that was asked (`run_answers_request`): either no
visible type has the namespace and the name of the path, or the lines handed over describe the first
one that does and begin with that name. A path that ends in an arity mark names nothing, whatever
types there are (`not_asks_of_hasArityMark`).
-/

set_option autoImplicit false

namespace TypeSurface

namespace TypePath

variable {η : Type} [Viewable η]

/-! ## Types that a path asks for -/

/-- The type has the namespace, whatever its case, and the name, once flattened. -/
def Asks (ns name : String) (id : TypeId) : Prop :=
  Text.lowercase id.nsText = Text.lowercase ns ∧ Naming.flattenArity id.name = name

/-- Nothing is found when no type is asked for. -/
theorem findIn?_eq_none_iff {path ns name : String} (hcut : IsCut path ns name) {types : List η} :
    (parse path).findIn? types = none ↔ ∀ type ∈ types, ¬Asks ns name (Viewable.id type) := by
  unfold findIn?
  rw [List.find?_eq_none]
  constructor
  · intro h type hmem hasks
    exact h type hmem ((hcut.names_iff _).2 hasks)
  · intro h type hmem hnames
    exact h type hmem ((hcut.names_iff _).1 hnames)

/-- The first type that is asked for is found. -/
theorem findIn?_eq_some_iff {path ns name : String} (hcut : IsCut path ns name) {types : List η}
    {type : η} :
    (parse path).findIn? types = some type ↔
      ∃ before after, types = before ++ type :: after ∧
        (∀ other ∈ before, ¬Asks ns name (Viewable.id other)) ∧ Asks ns name (Viewable.id type) := by
  unfold findIn?
  rw [List.find?_eq_some_iff_append]
  constructor
  · rintro ⟨hnames, before, after, htypes, hbefore⟩
    refine ⟨before, after, htypes, fun other hmem hasks => ?_, (hcut.names_iff _).1 hnames⟩
    have hnot := hbefore other hmem
    rw [(hcut.names_iff _).2 hasks] at hnot
    exact absurd hnot (by decide)
  · rintro ⟨before, after, htypes, hbefore, hasks⟩
    refine ⟨(hcut.names_iff _).2 hasks, before, after, htypes, fun other hmem => ?_⟩
    rw [Bool.not_eq_true', ← Bool.not_eq_true]
    intro hnames
    exact hbefore other hmem ((hcut.names_iff _).1 hnames)

/-- No type is asked for under a name that still has its arity mark. -/
theorem not_asks_of_hasArityMark {ns name : String} (h : Naming.HasArityMark name.toList)
    (id : TypeId) : ¬Asks ns name id := by
  rintro ⟨-, rfl⟩
  rw [Naming.toList_flattenArity] at h
  exact Naming.not_hasArityMark_flattenArityChars id.name.toList h

theorem Asks.packagePath_eq {ns name : String} {id : TypeId} (h : Asks ns name id) :
    Naming.packagePath id.nsText = Naming.packagePath ns := by
  have hempty : id.nsText = "" ↔ ns = "" := by
    rw [← Text.lowercase_eq_empty_iff, h.1, Text.lowercase_eq_empty_iff]
  unfold Naming.packagePath
  by_cases hns : ns = ""
  · rw [if_pos hns, if_pos (hempty.2 hns)]
  · rw [if_neg hns, if_neg (mt hempty.1 hns), h.1]

end TypePath

theorem Naming.packagePath_cases (ns : String) :
    ns = "" ∧ packagePath ns = "cs" ∨ ns ≠ "" ∧ packagePath ns = "cs." ++ Text.lowercase ns := by
  by_cases hns : ns = ""
  · exact Or.inl ⟨hns, if_pos hns⟩
  · exact Or.inr ⟨hns, if_neg hns⟩

namespace Request

variable {σ η : Type} [Viewable η] [TypeSource σ η]

/-! ## What a run comes to -/

/-- A run that ends without a fault has an answer and delivers its lines. -/
theorem run_eq_ok_iff {source : σ} {request : Request} {sink sink' : Sink} {outcome : Outcome} :
    request.run source sink = (.ok outcome, sink') ↔
      ∃ reply, request.answer source = .ok reply ∧ sink.deliver reply.lines = (.ok (), sink') ∧
        reply.outcome = outcome := by
  unfold run
  rcases request.answer source with fault | reply
  · simp
  · simp only [Except.ok.injEq, exists_eq_left']
    rcases sink.deliver reply.lines with ⟨cause | done, taken⟩
    · simp
    · simp only [Prod.mk.injEq, Except.ok.injEq, true_and]
      exact and_comm

/-- A request with a type path is answered once its binaries are loaded: by the line of an unknown
type or by the description of the type that is found. -/
theorem answer_eq_ok_iff {source : σ} {path : String} {binaries : List String} {reply : Reply} :
    answer source ⟨some path, binaries⟩ = .ok reply ↔
      ∃ session, (Session.start source).load binaries = (.ok (), session) ∧
        ((session.find? path = none ∧ reply = .notFound) ∨
          ∃ type description, session.find? path = some type ∧
            (Viewable.view type).describe = .ok description ∧ reply = .described description) := by
  unfold answer
  rcases hload : (Session.start source).load binaries with ⟨fault | done, session⟩
  · simp
  · simp only [Session.lookup, TypePath.describeIn, Session.find?, Prod.mk.injEq, true_and,
      exists_eq_left']
    rcases (TypePath.parse path).findIn? session.visible with - | type
    · simp [eq_comm]
    · rcases hdescribe : (Viewable.view type).describe with fault | description
      · simp [Except.map, hdescribe]
      · simp [Except.map, hdescribe, eq_comm]

/-- A run with a type path that ends without a fault has loaded its binaries and cut the path. The
type is unknown exactly when no visible type has that namespace, whatever its case, and that flattened
name. Otherwise the bytes handed over are the lines of the first visible type that has both: the name
of the path, a flag, the package of its namespace and the rest. A path that ends in an arity mark is
always unknown. -/
theorem run_answers_request {source : σ} {path : String} {binaries : List String}
    {sink sink' : Sink} {outcome : Outcome}
    (hrun : run source ⟨some path, binaries⟩ sink = (.ok outcome, sink')) :
    ∃ session ns name, (Session.start source).load binaries = (.ok (), session) ∧
      TypePath.IsCut path ns name ∧
      (outcome = .notFound ↔
        ∀ type ∈ session.visible, ¬TypePath.Asks ns name (Viewable.id type)) ∧
      (outcome ≠ .notFound → outcome = .described ∧
        ∃ before type after description, session.visible = before ++ type :: after ∧
          (∀ other ∈ before, ¬TypePath.Asks ns name (Viewable.id other)) ∧
          TypePath.Asks ns name (Viewable.id type) ∧
          (Viewable.view type).describe = .ok description ∧
          sink'.taken = sink.taken ++ (Sink.bytes description.lines).toArray ∧
          ∃ flag package rest, description.lines = name :: flag :: package :: rest ∧
            (ns = "" ∧ package = "cs" ∨ ns ≠ "" ∧ package = "cs." ++ Text.lowercase ns)) ∧
      (Naming.HasArityMark name.toList → outcome = .notFound) := by
  obtain ⟨reply, hanswer, hdeliver, rfl⟩ := run_eq_ok_iff.1 hrun
  obtain ⟨session, hload, hreply⟩ := answer_eq_ok_iff.1 hanswer
  obtain ⟨ns, name, hcut⟩ := TypePath.exists_isCut path
  refine ⟨session, ns, name, hload, hcut, ?_⟩
  rcases hreply with ⟨hnone, rfl⟩ | ⟨type, description, hsome, hdescribe, rfl⟩
  · -- Nothing is found, so no visible type is asked for and there is no description to tell of.
    have hnot := (TypePath.findIn?_eq_none_iff hcut).1 hnone
    exact ⟨⟨fun _ => hnot, fun _ => rfl⟩, fun hfound => absurd rfl hfound, fun _ => rfl⟩
  · -- The type that is found is asked for, so its lines begin with the name of the path and with the
    -- package of its namespace.
    obtain ⟨before, after, hvisible, hbefore, hasks⟩ :=
      (TypePath.findIn?_eq_some_iff hcut).1 hsome
    have hmem : type ∈ session.visible := by
      rw [hvisible]
      exact List.mem_append_right before List.mem_cons_self
    refine ⟨⟨fun hnotFound => (nomatch hnotFound), fun hnot => absurd hasks (hnot type hmem)⟩,
      ?_, ?_⟩
    · intro _
      obtain ⟨-, -, rfl⟩ := Sink.deliver_eq_ok_iff.1 hdeliver
      obtain ⟨flag, rest, hlines⟩ := TypeView.exists_header_of_describe hdescribe
      rw [Viewable.id_view, hasks.2, hasks.packagePath_eq] at hlines
      exact ⟨rfl, before, type, after, description, hvisible, hbefore, hasks, hdescribe, rfl, flag,
        _, rest, hlines, Naming.packagePath_cases ns⟩
    · intro hmark
      exact absurd hasks (TypePath.not_asks_of_hasArityMark hmark (Viewable.id type))

namespace TwoLists

/-- A binary whose two types are found under one path. -/
def catalog : Catalog :=
  ⟨[⟨"lists", .ok [.bare ⟨some "Lists", "List\x601"⟩, .bare ⟨some "LISTS", "List_1"⟩]⟩], []⟩

/-- The request that asks for a list. -/
def request : Request := ⟨some "lists.List_1", ["lists"]⟩

end TwoLists

open TwoLists in
/-- Of two lists that are found under one path one is described, and it is asked for. -/
theorem one_of_two_lists_is_described :
    ∃ sink', request.run catalog (.fresh none .refuses true) = (.ok .described, sink') ∧
      ∃ session ns name, (Session.start catalog).load ["lists"] = (.ok (), session) ∧
        TypePath.IsCut "lists.List_1" ns name ∧ ¬Naming.HasArityMark name.toList ∧
        ∃ type ∈ session.visible, TypePath.Asks ns name (Viewable.id type) := by
  have hanswer : request.answer catalog =
      .ok (.described ⟨"Lists", "List\x601", false, "", [], [], [], [], []⟩) := by
    rfl
  have hrun : ∃ sink', request.run catalog (.fresh none .refuses true) = (.ok .described, sink') :=
    ⟨_, run_eq_ok_iff.2 ⟨_, hanswer, Sink.deliver_eq_ok_iff.2 ⟨rfl, rfl, rfl⟩, rfl⟩⟩
  obtain ⟨sink', hrun⟩ := hrun
  obtain ⟨session, ns, name, hload, hcut, -, hdescribed, hmark⟩ := run_answers_request hrun
  obtain ⟨-, before, type, after, description, hvisible, -, hasks, -⟩ :=
    hdescribed (fun hnotFound => nomatch hnotFound)
  refine ⟨sink', hrun, session, ns, name, hload, hcut, fun h => (nomatch hmark h), type, ?_, hasks⟩
  rw [hvisible]
  exact List.mem_append_right before List.mem_cons_self

end Request

end TypeSurface
