import Mathlib.Data.List.TakeDrop
import TypeSurface.Proofs.AnsweredRequests

/-!
# Runs and their sinks

What a run says is settled before it writes. `FailsWith` collects the faults of loading and of
describing, `CallsFor` the lines that answer a request; every request has one of the two, and no
sink has a part in either. `sinks_take_one_text` compares the runs of a request into any two sinks:
both end in the same fault with nothing written, or both sinks take a first part of the same bytes,
and a run ends well exactly when its sink took all of them and was flushed.
-/

set_option autoImplicit false

namespace TypeSurface.Request

variable {σ η : Type} [Viewable η] [TypeSource σ η]

/-! ## Faults and answers -/

/-- Loading the binaries fails, or describing the type that is found fails. -/
inductive FailsWith (source : σ) : Request → Fault → Prop
  | loading {path : String} {binaries : List String} {fault : Fault} {session : Session σ}
      (hload : (Session.start source).load binaries = (.error fault, session)) :
      FailsWith source ⟨some path, binaries⟩ fault
  | describing {path : String} {binaries : List String} {fault : Fault} {session : Session σ}
      {type : η} (hload : (Session.start source).load binaries = (.ok (), session))
      (hfind : session.find? path = some type)
      (hdescribe : (Viewable.view type).describe = .error fault) :
      FailsWith source ⟨some path, binaries⟩ fault

/-- The lines that answer a request, with the outcome they tell: the line for a missing path, the
line for an unknown type, or the description of the type that is found. -/
inductive CallsFor (source : σ) : Request → Outcome → List String → Prop
  | missingTypePath {binaries : List String} :
      CallsFor source ⟨none, binaries⟩ .missingTypePath ["<no type path provided>"]
  | notFound {path : String} {binaries : List String} {session : Session σ}
      (hload : (Session.start source).load binaries = (.ok (), session))
      (hfind : session.find? path = none) :
      CallsFor source ⟨some path, binaries⟩ .notFound ["<no type found>"]
  | described {path : String} {binaries : List String} {session : Session σ} {type : η}
      {description : Description}
      (hload : (Session.start source).load binaries = (.ok (), session))
      (hfind : session.find? path = some type)
      (hdescribe : (Viewable.view type).describe = .ok description) :
      CallsFor source ⟨some path, binaries⟩ .described description.lines

variable {source : σ} {request : Request} {fault : Fault} {outcome : Outcome} {lines : List String}

theorem FailsWith.answer_eq (h : request.FailsWith source fault) :
    request.answer source = .error fault := by
  cases h with
  | loading hload => simp only [answer, hload]
  | describing hload hfind hdescribe =>
      rw [Session.find?] at hfind
      simp only [answer, hload, Session.lookup, TypePath.describeIn, hfind, hdescribe, Except.map]

theorem CallsFor.answer_eq (h : request.CallsFor source outcome lines) :
    request.answer source = .ok ⟨outcome, lines⟩ := by
  cases h with
  | missingTypePath => rfl
  | notFound hload hfind => exact answer_eq_ok_iff.2 ⟨_, hload, Or.inl ⟨hfind, rfl⟩⟩
  | described hload hfind hdescribe =>
      exact answer_eq_ok_iff.2 ⟨_, hload, Or.inr ⟨_, _, hfind, hdescribe, rfl⟩⟩

theorem CallsFor.eq {other : Outcome} {others : List String}
    (h : request.CallsFor source outcome lines) (hother : request.CallsFor source other others) :
    outcome = other ∧ lines = others :=
  Reply.mk.inj (Except.ok.inj (h.answer_eq.symm.trans hother.answer_eq))

/-- Every request fails or calls for lines. -/
theorem failsWith_or_callsFor (source : σ) (request : Request) :
    (∃ fault, request.FailsWith source fault) ∨
      ∃ outcome lines, request.CallsFor source outcome lines := by
  rcases request with ⟨- | path, binaries⟩
  · exact Or.inr ⟨_, _, .missingTypePath⟩
  · rcases hload : (Session.start source).load binaries with ⟨fault | done, session⟩
    · exact Or.inl ⟨fault, .loading hload⟩
    · rcases hfind : session.find? path with - | type
      · exact Or.inr ⟨_, _, .notFound hload hfind⟩
      · rcases hdescribe : (Viewable.view type).describe with fault | description
        · exact Or.inl ⟨fault, .describing hload hfind hdescribe⟩
        · exact Or.inr ⟨_, _, .described hload hfind hdescribe⟩

/-! ## Runs -/

theorem FailsWith.run_eq (h : request.FailsWith source fault) (sink : Sink) :
    request.run source sink = (.error fault, sink) := by
  rw [run, h.answer_eq]

theorem CallsFor.run_eq (h : request.CallsFor source outcome lines) (sink : Sink) :
    request.run source sink =
      ((sink.deliver lines).1.mapError Fault.delivery |>.map fun _ => outcome,
        (sink.deliver lines).2) := by
  simp only [run, h.answer_eq]
  rcases sink.deliver lines with ⟨cause | done, taken⟩ <;> rfl

theorem CallsFor.run_of_fits (h : request.CallsFor source outcome lines) {sink : Sink}
    (hall : sink.fits (Sink.bytes lines).length = (Sink.bytes lines).length) :
    request.run source sink =
      (if sink.flushes then .ok outcome else .error (.delivery .unflushed),
        sink.take (Sink.bytes lines)) := by
  rw [h.run_eq, Sink.deliver_eq, if_pos hall, hall, List.take_length]
  cases sink.flushes <;> rfl

/-- Of lines that do not all fit the first part is taken that does, and the full sink decides how the
run ends. -/
theorem CallsFor.run_of_not_fits (h : request.CallsFor source outcome lines) {sink : Sink}
    (hpart : sink.fits (Sink.bytes lines).length ≠ (Sink.bytes lines).length) :
    request.run source sink =
      (.error (.delivery sink.overflowFault),
        sink.take ((Sink.bytes lines).take (sink.fits (Sink.bytes lines).length))) := by
  rw [h.run_eq, Sink.deliver_eq, if_neg hpart]
  rfl

/-- Of the lines of a run a sink takes the first part of their bytes, as long as what fits. The run ends
well exactly when that is all of them and flushing works; otherwise the fault is that of the full sink,
or that of flushing when all of them fit. -/
theorem CallsFor.exists_part (h : request.CallsFor source outcome lines) (sink : Sink) :
    ∃ part, part <+: Sink.bytes lines ∧ part.length = sink.fits (Sink.bytes lines).length ∧
      (request.run source sink).2 = sink.take part ∧
      (∀ ended, (request.run source sink).1 = .ok ended ↔
        ended = outcome ∧ part = Sink.bytes lines ∧ sink.flushes = true) ∧
      (part ≠ Sink.bytes lines →
        (request.run source sink).1 = .error (.delivery sink.overflowFault)) ∧
      (part = Sink.bytes lines → sink.flushes = false →
        (request.run source sink).1 = .error (.delivery .unflushed)) := by
  by_cases hall : sink.fits (Sink.bytes lines).length = (Sink.bytes lines).length
  · refine ⟨Sink.bytes lines, List.prefix_rfl, hall.symm, ?_, ?_, ?_, ?_⟩
    · rw [h.run_of_fits hall]
    · intro ended
      rw [h.run_of_fits hall]
      cases sink.flushes with
      | true => simp [eq_comm]
      | false => simp
    · exact fun hnot => absurd rfl hnot
    · intro _ hflush
      rw [h.run_of_fits hall, hflush]
      rfl
  · have hlength : ((Sink.bytes lines).take (sink.fits (Sink.bytes lines).length)).length
        = sink.fits (Sink.bytes lines).length :=
      List.length_take_of_le (sink.fits_le _)
    have hnot : (Sink.bytes lines).take (sink.fits (Sink.bytes lines).length) ≠ Sink.bytes lines := by
      intro hsame
      rw [hsame] at hlength
      exact hall hlength.symm
    refine ⟨_, List.take_prefix _ _, hlength, ?_, ?_, ?_, fun hsame => absurd hsame hnot⟩
    · rw [h.run_of_not_fits hall]
    · intro ended
      rw [h.run_of_not_fits hall]
      simp [hnot]
    · intro _
      rw [h.run_of_not_fits hall]

/-- Into any two sinks a request runs alike up to what they take. A fault of loading or describing
ends both runs and nothing is written. Otherwise there is one text for both: each sink takes the first
part of its bytes, as long as what fits, and each run ends well, with the outcome of that text, exactly
when its sink took the whole text and was flushed. A run into a sink that the text does not fit ends with
the fault of the full sink, and one into a sink that takes all and cannot be flushed with the fault of
flushing. Without a type path no source is asked to load: the run is the same for every source and for
all binaries. -/
theorem sinks_take_one_text (source : σ) (request : Request) (first second : Sink) :
    (∀ fault, request.FailsWith source fault →
      request.run source first = (.error fault, first) ∧
      request.run source second = (.error fault, second)) ∧
    ((¬∃ fault, request.FailsWith source fault) →
      ∃ outcome lines, request.CallsFor source outcome lines ∧
        ∀ sink ∈ [first, second], ∃ part, part <+: Sink.bytes lines ∧
          part.length = sink.fits (Sink.bytes lines).length ∧
          (request.run source sink).2 = sink.take part ∧
          (∀ ended, (request.run source sink).1 = .ok ended ↔
            ended = outcome ∧ part = Sink.bytes lines ∧ sink.flushes = true) ∧
          (part ≠ Sink.bytes lines →
            (request.run source sink).1 = .error (.delivery sink.overflowFault)) ∧
          (part = Sink.bytes lines → sink.flushes = false →
            (request.run source sink).1 = .error (.delivery .unflushed))) ∧
    (request.typePath = none →
      ∀ (σ' η' : Type) [Viewable η'] [TypeSource σ' η'] (other : σ') (binaries : List String),
        ∀ sink ∈ [first, second], run other ⟨none, binaries⟩ sink = request.run source sink) := by
  refine ⟨?_, ?_, ?_⟩
  · intro fault hfails
    exact ⟨hfails.run_eq first, hfails.run_eq second⟩
  · intro hsound
    obtain ⟨outcome, lines, hcalls⟩ := (failsWith_or_callsFor source request).resolve_left hsound
    exact ⟨outcome, lines, hcalls, fun sink _ => hcalls.exists_part sink⟩
  · intro hnone σ' η' _ _ other binaries sink _
    obtain ⟨typePath, named⟩ := request
    obtain rfl : typePath = none := hnone
    have hother : CallsFor other ⟨none, binaries⟩ .missingTypePath _ := .missingTypePath
    have hcalls : CallsFor source ⟨none, named⟩ .missingTypePath _ := .missingTypePath
    rw [hother.run_eq, hcalls.run_eq]

namespace TornBinary

/-- A binary that can be loaded and one that cannot. -/
def catalog : Catalog :=
  ⟨[⟨"lists", .ok [.bare ⟨some "Lists", "List\x601"⟩]⟩, ⟨"torn", .error "no header"⟩], []⟩

/-- The request that loads only the sound binary. -/
def sound : Request := ⟨some "lists.List_1", ["lists"]⟩

/-- The request that loads both binaries, the torn one last. -/
def torn : Request := ⟨some "lists.List_1", ["lists", "torn"]⟩

/-- A sink with room for three bytes. -/
def narrow : Sink := .fresh (some 3) .refuses true

/-- A sink with room for everything that cannot be flushed. -/
def unflushed : Sink := .fresh none .stalls false

/-- A sink with room for everything. -/
def roomy : Sink := .fresh none .refuses true

/-- The lines that describe the type of the sound binary. -/
def text : List String := ["List_1", "false", "cs.lists", "", "0", "0", "0", "0", "0"]

theorem sound_callsFor_text : sound.CallsFor catalog .described text := by
  have hlines : Description.lines ⟨"Lists", "List\x601", false, "", [], [], [], [], []⟩ = text := by
    decide +kernel
  rw [← hlines]
  exact .described rfl rfl rfl

theorem not_sound_failsWith : ¬∃ fault, sound.FailsWith catalog fault := by
  rintro ⟨fault, hfault⟩
  have hanswer := sound_callsFor_text.answer_eq.symm.trans hfault.answer_eq
  exact nomatch hanswer

theorem take_bytes_text : (Sink.bytes text).take 3 = [76, 105, 115] := by decide +kernel

theorem fits_narrow : narrow.fits (Sink.bytes text).length = 3 := by decide +kernel

theorem eq_bytes_of_prefix {part : List UInt8} (hpart : part <+: Sink.bytes text) {sink : Sink}
    (hlimit : sink.limit = none) (hlength : part.length = sink.fits (Sink.bytes text).length) :
    part = Sink.bytes text := by
  apply hpart.eq_of_length
  rw [hlength, Sink.fits, hlimit]

end TornBinary

open TornBinary in
/-- A binary that cannot be loaded leaves both sinks empty, although the type is known by then. Without
that binary the sinks take of one description what fits: the narrow one three bytes, and the run ends
with a full disk; the others everything, and the run ends well where the sink can be flushed. -/
theorem torn_binary_writes_nothing :
    torn.FailsWith catalog (.load "torn" (.refused "no header")) ∧
      torn.run catalog narrow = (.error (.load "torn" (.refused "no header")), narrow) ∧
      torn.run catalog unflushed = (.error (.load "torn" (.refused "no header")), unflushed) ∧
      (¬∃ fault, sound.FailsWith catalog fault) ∧ sound.CallsFor catalog .described text ∧
      sound.run catalog narrow = (.error (.delivery .full), narrow.take [76, 105, 115]) ∧
      sound.run catalog unflushed
        = (.error (.delivery .unflushed), unflushed.take (Sink.bytes text)) ∧
      sound.run catalog roomy = (.ok .described, roomy.take (Sink.bytes text)) := by
  have hfails : torn.FailsWith catalog (.load "torn" (.refused "no header")) := .loading rfl
  obtain ⟨htorn, -⟩ := sinks_take_one_text catalog torn narrow unflushed
  obtain ⟨hnarrow, hunflushed⟩ := htorn _ hfails
  refine ⟨hfails, hnarrow, hunflushed, not_sound_failsWith, sound_callsFor_text, ?_, ?_, ?_⟩
  · obtain ⟨outcome, lines, hcalls, hsinks⟩ :=
      (sinks_take_one_text catalog sound narrow unflushed).2.1 not_sound_failsWith
    obtain ⟨rfl, rfl⟩ := hcalls.eq sound_callsFor_text
    obtain ⟨part, hpart, hlength, htaken, -, hcut, -⟩ := hsinks narrow List.mem_cons_self
    obtain rfl : part = [76, 105, 115] := by
      rw [List.prefix_iff_eq_take.1 hpart, hlength, fits_narrow, take_bytes_text]
    refine Prod.ext (hcut fun hwhole => ?_) htaken
    exact absurd (congrArg List.length hwhole) (by decide +kernel)
  · obtain ⟨outcome, lines, hcalls, hsinks⟩ :=
      (sinks_take_one_text catalog sound narrow unflushed).2.1 not_sound_failsWith
    obtain ⟨rfl, rfl⟩ := hcalls.eq sound_callsFor_text
    obtain ⟨part, hpart, hlength, htaken, -, -, hflush⟩ :=
      hsinks unflushed (List.mem_cons_of_mem _ List.mem_cons_self)
    obtain rfl := eq_bytes_of_prefix hpart rfl hlength
    exact Prod.ext (hflush rfl rfl) htaken
  · obtain ⟨outcome, lines, hcalls, hsinks⟩ :=
      (sinks_take_one_text catalog sound narrow roomy).2.1 not_sound_failsWith
    obtain ⟨rfl, rfl⟩ := hcalls.eq sound_callsFor_text
    obtain ⟨part, hpart, hlength, htaken, hended, -, -⟩ :=
      hsinks roomy (List.mem_cons_of_mem _ List.mem_cons_self)
    obtain rfl := eq_bytes_of_prefix hpart rfl hlength
    exact Prod.ext ((hended .described).2 ⟨rfl, rfl, rfl⟩) htaken

end TypeSurface.Request
