import TypeSurface.Proofs.CutDescriptions

/-!
# What a sink is asked

A `Recorder` is a sink that keeps the calls it gets: offers of bytes, and flushes. Writing to it goes
through these calls only, and it does to the sink what writing to the sink itself does
(`Recorder.deliver_eq`). So the record tells what a delivery asks of any sink: offers of at least one
byte, and behind them one flush if all bytes fit and none otherwise. `what_fits_is_handed_over` says for
a sink of any limit what it has then taken of a description, and how the delivery ends.
-/

set_option autoImplicit false

namespace TypeSurface

/-- What a sink is asked: to take of some bytes what fits, or to flush. -/
inductive Call where
  | offer (bytes : List UInt8)
  | flush
deriving DecidableEq, Repr

/-- The calls offer bytes, at least one each time. -/
def Call.AllOffer (calls : List Call) : Prop :=
  ∀ call ∈ calls, ∃ bytes, bytes ≠ [] ∧ call = .offer bytes

/-- A sink with the calls it got, in order. -/
structure Recorder where
  sink : Sink
  calls : List Call
deriving Repr

namespace Call

variable {calls others : List Call}

theorem allOffer_nil : AllOffer [] := fun _ hcall => nomatch hcall

theorem allOffer_singleton {bytes : List UInt8} (h : bytes ≠ []) : AllOffer [.offer bytes] := by
  intro call hcall
  exact ⟨bytes, h, List.mem_singleton.1 hcall⟩

theorem AllOffer.append (hcalls : AllOffer calls) (hothers : AllOffer others) :
    AllOffer (calls ++ others) := by
  intro call hcall
  rcases List.mem_append.1 hcall with hcall | hcall
  · exact hcalls call hcall
  · exact hothers call hcall

end Call

namespace Recorder

/-! ## Writing to a recorder -/

/-- Offers bytes, of which the sink takes the first ones or none. -/
def offer (recorder : Recorder) (bytes : List UInt8) : Except DeliveryFault Nat × Recorder :=
  match recorder.sink.offer bytes.length with
  | .error fault => (.error fault, ⟨recorder.sink, recorder.calls ++ [.offer bytes]⟩)
  | .ok count =>
      (.ok count, ⟨recorder.sink.take (bytes.take count), recorder.calls ++ [.offer bytes]⟩)

/-- Flushes the sink. -/
def flush (recorder : Recorder) : Except DeliveryFault Unit × Recorder :=
  (if recorder.sink.flushes then .ok () else .error .unflushed,
    ⟨recorder.sink, recorder.calls ++ [.flush]⟩)

/-- Offers bytes until all are taken. -/
def writeAll (recorder : Recorder) : List UInt8 → Except DeliveryFault Unit × Recorder
  | [] => (.ok (), recorder)
  | byte :: rest =>
      match recorder.offer (byte :: rest) with
      | (.error fault, recorder) => (.error fault, recorder)
      | (.ok 0, recorder) => (.error .stalled, recorder)
      | (.ok (count + 1), recorder) => recorder.writeAll (rest.drop count)
termination_by bytes => bytes.length
decreasing_by simp only [List.length_drop, List.length_cons]; omega

/-- Writes each line and its end. -/
def writeLines (recorder : Recorder) : List String → Except DeliveryFault Unit × Recorder
  | [] => (.ok (), recorder)
  | line :: rest =>
      match recorder.writeAll (Sink.utf8 line) with
      | (.error fault, recorder) => (.error fault, recorder)
      | (.ok (), recorder) =>
          match recorder.writeAll [Sink.lineEnd] with
          | (.error fault, recorder) => (.error fault, recorder)
          | (.ok (), recorder) => recorder.writeLines rest

/-- Writes lines and then flushes, if all could be written. -/
def deliver (recorder : Recorder) (lines : List String) : Except DeliveryFault Unit × Recorder :=
  match recorder.writeLines lines with
  | (.error fault, recorder) => (.error fault, recorder)
  | (.ok (), recorder) => recorder.flush

/-! ## What the record tells -/

/-- A recorder after a run: it ends as the run of the sink does, and it got some more calls. -/
def after (recorder : Recorder) (run : Except DeliveryFault Unit × Sink) (calls : List Call) :
    Except DeliveryFault Unit × Recorder :=
  (run.1, ⟨run.2, recorder.calls ++ calls⟩)

/-- Bytes are written to a recorder as they are to its sink, by offers. -/
theorem writeAll_eq (recorder : Recorder) (bytes : List UInt8) :
    ∃ offers, Call.AllOffer offers ∧
      recorder.writeAll bytes = recorder.after (recorder.sink.writeAll bytes) offers := by
  -- An offer may be taken in part, so the induction is on how many bytes are left.
  induction hlength : bytes.length using Nat.strongRecOn generalizing recorder bytes with
  | ind length ih =>
      subst hlength
      cases bytes with
      | nil => exact ⟨[], Call.allOffer_nil, by simp [writeAll, Sink.writeAll, after]⟩
      | cons byte rest =>
          have hone : Call.AllOffer [.offer (byte :: rest)] :=
            Call.allOffer_singleton (List.cons_ne_nil byte rest)
          rw [writeAll, Sink.writeAll, offer, List.length_cons]
          rcases recorder.sink.offer (rest.length + 1) with fault | _ | count
          · exact ⟨_, hone, rfl⟩
          · exact ⟨_, hone, by simp [after]⟩
          · -- What was not taken is offered again, and it is shorter.
            obtain ⟨offers, hoffers, hrest⟩ :=
              ih (rest.drop count).length (by simp only [List.length_drop, List.length_cons]; omega)
                ⟨recorder.sink.take (byte :: rest.take count),
                  recorder.calls ++ [.offer (byte :: rest)]⟩ (rest.drop count) rfl
            refine ⟨[.offer (byte :: rest)] ++ offers, hone.append hoffers, ?_⟩
            simp only [List.take_succ_cons]
            rw [hrest, after, after, List.append_assoc]

/-- Lines are written to a recorder as they are to its sink, by offers. -/
theorem writeLines_eq (recorder : Recorder) (lines : List String) :
    ∃ offers, Call.AllOffer offers ∧
      recorder.writeLines lines = recorder.after (recorder.sink.writeLines lines) offers := by
  induction lines generalizing recorder with
  | nil => exact ⟨[], Call.allOffer_nil, by simp [writeLines, Sink.writeLines, after]⟩
  | cons line rest ih =>
      -- A fault ends both runs at the same piece: the line, its end, or one of the other lines.
      obtain ⟨first, hfirst, hline⟩ := recorder.writeAll_eq (Sink.utf8 line)
      rw [writeLines, Sink.writeLines, hline, after]
      rcases recorder.sink.writeAll (Sink.utf8 line) with ⟨fault | done, sink⟩
      · exact ⟨first, hfirst, rfl⟩
      · obtain ⟨second, hsecond, hend⟩ :=
          writeAll_eq ⟨sink, recorder.calls ++ first⟩ [Sink.lineEnd]
        simp only
        rw [hend, after]
        rcases sink.writeAll [Sink.lineEnd] with ⟨fault | done, sink⟩
        · exact ⟨first ++ second, hfirst.append hsecond, by simp [after]⟩
        · obtain ⟨others, hothers, hrest⟩ := ih ⟨sink, recorder.calls ++ first ++ second⟩
          refine ⟨first ++ second ++ others, (hfirst.append hsecond).append hothers, ?_⟩
          simp only
          rw [hrest, after, after, List.append_assoc, List.append_assoc, List.append_assoc]

/-- Lines are delivered to a recorder as they are to its sink, by offers and then by one flush when all
bytes fit. -/
theorem deliver_eq (recorder : Recorder) (lines : List String) :
    ∃ offers, Call.AllOffer offers ∧
      recorder.deliver lines = recorder.after (recorder.sink.deliver lines)
        (offers ++ if recorder.sink.fits (Sink.bytes lines).length = (Sink.bytes lines).length
          then [.flush] else []) := by
  obtain ⟨offers, hoffers, hwrite⟩ := recorder.writeLines_eq lines
  refine ⟨offers, hoffers, ?_⟩
  rw [deliver, Sink.deliver, hwrite, Sink.writeLines_eq_writeAll, after]
  -- Lines are one run of bytes, so it is settled before the flush whether all of them fit.
  rcases Nat.lt_or_eq_of_le (recorder.sink.fits_le (Sink.bytes lines).length) with hpart | hall
  · rw [Sink.writeAll_of_not_fits hpart, if_neg (Nat.ne_of_lt hpart), List.append_nil]
    rfl
  · rw [Sink.writeAll_of_fits hall, if_pos hall]
    simp [flush, after]

end Recorder

theorem Sink.fits_fresh (limit : Nat) (whenFull : WhenFull) (flushes : Bool) (count : Nat) :
    (fresh (some limit) whenFull flushes).fits count = min limit count := by
  simp [fits, fresh, Nat.min_comm]

/-- Of the text of a description a sink takes as many bytes as its limit allows. If these are all, the
delivery flushes once, at the end, and flushing decides how it ends. If not, it ends with the fault of the
full sink and does not flush. No offer is empty. -/
theorem Description.what_fits_is_handed_over (description : Description) (limit : Nat)
    (whenFull : WhenFull) (flushes : Bool) :
    let sink := Sink.fresh (some limit) whenFull flushes
    let full := Sink.utf8 (Text.ofLines description.lines)
    (sink.deliver description.lines).2.taken.toList = full.take (min limit full.length) ∧
    (sink.deliver description.lines).1 =
      (if full.length ≤ limit then
        if flushes then .ok () else .error .unflushed
      else match whenFull with
        | .refuses => .error .full
        | .stalls => .error .stalled) ∧
    ∃ offers, Call.AllOffer offers ∧
      Recorder.deliver ⟨sink, []⟩ description.lines =
        ((sink.deliver description.lines).1, ⟨(sink.deliver description.lines).2,
          offers ++ if full.length ≤ limit then [.flush] else []⟩) := by
  intro sink full
  have hfull : full = Sink.bytes description.lines := Text.utf8_ofLines description.lines
  have hfits : sink.fits full.length = min limit full.length := Sink.fits_fresh ..
  have hall : sink.fits full.length = full.length ↔ full.length ≤ limit := by
    rw [hfits]
    omega
  obtain ⟨offers, hoffers, hrecord⟩ := Recorder.deliver_eq ⟨sink, []⟩ description.lines
  rw [← hfull] at hrecord
  refine ⟨?_, ?_, offers, hoffers, ?_⟩
  · rw [Sink.deliver_eq, ← hfull, hfits]
    simp [sink, Sink.take, Sink.fresh]
  · rw [Sink.deliver_eq, ← hfull]
    simp only [hall]
    cases whenFull <;> rfl
  · simp only [hall] at hrecord
    exact hrecord

end TypeSurface
