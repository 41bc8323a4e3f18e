import TypeSurface.Fault

/-!
# Byte sinks

A sink takes bytes until a limit is reached. Each offer is taken up to the limit; a full sink refuses
what it is offered or takes none of it, and flushing works or fails whatever was taken. Lines are
offered piece by piece, a text and then its line end, and a piece that is taken in part is offered
again from where it was cut. `deliver` writes lines in this way and flushes once all are taken.
`writeAll_of_fits` and `writeAll_of_not_fits` say what is taken of any piece.
-/

set_option autoImplicit false

namespace TypeSurface

/-- What a full sink does with further bytes. -/
inductive WhenFull where
  | refuses
  | stalls
deriving DecidableEq, Repr

/-- A destination of bytes, with the bytes it has taken so far. -/
structure Sink where
  limit : Option Nat
  whenFull : WhenFull
  flushes : Bool
  taken : Array UInt8
deriving Repr

namespace Sink

/-- The bytes of a text. -/
def utf8 (text : String) : List UInt8 := text.toByteArray.data.toList

/-- The byte that ends a line. -/
def lineEnd : UInt8 := 10

/-- A sink that has taken nothing yet. -/
def fresh (limit : Option Nat) (whenFull : WhenFull) (flushes : Bool) : Sink :=
  ⟨limit, whenFull, flushes, #[]⟩

/-- How many of the offered bytes still fit. -/
def fits (sink : Sink) (count : Nat) : Nat :=
  match sink.limit with
  | none => count
  | some limit => min count (limit - sink.taken.size)

/-- The answer to one offer of at least one byte: the number of bytes that are taken. -/
def offer (sink : Sink) (count : Nat) : Except DeliveryFault Nat :=
  if sink.fits count = 0 then
    match sink.whenFull with
    | .refuses => .error .full
    | .stalls => .ok 0
  else
    .ok (sink.fits count)

/-- The sink after it took some bytes. -/
def take (sink : Sink) (bytes : List UInt8) : Sink := { sink with taken := sink.taken ++ bytes.toArray }

/-- Offers bytes until all are taken. Nothing is offered once none are left. -/
def writeAll (sink : Sink) : List UInt8 → Except DeliveryFault Unit × Sink
  | [] => (.ok (), sink)
  | byte :: rest =>
      match sink.offer (rest.length + 1) with
      | .error fault => (.error fault, sink)
      | .ok 0 => (.error .stalled, sink)
      | .ok (count + 1) =>
          (sink.take (byte :: rest.take count)).writeAll (rest.drop count)
termination_by bytes => bytes.length
decreasing_by simp only [List.length_drop, List.length_cons]; omega

theorem fits_le (sink : Sink) (count : Nat) : sink.fits count ≤ count := by
  unfold fits
  split
  · exact Nat.le_refl _
  · exact Nat.min_le_left ..

/-- Bytes that all fit are all taken. -/
theorem writeAll_of_fits {sink : Sink} {bytes : List UInt8}
    (h : sink.fits bytes.length = bytes.length) :
    sink.writeAll bytes = (.ok (), sink.take bytes) := by
  cases bytes with
  | nil => simp [writeAll, take]
  | cons byte rest =>
      have hfits : sink.fits (rest.length + 1) = rest.length + 1 := h
      have hoffer : sink.offer (rest.length + 1) = .ok (rest.length + 1) := by simp [offer, hfits]
      rw [writeAll, hoffer]
      simp [writeAll]

/-- A sink that took only a part of what it was offered is full. -/
theorem fits_take_eq_zero {sink : Sink} {bytes : List UInt8} {offered : Nat} (count : Nat)
    (h : sink.fits offered = bytes.length) (hpart : bytes.length < offered) :
    (sink.take bytes).fits count = 0 := by
  unfold fits take at *
  cases hlimit : sink.limit with
  | none =>
      simp only [hlimit] at h
      omega
  | some limit =>
      simp only [hlimit] at h
      simp only [Array.size_append, List.size_toArray]
      omega

/-- Of bytes that do not all fit, the first part that does is taken, and then the full sink refuses or
stalls. -/
theorem writeAll_of_not_fits {sink : Sink} {bytes : List UInt8}
    (h : sink.fits bytes.length < bytes.length) :
    sink.writeAll bytes =
      (.error (match sink.whenFull with | .refuses => .full | .stalls => .stalled),
        sink.take (bytes.take (sink.fits bytes.length))) := by
  cases bytes with
  | nil => simp at h
  | cons byte rest =>
      have hlength : (byte :: rest).length = rest.length + 1 := rfl
      rw [hlength] at h ⊢
      cases hfits : sink.fits (rest.length + 1) with
      | zero =>
          have htake : sink.take [] = sink := by simp [take]
          rw [writeAll]
          cases hfull : sink.whenFull <;> simp [offer, hfits, hfull, htake]
      | succ count =>
          have hoffer : sink.offer (rest.length + 1) = .ok (count + 1) := by simp [offer, hfits]
          rw [hfits] at h
          rw [writeAll, hoffer, List.take_succ_cons]
          simp only
          cases hrest : rest.drop count with
          | nil =>
              rw [List.drop_eq_nil_iff] at hrest
              omega
          | cons next others =>
              have hzero : (sink.take (byte :: rest.take count)).fits (others.length + 1) = 0 := by
                refine fits_take_eq_zero (others.length + 1)
                  (show sink.fits (rest.length + 1) = _ from ?_) ?_
                · simp only [hfits, List.length_cons, List.length_take]
                  omega
                · simp only [List.length_cons, List.length_take]
                  omega
              have hsame : (sink.take (byte :: rest.take count)).whenFull = sink.whenFull := rfl
              rw [writeAll]
              cases hfull : sink.whenFull <;> simp [offer, hzero, hsame, hfull]

/-- Writes each line and its end. -/
def writeLines (sink : Sink) : List String → Except DeliveryFault Unit × Sink
  | [] => (.ok (), sink)
  | line :: rest =>
      match sink.writeAll (utf8 line) with
      | (.error fault, sink) => (.error fault, sink)
      | (.ok (), sink) =>
          match sink.writeAll [lineEnd] with
          | (.error fault, sink) => (.error fault, sink)
          | (.ok (), sink) => sink.writeLines rest

/-- Writes lines and then flushes. A failed write leaves the sink unflushed. -/
def deliver (sink : Sink) (lines : List String) : Except DeliveryFault Unit × Sink :=
  match sink.writeLines lines with
  | (.error fault, sink) => (.error fault, sink)
  | (.ok (), sink) => (if sink.flushes then .ok () else .error .unflushed, sink)

end Sink

end TypeSurface
