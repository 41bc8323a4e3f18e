import TypeSurface.Sink

/-!
# Delivered lines

Lines reach a sink as one run of bytes: to offer them piece by piece is to offer them at once
(`writeLines_eq_writeAll`). So lines are delivered exactly when all their bytes fit and flushing
works, and then the sink has taken those bytes and nothing else (`deliver_eq_ok_iff`). Whatever the
sink does, it takes a first part of the bytes (`deliver_eq`).
-/

set_option autoImplicit false

namespace TypeSurface.Sink

variable {sink sink' : Sink}

/-! ## Room in a sink -/

@[simp] theorem take_nil : sink.take [] = sink := by
  simp [take]

theorem take_take (first second : List UInt8) :
    (sink.take first).take second = sink.take (first ++ second) := by
  simp [take]

theorem take_inj {first second : List UInt8} :
    sink.take first = sink.take second ↔ first = second := by
  constructor
  · intro h
    have htaken := congrArg (fun sink : Sink => sink.taken.toList) h
    simpa [take] using htaken
  · rintro rfl
    rfl

/-- What fits behind bytes that fit themselves is what fits of both together. -/
theorem fits_append {first : List UInt8} (h : sink.fits first.length = first.length) (count : Nat) :
    sink.fits (first.length + count) = first.length + (sink.take first).fits count := by
  unfold fits take at *
  cases hlimit : sink.limit with
  | none => simp only
  | some limit =>
      simp only [hlimit] at h
      simp only [Array.size_append, List.size_toArray]
      omega

/-- When some bytes do not fit, no more of a longer piece fits. -/
theorem fits_eq_of_lt {count longer : Nat} (h : sink.fits count < count) (hle : count ≤ longer) :
    sink.fits longer = sink.fits count := by
  unfold fits at *
  cases hlimit : sink.limit with
  | none =>
      simp only [hlimit] at h
      omega
  | some limit =>
      simp only [hlimit] at h
      simp only
      omega

/-! ## Pieces -/

/-- Two pieces are written one after the other as they are at once: once the first is refused, the
second is not offered. -/
theorem writeAll_append (first second : List UInt8) :
    sink.writeAll (first ++ second) =
      match sink.writeAll first with
      | (.error fault, sink) => (.error fault, sink)
      | (.ok (), sink) => sink.writeAll second := by
  have hlength : (first ++ second).length = first.length + second.length := List.length_append
  rcases Nat.lt_or_eq_of_le (sink.fits_le first.length) with hpart | hfirst
  · -- The first piece is cut, and the whole is cut at the same byte.
    have hsame : sink.fits (first ++ second).length = sink.fits first.length :=
      fits_eq_of_lt hpart (by omega)
    rw [writeAll_of_not_fits hpart, writeAll_of_not_fits (by omega), hsame]
    rw [List.take_append_of_le_length (Nat.le_of_lt hpart)]
  · rw [writeAll_of_fits hfirst]
    have hfits := fits_append hfirst second.length
    rw [← hlength] at hfits
    rcases Nat.lt_or_eq_of_le ((sink.take first).fits_le second.length) with hpart | hsecond
    · rw [writeAll_of_not_fits (by omega), hfits, List.take_length_add_append]
      show _ = (sink.take first).writeAll second
      rw [writeAll_of_not_fits hpart, take_take]
      rfl
    · rw [writeAll_of_fits (by omega), ← take_take]
      exact (writeAll_of_fits hsecond).symm

/-! ## Lines -/

/-- The bytes of lines, each with its end. -/
def bytes (lines : List String) : List UInt8 :=
  lines.flatMap fun line => utf8 line ++ [lineEnd]

/-- To write lines is to write their bytes. -/
theorem writeLines_eq_writeAll (lines : List String) :
    sink.writeLines lines = sink.writeAll (bytes lines) := by
  induction lines generalizing sink with
  | nil =>
      show _ = sink.writeAll []
      rw [writeLines, writeAll]
  | cons line rest ih =>
      have hbytes : bytes (line :: rest) = utf8 line ++ ([lineEnd] ++ bytes rest) := by
        simp [bytes]
      rw [writeLines, hbytes, writeAll_append]
      rcases sink.writeAll (utf8 line) with ⟨fault | done, taken⟩
      · rfl
      · simp only
        rw [writeAll_append]
        rcases taken.writeAll [lineEnd] with ⟨fault | done, ended⟩
        · rfl
        · exact ih

/-- Lines are delivered exactly when all their bytes fit and flushing works, and then all of them
are taken. -/
theorem deliver_eq_ok_iff {lines : List String} :
    sink.deliver lines = (.ok (), sink') ↔
      sink.fits (bytes lines).length = (bytes lines).length ∧ sink.flushes = true ∧
        sink' = sink.take (bytes lines) := by
  unfold deliver
  rw [writeLines_eq_writeAll]
  rcases Nat.lt_or_eq_of_le (sink.fits_le (bytes lines).length) with hpart | hall
  · rw [writeAll_of_not_fits hpart]
    simp only [Prod.mk.injEq, reduceCtorEq, false_and, false_iff]
    rintro ⟨hall, -⟩
    omega
  · rw [writeAll_of_fits hall]
    cases hflush : sink.flushes with
    | true =>
        have htaken : (sink.take (bytes lines)).flushes = true := hflush
        simp [htaken, hall, eq_comm]
    | false =>
        have htaken : (sink.take (bytes lines)).flushes = false := hflush
        simp [htaken]

/-! ## Cut deliveries -/

/-- The fault of a sink that is offered more than fits. -/
def overflowFault (sink : Sink) : DeliveryFault :=
  match sink.whenFull with
  | .refuses => .full
  | .stalls => .stalled

/-- Of the bytes of lines the first part that fits is taken. When all of them fit, flushing decides;
otherwise the full sink does, and it is not flushed. -/
theorem deliver_eq (sink : Sink) (lines : List String) :
    sink.deliver lines =
      (if sink.fits (bytes lines).length = (bytes lines).length then
          if sink.flushes then .ok () else .error .unflushed
        else .error sink.overflowFault,
        sink.take ((bytes lines).take (sink.fits (bytes lines).length))) := by
  rcases Nat.lt_or_eq_of_le (sink.fits_le (bytes lines).length) with hpart | hall
  · rw [if_neg (Nat.ne_of_lt hpart), deliver, writeLines_eq_writeAll, writeAll_of_not_fits hpart]
    rfl
  · rw [if_pos hall, hall, List.take_length, deliver, writeLines_eq_writeAll, writeAll_of_fits hall]
    rfl

end TypeSurface.Sink
