import TypeSurface.Text.Lowercase

/-!
# Small letters

What lowercasing leaves alone. A character that lies before the small letters and is no capital one
is neither made nor removed (`mem_lowercaseChars_iff`), no text is emptied
(`lowercaseChars_eq_nil_iff`), and a text in small letters stays as it is (`lowercase_lowercase`).
The last needs the whole table of capital letters: none of their small letters is a capital letter
again (`capital_and_small_bits_eq_zero`).
-/

set_option autoImplicit false

namespace TypeSurface.Text

/-! ## The table of capital letters -/

/-- The numbers of a list as the bits of one number. -/
def bits (codes : List Nat) : Nat := codes.foldr (fun code rest => 1 <<< code ||| rest) 0

/-- The bit of every number of the list is set. -/
theorem testBit_bits {codes : List Nat} {code : Nat} (h : code ∈ codes) :
    (bits codes).testBit code = true := by
  induction codes with
  | nil => exact nomatch h
  | cons first rest ih =>
      rw [bits, List.foldr_cons, Nat.testBit_or, Bool.or_eq_true]
      rcases List.mem_cons.1 h with rfl | hrest
      · rw [Nat.one_shiftLeft]
        exact Or.inl Nat.testBit_two_pow_self
      · exact Or.inr (ih hrest)

namespace CapitalRun

/-- The distances of the capital letters of a run from the first one. -/
def steps (run : CapitalRun) : List Nat :=
  (List.range ((run.last - run.first) / run.stride + 1)).map (· * run.stride)

/-- The code points at the distances of each run from a start, as bits. -/
def allBits (start : CapitalRun → Nat) (runs : List CapitalRun) : Nat :=
  runs.foldr (fun run rest => bits (run.steps.map (start run + ·)) ||| rest) 0

/-- A capital letter of a run has one of the distances, and its small letter has the same one. -/
theorem exists_step_of_small? {run : CapitalRun} {code small : Nat}
    (h : run.small? code = some small) :
    ∃ step ∈ run.steps, code = run.first + step ∧ small = run.small + step ∧
      step ≤ run.last - run.first := by
  unfold small? at h
  split at h
  · rename_i hrun
    obtain ⟨hfirst, hlast, hstride⟩ := hrun
    refine ⟨code - run.first, ?_, by omega, (Option.some.inj h).symm, by omega⟩
    have hle : (code - run.first) / run.stride ≤ (run.last - run.first) / run.stride :=
      Nat.div_le_div_right (by omega)
    exact List.mem_map.2 ⟨(code - run.first) / run.stride, List.mem_range.2 (by omega),
      Nat.div_mul_cancel (Nat.dvd_of_mod_eq_zero hstride)⟩
  · exact nomatch h

/-- The bit at each distance of each run is set. -/
theorem testBit_allBits {start : CapitalRun → Nat} {runs : List CapitalRun} {run : CapitalRun}
    {step : Nat} (hrun : run ∈ runs) (hstep : step ∈ run.steps) :
    (allBits start runs).testBit (start run + step) = true := by
  induction runs with
  | nil => exact nomatch hrun
  | cons first rest ih =>
      rw [allBits, List.foldr_cons, Nat.testBit_or, Bool.or_eq_true]
      rcases List.mem_cons.1 hrun with rfl | hrest
      · exact Or.inl (testBit_bits (List.mem_map_of_mem hstep))
      · exact Or.inr (ih hrest)

end CapitalRun

/-- No code point is both a capital letter of the table and the small letter of one. -/
theorem capital_and_small_bits_eq_zero :
    CapitalRun.allBits (·.first) capitalRuns &&& CapitalRun.allBits (·.small) capitalRuns = 0 := by
  decide +kernel

/-- The small letters of a run are characters behind the capital letters of ASCII, and the capital
letter with a rule of its own is none of them. -/
theorem small_bounds_of_mem_capitalRuns : ∀ run ∈ capitalRuns, 0x61 ≤ run.small ∧
    (run.small + (run.last - run.first) < 0xD800 ∨
      0xDFFF < run.small ∧ run.small + (run.last - run.first) < 0x110000) ∧
    (run.small + (run.last - run.first) < 0x130 ∨ 0x130 < run.small) := by
  decide +kernel

/-- A small letter of the table is a character that does not lie before the small letters of ASCII,
and it has no small letter of its own. -/
theorem small_of_smallLetter? {code small : Nat} (h : smallLetter? code = some small) :
    0x61 ≤ small ∧ small.isValidChar ∧ small ≠ 0x130 ∧ smallLetter? small = none := by
  obtain ⟨run, hrun, hsmall⟩ := List.exists_of_findSome?_eq_some h
  obtain ⟨step, hstep, -, rfl, hle⟩ := CapitalRun.exists_step_of_small? hsmall
  obtain ⟨hletter, hvalid, hdotted⟩ := small_bounds_of_mem_capitalRuns run hrun
  refine ⟨by omega, ?_, by omega, ?_⟩
  · unfold Nat.isValidChar
    omega
  · -- If it had one, its bit would be set among the capital and among the small letters.
    rw [Option.eq_none_iff_forall_ne_some]
    intro further hfurther
    obtain ⟨other, hother, hcapital⟩ := List.exists_of_findSome?_eq_some hfurther
    obtain ⟨step', hstep', hcode, -, -⟩ := CapitalRun.exists_step_of_small? hcapital
    have hboth := congrArg (Nat.testBit · (run.small + step)) capital_and_small_bits_eq_zero
    have hcapitalBit : (CapitalRun.allBits (·.first) capitalRuns).testBit (run.small + step)
        = true := by
      rw [hcode]
      exact CapitalRun.testBit_allBits hother hstep'
    simp only [Nat.testBit_and, hcapitalBit, CapitalRun.testBit_allBits hrun hstep,
      Nat.zero_testBit, Bool.and_self] at hboth
    exact absurd hboth (by decide)

theorem toNat_ofNat_small {code small : Nat} (h : smallLetter? code = some small) :
    (Char.ofNat small).toNat = small := by
  rw [Char.ofNat, dif_pos (small_of_smallLetter? h).2.1]
  rfl

/-! ## Single characters -/

theorem toLower_eq_self {c : Char} (h : c.toNat < 0x41 ∨ 0x5A < c.toNat) : c.toLower = c := by
  unfold Char.toLower
  split
  · rename_i hcapital
    have hge : 0x41 ≤ c.toNat := UInt32.le_iff_toNat_le.1 hcapital.1
    have hle : c.toNat ≤ 0x5A := UInt32.le_iff_toNat_le.1 hcapital.2
    omega
  · rfl

theorem toNat_toLower {c : Char} (hge : 0x41 ≤ c.toNat) (hle : c.toNat ≤ 0x5A) :
    c.toLower.toNat = c.toNat + 0x20 := by
  unfold Char.toLower
  rw [dif_pos ⟨UInt32.le_iff_toNat_le.2 hge, UInt32.le_iff_toNat_le.2 hle⟩]
  show (c.val + 0x20).toNat = c.val.toNat + 0x20
  rw [UInt32.toNat_add]
  exact Nat.mod_eq_of_lt (show c.toNat + 0x20 < 2 ^ 32 by omega)

/-- The character is its own small form, wherever it stands. -/
def IsSettled (c : Char) : Prop := lowerChar c = [c] ∧ c ≠ '\u03A3'

theorem isSettled_of_ascii {c : Char} (hascii : c.toNat < 0x80)
    (h : c.toNat < 0x41 ∨ 0x5A < c.toNat) : IsSettled c := by
  constructor
  · rw [lowerChar, if_pos hascii, toLower_eq_self h]
  · rintro rfl
    exact absurd hascii (by decide)

/-- A character of a small form is the character itself, or it is settled and does not lie before
the small letters of ASCII. -/
theorem eq_or_small_of_mem_lowerChar {c d : Char} (h : d ∈ lowerChar c) :
    (d = c ∧ lowerChar c = [c]) ∨ (0x61 ≤ d.toNat ∧ IsSettled d) := by
  unfold lowerChar at h ⊢
  split at h
  · rename_i hascii
    obtain rfl := List.mem_singleton.1 h
    by_cases hcapital : 0x41 ≤ c.toNat ∧ c.toNat ≤ 0x5A
    · right
      have hsmall := toNat_toLower hcapital.1 hcapital.2
      exact ⟨by omega, isSettled_of_ascii (by omega) (by omega)⟩
    · left
      have hself := toLower_eq_self (c := c) (by omega)
      rw [if_pos hascii, hself]
      exact ⟨rfl, rfl⟩
  · rename_i hwide
    split at h
    · right
      rcases List.mem_cons.1 h with rfl | h
      · exact ⟨by decide, isSettled_of_ascii (by decide) (by decide)⟩
      · obtain rfl := List.mem_singleton.1 h
        exact ⟨by decide, by decide +kernel, by decide⟩
    · rename_i hdotted
      split at h
      · rename_i small hsmall
        right
        obtain rfl := List.mem_singleton.1 h
        obtain ⟨hletter, -, hne, hnone⟩ := small_of_smallLetter? hsmall
        have hcode := toNat_ofNat_small hsmall
        refine ⟨by omega, ?_⟩
        by_cases hascii : (Char.ofNat small).toNat < 0x80
        · exact isSettled_of_ascii hascii (by omega)
        · constructor
          · have hne' : Char.ofNat small ≠ '\u0130' := by
              intro heq
              rw [heq] at hcode
              exact hne hcode.symm
            rw [lowerChar, if_neg hascii, if_neg hne', hcode, hnone]
          · intro heq
            -- A capital sigma has a small letter, and this character has none.
            rw [heq] at hcode
            rw [← hcode] at hnone
            exact absurd hnone (by decide)
      · left
        rw [if_neg hwide, if_neg hdotted]
        exact ⟨List.mem_singleton.1 h, rfl⟩

theorem isSettled_of_mem_lowerChar {c d : Char} (hc : c ≠ '\u03A3') (h : d ∈ lowerChar c) :
    IsSettled d := by
  rcases eq_or_small_of_mem_lowerChar h with ⟨rfl, hself⟩ | ⟨-, hsettled⟩
  · exact ⟨hself, hc⟩
  · exact hsettled

theorem isSettled_sigma (closing : Bool) :
    IsSettled (if closing then '\u03C2' else '\u03C3') := by
  cases closing with
  | true => exact ⟨by decide +kernel, by decide⟩
  | false => exact ⟨by decide +kernel, by decide⟩

/-! ## Whole texts -/

/-- The characters of a lowercased text are settled. -/
theorem isSettled_of_mem_lowerFrom {before cs : List Char} {d : Char}
    (h : d ∈ lowerFrom before cs) : IsSettled d := by
  induction cs generalizing before with
  | nil => exact nomatch h
  | cons c rest ih =>
      rw [lowerFrom, List.mem_append] at h
      rcases h with hfirst | hrest
      · split at hfirst
        · obtain rfl := List.mem_singleton.1 hfirst
          exact isSettled_sigma _
        · rename_i hc
          exact isSettled_of_mem_lowerChar hc hfirst
      · exact ih hrest

theorem lowerFrom_eq_self {before cs : List Char} (h : ∀ c ∈ cs, IsSettled c) :
    lowerFrom before cs = cs := by
  induction cs generalizing before with
  | nil => rfl
  | cons c rest ih =>
      obtain ⟨⟨hself, hsigma⟩, hrest⟩ := List.forall_mem_cons.1 h
      rw [lowerFrom, if_neg hsigma, hself, ih hrest]
      rfl

theorem lowercaseChars_lowercaseChars (cs : List Char) :
    lowercaseChars (lowercaseChars cs) = lowercaseChars cs :=
  lowerFrom_eq_self fun _ => isSettled_of_mem_lowerFrom

/-- A lowercased text is not changed again. -/
theorem lowercase_lowercase (s : String) : lowercase (lowercase s) = lowercase s := by
  rw [lowercase, toList_lowercase, lowercaseChars_lowercaseChars, ← lowercase]

theorem lowerChar_ne_nil (c : Char) : lowerChar c ≠ [] := by
  unfold lowerChar
  split
  · exact List.cons_ne_nil _ _
  · split
    · exact List.cons_ne_nil _ _
    · split <;> exact List.cons_ne_nil _ _

/-- Only the empty text is lowercased to the empty text. -/
theorem lowercaseChars_eq_nil_iff {cs : List Char} : lowercaseChars cs = [] ↔ cs = [] := by
  constructor
  · intro h
    cases cs with
    | nil => rfl
    | cons c rest =>
        rw [lowercaseChars, lowerFrom, List.append_eq_nil_iff] at h
        have hfirst := h.1
        split at hfirst
        · exact absurd hfirst (List.cons_ne_nil _ _)
        · exact absurd hfirst (lowerChar_ne_nil c)
  · rintro rfl
    rfl

theorem lowercase_eq_empty_iff {s : String} : lowercase s = "" ↔ s = "" := by
  rw [← String.toList_eq_nil_iff, toList_lowercase, lowercaseChars_eq_nil_iff,
    String.toList_eq_nil_iff]

/-! ## Characters without case -/

/-- An ASCII character that lies before the small letters and is no capital letter: a digit, a
separator, an accent. -/
def IsMark (c : Char) : Prop := c.toNat < 0x61 ∧ (c.toNat < 0x41 ∨ 0x5A < c.toNat)

instance (c : Char) : Decidable (IsMark c) := inferInstanceAs (Decidable (_ ∧ _))

/-- A mark is in the small form of itself alone. -/
theorem mem_lowerChar_iff {mark c : Char} (hmark : IsMark mark) :
    mark ∈ lowerChar c ↔ c = mark := by
  constructor
  · intro h
    rcases eq_or_small_of_mem_lowerChar h with ⟨rfl, -⟩ | ⟨hsmall, -⟩
    · rfl
    · exact absurd hmark.1 (by omega)
  · rintro rfl
    have hlt := hmark.1
    rw [(isSettled_of_ascii (by omega) hmark.2).1]
    exact List.mem_singleton.2 rfl

/-- Lowercasing neither makes nor removes marks, whatever stands before the text. -/
theorem mem_lowerFrom_iff {mark : Char} (hmark : IsMark mark) {before cs : List Char} :
    mark ∈ lowerFrom before cs ↔ mark ∈ cs := by
  induction cs generalizing before with
  | nil => exact Iff.rfl
  | cons c rest ih =>
      rw [lowerFrom, List.mem_append, ih, List.mem_cons]
      refine or_congr_left ?_
      split
      · rename_i hsigma
        -- Neither the capital sigma nor its small forms are marks.
        have hlt := hmark.1
        constructor
        · intro h
          rw [List.mem_singleton.1 h] at hlt
          split at hlt <;> exact absurd hlt (by decide)
        · intro h
          rw [h, hsigma] at hlt
          exact absurd hlt (by decide)
      · rw [mem_lowerChar_iff hmark, eq_comm]

/-- Lowercasing neither makes nor removes marks. -/
theorem mem_lowercaseChars_iff {mark : Char} (hmark : IsMark mark) {cs : List Char} :
    mark ∈ lowercaseChars cs ↔ mark ∈ cs :=
  mem_lowerFrom_iff hmark

end TypeSurface.Text
