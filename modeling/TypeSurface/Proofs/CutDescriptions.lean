import TypeSurface.Proofs.Delivery
import TypeSurface.Proofs.LineReader

/-!
# Cut descriptions

A sink with room enough takes the lines of a description as one text, in which every line is closed
by a line end. Cutting the text at its line ends gives the lines back exactly when none of them
holds a line end itself (`dropLast_pieces_eq_iff`). Between such descriptions no text is a first
part of another one, down to the byte (`lines_eq_of_utf8_prefix`): the texts are compared character
by character, so line by line, and lines delimit themselves. So what a sink took of a description it
could not take as a whole is no text of a description and does not begin with one
(`cut_text_is_incomplete`).
-/

set_option autoImplicit false

namespace TypeSurface

namespace Text

/-! ## Texts of lines -/

/-- The text of some lines, each closed by a line end. -/
def ofLines (lines : List String) : String := String.join (lines.map (· ++ "\n"))

/-- The pieces of a text between its line ends. -/
def pieces (text : String) : List String := (text.split '\n').toList.map String.Slice.copy

/-- No line holds a line end. -/
def Unbroken (lines : List String) : Prop := ∀ line ∈ lines, '\n' ∉ line.toList

theorem toList_ofLines_cons (line : String) (rest : List String) :
    (ofLines (line :: rest)).toList = line.toList ++ '\n' :: (ofLines rest).toList := by
  simp [ofLines, String.join_cons]

/-- The bytes of the text of some lines are those a sink is offered. -/
theorem utf8_ofLines (lines : List String) : Sink.utf8 (ofLines lines) = Sink.bytes lines := by
  induction lines with
  | nil => rfl
  | cons line rest ih =>
      have htext : ofLines (line :: rest) = line ++ "\n" ++ ofLines rest := by
        simp [ofLines, String.join_cons]
      have hbytes : Sink.bytes (line :: rest)
          = Sink.utf8 line ++ [Sink.lineEnd] ++ Sink.bytes rest := rfl
      rw [htext, hbytes, ← ih]
      simp only [Sink.utf8, String.toByteArray_append, ByteArray.data_append, Array.toList_append]
      rfl

theorem toList_prefix_of_utf8_prefix {first second : String}
    (h : Sink.utf8 first <+: Sink.utf8 second) : first.toList <+: second.toList := by
  obtain ⟨rest, hrest⟩ := h
  apply List.isPrefix_of_utf8Encode_append_eq_utf8Encode ⟨rest.toArray⟩
  rw [String.utf8Encode_toList, String.utf8Encode_toList]
  apply ByteArray.ext
  apply Array.toList_inj.1
  simpa [Sink.utf8] using hrest

theorem map_ofList_map_toList (lines : List String) :
    (lines.map String.toList).map String.ofList = lines := by
  rw [List.map_map]
  exact List.map_id'' (fun _ => String.ofList_toList) lines

/-! ## Pieces -/

/-- A piece between two marks holds no mark. -/
theorem mark_not_mem_of_mem_splitOn {mark : Char} {text piece : List Char}
    (h : piece ∈ text.splitOn mark) : mark ∉ piece := by
  induction text generalizing piece with
  | nil =>
      obtain rfl : piece = [] := by simpa using h
      exact List.not_mem_nil
  | cons first rest ih =>
      rw [List.splitOn_cons_eq_if_modifyHead] at h
      split at h
      · rcases List.mem_cons.1 h with rfl | h
        · exact List.not_mem_nil
        · exact ih h
      · rename_i hfirst
        -- The first character joins the first piece and is no mark.
        obtain ⟨head, tail, hsplit⟩ := List.exists_cons_of_ne_nil (List.splitOn_ne_nil mark rest)
        rw [hsplit] at h ih
        rcases List.mem_cons.1 h with rfl | h
        · intro hmem
          rcases List.mem_cons.1 hmem with rfl | hmem
          · exact hfirst (beq_self_eq_true mark)
          · exact ih List.mem_cons_self hmem
        · exact ih (List.mem_cons_of_mem head h)

theorem splitOn_ofLines_append (lines : List String) (rest : List Char) :
    ((ofLines lines).toList ++ rest).splitOn '\n'
      = lines.flatMap (·.toList.splitOn '\n') ++ rest.splitOn '\n' := by
  induction lines with
  | nil => rfl
  | cons line others ih =>
      rw [toList_ofLines_cons, List.append_assoc, List.cons_append, List.splitOn_append_cons_self,
        ih, List.flatMap_cons, List.append_assoc]

theorem Unbroken.flatMap_splitOn {lines : List String} (h : Unbroken lines) :
    lines.flatMap (·.toList.splitOn '\n') = lines.map String.toList := by
  induction lines with
  | nil => rfl
  | cons line rest ih =>
      have hline := List.splitOn_eq_singleton (h line List.mem_cons_self)
      have hrest := ih fun other hother => h other (List.mem_cons_of_mem line hother)
      rw [List.flatMap_cons, List.map_cons, hline, hrest, List.singleton_append]

theorem pieces_ofLines (lines : List String) :
    pieces (ofLines lines)
      = (lines.flatMap (·.toList.splitOn '\n')).map String.ofList ++ [""] := by
  have hsplit := splitOn_ofLines_append lines []
  rw [List.append_nil] at hsplit
  rw [pieces, String.toList_split_char, hsplit, List.map_append]
  rfl

/-- The pieces of the text of some lines, without the last, are the lines exactly when no line holds
a line end. -/
theorem dropLast_pieces_eq_iff (lines : List String) :
    (pieces (ofLines lines)).dropLast = lines ↔ Unbroken lines := by
  rw [pieces_ofLines, List.dropLast_concat]
  constructor
  · intro h line hline
    rw [← h] at hline
    obtain ⟨piece, hpiece, rfl⟩ := List.mem_map.1 hline
    obtain ⟨whole, -, hcut⟩ := List.mem_flatMap.1 hpiece
    rw [String.toList_ofList]
    exact mark_not_mem_of_mem_splitOn hcut
  · intro h
    rw [h.flatMap_splitOn, map_ofList_map_toList]

/-- Lines without line ends whose text is the first part of the text of others are the first of
those. -/
theorem lines_prefix_of_ofLines_prefix {first second : List String} (hfirst : Unbroken first)
    (hsecond : Unbroken second) (h : (ofLines first).toList <+: (ofLines second).toList) :
    first <+: second := by
  obtain ⟨rest, hrest⟩ := h
  have hsplit := splitOn_ofLines_append first rest
  have hwhole := splitOn_ofLines_append second []
  rw [List.append_nil, hsecond.flatMap_splitOn] at hwhole
  rw [hrest, hwhole, hfirst.flatMap_splitOn] at hsplit
  -- The last piece of the longer text is empty, and it belongs to the rest.
  have hpieces := congrArg List.dropLast hsplit
  have hne : rest.splitOn '\n' ≠ [] := List.splitOn_ne_nil _ _
  rw [List.splitOn_nil, List.dropLast_concat, List.dropLast_append_of_ne_nil hne] at hpieces
  have hstart : first.map String.toList <+: second.map String.toList := ⟨_, hpieces.symm⟩
  have hstrings := hstart.map String.ofList
  rwa [map_ofList_map_toList, map_ofList_map_toList] at hstrings

end Text

namespace Description

/-! ## Texts of descriptions -/

/-- The text of a description: its lines, each closed by a line end. -/
def text (description : Description) : String := Text.ofLines description.lines

theorem lines_eq_of_prefix {first second : Description} (h : first.lines <+: second.lines) :
    first.lines = second.lines := by
  obtain ⟨rest, hrest⟩ := h
  have hfirst := read_lines first rest
  have hsecond := read_lines second []
  rw [List.append_nil] at hsecond
  rw [hrest, hsecond] at hfirst
  exact lines_eq_of_normalized_eq (congrArg Prod.fst (Option.some.inj hfirst)).symm

/-- Descriptions whose lines hold no line ends are the same lines when the bytes of one begin with
the bytes of the other. -/
theorem lines_eq_of_utf8_prefix {first second : Description} (hfirst : Text.Unbroken first.lines)
    (hsecond : Text.Unbroken second.lines) (h : Sink.utf8 first.text <+: Sink.utf8 second.text) :
    first.lines = second.lines :=
  lines_eq_of_prefix
    (Text.lines_prefix_of_ofLines_prefix hfirst hsecond (Text.toList_prefix_of_utf8_prefix h))

/-- A sink with room for everything takes the text of a description, and the pieces of that text are
the lines and an empty piece behind the last line end, exactly when no line holds a line end. Of two
descriptions without line ends in their lines, the bytes of one begin with the bytes of the other
only if their lines are the same. So the bytes that a sink took of a description, when they are not
all, neither are the text of any such description nor begin with one. -/
theorem cut_text_is_incomplete :
    (∀ (description : Description) (whenFull : WhenFull) (flushes : Bool),
      ((Sink.fresh none whenFull flushes).deliver description.lines).2.taken.toList
          = Sink.utf8 description.text ∧
        (Text.pieces description.text).getLast? = some "" ∧
        ((Text.pieces description.text).dropLast = description.lines ↔
          Text.Unbroken description.lines)) ∧
    (∀ first second : Description, Text.Unbroken first.lines → Text.Unbroken second.lines →
      Sink.utf8 first.text <+: Sink.utf8 second.text → first.lines = second.lines) ∧
    ∀ (description : Description) (sink : Sink) (part : List UInt8),
      Text.Unbroken description.lines →
      (sink.deliver description.lines).2 = sink.take part →
      part.length < (Sink.utf8 description.text).length →
      ∀ other : Description, Text.Unbroken other.lines → ¬Sink.utf8 other.text <+: part := by
  refine ⟨?_, ?_, ?_⟩
  · intro description whenFull flushes
    refine ⟨?_, ?_, Text.dropLast_pieces_eq_iff description.lines⟩
    · rw [Sink.deliver_eq, text, Text.utf8_ofLines]
      simp [Sink.take, Sink.fresh, Sink.fits]
    · rw [text, Text.pieces_ofLines, List.getLast?_concat]
  · intro first second hfirst hsecond
    exact lines_eq_of_utf8_prefix hfirst hsecond
  · intro description sink part hunbroken hdeliver hshort other hother hstart
    have hbytes := Text.utf8_ofLines description.lines
    -- The part is the first of the bytes, so the lines of the other description are the same.
    have hpart : part <+: Sink.utf8 description.text := by
      rw [Sink.deliver_eq] at hdeliver
      rw [text, hbytes, ← Sink.take_inj.1 hdeliver]
      exact List.take_prefix _ _
    have hlines := lines_eq_of_utf8_prefix hother hunbroken (hstart.trans hpart)
    have hlength := hstart.length_le
    rw [text, hlines] at hlength
    exact absurd hshort (Nat.not_lt_of_le hlength)

/-- A class that implements one interface a number of times. -/
def repeating (count : Nat) : Description :=
  ⟨"", "Many", false, "", List.replicate count "I", [], [], [], []⟩

/-- Cut inside the number of its interfaces, the text of a class is no text, although the part of
the number that is left is a number too. A class whose name holds a line end is not cut into its
lines. -/
theorem cut_count_is_incomplete :
    Text.Unbroken (repeating 12).lines ∧
      ((Sink.fresh (some 16) .refuses true).deliver (repeating 12).lines).2
        = (Sink.fresh (some 16) .refuses true).take (Sink.utf8 "Many\nfalse\ncs\n\n1") ∧
      ¬Sink.utf8 (repeating 1).text <+: Sink.utf8 "Many\nfalse\ncs\n\n1" ∧
      (Text.pieces (Description.mk "" "Two\nLines" false "" [] [] [] [] []).text).dropLast
        ≠ (Description.mk "" "Two\nLines" false "" [] [] [] [] []).lines := by
  have hunbroken : Text.Unbroken (repeating 12).lines := by
    unfold Text.Unbroken
    decide +kernel
  have hdeliver : ((Sink.fresh (some 16) .refuses true).deliver (repeating 12).lines).2
      = (Sink.fresh (some 16) .refuses true).take (Sink.utf8 "Many\nfalse\ncs\n\n1") := by
    rw [Sink.deliver_eq]
    exact Sink.take_inj.2 (by decide +kernel)
  have hone : Text.Unbroken (repeating 1).lines := by
    unfold Text.Unbroken
    decide +kernel
  have htwo : ¬Text.Unbroken (Description.mk "" "Two\nLines" false "" [] [] [] [] []).lines := by
    unfold Text.Unbroken
    decide +kernel
  obtain ⟨hpieces, -, hcut⟩ := cut_text_is_incomplete
  refine ⟨hunbroken, hdeliver, ?_, ?_⟩
  · exact hcut _ _ _ hunbroken hdeliver (by decide +kernel) _ hone
  · exact mt (hpieces _ .refuses true).2.2.1 htwo

end Description

end TypeSurface
