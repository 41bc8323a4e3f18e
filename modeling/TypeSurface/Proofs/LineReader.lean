import TypeSurface.Description.Lines

/-!
# Reading lines back

One reader takes the lines of any description off the front of any lines and leaves the rest
(`read_lines`). It gives the description back as far as its lines tell it: all but the original
spelling of the type's own name and namespace. So lines delimit themselves: those of one description
are a prefix of those of another only if both are the same lines (`lines_delimit_themselves`).
-/

set_option autoImplicit false

namespace TypeSurface.Description

variable {α : Type}

/-- A description whose name and namespace are written as its lines write them. -/
def normalized (description : Description) : Description :=
  { description with
    name := Naming.flattenArity description.name
    ns := Naming.packagePath description.ns }

/-! ## Readers -/

/-- Takes a value off the front of some lines and returns it with the lines that are left. -/
abbrev Reader (α : Type) : Type := List String → Option (α × List String)

/-- A reader reads what a writer writes, in front of any lines, and leaves those. -/
def Reads (read : Reader α) (write : α → List String) : Prop :=
  ∀ value rest, read (write value ++ rest) = some (value, rest)

/-- Reads a line as it is. -/
def readText : Reader String
  | [] => none
  | line :: rest => some (line, rest)

/-- Reads the line of a truth value. -/
def readFlag : Reader Bool
  | [] => none
  | line :: rest =>
      if line = flagLine true then some (true, rest)
      else if line = flagLine false then some (false, rest)
      else none

/-- Reads the line that announces a number, which is written without leading zeros. -/
def readCount : Reader Nat
  | [] => none
  | line :: rest =>
      let number := Nat.ofDigitChars 10 line.toList 0
      if line = countLine number then some (number, rest) else none

/-- Reads a number of entries one after the other. -/
def readEntries (read : Reader α) : Nat → Reader (List α)
  | 0, lines => some ([], lines)
  | number + 1, lines => do
      let (entry, lines) ← read lines
      let (entries, lines) ← readEntries read number lines
      return (entry :: entries, lines)

/-- Reads a block: the number of its entries, then the entries. -/
def readBlock (read : Reader α) : Reader (List α) := fun lines => do
  let (number, lines) ← readCount lines
  readEntries read number lines

/-- Reads a field. -/
def readField : Reader (Member.Field String) := fun lines => do
  let (name, lines) ← readText lines
  let (type, lines) ← readText lines
  return (⟨name, type⟩, lines)

/-- Reads a property. -/
def readProperty : Reader (Member.Property String) := fun lines => do
  let (name, lines) ← readText lines
  let (type, lines) ← readText lines
  let (canRead, lines) ← readFlag lines
  let (canWrite, lines) ← readFlag lines
  return (⟨name, type, canRead, canWrite⟩, lines)

/-- Reads a parameter. -/
def readParameter : Reader (Member.Parameter String) := fun lines => do
  let (name, lines) ← readText lines
  let (type, lines) ← readText lines
  let (hasDefault, lines) ← readFlag lines
  return (⟨name, type, hasDefault⟩, lines)

/-- Reads a method with the block of its parameters. -/
def readMethod : Reader (Member.Method String) := fun lines => do
  let (name, lines) ← readText lines
  let (result, lines) ← readText lines
  let (parameters, lines) ← readBlock readParameter lines
  return (⟨name, result, parameters⟩, lines)

/-- Reads a description. -/
def read : Reader Description := fun lines => do
  let (name, lines) ← readText lines
  let (isInterface, lines) ← readFlag lines
  let (ns, lines) ← readText lines
  let (baseType, lines) ← readText lines
  let (interfaces, lines) ← readBlock readText lines
  let (genericParameters, lines) ← readBlock readText lines
  let (fields, lines) ← readBlock readField lines
  let (properties, lines) ← readBlock readProperty lines
  let (methods, lines) ← readBlock readMethod lines
  return (⟨ns, name, isInterface, baseType, interfaces, genericParameters, fields, properties,
    methods⟩, lines)

/-! ## Reading what is written -/

@[simp] theorem readText_cons (text : String) (rest : List String) :
    readText (text :: rest) = some (text, rest) := rfl

@[simp] theorem readFlag_cons (value : Bool) (rest : List String) :
    readFlag (flagLine value :: rest) = some (value, rest) := by
  have hne : flagLine false ≠ flagLine true := by decide
  cases value with
  | true => simp [readFlag]
  | false => simp [readFlag, hne]

@[simp] theorem readCount_cons (number : Nat) (rest : List String) :
    readCount (countLine number :: rest) = some (number, rest) := by
  have hnumber : Nat.ofDigitChars 10 (countLine number).toList 0 = number := by
    rw [countLine, Nat.toList_repr, Nat.ofDigitChars_ten_toDigits]
  simp [readCount, hnumber]

/-- As many entries as were written are read back. -/
theorem readEntries_flatMap {read : Reader α} {entry : α → List String} (h : Reads read entry)
    (entries : List α) (rest : List String) :
    readEntries read entries.length (entries.flatMap entry ++ rest) = some (entries, rest) := by
  induction entries with
  | nil => rfl
  | cons first others ih =>
      -- The first entry leaves the lines of the others in front of the rest.
      rw [List.flatMap_cons, List.append_assoc, List.length_cons, readEntries, h first]
      simp only [Option.bind_eq_bind, Option.bind_some, ih]
      rfl

theorem reads_block {read : Reader α} {entry : α → List String} (h : Reads read entry) :
    Reads (readBlock read) (block entry) := by
  intro entries rest
  rw [block, List.cons_append, readBlock, readCount_cons]
  exact readEntries_flatMap h entries rest

theorem reads_text : Reads readText fun text => [text] := fun _ _ => rfl

theorem reads_field : Reads readField fieldLines := fun _ _ => rfl

theorem reads_property : Reads readProperty propertyLines := by
  intro property rest
  simp [readProperty, propertyLines]

theorem reads_parameter : Reads readParameter parameterLines := by
  intro parameter rest
  simp [readParameter, parameterLines]

theorem reads_method : Reads readMethod methodLines := by
  intro method rest
  have hparameters := reads_block reads_parameter method.parameters rest
  simp [readMethod, methodLines, hparameters]

/-- A description is read back in front of any lines, its name and namespace as they are written. -/
theorem read_lines (description : Description) (rest : List String) :
    read (description.lines ++ rest) = some (description.normalized, rest) := by
  have hinterfaces := reads_block reads_text description.interfaces
  have hgenericParameters := reads_block reads_text description.genericParameters
  have hfields := reads_block reads_field description.fields
  have hproperties := reads_block reads_property description.properties
  have hmethods := reads_block reads_method description.methods
  simp only [read, lines, List.cons_append, List.nil_append, List.append_assoc, readText_cons,
    readFlag_cons, hinterfaces, hgenericParameters, hfields, hproperties, hmethods,
    Option.bind_eq_bind, Option.bind_some]
  rfl

/-! ## Prefixes -/

theorem lines_eq_of_normalized_eq {first second : Description}
    (h : first.normalized = second.normalized) : first.lines = second.lines := by
  simp only [normalized, Description.mk.injEq] at h
  obtain ⟨hns, hname, hinterface, hbase, hinterfaces, hparameters, hfields, hproperties,
    hmethods⟩ := h
  simp only [lines, hns, hname, hinterface, hbase, hinterfaces, hparameters, hfields, hproperties,
    hmethods]

/-- The lines of any description are read back in front of any lines. If the lines of one
description are a prefix of those of another, the two agree in all but the original spelling of
their names and namespaces, and their lines are the same. -/
theorem lines_delimit_themselves :
    (∀ (description : Description) (rest : List String),
      read (description.lines ++ rest) = some (description.normalized, rest)) ∧
    ∀ first second : Description, first.lines <+: second.lines →
      first.normalized = second.normalized ∧ first.lines = second.lines := by
  refine ⟨read_lines, fun first second hstart => ?_⟩
  obtain ⟨rest, hrest⟩ := hstart
  -- Both descriptions are read off the same lines, the first with a rest and the second without.
  have hfirst := read_lines first rest
  have hsecond := read_lines second []
  rw [List.append_nil] at hsecond
  rw [hrest, hsecond] at hfirst
  have hnormalized : second.normalized = first.normalized :=
    congrArg Prod.fst (Option.some.inj hfirst)
  exact ⟨hnormalized.symm, lines_eq_of_normalized_eq hnormalized.symm⟩

/-- A description with texts that look like numbers and truth values. -/
def misleading (ns name : String) : Description :=
  ⟨ns, name, false, "0", ["true"], [], [⟨"2", "false"⟩], [], [⟨"1", "0", [⟨"3", "", true⟩]⟩]⟩

/-- Two descriptions with the same lines differ in the spelling of their names and namespaces alone.
-/
theorem misleading_lines_delimit_themselves :
    (misleading "System" "List`1").lines <+: (misleading "SYSTEM" "List_1").lines ∧
      misleading "System" "List`1" ≠ misleading "SYSTEM" "List_1" ∧
      (misleading "System" "List`1").normalized = (misleading "SYSTEM" "List_1").normalized ∧
      (misleading "System" "List`1").lines = (misleading "SYSTEM" "List_1").lines := by
  have hstart : (misleading "System" "List`1").lines <+: (misleading "SYSTEM" "List_1").lines := by
    decide +kernel
  exact ⟨hstart, by decide, lines_delimit_themselves.2 _ _ hstart⟩

end TypeSurface.Description
